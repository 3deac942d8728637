import DraftLedger.Proofs.ApplyGate
import DraftLedger.Proofs.Refusals
import Mathlib.Data.List.Nodup

/-!
# Where the applies of a session stand

What an engine knows about the applies of a session lies in several places: the slot with its phase,
the session in the ledger, the calls that the database has not ended.  They agree after every move.

* `Engine.Standing` : nothing is under way for a session, or one apply has all of it.
* `Engine.Move.LeavesApplies` : the moves that have nothing to do with applies.
* `Engine.startApply_cases`, `Engine.Closed` : what the start and the end of an apply leave.
* `Engine.InStep` : the invariant.
* `Apply.Ending`, `Engine.ending?` : how applies come to their ends.
* `History.applies_in_step` : the places agree, and every end leaves its phase.
-/

set_option autoImplicit false

namespace DraftLedger

/-! ## Sessions that are held -/

namespace Ledger

variable {l l' : Ledger} {s : SessionId}

/-- The same sessions are held. -/
def SameHeld (l l' : Ledger) : Prop := ∀ t, l'.isFrozen t = l.isFrozen t

theorem SameHeld.refl (l : Ledger) : SameHeld l l := fun _ => rfl

theorem SameHeld.trans {l'' : Ledger} (h : SameHeld l l') (h' : SameHeld l' l'') :
    SameHeld l l'' := fun t => (h' t).trans (h t)

theorem Loaded.sameHeld (h : l.Loaded l') : SameHeld l l' := fun t =>
  congrArg Session.frozen (h.session t)

theorem sameHeld_written {x : Session} (same : x.frozen = l.isFrozen s) :
    SameHeld l (l.written s x) := by
  intro t
  rw [isFrozen, session_written]
  split
  · next here => rw [here, same]
  · rfl

theorem Thinned.sameHeld (h : Thinned s l l') : SameHeld l l' := by
  induction h with
  | refl => exact .refl l
  | drop x h free free' fewer ih => exact ih.trans (sameHeld_written (free'.trans free.symm))

theorem Forgets.sameHeld (h : Forgets s l l') : SameHeld l l' := by
  intro t
  by_cases same : t = s
  · subst same
    have free : (l.session t).frozen = false := h.nothing.2.1
    have gone : (l'.session t).frozen = false := by
      rw [session, h.gone]
      exact recovered_frozen l' t
    exact gone.trans free.symm
  · exact congrArg Session.frozen (h.keeps same).session

theorem Trims.sameHeld (h : Trims l l') : SameHeld l l' := by
  induction h with
  | refl => exact .refl _
  | thinned h => exact h.sameHeld
  | keyed free nonempty assigned => exact sameHeld_written rfl
  | forgets h => exact h.sameHeld
  | keyColumns table columns => exact .refl _
  | trans _ _ ih ih' => exact ih.trans ih'

theorem Quiet.sameHeld (h : Quiet l l') : SameHeld l l' := by
  obtain ⟨l₁, loaded, trims⟩ := h
  exact loaded.sameHeld.trans trims.sameHeld

theorem sameHeld_storage (l : Ledger) (refusal : Option String) :
    SameHeld l { l with store.refusal := refusal } := by
  intro t
  unfold isFrozen session
  cases present : l.sessions.get? t with
  | some x => rfl
  | none =>
    simp only
    rw [recovered_frozen, recovered_frozen]

theorem isFrozen_put (x : Session) (t : SessionId) :
    (l.put s x).isFrozen t = if t = s then x.frozen else l.isFrozen t := by
  unfold isFrozen
  rw [session_put]
  split <;> rfl

theorem isFrozen_unfreeze (l : Ledger) (s t : SessionId) :
    (l.unfreeze s).isFrozen t = if t = s then false else l.isFrozen t := by
  rcases l.unfreeze_cases s with ⟨absent, eq⟩ | ⟨x, present, eq | forgets⟩
  · rw [eq]
    split
    · next same =>
      have recovered : l.session s = l.recovered s := by rw [session, absent]
      rw [same, isFrozen, recovered, recovered_frozen]
    · rfl
  · rw [eq, isFrozen_put]
  · rw [forgets.sameHeld t, isFrozen_put]

theorem isFrozen_onStore (store : Store) (space : String) (t : SessionId) :
    (onStore store space).isFrozen t = false := by
  have recovered : (onStore store space).session t = (onStore store space).recovered t := rfl
  rw [isFrozen, recovered, recovered_frozen]

theorem sameHeld_clearApplied (l : Ledger) (s : SessionId) (ids : List ChangeId) :
    SameHeld l (l.clearApplied s ids).ledger := by
  rw [clearApplied_ledger]
  have loaded := (l.load_loaded s).sameHeld
  exact loaded.trans (sameHeld_written (loaded s).symm)

end Ledger

namespace Engine

variable {e e' : Engine} {m : Move} {s t : SessionId}

/-! ## Slots and calls -/

/-- The calls of a session that the database has not ended. -/
def callsOf (e : Engine) (s : SessionId) : List Apply.Call := e.calls.filter fun c => c.session = s

theorem mem_callsOf {call : Apply.Call} :
    call ∈ e.callsOf s ↔ call ∈ e.calls ∧ call.session = s := by
  simp [callsOf]

theorem slot_withSlot (e : Engine) (s t : SessionId) (slot : Apply.Slot) :
    (e.withSlot s slot).slot t = if t = s then slot else e.slot t := by
  unfold Engine.slot withSlot
  simp only [Dict.get?_insert]
  split <;> rfl

/-- The slot of a session after it has been given back by an apply: the phase in which the apply left
it, if it was this apply that had it. -/
theorem slot_release (e : Engine) (s t : SessionId) (id : ApplyId) (phase : Apply.Phase) :
    (e.release s id phase).slot t =
      if t = s ∧ (e.slot s).inFlight = some id then ⟨phase, none⟩ else e.slot t := by
  have before : ({ e with ledger := e.ledger.unfreeze s } : Engine).slot = e.slot := rfl
  unfold release
  simp only [before]
  by_cases mine : (e.slot s).inFlight = some id
  · simp only [mine, if_true, and_true]
    by_cases idle : phase = .idle
    · subst idle
      simp only [if_true]
      unfold Engine.slot
      simp only [Dict.get?_erase]
      split <;> rfl
    · simp only [idle, if_false]
      exact slot_withSlot _ s t _
  · simp only [mine, if_false, and_false]
    rfl

theorem isFrozen_release (e : Engine) (s t : SessionId) (id : ApplyId) (phase : Apply.Phase) :
    (e.release s id phase).isFrozen t = if t = s then false else e.isFrozen t := by
  have ledger := (e.release_spec s id phase).2.1
  unfold isFrozen
  rw [ledger]
  exact e.ledger.isFrozen_unfreeze s t

theorem hearing_slots {ε α : Type} (e : Engine) (step : Ledger.Step ε α) :
    (e.hearing step).slots = e.slots := by
  unfold hearing
  split <;> rfl

/-! ## Standing -/

/-- Where the applies of a session stand: nothing is under way, or one apply has the slot and the
session, and its call is the only one of the session. -/
inductive Standing (e : Engine) (s : SessionId) : Prop
  | idle (slot : (e.slot s).inFlight = none) (phase : e.phase s ≠ .applying)
      (free : e.isFrozen s = false) (none : e.callsOf s = [])
  | held (call : Apply.Call) (slot : e.slot s = ⟨.applying, some call.id⟩)
      (frozen : e.isFrozen s = true) (one : e.callsOf s = [call])

/-- Nothing is under way for the session. -/
structure Released (e : Engine) (s : SessionId) : Prop where
  idle : e.isApplying s = false
  free : e.isFrozen s = false
  none : e.callsOf s = []

theorem Standing.congr (h : e.Standing s) (slot : e'.slot s = e.slot s)
    (frozen : e'.isFrozen s = e.isFrozen s) (calls : e'.callsOf s = e.callsOf s) :
    e'.Standing s := by
  have phase : e'.phase s = e.phase s := congrArg Apply.Slot.phase slot
  cases h with
  | idle inFlight notApplying free none =>
    exact .idle (slot ▸ inFlight) (phase ▸ notApplying) (frozen ▸ free) (calls ▸ none)
  | held call held isHeld one =>
    exact .held call (slot.trans held) (frozen ▸ isHeld) (calls.trans one)

theorem Standing.free (h : e.Standing s) (idle : e.isApplying s = false) :
    e.isFrozen s = false ∧ e.callsOf s = [] := by
  cases h with
  | idle slot phase free none => exact ⟨free, none⟩
  | held call slot frozen one =>
    rw [isApplying, slot] at idle
    cases idle

theorem Standing.held_of_mem {call : Apply.Call} (h : e.Standing call.session)
    (mem : call ∈ e.calls) :
    e.slot call.session = ⟨.applying, some call.id⟩ ∧ e.isFrozen call.session = true ∧
      e.callsOf call.session = [call] := by
  have mine : call ∈ e.callsOf call.session := mem_callsOf.2 ⟨mem, rfl⟩
  cases h with
  | idle slot phase free none =>
    rw [none] at mine
    cases mine
  | held other slot frozen one =>
    rw [one, List.mem_singleton] at mine
    subst mine
    exact ⟨slot, frozen, one⟩

/-! ## Moves that have nothing to do with applies -/

/-- The move neither starts nor ends an apply. -/
def Move.LeavesApplies : Move → Prop
  | .startApply .. => False
  | .finishApply _ => False
  | .abandonApply _ => False
  | .reopen => False
  | _ => True

theorem perform_slots (e : Engine) (leaves : m.LeavesApplies) :
    (e.perform m).slots = e.slots := by
  cases m with
  | activate s => exact hearing_slots e _
  | deactivate s discard => exact hearing_slots e _
  | record s edit id now => exact hearing_slots e _
  | remove s id => exact hearing_slots e _
  | clearAll s => exact hearing_slots e _
  | clearTable s table => exact hearing_slots e _
  | assignPrimaryKey s id key => exact hearing_slots e _
  | detectKeys handle table =>
    unfold perform detectKeys
    simp only
    split
    · rfl
    · split <;> rfl
  | startApply request script id => exact leaves.elim
  | finishApply id => exact leaves.elim
  | abandonApply id => exact leaves.elim
  | reopen => exact leaves.elim
  | look s => rfl
  | generate s dialect scope => rfl
  | setKeyColumns table columns => rfl
  | subscribe only reaction => rfl
  | unsubscribe listener => rfl
  | reportColumns table columns => rfl
  | failNext error => rfl
  | storage refusal => rfl

theorem perform_sameHeld (e : Engine) (leaves : m.LeavesApplies) :
    (e.perform m).calls = e.calls ∧ e.ledger.SameHeld (e.perform m).ledger := by
  have turn := e.perform_turn m
  cases turn with
  | quiet aside ledger => exact ⟨aside.calls, ledger.sameHeld⟩
  | @staged s _ _ _ _ _ l changes _ aside loaded checked free active reading staged ledger unheard =>
    have written : l.SameHeld (l.written s { e.ledger.session s with changes }) :=
      Ledger.sameHeld_written (loaded.sameHeld s).symm
    exact ⟨aside.calls, (loaded.sameHeld.trans written).trans ledger.sameHeld⟩
  | sent sent => exact leaves.elim
  | dropped settings found ending =>
    rcases ending with ⟨rfl, -⟩ | rfl
    · exact leaves.elim
    · exact leaves.elim
  | committed => exact leaves.elim
  | storage refusal => exact ⟨rfl, e.ledger.sameHeld_storage refusal⟩
  | reopen => exact leaves.elim

end Engine

/-! ## Ends -/

/-- How an apply comes to its end: with an answer, or because nobody waits for it any more. -/
inductive Apply.Ending where
  | answered (answer : Except Error Apply.Outcome)
  | dropped

/-- The phase in which an apply that had its session leaves it. -/
def Apply.Ending.phase : Apply.Ending → Apply.Phase
  | .answered (.ok (.needsConfirmation _)) => .confirming
  | .answered (.ok (.completed (.committed _))) => .succeeded
  | .answered (.ok (.completed (.failed _))) => .failed
  | .answered (.error _) => .idle
  | .dropped => .idle

/-- The apply was turned away because another one has the session. -/
def Apply.Ending.IsTurnedAway (ending : Apply.Ending) : Prop :=
  ∃ s, ending = .answered (.error (.applyInProgress s))

theorem Apply.Ending.phase_ne_applying (ending : Apply.Ending) : ending.phase ≠ .applying := by
  unfold phase
  split <;> simp

namespace Engine

variable {e e' : Engine} {m : Move} {s t : SessionId}

/-- The session whose apply a move brings to its end, and how. -/
def ending? (e : Engine) : Move → Option (SessionId × Apply.Ending)
  | .startApply request script id =>
    match (e.startApply request script id).1 with
    | .ended answer => some (request.session, .answered answer)
    | .waiting _ => none
  | .finishApply id =>
    match e.call? id with
    | some call => some (call.session, .answered (.ok (.completed (e.settle call).1)))
    | none => none
  | .abandonApply id => (e.call? id).map fun call => (call.session, .dropped)
  | _ => none

/-! ### The start of an apply -/

/-- The engine after an apply has taken a session. -/
def claimed (e : Engine) (s : SessionId) (id : ApplyId) : Engine :=
  { e with
      ledger := (e.ledger.load s).put s { e.ledger.session s with frozen := true } }.withSlot s
    ⟨.applying, some id⟩

theorem claim_of_free (id : ApplyId) (free : e.isFrozen s = false) :
    e.claim s id = (.ok (), e.claimed s id) := by
  have free' : ((e.ledger.load s).session s).frozen = false := by
    rw [(e.ledger.load_loaded s).session]
    exact free
  simp only [claim, Ledger.freeze, free', Bool.false_eq_true, if_false]
  rw [(e.ledger.load_loaded s).session]
  rfl

theorem claim_of_frozen (id : ApplyId) (frozen : e.isFrozen s = true) :
    e.claim s id = (.error (.applyInProgress s), { e with ledger := e.ledger.load s }) := by
  have frozen' : ((e.ledger.load s).session s).frozen = true := by
    rw [(e.ledger.load_loaded s).session]
    exact frozen
  simp only [claim, Ledger.freeze, frozen', if_true]

theorem slot_claimed (e : Engine) (s t : SessionId) (id : ApplyId) :
    (e.claimed s id).slot t = if t = s then ⟨.applying, some id⟩ else e.slot t :=
  slot_withSlot _ s t _

theorem isFrozen_claimed (e : Engine) (s t : SessionId) (id : ApplyId) :
    (e.claimed s id).isFrozen t = if t = s then true else e.isFrozen t := by
  have loaded := (e.ledger.load_loaded s).sameHeld t
  have put := (e.ledger.load s).isFrozen_put (s := s) { e.ledger.session s with frozen := true } t
  rw [loaded] at put
  exact put

/-- What the start of an apply comes to. -/
inductive Start (e : Engine) (request : Apply.Request) (script : Script) (id : ApplyId) :
    Apply.Progress × Engine → Prop
  | busy (applying : e.isApplying request.session = true) :
      Start e request script id (.ended (.error (.applyInProgress request.session)), e)
  | asked (idle : e.isApplying request.session = false) :
      Start e request script id
        (.ended (.ok (.needsConfirmation .productionToken)), e.setPhase request.session .confirming)
  | refused (idle : e.isApplying request.session = false)
      (frozen : e.isFrozen request.session = true) :
      Start e request script id
        (.ended (.error (.applyInProgress request.session)),
          { e with ledger := e.ledger.load request.session })
  | ended (idle : e.isApplying request.session = false)
      (free : e.isFrozen request.session = false) (answer : Except Error Apply.Outcome)
      (checked : ∀ refusal, answer = .error refusal →
        e.checkCurrent request.session script = .error refusal) :
      Start e request script id
        (.ended answer, (e.claimed request.session id).release request.session id
          (Apply.Ending.answered answer).phase)
  | waiting (idle : e.isApplying request.session = false)
      (free : e.isFrozen request.session = false) :
      Start e request script id
        (.waiting ⟨id, request.session, script⟩,
          { e.claimed request.session id with
              database := e.database.submit script.statements
              calls := e.calls ++ [⟨id, request.session, script⟩] })

/-- A script is refused because it is stale or cannot be compiled, and never because the session is
being applied. -/
theorem checkCurrent_error {script : Script} {refusal : Error}
    (h : e.checkCurrent s script = .error refusal) :
    refusal = .staleScript s ∨ ∃ c ∈ e.ledger.changes s, c.Fault script.dialect refusal := by
  unfold checkCurrent at h
  split at h
  · next failed =>
    cases h
    obtain ⟨c, mem, fault⟩ := Script.compile_error failed
    exact .inr ⟨c, (Script.covered_sublist _ _).subset mem, fault⟩
  · split at h
    · cases h
    · cases h
      exact .inl rfl

theorem not_isTurnedAway_of_checked {script : Script} {answer : Except Error Apply.Outcome}
    (checked : ∀ refusal, answer = .error refusal → e.checkCurrent s script = .error refusal) :
    ¬ (Apply.Ending.answered answer).IsTurnedAway := by
  rintro ⟨t, eq⟩
  cases eq
  rcases checkCurrent_error (checked _ rfl) with eq | ⟨c, -, fault⟩
  · cases eq
  · cases fault

theorem startApply_cases (e : Engine) (request : Apply.Request) (script : Script) (id : ApplyId) :
    e.Start request script id (e.startApply request script id) := by
  unfold startApply
  simp only
  cases applying : e.isApplying request.session with
  | true => exact .busy applying
  | false =>
    simp only [Bool.false_eq_true, if_false]
    split
    · exact .asked applying
    cases frozen : e.isFrozen request.session with
    | true =>
      rw [claim_of_frozen id frozen]
      exact .refused applying frozen
    | false =>
      rw [claim_of_free id frozen]
      simp only
      split
      · next refusal stale =>
        refine .ended applying frozen (.error refusal) fun refusal' eq => ?_
        cases eq
        have ledger : (e.claimed request.session id).ledger =
          (e.ledger.load request.session).put request.session
            { e.ledger.session request.session with frozen := true } := rfl
        rw [← checkCurrent_claimed ledger rfl]
        exact stale
      · split
        · exact .ended applying frozen (.ok (.completed (.committed 0))) nofun
        · split
          · exact .ended applying frozen
              (.ok (.needsConfirmation (.fullRowMatches script.fullRowChanges))) nofun
          · exact .waiting applying frozen

/-! ### The end of an apply that waited -/

/-- A call has come to its end and left its session in a phase. -/
structure Closed (e : Engine) (call : Apply.Call) (phase : Apply.Phase) (e' : Engine) : Prop where
  slot : ∀ t, e'.slot t =
    if t = call.session ∧ (e.slot call.session).inFlight = some call.id then ⟨phase, none⟩
    else e.slot t
  frozen : ∀ t, e'.isFrozen t = if t = call.session then false else e.isFrozen t
  calls : e'.calls = e.calls.filter fun c => c.id ≠ call.id

theorem closed_release {call : Apply.Call} {phase : Apply.Phase} {e₁ : Engine}
    (slots : e₁.slots = e.slots) (held : e.ledger.SameHeld e₁.ledger)
    (calls : e₁.calls = e.calls.filter fun c => c.id ≠ call.id) :
    e.Closed call phase (e₁.release call.session call.id phase) := by
  have slot (t : SessionId) : e₁.slot t = e.slot t := by
    unfold Engine.slot
    rw [slots]
  refine ⟨fun t => ?_, fun t => ?_, ?_⟩
  · rw [slot_release, slot, slot]
  · have same : e₁.isFrozen t = e.isFrozen t := held t
    rw [isFrozen_release, same]
  · rw [(e₁.release_spec _ _ _).2.2.2.1, calls]

theorem settle_closed (e : Engine) (call : Apply.Call) :
    e.Closed call (Apply.Ending.answered (.ok (.completed (e.settle call).1))).phase
      (e.settle call).2 := by
  unfold settle
  simp only [Database.settle]
  split
  · exact closed_release rfl (.refl _) rfl
  · let e₁ : Engine := { e.withoutCall call.id with database := { e.database with failure := none } }
    let step := e.ledger.clearApplied call.session call.script.changeIds
    have aside : Aside e₁ (e₁.hearing step) := hearing_aside e₁ step
    have ledger : (e₁.hearing step).ledger = step.ledger := hearing_clearApplied e₁ _ _ _
    have held : e.ledger.SameHeld (e₁.hearing step).ledger :=
      ledger ▸ e.ledger.sameHeld_clearApplied call.session call.script.changeIds
    exact closed_release (hearing_slots e₁ step) held aside.calls

/-- A call that comes to its end is brought there by the end of its apply, or by giving it up. -/
theorem ending_closed {id : ApplyId} {call : Apply.Call} (found : e.call? id = some call)
    (ends : m = .finishApply id ∨ m = .abandonApply id) :
    ∃ ending : Apply.Ending, e.ending? m = some (call.session, ending) ∧ ¬ ending.IsTurnedAway ∧
      e.Closed call ending.phase (e.perform m) := by
  obtain rfl := call?_id found
  rcases ends with rfl | rfl
  · refine ⟨.answered (.ok (.completed (e.settle call).1)), ?_, ?_, ?_⟩
    · simp only [ending?, found]
    · rintro ⟨t, eq⟩
      cases eq
    · have same : e.perform (.finishApply call.id) = (e.settle call).2 := by
        simp only [perform, finishApply, found]
      rw [same]
      exact e.settle_closed call
  · refine ⟨.dropped, ?_, ?_, ?_⟩
    · simp only [ending?, found, Option.map_some]
    · rintro ⟨t, eq⟩
      cases eq
    · have same : e.perform (.abandonApply call.id) =
          (e.withoutCall call.id).release call.session call.id .idle := by
        simp only [perform, abandonApply, found]
      rw [same]
      exact closed_release rfl (.refl _) rfl

/-! ## The invariant -/

/-- All sessions stand in one of the two ways, and no two calls have one identifier. -/
structure InStep (e : Engine) : Prop where
  standing : ∀ s, e.Standing s
  distinct : (e.calls.map (·.id)).Nodup

theorem InStep.replaced (h : e.InStep) (here : e'.Standing s)
    (others : ∀ t, t ≠ s →
      e'.slot t = e.slot t ∧ e'.isFrozen t = e.isFrozen t ∧ e'.callsOf t = e.callsOf t)
    (distinct : (e'.calls.map (·.id)).Nodup) : e'.InStep where
  distinct := distinct
  standing t := by
    by_cases same : t = s
    · exact same ▸ here
    · obtain ⟨slot, frozen, calls⟩ := others t same
      exact (h.standing t).congr slot frozen calls

section Left

variable {phase : Apply.Phase} (slot : e.slot s = ⟨phase, none⟩) (free : e.isFrozen s = false)
  (uncalled : e.callsOf s = [])
include slot free uncalled

theorem standing_of_left (ended : phase ≠ .applying) : e.Standing s := by
  have left : e.phase s = phase := congrArg Apply.Slot.phase slot
  exact .idle (by rw [slot]) (left ▸ ended) free uncalled

theorem released_of_left : e.Released s ∧ e.phase s = phase := by
  refine ⟨⟨?_, free, uncalled⟩, congrArg Apply.Slot.phase slot⟩
  rw [isApplying, slot]
  rfl

end Left

namespace Closed

variable {call : Apply.Call} {phase : Apply.Phase}

theorem callsOf_of_ne (closed : e.Closed call phase e') (h : e.InStep) (mem : call ∈ e.calls)
    (other : t ≠ call.session) : e'.callsOf t = e.callsOf t := by
  unfold callsOf
  rw [closed.calls, List.filter_filter]
  refine List.filter_congr fun c hc => ?_
  by_cases here : c.session = t
  · have differ : c.id ≠ call.id := by
      intro same
      have eq : c = call := List.inj_on_of_nodup_map h.distinct hc mem same
      exact other (here ▸ congrArg Apply.Call.session eq)
    simp [here, differ]
  · simp [here]

theorem callsOf_eq_nil (closed : e.Closed call phase e')
    (one : e.callsOf call.session = [call]) : e'.callsOf call.session = [] := by
  refine List.eq_nil_iff_forall_not_mem.2 fun c hc => ?_
  obtain ⟨mem', session⟩ := mem_callsOf.1 hc
  rw [closed.calls] at mem'
  obtain ⟨before, differ⟩ := List.mem_filter.1 mem'
  have same : c ∈ e.callsOf call.session := mem_callsOf.2 ⟨before, session⟩
  rw [one, List.mem_singleton] at same
  simp [same] at differ

/-- A call that comes to its end leaves its session free, and the other sessions as they stood. -/
theorem inStep (closed : e.Closed call phase e') (h : e.InStep) (mem : call ∈ e.calls)
    (ended : phase ≠ .applying) :
    e'.InStep ∧ e'.Released call.session ∧ e'.phase call.session = phase := by
  obtain ⟨held, -, one⟩ := (h.standing call.session).held_of_mem mem
  have mine : (e.slot call.session).inFlight = some call.id := by rw [held]
  have slot : e'.slot call.session = ⟨phase, none⟩ := by
    rw [closed.slot, if_pos ⟨rfl, mine⟩]
  have free : e'.isFrozen call.session = false := by rw [closed.frozen, if_pos rfl]
  have uncalled := closed.callsOf_eq_nil one
  refine ⟨h.replaced (standing_of_left slot free uncalled ended) (fun t other => ⟨?_, ?_, ?_⟩) ?_,
    released_of_left slot free uncalled⟩
  · rw [closed.slot, if_neg fun same => other same.1]
  · rw [closed.frozen, if_neg other]
  · exact closed.callsOf_of_ne h mem other
  · rw [closed.calls]
    exact h.distinct.sublist (List.filter_sublist.map _)

end Closed

/-! ### What a start leaves -/

/-- What the end of an apply leaves: the phases as they were if it was turned away, else its session
free and in the phase of that end. -/
structure Leaves (e : Engine) (s : SessionId) (ending : Apply.Ending) (e' : Engine) : Prop where
  away : ending.IsTurnedAway → ∀ t, e'.phase t = e.phase t
  back : ¬ ending.IsTurnedAway → e'.Released s ∧ e'.phase s = ending.phase

theorem Leaves.of_back {ending : Apply.Ending} (mine : ¬ ending.IsTurnedAway)
    (back : e'.Released s ∧ e'.phase s = ending.phase) : e.Leaves s ending e' :=
  ⟨fun away => absurd away mine, fun _ => back⟩

namespace InStep

variable (h : e.InStep) (idle : e.isApplying s = false)
include h idle

theorem asked : (e.setPhase s .confirming).InStep ∧
    e.Leaves s (.answered (.ok (.needsConfirmation .productionToken))) (e.setPhase s .confirming) := by
  obtain ⟨free, uncalled⟩ := (h.standing s).free idle
  have inFlight : (e.slot s).inFlight = none := by simpa [isApplying] using idle
  have slot (t : SessionId) : (e.setPhase s .confirming).slot t =
      if t = s then ⟨.confirming, none⟩ else e.slot t := by
    rw [setPhase, slot_withSlot, ← inFlight]
  have here : (e.setPhase s .confirming).slot s = ⟨.confirming, none⟩ := by rw [slot, if_pos rfl]
  refine ⟨h.replaced (standing_of_left here free uncalled (by simp)) (fun t other => ⟨?_, rfl, rfl⟩)
    h.distinct, .of_back ?_ (released_of_left here free uncalled)⟩
  · rw [slot, if_neg other]
  · rintro ⟨t, eq⟩
    cases eq

theorem claimedAndReleased {ending : Apply.Ending} (id : ApplyId) (mine : ¬ ending.IsTurnedAway) :
    ((e.claimed s id).release s id ending.phase).InStep ∧
      e.Leaves s ending ((e.claimed s id).release s id ending.phase) := by
  obtain ⟨-, uncalled⟩ := (h.standing s).free idle
  have taken : ((e.claimed s id).slot s).inFlight = some id := by rw [slot_claimed, if_pos rfl]
  let e' := (e.claimed s id).release s id ending.phase
  have calls : e'.calls = e.calls := (release_spec _ _ _ _).2.2.2.1
  have callsOf_eq (t : SessionId) : e'.callsOf t = e.callsOf t := by
    unfold callsOf
    rw [calls]
  have slot : e'.slot s = ⟨ending.phase, none⟩ := by rw [slot_release, if_pos ⟨rfl, taken⟩]
  have free : e'.isFrozen s = false := by rw [isFrozen_release, if_pos rfl]
  have uncalled' : e'.callsOf s = [] := (callsOf_eq s).trans uncalled
  refine ⟨h.replaced (standing_of_left slot free uncalled' ending.phase_ne_applying)
    (fun t other => ⟨?_, ?_, callsOf_eq t⟩) (calls ▸ h.distinct),
    .of_back mine (released_of_left slot free uncalled')⟩
  · rw [slot_release, if_neg fun same => other same.1, slot_claimed, if_neg other]
  · rw [isFrozen_release, if_neg other, isFrozen_claimed, if_neg other]

theorem claimedAndSubmitted (id : ApplyId) (script : Script) (database : Database)
    (new : e.call? id = none) :
    { e.claimed s id with
        database
        calls := e.calls ++ [(⟨id, s, script⟩ : Apply.Call)] }.InStep := by
  obtain ⟨-, uncalled⟩ := (h.standing s).free idle
  let call : Apply.Call := ⟨id, s, script⟩
  let e' : Engine := { e.claimed s id with database, calls := e.calls ++ [call] }
  have slot (t : SessionId) : e'.slot t = if t = s then ⟨.applying, some id⟩ else e.slot t :=
    e.slot_claimed s t id
  have frozen (t : SessionId) : e'.isFrozen t = if t = s then true else e.isFrozen t :=
    e.isFrozen_claimed s t id
  have callsOf_eq (t : SessionId) :
      e'.callsOf t = e.callsOf t ++ if s = t then [call] else [] := by
    unfold callsOf
    rw [List.filter_append]
    by_cases same : s = t <;> simp [call, same]
  have absent : id ∉ e.calls.map (·.id) := by
    intro mem
    obtain ⟨c, hc, same⟩ := List.mem_map.1 mem
    have differs := List.find?_eq_none.1 new c hc
    simp [same] at differs
  have ids : e'.calls.map (·.id) = e.calls.map (·.id) ++ [id] := by simp [e', call]
  refine h.replaced (s := s) (.held call ?_ ?_ ?_) (fun t other => ⟨?_, ?_, ?_⟩) ?_
  · rw [slot, if_pos rfl]
  · rw [frozen, if_pos rfl]
  · rw [callsOf_eq, uncalled, if_pos rfl, List.nil_append]
  · rw [slot, if_neg other]
  · rw [frozen, if_neg other]
  · rw [callsOf_eq, if_neg (Ne.symm other), List.append_nil]
  · rw [ids]
    exact List.nodup_append'.2 ⟨h.distinct, List.nodup_singleton id, by simpa using absent⟩

end InStep

/-- The start of an apply leaves all sessions standing. If it is also the end, and another apply does
not have the session, the session is free and in the phase of that end. -/
theorem Start.inStep {request : Apply.Request} {script : Script} {id : ApplyId}
    {result : Apply.Progress × Engine} (start : e.Start request script id result) (h : e.InStep)
    (new : e.call? id = none) :
    result.2.InStep ∧ ∀ answer, result.1 = .ended answer →
      e.Leaves request.session (.answered answer) result.2 := by
  cases start with
  | busy applying =>
    refine ⟨h, fun answer eq => ?_⟩
    cases eq
    exact ⟨fun _ t => rfl, fun mine => absurd ⟨_, rfl⟩ mine⟩
  | asked idle =>
    obtain ⟨inStep, leaves⟩ := h.asked idle
    refine ⟨inStep, fun answer eq => ?_⟩
    cases eq
    exact leaves
  | refused idle frozen =>
    rw [((h.standing request.session).free idle).1] at frozen
    cases frozen
  | ended idle free answer checked =>
    obtain ⟨inStep, leaves⟩ := h.claimedAndReleased idle id (not_isTurnedAway_of_checked checked)
    refine ⟨inStep, fun answer' eq => ?_⟩
    cases eq
    exact leaves
  | waiting idle free =>
    exact ⟨h.claimedAndSubmitted idle id script _ new, fun answer eq => by cases eq⟩

theorem inStep_reopened (e : Engine) : e.reopened.InStep where
  distinct := List.nodup_nil
  standing s := by
    have slot : e.reopened.slot s = Apply.Slot.idle := rfl
    refine .idle (by rw [slot]; rfl) ?_ (Ledger.isFrozen_onStore _ _ s) rfl
    rw [phase, slot]
    simp [Apply.Slot.idle]

theorem inStep_opened {settings : Settings} {store : Store} {database : Database}
    (opened : Engine.opened settings store database = .ok e) : e.InStep := by
  obtain rfl := opened_eq opened
  exact inStep_reopened ⟨settings, Ledger.onStore store settings.storagePrefix, Audience.empty,
    database, Dict.empty, []⟩

/-- The places agree on whether an apply of the session is under way. -/
structure Agree (e : Engine) (s : SessionId) : Prop where
  slot : (∃ id, (e.slot s).inFlight = some id) ↔ e.isApplying s = true
  phase : e.phase s = .applying ↔ e.isApplying s = true
  frozen : e.isFrozen s = true ↔ e.isApplying s = true
  one : (e.callsOf s).length = 1 ↔ e.isApplying s = true
  none : e.isApplying s = false → e.callsOf s = []

theorem Standing.agree (h : e.Standing s) : e.Agree s := by
  cases h with
  | idle slot phase free none =>
    have idle : e.isApplying s = false := by
      rw [isApplying, slot]
      rfl
    constructor
    · simp [slot, idle]
    · simp [phase, idle]
    · simp [free, idle]
    · simp [none, idle]
    · exact fun _ => none
  | held call slot frozen one =>
    have applying : e.isApplying s = true := by
      rw [isApplying, slot]
      rfl
    have phase : e.phase s = .applying := congrArg Apply.Slot.phase slot
    constructor
    · simp [slot, applying]
    · simp [phase, applying]
    · simp [frozen, applying]
    · simp [one, applying]
    · intro idle
      rw [applying] at idle
      cases idle

end Engine

/-! ## Runs -/

namespace History

open Engine

variable {h : History} {m : Move}

/-- An apply is given an identifier that no apply has that waits. -/
def NewApply (h : History) : Move → Prop
  | .startApply _ _ id => h.engine.call? id = none
  | _ => True

/-- Every move leaves all sessions standing, and an end that it brings about leaves its phase. -/
theorem inStep_step (inStep : h.engine.InStep) (new : h.NewApply m) :
    (h.engine.perform m).InStep ∧ ∀ s ending, h.engine.ending? m = some (s, ending) →
      h.engine.Leaves s ending (h.engine.perform m) := by
  have ends {id : ApplyId} (ends : m = .finishApply id ∨ m = .abandonApply id) :
      (h.engine.perform m).InStep ∧ ∀ s ending, h.engine.ending? m = some (s, ending) →
        h.engine.Leaves s ending (h.engine.perform m) := by
    cases found : h.engine.call? id with
    | none =>
      have unchanged : h.engine.perform m = h.engine ∧ h.engine.ending? m = none := by
        rcases ends with rfl | rfl
        · exact ⟨by simp only [perform, finishApply, found], by simp only [ending?, found]⟩
        · exact ⟨by simp only [perform, abandonApply, found],
            by simp only [ending?, found, Option.map_none]⟩
      rw [unchanged.1, unchanged.2]
      exact ⟨inStep, fun s ending eq => by cases eq⟩
    | some call =>
      obtain ⟨ending, eq, mine, closed⟩ := ending_closed found ends
      obtain ⟨inStep', released, phase⟩ :=
        closed.inStep inStep (mem_of_call? found) ending.phase_ne_applying
      refine ⟨inStep', fun s ending' eq' => ?_⟩
      rw [eq] at eq'
      cases eq'
      exact ⟨fun away => absurd away mine, fun _ => ⟨released, phase⟩⟩
  have leaves (leaves : m.LeavesApplies) (none : h.engine.ending? m = none) :
      (h.engine.perform m).InStep ∧ ∀ s ending, h.engine.ending? m = some (s, ending) →
        h.engine.Leaves s ending (h.engine.perform m) := by
    have slots := h.engine.perform_slots leaves
    obtain ⟨calls, held⟩ := h.engine.perform_sameHeld leaves
    refine ⟨⟨fun t => (inStep.standing t).congr ?_ (held t) ?_, calls ▸ inStep.distinct⟩, ?_⟩
    · unfold Engine.slot
      rw [slots]
    · unfold callsOf
      rw [calls]
    · rw [none]
      exact fun s ending eq => by cases eq
  cases m with
  | startApply request script id =>
    obtain ⟨inStep', ended⟩ := (h.engine.startApply_cases request script id).inStep inStep new
    refine ⟨inStep', fun s ending eq => ?_⟩
    simp only [ending?] at eq
    split at eq
    · next answer found =>
      cases eq
      exact ended answer found
    · cases eq
  | finishApply id => exact ends (.inl rfl)
  | abandonApply id => exact ends (.inr rfl)
  | reopen => exact ⟨h.engine.inStep_reopened, fun s ending eq => by cases eq⟩
  | _ => exact leaves trivial rfl

theorem inStep_reached {settings : Settings} {store : Store} {database : Database} {e : Engine}
    {issued : List ChangeId} (opened : Engine.opened settings store database = .ok e)
    (reaches : Reaches NewApply (start e issued) h) : h.engine.InStep :=
  reaches.invariant (inStep_opened opened) fun _ _ inStep new => (inStep_step inStep new).1

/-- In every run the places agree for every session. An apply that is turned away because another one
has its session changes no phase; every other end gives the session back and leaves the phase of that
end. -/
theorem applies_in_step {settings : Settings} {store : Store} {database : Database} {e : Engine}
    {issued : List ChangeId} (opened : Engine.opened settings store database = .ok e)
    (reaches : Reaches NewApply (start e issued) h) :
    (∀ s, h.engine.Agree s) ∧
      ∀ m, h.NewApply m → ∀ s ending, h.engine.ending? m = some (s, ending) →
        h.engine.Leaves s ending (h.engine.perform m) := by
  have inStep := inStep_reached opened reaches
  exact ⟨fun s => (inStep.standing s).agree, fun m new => (inStep_step inStep new).2⟩

end History

namespace Sample

open Engine History

theorem scripted_newApply : Reaches NewApply (start engine []) scripted :=
  .step _ (.step _ (.step _ .refl trivial) trivial) trivial

/-- While the script of the renaming is with the database, all places say so, and after its commit the
session is free again. -/
theorem applies_in_step_renamed :
    ∃ script, let h := scripted.step (.startApply approval script tenth)
      h.engine.Agree desk ∧ h.engine.phase desk = .applying ∧
        (h.step (.finishApply tenth)).engine.Released desk ∧
        (h.step (.finishApply tenth)).engine.phase desk = .succeeded := by
  obtain ⟨script, given, nonempty, -, current, -⟩ := scripted_compiles
  obtain ⟨e', eq, database, calls, -⟩ := sent_of_gates (e := scripted.engine) approval tenth rfl
    rfl rfl current nonempty fun _ => rfl
  let h := scripted.step (.startApply approval script tenth)
  have sent : h.engine = e' := eq
  let call : Apply.Call := ⟨tenth, desk, script⟩
  have only : h.engine.calls = [call] := by
    rw [sent, calls]
    rfl
  have found : h.engine.call? tenth = some call := by
    rw [call?, only]
    rfl
  have reached : Reaches NewApply (start engine []) h := .step _ scripted_newApply rfl
  obtain ⟨agree, ends⟩ := applies_in_step engine_opened reached
  have one : (h.engine.callsOf desk).length = 1 := by
    rw [callsOf, only]
    rfl
  have applying := (agree desk).phase.2 ((agree desk).one.1 one)
  have success : h.engine.database.failure = none := by
    rw [sent, database]
    rfl
  obtain ⟨answer, -⟩ := h.engine.settle_committed call success
  have ending : h.engine.ending? (.finishApply tenth) =
      some (desk, .answered (.ok (.completed (.committed script.statementCount)))) := by
    simp only [ending?, found, answer, call]
  obtain ⟨released, phase⟩ := (ends (.finishApply tenth) trivial desk _ ending).back (by
    rintro ⟨s, eq⟩
    cases eq)
  exact ⟨script, agree desk, applying, released, phase⟩

end Sample

end DraftLedger
