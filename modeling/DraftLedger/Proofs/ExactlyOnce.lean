import DraftLedger.Proofs.ApplyGate

/-!
# Every change is committed once at most

As long as commits are written and nobody gives up an apply that waits, a change that a committed
transaction covered is gone, in memory and in the store, and no other transaction covers it.

* `Ledger.Has` : the identifiers of a session, in memory or in the store.
* `Ledger.Sheds` : no session gets anything that it did not have.
* `Engine.Turn.sheds` : moves add nothing but the changes that are recorded.
* `Ledger.Distinct` : every change is in one session, and none of those that are gone.
* `History.Orderly`, `History.Once` : the moves that are allowed, and the invariant.
* `History.committed_once` : every change is committed once at most.
-/

set_option autoImplicit false

namespace DraftLedger

/-! ## Identifiers in lists of changes -/

theorem ids_of_readsAs {changes read : List Change} (h : List.Forall₂ Change.ReadsAs changes read) :
    read.map (·.id) = changes.map (·.id) := by
  induction h with
  | nil => rfl
  | cons first _ ih => simp only [List.map_cons, first.spec.1, ih]

theorem stage_ids {changes result : List Change} {incoming : Change} {outcome : Outcome}
    (staged : stage changes incoming = .ok (result, outcome)) :
    (result.map (·.id)).Sublist (changes.map (·.id) ++ [incoming.id]) := by
  obtain ⟨address, -, ⟨rfl, -⟩ | ⟨noInsertion, before, existing, after, taken, rfl, -, -, takes,
    rfl⟩⟩ := stage_cases staged
  · simp
  · refine List.Sublist.trans ?_ (List.sublist_append_left _ _)
    cases taken with
    | none => simp
    | some changed =>
      have same := (Change.takeIn_identity takes noInsertion).1
      simp [same]

theorem withAssignedKey_ids {changes result : List Change} {id : ChangeId} {key : Row}
    (assigned : Ledger.withAssignedKey changes id key = .ok result) :
    result.map (·.id) = changes.map (·.id) := by
  unfold Ledger.withAssignedKey at assigned
  split at assigned
  · cases assigned
  next before found after located =>
  obtain ⟨rfl, -⟩ := Ledger.locate?_eq_some located
  split at assigned
  · cases assigned
  split at assigned
  · cases assigned
  cases assigned
  simp

/-! ## Identifiers in a ledger -/

namespace Ledger

variable {l l' l'' : Ledger} {s t : SessionId}

/-- The identifiers of the changes of a session. -/
def ids (l : Ledger) (s : SessionId) : List ChangeId := (l.changes s).map (·.id)

/-- The identifiers of the changes that the store has of a session. -/
def keptIds (l : Ledger) (s : SessionId) : List ChangeId := (l.keptChanges s).map (·.id)

/-- The identifiers that a session has in memory, and those that it has in the store. -/
inductive Has (l : Ledger) (s : SessionId) : List ChangeId → Prop
  | memory : l.Has s (l.ids s)
  | store : l.Has s (l.keptIds s)

/-- Every session has only what it had before, in memory or in the store. -/
def Sheds (l l' : Ledger) : Prop :=
  ∀ s found, l'.Has s found → ∃ had, l.Has s had ∧ found.Sublist had

theorem Sheds.of_both (memory : ∀ s, ∃ had, l.Has s had ∧ (l'.ids s).Sublist had)
    (store : ∀ s, ∃ had, l.Has s had ∧ (l'.keptIds s).Sublist had) : Sheds l l' := by
  rintro s _ (_ | _)
  · exact memory s
  · exact store s

theorem Sheds.refl (l : Ledger) : Sheds l l := fun _ _ has => ⟨_, has, .refl _⟩

theorem Sheds.trans (h : Sheds l l') (h' : Sheds l' l'') : Sheds l l'' := by
  intro s found has
  obtain ⟨_, had, fewer⟩ := h' s found has
  obtain ⟨_, had', fewer'⟩ := h s _ had
  exact ⟨_, had', fewer.trans fewer'⟩

theorem Keeps.ids (h : Keeps t l l') : l'.ids t = l.ids t := by
  simp only [Ledger.ids, Ledger.changes, h.session]

theorem Keeps.keptIds (h : Keeps t l l') : l'.keptIds t = l.keptIds t := by
  simp only [Ledger.keptIds, Ledger.keptChanges, h.kept]

theorem Keeps.has {found : List ChangeId} (h : Keeps t l l') (has : l'.Has t found) :
    l.Has t found := by
  cases has with
  | memory => exact h.ids ▸ .memory
  | store => exact h.keptIds ▸ .store

theorem ids_put (x : Session) : (l.put s x).ids s = x.changes.map (·.id) := by
  rw [ids, changes, session_put, if_pos rfl]

theorem ids_written (x : Session) : (l.written s x).ids s = x.changes.map (·.id) := by
  rw [ids, changes, session_written, if_pos rfl]

theorem recovered_ids (l : Ledger) (s : SessionId) :
    ((l.recovered s).changes.map (·.id)).Sublist (l.keptIds s) := by
  rw [recovered_changes]
  split
  · exact .refl _
  · exact List.nil_sublist _

/-- A session that has been written has the same identifiers in the store, if the store answers. -/
theorem keptIds_written (x : Session) :
    (l.written s x).keptIds s = l.keptIds s ∧ l.store.refusal ≠ none ∨
      ((l.written s x).keptIds s).Sublist (x.changes.map (·.id)) := by
  cases kept : (l.written s x).kept? s with
  | none => exact .inr (by simp [keptIds, keptChanges, kept])
  | some d =>
    rcases kept?_written x kept with ⟨refused, before⟩ | ⟨-, -, read⟩
    · exact .inl ⟨by simp only [keptIds, keptChanges, kept, before], refused⟩
    · exact .inr (by simp [keptIds, keptChanges, kept, ids_of_readsAs read])

theorem Has.of_written {x : Session} {found : List ChangeId} (has : (l.written s x).Has t found) :
    l.Has t found ∨ t = s ∧ found.Sublist (x.changes.map (·.id)) := by
  by_cases same : t = s
  · subst same
    cases has with
    | memory => exact .inr ⟨rfl, ids_written x ▸ .refl _⟩
    | store =>
      rcases keptIds_written (l := l) (s := t) x with ⟨before, -⟩ | written
      · exact .inl (before ▸ .store)
      · exact .inr ⟨rfl, written⟩
  · exact .inl ((keeps_written x same).has has)

/-- With a store that answers, a session that has been written has nothing else. -/
theorem Has.of_written_answering {x : Session} {found : List ChangeId}
    (answers : l.store.refusal = none) (has : (l.written s x).Has s found) :
    found.Sublist (x.changes.map (·.id)) := by
  cases has with
  | memory => exact ids_written x ▸ .refl _
  | store =>
    rcases keptIds_written (l := l) (s := s) x with ⟨-, refused⟩ | written
    · exact absurd answers refused
    · exact written

/-! ### What moves shed -/

theorem Loaded.sheds (h : l.Loaded l') : Sheds l l' := fun s _ has =>
  ⟨_, (h.keeps s).has has, .refl _⟩

theorem sheds_written {x : Session} (fewer : (x.changes.map (·.id)).Sublist (l.ids s)) :
    Sheds l (l.written s x) := by
  intro t found has
  rcases has.of_written with had | ⟨rfl, written⟩
  · exact ⟨_, had, .refl _⟩
  · exact ⟨_, .memory, written.trans fewer⟩

theorem sheds_put {x : Session} (same : x.changes = l.changes s) : Sheds l (l.put s x) := by
  refine Sheds.of_both (fun t => ⟨_, .memory, ?_⟩) fun t => ⟨_, .store, .refl _⟩
  by_cases here : t = s
  · subst here
    rw [ids_put, same]
    exact .refl _
  · rw [(keeps_put x here).ids]

/-- A session that is forgotten has what the store has of it. -/
theorem Forgets.sheds (h : Forgets s l l') : Sheds l l' := by
  have kept (t : SessionId) : l'.keptIds t = l.keptIds t := by
    rw [keptIds, keptIds, keptChanges_congr h.space h.store]
  refine Sheds.of_both (fun t => ?_) fun t => ⟨_, .store, kept t ▸ .refl _⟩
  by_cases same : t = s
  · subst same
    refine ⟨_, .store, kept t ▸ ?_⟩
    rw [ids, changes, session, h.gone]
    exact l'.recovered_ids t
  · exact ⟨_, .memory, (h.keeps same).ids ▸ .refl _⟩

theorem sheds_unfreeze (l : Ledger) (s : SessionId) : Sheds l (l.unfreeze s) :=
  unfreeze_keeps (.refl l)
    (fun _ present => sheds_put (by simp [changes, session, present]))
    fun _ _ forgets still => still.trans forgets.sheds

theorem Thinned.sheds (h : Thinned s l l') : Sheds l l' := by
  induction h with
  | refl => exact .refl l
  | drop x _ free free' fewer ih => exact ih.trans (sheds_written (fewer.map _))

theorem Trims.sheds (h : Trims l l') : Sheds l l' := by
  induction h with
  | refl => exact .refl _
  | thinned h => exact h.sheds
  | keyed free nonempty assigned => exact sheds_written (withAssignedKey_ids assigned ▸ .refl _)
  | forgets h => exact h.sheds
  | keyColumns table columns =>
    exact Sheds.of_both (fun _ => ⟨_, .memory, .refl _⟩) fun _ => ⟨_, .store, .refl _⟩
  | trans _ _ ih ih' => exact ih.trans ih'

theorem Quiet.sheds (h : Quiet l l') : Sheds l l' := by
  obtain ⟨l₁, loaded, trims⟩ := h
  exact loaded.sheds.trans trims.sheds

theorem sheds_clearApplied (l : Ledger) (s : SessionId) (covered : List ChangeId) :
    Sheds l (l.clearApplied s covered).ledger := by
  have loaded := l.load_loaded s
  rw [clearApplied_ledger]
  refine loaded.sheds.trans (sheds_written ?_)
  rw [ids, loaded.changes]
  exact List.filter_sublist.map _

/-- While the store does not answer, a session that is not in memory seems to have nothing. -/
theorem sheds_storage (l : Ledger) (refusal : Option String) :
    Sheds l { l with store.refusal := refusal } := by
  refine Sheds.of_both (fun t => ?_) fun t => ⟨_, .store, .refl _⟩
  cases present : l.sessions.get? t with
  | some x => exact ⟨_, .memory, by simp [ids, changes, session, present]⟩
  | none =>
    refine ⟨_, .store, ?_⟩
    simp only [ids, changes, session, present]
    exact recovered_ids _ t

theorem sheds_onStore (l : Ledger) : Sheds l (Ledger.onStore l.store l.space) :=
  Sheds.of_both (fun t => ⟨_, .store, recovered_ids _ t⟩) fun _ => ⟨_, .store, .refl _⟩

/-! ### Distinct identifiers -/

/-- No change is held twice, and those that are gone are not held at all. -/
structure Distinct (l : Ledger) (gone : List ChangeId) : Prop where
  nodup : ∀ s found, l.Has s found → found.Nodup
  apart : ∀ s t, s ≠ t → ∀ found found', l.Has s found → l.Has t found' → found.Disjoint found'
  away : ∀ s found, l.Has s found → gone.Disjoint found

namespace Distinct

variable {gone covered : List ChangeId}

theorem sheds (h : l.Distinct gone) (sheds : Sheds l l') : l'.Distinct gone where
  nodup s found has := by
    obtain ⟨_, had, fewer⟩ := sheds s found has
    exact (h.nodup s _ had).sublist fewer
  apart s t other found found' has has' := by
    obtain ⟨_, had, fewer⟩ := sheds s found has
    obtain ⟨_, had', fewer'⟩ := sheds t found' has'
    exact fun id hid hid' => h.apart s t other _ _ had had' (fewer.subset hid) (fewer'.subset hid')
  away s found has := by
    obtain ⟨_, had, fewer⟩ := sheds s found has
    exact fun id hid hid' => h.away s _ had hid (fewer.subset hid')

theorem written (h : l.Distinct gone) {x : Session} {id : ChangeId}
    (grown : (x.changes.map (·.id)).Sublist (l.ids s ++ [id]))
    (new : ∀ t found, l.Has t found → id ∉ found) (new' : id ∉ gone) :
    (l.written s x).Distinct gone := by
  have parts {t : SessionId} {found : List ChangeId} (has : (l.written s x).Has t found) :
      ∃ had, l.Has t had ∧ ∀ i ∈ found, i ∈ had ∨ t = s ∧ i = id := by
    rcases has.of_written with had | ⟨rfl, written⟩
    · exact ⟨_, had, fun i hi => .inl hi⟩
    · refine ⟨_, .memory, fun i hi => ?_⟩
      rcases List.mem_append.1 (grown.subset (written.subset hi)) with hi | hi
      · exact .inl hi
      · exact .inr ⟨rfl, List.mem_singleton.1 hi⟩
  refine ⟨fun t found has => ?_, fun t u other found found' has has' => ?_, fun t found has => ?_⟩
  · rcases has.of_written with had | ⟨rfl, written⟩
    · exact h.nodup t _ had
    · refine List.Nodup.sublist (written.trans grown) ?_
      refine (h.nodup t _ .memory).append (List.nodup_singleton id) ?_
      exact List.disjoint_singleton.2 (new t _ .memory)
  · obtain ⟨_, had, part⟩ := parts has
    obtain ⟨_, had', part'⟩ := parts has'
    intro i hi hi'
    rcases part i hi with hi | ⟨rfl, rfl⟩ <;> rcases part' i hi' with hi' | ⟨rfl, eq⟩
    · exact h.apart t u other _ _ had had' hi hi'
    · exact new t _ had (eq ▸ hi)
    · exact new u _ had' hi'
    · exact other rfl
  · obtain ⟨_, had, part⟩ := parts has
    intro i hi hi'
    rcases part i hi' with hi' | ⟨-, rfl⟩
    · exact h.away t _ had hi hi'
    · exact new' hi

/-- When the changes of a transaction are taken out, and that is written, they are gone. -/
theorem clearApplied (h : l.Distinct gone) (answers : l.store.refusal = none)
    (held : covered ⊆ l.ids s) : (l.clearApplied s covered).ledger.Distinct (gone ++ covered) := by
  have sheds := l.sheds_clearApplied s covered
  have still := h.sheds sheds
  refine ⟨still.nodup, still.apart, fun t found has => ?_⟩
  refine List.disjoint_append_left.2 ⟨still.away t found has, fun id hid hid' => ?_⟩
  by_cases same : t = s
  · subst same
    rw [clearApplied_ledger] at has
    have answers' : (l.load t).store.refusal = none := (l.load_loaded t).store ▸ answers
    have left := (has.of_written_answering answers').subset hid'
    obtain ⟨c, hc, rfl⟩ := List.mem_map.1 left
    simpa [hid] using (List.mem_filter.1 hc).2
  · obtain ⟨_, had, fewer⟩ := sheds t found has
    exact h.apart t s same _ _ had .memory (fewer.subset hid') (held hid)

end Distinct

end Ledger

namespace Engine

variable {e e' : Engine} {m : Move}

/-- No move gives a session anything but the change that is recorded. -/
theorem Turn.sheds (turn : e.Turn m e') (space : e.ledger.space = e.settings.storagePrefix) :
    e.ledger.Sheds e'.ledger ∨
      ∃ s edit id now l x, m = .record s edit id now ∧ e.ledger.Loaded l ∧
        (x.changes.map (·.id)).Sublist (e.ledger.ids s ++ [id]) ∧
        (l.written s x).Sheds e'.ledger := by
  cases turn with
  | quiet aside ledger => exact .inl ledger.sheds
  | @staged s edit id now _ _ l changes _ aside loaded checked free active reading staged ledger unheard =>
    exact .inr ⟨s, edit, id, now, l, { e.ledger.session s with changes }, rfl, loaded,
      stage_ids staged, ledger.sheds⟩
  | @sent request _ _ _ sent =>
    have loaded := e.ledger.load_loaded request.session
    have held : Ledger.Sheds _ ((e.ledger.load request.session).put request.session
        { e.ledger.session request.session with frozen := true }) :=
      Ledger.sheds_put (loaded.changes request.session).symm
    exact .inl (sent.ledger ▸ loaded.sheds.trans held)
  | dropped settings found ending ledger => exact .inl (ledger ▸ e.ledger.sheds_unfreeze _)
  | committed settings found success ledger =>
    have cleared := e.ledger.sheds_clearApplied
    exact .inl (ledger ▸ (cleared _ _).trans (Ledger.sheds_unfreeze _ _))
  | storage refusal => exact .inl (e.ledger.sheds_storage refusal)
  | reopen =>
    have back := e.ledger.sheds_onStore
    rw [space] at back
    exact .inl back

/-- An apply that waits after a move waited before, or the move sent its script. -/
theorem Turn.call_cases (turn : e.Turn m e') {call : Apply.Call} (after : call ∈ e'.calls) :
    call ∈ e.calls ∨
      ∃ request script id, m = .startApply request script id ∧ call = ⟨id, request.session, script⟩ ∧
        e.Sent request script id e' := by
  cases turn with
  | quiet aside => exact .inl (aside.calls ▸ after)
  | staged aside => exact .inl (aside.calls ▸ after)
  | @sent request script id _ sent =>
    rw [sent.calls, List.mem_append, List.mem_singleton] at after
    rcases after with before | new
    · exact .inl before
    · exact .inr ⟨request, script, id, rfl, new, sent⟩
  | dropped settings found ending ledger transactions calls =>
    exact .inl (List.mem_of_mem_filter (calls ▸ after))
  | committed settings found success ledger transactions calls =>
    exact .inl (List.mem_of_mem_filter (calls ▸ after))
  | storage refusal => exact .inl after
  | reopen => exact absurd after List.not_mem_nil

/-- What is committed is what an apply that waits covers, and its changes are taken out. -/
theorem commits_cases (e : Engine) (m : Move) :
    e.commits m = [] ∨ ∃ call ∈ e.calls, m = .finishApply call.id ∧
      e.commits m = [call.script.changeIds] ∧
      (e.perform m).ledger =
        (e.ledger.clearApplied call.session call.script.changeIds).ledger.unfreeze call.session := by
  cases m with
  | finishApply id =>
    cases found : e.call? id with
    | none => exact .inl (by simp [commits, found])
    | some call =>
      cases ending : e.database.failure with
      | some error =>
        obtain ⟨answer, -⟩ := e.settle_failed call ending
        exact .inl (by simp [commits, finishApply, found, answer])
      | none =>
        obtain ⟨answer, -, ledger, -⟩ := e.settle_committed call ending
        obtain rfl := call?_id found
        refine .inr ⟨call, mem_of_call? found, rfl, ?_, ?_⟩
        · simp [commits, finishApply, found, answer]
        · simp only [perform, finishApply, found]
          exact ledger
  | _ => exact .inl rfl

end Engine

/-! ## Orderly runs -/

namespace History

open Engine

variable {h : History} {m : Move}

/-- A commit is written to a store that answers, an apply that waits is neither given up nor
forgotten, and a script that is applied was given to the same session. -/
def Orderly (h : History) (m : Move) : Prop :=
  h.Fresh m ∧
    match m with
    | .finishApply _ => h.engine.commits m ≠ [] → h.engine.ledger.store.refusal = none
    | .abandonApply id => h.engine.call? id = none
    | .reopen => h.engine.calls = []
    | .startApply request script _ => (request.session, script) ∈ h.scripts
    | _ => True

/-- All changes are told apart, waiting applies cover changes of their sessions, and what has been
committed is gone. -/
structure Once (h : History) : Prop where
  sound : h.Sound
  distinct : h.engine.ledger.Distinct h.committed.flatten
  waiting : ∀ call ∈ h.engine.calls,
    call.script.changeIds.Sublist (h.engine.ledger.ids call.session)
  committed : h.committed.flatten.Nodup
  issued : h.committed.flatten ⊆ h.issued

theorem Sound.issued_of_has (sound : h.Sound) {s : SessionId} {found : List ChangeId}
    (has : h.engine.ledger.Has s found) : found ⊆ h.issued := by
  obtain ⟨full, throughout, -⟩ := sound.known
  intro id hid
  cases has with
  | memory =>
    obtain ⟨c, hc, rfl⟩ := List.mem_map.1 hid
    exact (throughout.changes s c hc).1
  | store =>
    obtain ⟨c, hc, rfl⟩ := List.mem_map.1 hid
    exact (throughout.store s c hc).1

theorem Sound.covers (sound : h.Sound) {s : SessionId} {script : Script}
    (given : (s, script) ∈ h.scripts) (current : h.engine.checkCurrent s script = .ok ())
    (noCollision : Script.CollisionFree
      (h.hashed ++ h.engine.compileInputs s script.dialect script.scope)) :
    script.changeIds.Sublist (h.engine.ledger.ids s) := by
  obtain ⟨now, compiled, changeIds, -⟩ := sound.current given current noCollision
  rw [changeIds, (Script.compiles_of_compile compiled).changeIds]
  exact (Script.covered_sublist _ _).map _

/-- A change is staged under an identifier that no change has, and none gets back one that is gone. -/
theorem Sound.distinct_step {gone : List ChangeId} (sound : h.Sound)
    (distinct : h.engine.ledger.Distinct gone) (issued : gone ⊆ h.issued) (fresh : h.Fresh m) :
    (h.step m).engine.ledger.Distinct gone := by
  have turn := h.engine.perform_turn m
  rcases turn.sheds sound.space with sheds | ⟨s, edit, id, now, l, x, rfl, loaded, grown, sheds⟩
  · exact distinct.sheds sheds
  · have held := distinct.sheds loaded.sheds
    rw [← (loaded.keeps s).ids] at grown
    refine (held.written grown (fun t found has hid => ?_) fun hid => ?_).sheds sheds
    · exact fresh.1 (sound.issued_of_has ((loaded.keeps t).has has) hid)
    · exact fresh.1 (issued hid)

theorem Once.waiting_step (once : h.Once) (orderly : h.Orderly m)
    (noCollision : Script.CollisionFree (h.step m).hashed) (call : Apply.Call)
    (after : call ∈ (h.step m).engine.calls) :
    call.script.changeIds.Sublist ((h.step m).engine.ledger.ids call.session) := by
  have turn := h.engine.perform_turn m
  rcases turn.call_cases after with
    before | ⟨request, script, id, rfl, rfl, sent⟩
  · have keeps : h.engine.ledger.Keeps call.session (h.step m).engine.ledger :=
      turn.waiting once.sound.coherent before after
    rw [keeps.ids]
    exact once.waiting call before
  · have same : (h.step (.startApply request script id)).engine.ledger.ids request.session =
        h.engine.ledger.ids request.session := by
      rw [show (h.step (.startApply request script id)).engine.ledger = _ from sent.ledger,
        Ledger.ids_put]
      rfl
    rw [same]
    exact once.sound.covers orderly.2 sent.current (hashed_of_sent sent ▸ noCollision)

theorem Once.step (once : h.Once) (orderly : h.Orderly m)
    (noCollision : Script.CollisionFree (h.step m).hashed) : (h.step m).Once := by
  have sound := once.sound.step orderly.1
  have waiting := once.waiting_step orderly noCollision
  have distinct := once.sound.distinct_step once.distinct once.issued orderly.1
  rcases h.engine.commits_cases m with none | ⟨call, mem, rfl, some, ledger⟩
  · have same : (h.step m).committed.flatten = h.committed.flatten := by simp [History.step, none]
    exact ⟨sound, same ▸ distinct, waiting, same ▸ once.committed,
      same ▸ fun id hid => List.mem_append_left _ (once.issued hid)⟩
  · have more : (h.step (.finishApply call.id)).committed.flatten =
        h.committed.flatten ++ call.script.changeIds := by simp [History.step, some]
    have held := once.waiting call mem
    have answers := orderly.2 (by simp [some])
    refine ⟨sound, more ▸ ?_, waiting, more ▸ ?_, more ▸ ?_⟩
    · have cleared := once.distinct.clearApplied answers held.subset
      rw [show (h.step (.finishApply call.id)).engine.ledger = _ from ledger]
      exact cleared.sheds (Ledger.sheds_unfreeze _ _)
    · exact once.committed.append ((once.distinct.nodup _ _ .memory).sublist held)
        fun id hid hid' => once.distinct.away _ _ .memory hid (held.subset hid')
    · intro id hid
      refine List.mem_append_left _ ?_
      rcases List.mem_append.1 hid with before | covered
      · exact once.issued before
      · exact once.sound.issued_of_has .memory (held.subset covered)

theorem distinct_start {settings : Settings} {store : Store} {database : Database} {e : Engine}
    {issued : List ChangeId} (opened : Engine.opened settings store database = .ok e)
    (identified : e.ledger.Identified issued) : e.ledger.Distinct [] := by
  obtain rfl := opened_eq opened
  let l := Ledger.onStore store settings.storagePrefix
  have kept {s : SessionId} {found : List ChangeId} (has : l.Has s found) :
      found.Sublist (l.keptIds s) := by
    cases has with
    | memory => exact l.recovered_ids s
    | store => exact .refl _
  refine ⟨fun s found has => ?_, fun s t other found found' has has' id hid hid' => ?_,
    fun s found has => List.disjoint_nil_left found⟩
  · exact (identified.nodup s).sublist (kept has)
  · obtain ⟨c, hc, rfl⟩ := List.mem_map.1 ((kept has).subset hid)
    obtain ⟨c', hc', same⟩ := List.mem_map.1 ((kept has').subset hid')
    exact identified.apart s t other c hc c' hc' same.symm

/-- On a store with changes that can be told apart, the invariant holds from the start. -/
theorem once_start {settings : Settings} {store : Store} {database : Database} {e : Engine}
    {issued : List ChangeId} (opened : Engine.opened settings store database = .ok e)
    (identified : e.ledger.Identified issued) : (start e issued).Once := by
  have sound := sound_start opened identified
  have distinct := distinct_start opened identified
  obtain rfl := opened_eq opened
  exact ⟨sound, distinct, fun call mem => absurd mem List.not_mem_nil, List.nodup_nil,
    List.nil_subset _⟩

theorem Reaches.once {first : History} (reaches : Reaches Orderly first h) (once : first.Once)
    (noCollision : Script.CollisionFree h.hashed) : h.Once := by
  induction reaches with
  | refl => exact once
  | step m _ orderly ih =>
    refine (ih fun u hu v hv => ?_).step orderly noCollision
    exact noCollision u (List.mem_append_left _ hu) v (List.mem_append_left _ hv)

/-- In an orderly run every change is committed once at most, and a change that has been committed is
in no session, neither in memory nor in the store. -/
theorem committed_once {settings : Settings} {store : Store} {database : Database} {e : Engine}
    {issued : List ChangeId} (opened : Engine.opened settings store database = .ok e)
    (identified : e.ledger.Identified issued) (reaches : Reaches Orderly (start e issued) h)
    (noCollision : Script.CollisionFree h.hashed) :
    h.committed.flatten.Nodup ∧
      ∀ covered ∈ h.committed, ∀ id ∈ covered, ∀ s,
        id ∉ h.engine.ledger.ids s ∧ id ∉ h.engine.ledger.keptIds s := by
  have once := reaches.once (once_start opened identified) noCollision
  refine ⟨once.committed, fun covered mem id hid s => ?_⟩
  have gone : id ∈ h.committed.flatten := List.mem_flatten_of_mem mem hid
  exact ⟨fun live => once.distinct.away s _ .memory gone live,
    fun kept => once.distinct.away s _ .store gone kept⟩

end History

namespace Sample

open Engine History

/-- The script that was generated is applied, and the transaction ends. -/
def applied (script : Script) : History :=
  (scripted.step (.startApply approval script tenth)).step (.finishApply tenth)

/-- The renaming is committed, and it is gone. -/
theorem committed_once_renamed :
    ∃ script, (applied script).committed = [[id 1]] ∧ (applied script).committed.flatten.Nodup ∧
      ∀ s, id 1 ∉ (applied script).engine.ledger.ids s ∧
        id 1 ∉ (applied script).engine.ledger.keptIds s := by
  obtain ⟨script, given, nonempty, changeIds, current, noCollision⟩ := scripted_compiles
  obtain ⟨e', eq, database, calls, store⟩ := sent_of_gates (e := scripted.engine) approval tenth rfl
    rfl rfl current nonempty fun _ => rfl
  have sent : (scripted.step (.startApply approval script tenth)).engine = e' := eq
  let call : Apply.Call := ⟨tenth, desk, script⟩
  have found : e'.call? tenth = some call := by
    rw [call?, calls]
    rfl
  have commits : e'.commits (.finishApply tenth) = [[id 1]] := by
    have success : e'.database.failure = none := by
      rw [database]
      rfl
    obtain ⟨answer, -⟩ := e'.settle_committed call success
    simp only [Engine.commits, finishApply, found, answer, changeIds, call]
  have committed : (applied script).committed = [[id 1]] := by
    have before : (scripted.step (.startApply approval script tenth)).committed = [] := rfl
    rw [applied, History.step, before, sent, commits]
    rfl
  have orderly :
      Orderly (scripted.step (.startApply approval script tenth)) (.finishApply tenth) := by
    refine ⟨trivial, fun _ => ?_⟩
    rw [sent, store]
    rfl
  have reached : Reaches Orderly (start engine []) (applied script) := by
    refine .step _ (.step _ (.step _ (.step _ (.step _ .refl ⟨trivial, trivial⟩) ?_)
      ⟨trivial, trivial⟩) ⟨trivial, given⟩) orderly
    exact ⟨⟨List.not_mem_nil, rfl⟩, trivial⟩
  have hashed : Script.CollisionFree (applied script).hashed := by
    rw [applied, History.step, show Engine.hashInputs _ (.finishApply tenth) = [] from rfl,
      List.append_nil]
    exact noCollision
  obtain ⟨nodup, gone⟩ := committed_once engine_opened engine_identified reached hashed
  refine ⟨script, committed, nodup, fun s => gone [id 1] ?_ (id 1) (List.mem_singleton.2 rfl) s⟩
  rw [committed]
  exact List.mem_singleton.2 rfl

end Sample

end DraftLedger
