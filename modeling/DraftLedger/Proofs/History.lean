import DraftLedger.Proofs.Fingerprint
import DraftLedger.Proofs.Kept
import DraftLedger.Proofs.Moves
import Mathlib.Data.List.Pairwise

/-!
# Histories

A history is an engine together with what has happened on it: which identifiers changes were given,
which scripts sessions got, what was hashed, and what was committed.

* `History`, `History.step` : a history and one more move.
* `History.Reaches` : the histories that moves of some sort lead to.
* `Engine.Coherent` : every apply that waits for the database holds a session of its own.
* `Ledger.Throughout` : what is true of all changes, wherever they are kept.
* `Change.Steady`, `Engine.Turn.throughout` : what stays true of all changes.
-/

set_option autoImplicit false

namespace DraftLedger

/-! ## Histories -/

namespace Engine

/-- The scripts that sessions get by a move. -/
def givenScripts (e : Engine) : Move → List (SessionId × Script)
  | .generate s dialect scope =>
    match (e.generate s dialect scope).1 with
    | .ok script => [(s, script)]
    | .error _ => []
  | _ => []

/-- What is hashed when the changes of a session are compiled. -/
def compileInputs (e : Engine) (s : SessionId) (dialect : Dialect) (scope : Option Table) :
    List (List UInt8) :=
  match Script.compile e.settings.threshold e.ledger.keyColumns dialect scope (e.ledger.changes s)
    with
  | .ok script =>
    [Script.fingerprintInput dialect (Script.covered scope (e.ledger.changes s)) script.sql]
  | .error _ => []

/-- What is hashed by a move: a script that is generated, and the one that an apply compares its
script to. -/
def hashInputs (e : Engine) : Move → List (List UInt8)
  | .generate s dialect scope => e.compileInputs s dialect scope
  | .startApply request script _ =>
    if e.isApplying request.session || !request.isConfirmed || e.isFrozen request.session then []
    else e.compileInputs request.session script.dialect script.scope
  | _ => []

/-- The changes of the transaction that is committed by a move, if one is. -/
def commits (e : Engine) : Move → List (List ChangeId)
  | .finishApply id =>
    match e.call? id, (e.finishApply id).1 with
    | some call, some (.committed _) => [call.script.changeIds]
    | _, _ => []
  | _ => []

/-- The identifiers that changes are given by a move. -/
def Move.issues : Move → List ChangeId
  | .record _ _ id _ => [id]
  | _ => []

end Engine

open Engine

/-- An engine and what has happened on it. -/
structure History where
  engine : Engine
  /-- The identifiers that changes have been given. -/
  issued : List ChangeId
  /-- The scripts that sessions have got. -/
  scripts : List (SessionId × Script)
  /-- The inputs of all fingerprints. -/
  hashed : List (List UInt8)
  /-- The changes of each transaction that has been committed. -/
  committed : List (List ChangeId)

namespace History

/-- Nothing has happened yet, and the changes in the store have these identifiers. -/
def start (e : Engine) (issued : List ChangeId) : History := ⟨e, issued, [], [], []⟩

/-- The history with one more move. -/
def step (h : History) (m : Move) : History where
  engine := h.engine.perform m
  issued := h.issued ++ m.issues
  scripts := h.scripts ++ h.engine.givenScripts m
  hashed := h.hashed ++ h.engine.hashInputs m
  committed := h.committed ++ h.engine.commits m

/-- The histories that moves lead to which are allowed where they happen. -/
inductive Reaches (allowed : History → Move → Prop) (h : History) : History → Prop
  | refl : Reaches allowed h h
  | step {h' : History} (m : Move) (before : Reaches allowed h h') (may : allowed h' m) :
      Reaches allowed h (h'.step m)

/-- A change is given an identifier that no other one has been given. -/
def Fresh (h : History) : Move → Prop
  | .record _ _ id _ => id ∉ h.issued ∧ id.IsVersion7
  | _ => True

theorem Reaches.invariant {allowed : History → Move → Prop} {p : History → Prop} {h h' : History}
    (reaches : Reaches allowed h h') (first : p h)
    (next : ∀ h m, p h → allowed h m → p (h.step m)) : p h' := by
  induction reaches with
  | refl => exact first
  | step m before may ih => exact next _ m ih may

end History

/-! ## Held sessions -/

namespace Ledger

variable {l l' : Ledger} {s t : SessionId}

theorem mem_of_frozen (h : (l.session t).frozen = true) : ∃ x, l.sessions.get? t = some x := by
  cases present : l.sessions.get? t with
  | some x => exact ⟨x, rfl⟩
  | none => simp [session, present, recovered_frozen] at h

/-- A session and its document stay as they are. -/
structure Keeps (t : SessionId) (l l' : Ledger) : Prop where
  session : l'.session t = l.session t
  entry : l'.raw? t = l.raw? t
  kept : l'.kept? t = l.kept? t

theorem Keeps.refl (t : SessionId) (l : Ledger) : Keeps t l l := ⟨rfl, rfl, rfl⟩

theorem Keeps.trans {l'' : Ledger} (h : Keeps t l l') (h' : Keeps t l' l'') : Keeps t l l'' :=
  ⟨h'.session.trans h.session, h'.entry.trans h.entry, h'.kept.trans h.kept⟩

theorem Keeps.frozen (h : Keeps t l l') (frozen : (l.session t).frozen = true) :
    (l'.session t).frozen = true := by
  rw [h.session]
  exact frozen

theorem keeps_written (x : Session) (other : t ≠ s) : Keeps t l (l.written s x) := by
  refine ⟨?_, raw?_written_of_ne x other, kept?_written_of_ne x other⟩
  rw [session_written, if_neg other]

theorem keeps_put (x : Session) (other : t ≠ s) : Keeps t l (l.put s x) :=
  ⟨by rw [session_put, if_neg other], rfl, rfl⟩

theorem Loaded.keeps (h : l.Loaded l') (t : SessionId) : Keeps t l l' :=
  ⟨h.session t, raw?_congr h.space h.store t, h.kept? t⟩

theorem ne_of_frozen (frozen : (l.session t).frozen = true) (free : (l.session s).frozen = false) :
    t ≠ s := by
  rintro rfl
  rw [frozen] at free
  cases free

theorem Thinned.keeps (h : Thinned s l l') (frozen : (l.session t).frozen = true) :
    Keeps t l l' := by
  induction h with
  | refl => exact .refl t l
  | drop x h free free' fewer ih =>
    exact ih.trans (keeps_written x (ne_of_frozen (ih.frozen frozen) free))

theorem Forgets.keeps (h : Forgets s l l') (other : t ≠ s) : Keeps t l l' := by
  refine ⟨?_, raw?_congr h.space h.store t, kept?_congr h.space h.store t⟩
  simp only [Ledger.session, h.others t other, recovered_congr h.space h.store]

theorem Trims.keeps (h : Trims l l') (frozen : (l.session t).frozen = true) : Keeps t l l' := by
  induction h with
  | refl => exact .refl t _
  | thinned h => exact h.keeps frozen
  | keyed free nonempty h => exact keeps_written _ (ne_of_frozen frozen free)
  | forgets h =>
    refine h.keeps ?_
    rintro rfl
    rw [h.nothing.2.1] at frozen
    cases frozen
  | keyColumns table columns => exact ⟨rfl, rfl, rfl⟩
  | trans _ _ ih ih' => exact (ih frozen).trans (ih' ((ih frozen).frozen frozen))

theorem Quiet.keeps (h : Quiet l l') (frozen : (l.session t).frozen = true) : Keeps t l l' := by
  obtain ⟨l₁, loaded, trims⟩ := h
  have first := loaded.keeps t
  exact first.trans (trims.keeps (first.frozen frozen))

theorem keeps_unfreeze (other : t ≠ s) : Keeps t l (l.unfreeze s) :=
  unfreeze_keeps (.refl t l) (fun _ _ => keeps_put _ other)
    fun _ _ forgets kept => kept.trans (forgets.keeps other)

theorem keeps_storage (refusal : Option String) (frozen : (l.session t).frozen = true) :
    Keeps t l { l with store.refusal := refusal } := by
  obtain ⟨x, present⟩ := mem_of_frozen frozen
  exact ⟨by simp [Ledger.session, present], rfl, rfl⟩

end Ledger

namespace Engine

variable {e e' : Engine} {m : Move}

/-! ## Applies that wait -/

/-- Every apply that waits for the database holds a session, and no two of them hold the same one. -/
structure Coherent (e : Engine) : Prop where
  distinct : e.calls.Pairwise fun a b => a.session ≠ b.session
  held : ∀ call ∈ e.calls, (e.ledger.session call.session).frozen = true

theorem Coherent.other (h : e.Coherent) {a b : Apply.Call} (ha : a ∈ e.calls) (hb : b ∈ e.calls)
    (differ : a.id ≠ b.id) : a.session ≠ b.session := by
  have symmetric : Std.Symm fun a b : Apply.Call => a.session ≠ b.session := ⟨fun _ _ h => h.symm⟩
  exact h.distinct.forall ha hb fun same => differ (congrArg Apply.Call.id same)

theorem mem_of_call? {id : ApplyId} {call : Apply.Call} (h : e.call? id = some call) :
    call ∈ e.calls := List.mem_of_find?_eq_some h

theorem Turn.waiting (turn : e.Turn m e') (h : e.Coherent) {call : Apply.Call}
    (before : call ∈ e.calls) (after : call ∈ e'.calls) : e.ledger.Keeps call.session e'.ledger := by
  have frozen := h.held call before
  have other {ended : Apply.Call} (found : e.call? ended.id = some ended)
      (calls : e'.calls = e.calls.filter fun c => c.id ≠ ended.id) :
      call.session ≠ ended.session := by
    rw [calls] at after
    exact h.other before (mem_of_call? found) (by simpa using (List.mem_filter.1 after).2)
  cases turn with
  | quiet aside ledger => exact ledger.keeps frozen
  | @staged s _ _ _ _ _ l changes _ aside loaded checked free active reading staged ledger unheard =>
    have first := (loaded.keeps _).trans (Ledger.keeps_written (l := l)
      { e.ledger.session s with changes } (Ledger.ne_of_frozen frozen free))
    exact first.trans (ledger.keeps (first.frozen frozen))
  | sent sent =>
    rw [sent.ledger]
    exact ((e.ledger.load_loaded _).keeps _).trans
      (Ledger.keeps_put _ (Ledger.ne_of_frozen frozen sent.free))
  | dropped settings found ending ledger transactions calls =>
    rw [ledger]
    exact Ledger.keeps_unfreeze (other found calls)
  | @committed ended _ settings found success ledger transactions calls =>
    rw [ledger, Ledger.clearApplied_ledger]
    have first := (e.ledger.load_loaded ended.session).keeps call.session
    exact (first.trans (Ledger.keeps_written _ (other found calls))).trans
      (Ledger.keeps_unfreeze (other found calls))
  | storage refusal => exact Ledger.keeps_storage refusal frozen
  | reopen => exact absurd after List.not_mem_nil

theorem Turn.coherent (turn : e.Turn m e') (h : e.Coherent) : e'.Coherent := by
  have fewer (calls : e'.calls.Sublist e.calls) : e'.Coherent := by
    refine ⟨h.distinct.sublist calls, fun call mem => ?_⟩
    have before := calls.subset mem
    exact (turn.waiting h before mem).frozen (h.held call before)
  have waiting (call : Apply.Call) (before : call ∈ e.calls) (after : call ∈ e'.calls) :=
    (turn.waiting h before after).frozen (h.held call before)
  cases turn with
  | quiet aside => exact fewer (aside.calls ▸ .refl _)
  | staged aside => exact fewer (aside.calls ▸ .refl _)
  | sent sent =>
    constructor
    · rw [sent.calls, List.pairwise_append]
      refine ⟨h.distinct, List.pairwise_singleton _ _, fun a ha b hb => ?_⟩
      rw [List.mem_singleton.1 hb]
      exact Ledger.ne_of_frozen (h.held a ha) sent.free
    · intro call mem
      have mem' := mem
      rw [sent.calls, List.mem_append, List.mem_singleton] at mem'
      rcases mem' with before | rfl
      · exact waiting call before mem
      · rw [sent.ledger, Ledger.session_put, if_pos rfl]
  | dropped settings found ending ledger transactions calls =>
    exact fewer (calls ▸ List.filter_sublist)
  | committed settings found success ledger transactions calls =>
    exact fewer (calls ▸ List.filter_sublist)
  | storage refusal => exact fewer (.refl _)
  | reopen => exact fewer (List.nil_sublist _)

end Engine

/-! ## All changes -/

namespace Ledger

variable {P : Change → Prop} {l l' : Ledger} {s t : SessionId}

/-- All changes are of some sort, in memory and in the store. -/
structure Throughout (P : Change → Prop) (l : Ledger) : Prop where
  memory : ∀ s x, l.sessions.get? s = some x → ∀ c ∈ x.changes, P c
  store : ∀ s, ∀ c ∈ l.keptChanges s, P c

namespace Throughout

theorem recovered (h : Throughout P l) (s : SessionId) : ∀ c ∈ (l.recovered s).changes, P c := by
  rw [recovered_changes]
  split
  · exact h.store s
  · exact fun c hc => absurd hc List.not_mem_nil

theorem changes (h : Throughout P l) (s : SessionId) : ∀ c ∈ l.changes s, P c := by
  unfold Ledger.changes session
  split
  · next x present => exact h.memory s x present
  · exact h.recovered s

theorem mono {Q : Change → Prop} (h : Throughout P l) (weaker : ∀ c, P c → Q c) :
    Throughout Q l :=
  ⟨fun s x present c hc => weaker c (h.memory s x present c hc),
    fun s c hc => weaker c (h.store s c hc)⟩

theorem of_kept (h : Throughout P l) (kept : ∀ s, l'.kept? s = l.kept? s)
    (memory : ∀ s x, l'.sessions.get? s = some x → ∀ c ∈ x.changes, P c) : Throughout P l' where
  memory := memory
  store s := by
    rw [keptChanges, kept]
    exact h.store s

theorem loaded (h : Throughout P l) (loaded : l.Loaded l') : Throughout P l' := by
  refine h.of_kept loaded.kept? fun s x present => ?_
  rcases loaded.sessions s with same | ⟨-, recovered⟩
  · exact h.memory s x (same ▸ present)
  · obtain rfl := Option.some.inj (present.symm.trans recovered)
    exact h.recovered s

theorem put (h : Throughout P l) {x : Session} (new : ∀ c ∈ x.changes, P c) :
    Throughout P (l.put s x) := by
  refine h.of_kept (fun _ => rfl) fun t y present => ?_
  simp only [Ledger.put, Dict.get?_insert] at present
  split at present
  · cases present
    exact new
  · exact h.memory t y present

theorem forgets (h : Throughout P l) (forgets : Forgets s l l') : Throughout P l' := by
  refine h.of_kept (kept?_congr forgets.space forgets.store) fun t x present => ?_
  by_cases same : t = s
  · subst same
    rw [forgets.gone] at present
    cases present
  · exact h.memory t x (forgets.others t same ▸ present)

theorem unfreeze (h : Throughout P l) (s : SessionId) : Throughout P (l.unfreeze s) :=
  unfreeze_keeps h (fun x present => h.put (h.memory s x present))
    fun _ _ forgets still => still.forgets forgets

theorem written (h : Throughout P l) (readBack : ∀ c c', P c → c.ReadsAs c' → P c') {x : Session}
    (new : ∀ c ∈ x.changes, P c) : Throughout P (l.written s x) where
  memory t y present := by
    rw [get?_sessions_written] at present
    split at present
    · cases present
      exact new
    · exact h.memory t y present
  store t c hc := by
    by_cases same : t = s
    · subst same
      cases kept : (l.written t x).kept? t with
      | none => simp [keptChanges, kept] at hc
      | some d =>
        rw [keptChanges, kept] at hc
        rcases kept?_written x kept with ⟨-, before⟩ | ⟨-, -, read⟩
        · exact h.store t c (by rw [keptChanges, before]; exact hc)
        · exact forall_mem_of_forall₂ read (fun c c' reads p => readBack c c' p reads) new c hc
    · rw [keptChanges, kept?_written_of_ne x same] at hc
      exact h.store t c hc

theorem onStore (h : Throughout P l) : Throughout P (Ledger.onStore l.store l.space) :=
  h.of_kept (fun _ => rfl) fun s x present => by simp [Ledger.onStore] at present

end Throughout

end Ledger

/-- What stays true of a change, whatever happens to it: when it is read back, when it is an insertion
that gets its key, and when it takes in an edit. -/
structure Change.Steady (P : Change → Prop) : Prop where
  readBack : ∀ c c', P c → c.ReadsAs c' → P c'
  assigned : ∀ c key, P c → c.kind = .insert → key.isEmpty = false →
    P { c with primaryKey := some key }
  takenIn : ∀ c incoming c' outcome, P c → incoming.kind ≠ .insert →
    c.takeIn incoming = .ok (some c', outcome) → P c'

namespace Change.Steady

variable {P : Change → Prop} {l l' : Ledger} {s : SessionId} {changes result : List Change}

theorem withAssignedKey (steady : Steady P) {id : ChangeId} {key : Row} (h : ∀ c ∈ changes, P c)
    (nonempty : key.isEmpty = false)
    (assigned : Ledger.withAssignedKey changes id key = .ok result) : ∀ c ∈ result, P c := by
  unfold Ledger.withAssignedKey at assigned
  split at assigned
  · cases assigned
  next before found after located =>
  obtain ⟨rfl, -⟩ := Ledger.locate?_eq_some located
  split at assigned
  · cases assigned
  next insertion =>
  split at assigned
  · cases assigned
  cases assigned
  obtain ⟨hb, rest⟩ := List.forall_mem_append.1 h
  obtain ⟨hf, ha⟩ := List.forall_mem_cons.1 rest
  have new := steady.assigned found key hf (by simpa using insertion) nonempty
  exact List.forall_mem_append.2 ⟨hb, List.forall_mem_cons.2 ⟨new, ha⟩⟩

theorem stage (steady : Steady P) {incoming : Change} {outcome : Outcome} (h : ∀ c ∈ changes, P c)
    (new : incoming.address?.isSome = true → P incoming)
    (staged : stage changes incoming = .ok (result, outcome)) : ∀ c ∈ result, P c := by
  obtain ⟨address, found, ⟨rfl, -⟩ | ⟨noInsertion, before, existing, after, taken, rfl, -, -, takes,
    rfl⟩⟩ := stage_cases staged
  · have new := new (Option.isSome_of_mem found)
    exact List.forall_mem_append.2 ⟨h, List.forall_mem_singleton.2 new⟩
  · obtain ⟨hb, rest⟩ := List.forall_mem_append.1 h
    obtain ⟨he, ha⟩ := List.forall_mem_cons.1 rest
    refine List.forall_mem_append.2 ⟨List.forall_mem_append.2 ⟨hb, fun c hc => ?_⟩, ha⟩
    obtain rfl := Option.mem_toList.1 hc
    exact steady.takenIn existing incoming c outcome he noInsertion takes

theorem thinned (steady : Steady P) (h : l.Throughout P) (thinned : Ledger.Thinned s l l') :
    l'.Throughout P := by
  induction thinned with
  | refl => exact h
  | drop x _ free free' fewer ih =>
    exact ih.written steady.readBack fun c hc => ih.changes s c (fewer.subset hc)

theorem trims (steady : Steady P) (h : l.Throughout P) (trims : Ledger.Trims l l') :
    l'.Throughout P := by
  induction trims with
  | refl => exact h
  | thinned thinned => exact steady.thinned h thinned
  | keyed free nonempty assigned =>
    exact h.written steady.readBack (steady.withAssignedKey (h.changes _) nonempty assigned)
  | forgets forgets => exact h.forgets forgets
  | keyColumns table columns => exact ⟨h.memory, h.store⟩
  | trans _ _ ih ih' => exact ih' (ih h)

end Change.Steady

/-- What is true of all changes and of every new one that is staged stays true of all. -/
theorem Engine.Turn.throughout {P : Change → Prop} {e e' : Engine} {m : Move}
    (steady : Change.Steady P) (turn : e.Turn m e')
    (space : e.ledger.space = e.settings.storagePrefix) (h : e.ledger.Throughout P)
    (new : ∀ s edit id now stamp, m = .record s edit id now → edit.check = .ok () →
      (e.ledger.load s).clock.next? now = some stamp →
      let c := (edit.withRegisteredKey e.ledger.keyColumns).toChange id stamp
      c.address?.isSome = true → P c) : e'.ledger.Throughout P := by
  cases turn with
  | quiet aside ledger =>
    obtain ⟨l, loaded, trims⟩ := ledger
    exact steady.trims (h.loaded loaded) trims
  | @staged s edit id now stamp _ l _ _ aside loaded checked free active reading staged ledger unheard =>
    refine steady.thinned ((h.loaded loaded).written steady.readBack ?_) ledger
    exact steady.stage (h.changes s) (new s edit id now stamp rfl checked reading) staged
  | sent sent =>
    rw [sent.ledger]
    exact (h.loaded (e.ledger.load_loaded _)).put (h.changes _)
  | dropped settings found ending ledger =>
    rw [ledger]
    exact h.unfreeze _
  | committed settings found success ledger =>
    rw [ledger, Ledger.clearApplied_ledger]
    refine ((h.loaded (e.ledger.load_loaded _)).written steady.readBack fun c hc => ?_).unfreeze _
    exact h.changes _ c (List.mem_of_mem_filter hc)
  | storage refusal => exact ⟨h.memory, h.store⟩
  | reopen =>
    have back := h.onStore
    rw [space] at back
    exact back

theorem Engine.opened_throughout {P : Change → Prop} {e : Engine} {settings : Settings}
    {listing : Listing} {database : Database}
    (opened : Engine.opened settings (Store.empty listing) database = .ok e) :
    e.ledger.Throughout P := by
  obtain rfl := opened_eq opened
  refine ⟨fun s x present => ?_, fun s c hc => ?_⟩
  · simp [Ledger.onStore] at present
  · exact absurd hc List.not_mem_nil

end DraftLedger
