import DraftLedger.Proofs.History
import DraftLedger.Proofs.Sample
import Mathlib.Data.List.Nodup

/-!
# What goes to the database

Nothing goes to the database but the statements of a script that was confirmed, that is what the staged
changes come to, and whose rows found by all columns were accepted.

* `Ledger.Identified` : the changes in a store can be told apart.
* `Change.Labelled` : an identifier is labelled with something that is so of its change.
* `Change.Known` : an identifier tells whether its change finds its row by all columns.
* `History.Sound` : the invariant.
* `History.submitted_gated` : the gate.
-/

set_option autoImplicit false

namespace DraftLedger

/-! ## Identifiers -/

/-- The changes in the store have identifiers out of a list of identifiers of version 7, and no two of
them the same one. -/
structure Ledger.Identified (l : Ledger) (issued : List ChangeId) : Prop where
  mem : ∀ s, ∀ c ∈ l.keptChanges s, c.id ∈ issued
  versions : ∀ id ∈ issued, id.IsVersion7
  nodup : ∀ s, ((l.keptChanges s).map (·.id)).Nodup
  apart : ∀ s t, s ≠ t → ∀ c ∈ l.keptChanges s, ∀ c' ∈ l.keptChanges t, c.id ≠ c'.id

theorem Ledger.Identified.eq_of_id {l : Ledger} {issued : List ChangeId} (h : l.Identified issued)
    {s t : SessionId} {c c' : Change} (hc : c ∈ l.keptChanges s) (hc' : c' ∈ l.keptChanges t)
    (same : c.id = c'.id) : c = c' := by
  by_cases here : s = t
  · subst here
    exact List.inj_on_of_nodup_map (h.nodup s) hc hc' same
  · exact absurd same (h.apart s t here c hc c' hc')

theorem Engine.opened_identified {settings : Settings} {listing : Listing} {database : Database}
    {e : Engine} (opened : Engine.opened settings (Store.empty listing) database = .ok e) :
    e.ledger.Identified [] := by
  have none : e.ledger.Throughout fun _ => False := opened_throughout opened
  refine ⟨fun s c hc => (none.store s c hc).elim, fun id hid => absurd hid List.not_mem_nil,
    fun s => ?_, fun s t _ c hc => (none.store s c hc).elim⟩
  have empty : e.ledger.keptChanges s = [] := List.eq_nil_iff_forall_not_mem.2 (none.store s)
  rw [empty]
  exact List.nodup_nil

/-- The change has been given its identifier, which is labelled with what is so of the change. -/
def Change.Labelled {β : Type} (f : Change → β) (issued : List ChangeId) (label : ChangeId → β)
    (c : Change) : Prop :=
  c.id ∈ issued ∧ label c.id = f c

/-- The changes in a store decide about their identifiers, since no two share one. -/
theorem Ledger.Identified.labelled {β : Type} [Nonempty β] {l : Ledger} {issued : List ChangeId}
    (h : l.Identified issued) (f : Change → β) :
    ∃ label, ∀ s, ∀ c ∈ l.keptChanges s, c.Labelled f issued label := by
  have each (id : ChangeId) : ∃ b, ∀ s, ∀ c ∈ l.keptChanges s, c.id = id → b = f c := by
    by_cases held : ∃ s, ∃ c ∈ l.keptChanges s, c.id = id
    · obtain ⟨t, c, hc, rfl⟩ := held
      exact ⟨f c, fun s c' hc' same => by rw [h.eq_of_id hc' hc same]⟩
    · exact ⟨Classical.ofNonempty, fun s c hc same => absurd ⟨s, c, hc, same⟩ held⟩
  choose label labels using each
  exact ⟨label, fun s c hc => ⟨h.mem s c hc, labels c.id s c hc rfl⟩⟩

/-- The change has been given its identifier, which tells whether it finds its row by all columns. -/
def Change.Known (issued : List ChangeId) (full : ChangeId → Bool) (c : Change) : Prop :=
  c.id ∈ issued ∧ full c.id = Script.isFullRowChange c

namespace Change

variable {issued : List ChangeId} {full : ChangeId → Bool}

theorem Known.congr {c c' : Change} (h : c.Known issued full) (id : c'.id = c.id)
    (same : Script.isFullRowChange c' = Script.isFullRowChange c) : c'.Known issued full :=
  ⟨id ▸ h.1, by rw [id, same]; exact h.2⟩

theorem known_steady : Steady (Known issued full) where
  readBack c c' h reads := by
    obtain ⟨id, kind, -⟩ := reads.spec
    exact h.congr id (by simp only [Script.isFullRowChange, kind, reads.isFullRowAddressed])
  assigned c key h insertion _ := h.congr rfl (by simp [Script.isFullRowChange, insertion])
  takenIn c incoming c' outcome h noInsertion takes := by
    have keyed {d : Change} (key : d.primaryKey = c.primaryKey) :
        d.isFullRowAddressed = c.isFullRowAddressed := by
      simp only [isFullRowAddressed, usableKey?, key]
    rcases takeIn_cases takes noInsertion with
      ⟨-, -, eq, -⟩ | ⟨insertion, -, eq, -⟩ | ⟨update, -, eq, -⟩ | ⟨-, -, eq, -⟩
    · cases eq
    · cases eq
      exact h.congr (insertAfter_id c incoming) (by simp [Script.isFullRowChange, insertion])
    · cases eq
      refine h.congr (deleteAfter_id c incoming) ?_
      simp [Script.isFullRowChange, update, keyed (deleteAfter_primaryKey c incoming)]
    · cases eq
      refine h.congr (updateAfter_id c incoming) ?_
      simp [Script.isFullRowChange, keyed (updateAfter_primaryKey c incoming)]

end Change

/-! ## The invariant -/

namespace History

open Engine

variable {h : History} {m : Move}

/-- The script was compiled from changes that are known, and its fingerprint was taken. -/
structure Remembers (h : History) (full : ChangeId → Bool) (script : Script) : Prop where
  compiled : ∃ keyColumns changes,
    Script.Compiles keyColumns script.dialect script.scope changes script ∧
      (∀ c ∈ changes, c.Known h.issued full) ∧
      Script.fingerprintInput script.dialect (Script.covered script.scope changes) script.sql ∈
        h.hashed

/-- Every waiting apply holds its session, and the changes of the ledger and of the scripts that were
given out are known. -/
structure Sound (h : History) : Prop where
  space : h.engine.ledger.space = h.engine.settings.storagePrefix
  coherent : h.engine.Coherent
  versions : ∀ id ∈ h.issued, id.IsVersion7
  known : ∃ full, h.engine.ledger.Throughout (Change.Known h.issued full) ∧
    ∀ s script, (s, script) ∈ h.scripts → h.Remembers full script

/-- On a store with changes that can be told apart, the invariant holds from the start. -/
theorem sound_start {settings : Settings} {store : Store} {database : Database} {e : Engine}
    {issued : List ChangeId} (opened : Engine.opened settings store database = .ok e)
    (identified : e.ledger.Identified issued) : (start e issued).Sound := by
  obtain ⟨full, labelled⟩ := identified.labelled Script.isFullRowChange
  obtain rfl := opened_eq opened
  exact ⟨rfl, ⟨.nil, fun call mem => absurd mem List.not_mem_nil⟩, identified.versions, full,
    ⟨fun s x present => by simp [start, Ledger.onStore] at present, labelled⟩,
    fun s script given => absurd given List.not_mem_nil⟩

theorem step_generate_ledger (h : History) (s : SessionId) (d : Dialect) (scope : Option Table) :
    (h.step (.generate s d scope)).engine.ledger = h.engine.ledger.visit s := rfl

theorem givenScripts_of_compile {e : Engine} {s : SessionId} {d : Dialect} {scope : Option Table}
    {script : Script}
    (compiled : Script.compile e.settings.threshold e.ledger.keyColumns d scope
      (e.ledger.changes s) = .ok script) :
    e.givenScripts (.generate s d scope) = [(s, script)] := by
  simp [givenScripts, Engine.generate, look, compiled]

theorem compileInputs_of_compile {e : Engine} {s : SessionId} {d : Dialect} {scope : Option Table}
    {script : Script}
    (compiled : Script.compile e.settings.threshold e.ledger.keyColumns d scope
      (e.ledger.changes s) = .ok script) :
    e.compileInputs s d scope =
      [Script.fingerprintInput d (Script.covered scope (e.ledger.changes s)) script.sql] := by
  simp only [compileInputs, compiled]

theorem mem_givenScripts {e : Engine} {s : SessionId} {script : Script}
    (given : (s, script) ∈ e.givenScripts m) :
    ∃ dialect scope, m = .generate s dialect scope ∧
      Script.compile e.settings.threshold e.ledger.keyColumns dialect scope (e.ledger.changes s) =
        .ok script := by
  cases m with
  | generate s' dialect scope =>
    simp only [givenScripts, generate, look] at given
    split at given
    · next compiled =>
      cases List.mem_singleton.1 given
      exact ⟨dialect, scope, rfl, compiled⟩
    · cases given
  | _ => cases given

/-- What a fresh move issues is new, and may be labelled with what is so of the new change. -/
theorem labelled_extend {β : Type} (f : Change → β) (label : ChangeId → β) (fresh : h.Fresh m) :
    ∃ label' : ChangeId → β, (∀ id ∈ h.issued, label' id = label id) ∧
      (∀ c, Change.Labelled f h.issued label c → Change.Labelled f (h.step m).issued label' c) ∧
      ∀ s edit id now stamp, m = .record s edit id now →
        (h.engine.ledger.load s).clock.next? now = some stamp →
        Change.Labelled f (h.step m).issued label'
          ((edit.withRegisteredKey h.engine.ledger.keyColumns).toChange id stamp) := by
  have kept (c : Change) (known : Change.Labelled f h.issued label c) :
      Change.Labelled f (h.step m).issued label c := ⟨List.mem_append_left _ known.1, known.2⟩
  cases m with
  | record s edit id now =>
    cases reading : (h.engine.ledger.load s).clock.next? now with
    | none =>
      refine ⟨label, fun _ _ => rfl, kept, ?_⟩
      rintro s' edit' id' now' stamp ⟨⟩ reading'
      rw [reading] at reading'
      cases reading'
    | some stamp =>
    let new := (edit.withRegisteredKey h.engine.ledger.keyColumns).toChange id stamp
    have old : ∀ i ∈ h.issued, (if i = id then f new else label i) = label i := by
      intro i issued
      have other : i ≠ id := fun same => fresh.1 (same ▸ issued)
      exact if_neg other
    refine ⟨fun i => if i = id then f new else label i, old, ?_, ?_⟩
    · rintro c ⟨issued, eq⟩
      exact ⟨List.mem_append_left _ issued, (old c.id issued).trans eq⟩
    · rintro s' edit' id' now' stamp' ⟨⟩ reading'
      rw [reading] at reading'
      cases reading'
      exact ⟨List.mem_append_right _ (List.mem_singleton.2 rfl), if_pos rfl⟩
  | _ =>
    refine ⟨label, fun _ _ => rfl, kept, ?_⟩
    rintro s edit id now stamp ⟨⟩

theorem Remembers.mono {full full' : ChangeId → Bool} {script : Script}
    (remembers : h.Remembers full script)
    (more : ∀ c, Change.Known h.issued full c → Change.Known (h.step m).issued full' c) :
    (h.step m).Remembers full' script := by
  obtain ⟨keyColumns, changes, compiled, known, hashed⟩ := remembers.compiled
  exact ⟨keyColumns, changes, compiled, fun c hc => more c (known c hc),
    List.mem_append_left _ hashed⟩

theorem Sound.step (sound : h.Sound) (fresh : h.Fresh m) : (h.step m).Sound := by
  obtain ⟨full, throughout, scripts⟩ := sound.known
  obtain ⟨full', -, more, new⟩ := labelled_extend Script.isFullRowChange full fresh
  have turn := h.engine.perform_turn m
  obtain ⟨settings, space⟩ := turn.space sound.space
  refine ⟨?_, turn.coherent sound.coherent, fun id hid => ?_, full', ?_, fun s script given => ?_⟩
  · rw [show (h.step m).engine = h.engine.perform m from rfl, settings]
    exact space
  · rcases List.mem_append.1 hid with old | issued
    · exact sound.versions id old
    · cases m with
      | record s edit id' now =>
        obtain rfl := List.mem_singleton.1 issued
        exact fresh.2
      | _ => cases issued
  · exact turn.throughout Change.known_steady sound.space (throughout.mono more)
      fun s edit id now stamp same _ reading _ => new s edit id now stamp same reading
  · rcases List.mem_append.1 given with old | now
    · exact (scripts s script old).mono more
    · obtain ⟨dialect, scope, rfl, compiled⟩ := mem_givenScripts now
      have compiles := Script.compiles_of_compile compiled
      obtain ⟨rfl, rfl⟩ := compiles.target
      refine ⟨_, _, compiles, fun c hc => more c (throughout.changes s c hc),
        List.mem_append_right _ ?_⟩
      rw [hashInputs, compileInputs_of_compile compiled]
      exact List.mem_singleton.2 rfl

/-! ## The gate -/

theorem checkCurrent_eq_ok {e : Engine} {s : SessionId} {script : Script}
    (current : e.checkCurrent s script = .ok ()) :
    ∃ now, Script.compile e.settings.threshold e.ledger.keyColumns script.dialect script.scope
        (e.ledger.changes s) = .ok now ∧ now.fingerprint = script.fingerprint := by
  unfold checkCurrent at current
  split at current
  · cases current
  · next now compiled =>
    split at current
    · next same => exact ⟨now, compiled, same⟩
    · cases current

theorem checkCurrent_of_compile {e : Engine} {s : SessionId} {script : Script}
    (compiled : Script.compile e.settings.threshold e.ledger.keyColumns script.dialect script.scope
      (e.ledger.changes s) = .ok script) : e.checkCurrent s script = .ok () := by
  simp only [checkCurrent, compiled, if_true]

theorem sent_of_gates {e : Engine} (request : Apply.Request) {script : Script} (id : ApplyId)
    (idle : e.isApplying request.session = false) (confirmed : request.isConfirmed = true)
    (free : (e.ledger.session request.session).frozen = false)
    (current : e.checkCurrent request.session script = .ok ()) (nonempty : script.isEmpty = false)
    (acknowledged : script.needsAcknowledgement = true → request.acknowledged = true) :
    ∃ e', e.perform (.startApply request script id) = e' ∧
      e'.database = e.database.submit script.statements ∧
      e'.calls = e.calls ++ [⟨id, request.session, script⟩] ∧
      e'.ledger.store = e.ledger.store := by
  have asked : ¬ (script.needsAcknowledgement && !request.acknowledged) = true := by
    intro open'
    simp only [Bool.and_eq_true] at open'
    simp [acknowledged open'.1] at open'
  rcases claim_cases e request.session id with
    ⟨frozen, -⟩ | ⟨-, e', eq, ledger, settings, database, calls, -⟩
  · rw [free] at frozen
    cases frozen
  · have same : e'.checkCurrent request.session script = .ok () :=
      (checkCurrent_claimed ledger settings script).trans current
    have store : e'.ledger.store = e.ledger.store := by
      rw [ledger]
      exact (e.ledger.load_loaded request.session).store
    refine ⟨_, rfl, ?_⟩
    simp only [perform, startApply, idle, confirmed, eq, same, nonempty, asked, Bool.not_true,
      Bool.false_eq_true, if_false, database, calls, store, and_self]

/-- A script that was given out and is found current covers the same changes with the same statements
as the script that would be compiled now. -/
theorem Sound.current (sound : h.Sound) {s : SessionId} {script : Script}
    (given : (s, script) ∈ h.scripts) (current : h.engine.checkCurrent s script = .ok ())
    (noCollision : Script.CollisionFree
      (h.hashed ++ h.engine.compileInputs s script.dialect script.scope)) :
    ∃ now, Script.compile h.engine.settings.threshold h.engine.ledger.keyColumns script.dialect
        script.scope (h.engine.ledger.changes s) = .ok now ∧
      script.changeIds = now.changeIds ∧ script.statements = now.statements := by
  obtain ⟨full, throughout, scripts⟩ := sound.known
  obtain ⟨keyColumns, changes, compiles, known, hashed⟩ := (scripts s script given).compiled
  obtain ⟨now, compiled, same⟩ := checkCurrent_eq_ok current
  have input : Script.fingerprintInput script.dialect
      (Script.covered script.scope (h.engine.ledger.changes s)) now.sql ∈
        h.engine.compileInputs s script.dialect script.scope := by
    rw [compileInputs_of_compile compiled]
    exact List.mem_singleton.2 rfl
  refine ⟨now, compiled, compiles.eq_of_fingerprint (Script.compiles_of_compile compiled)
    (fun c hc => sound.versions _ (known c hc).1)
    (fun c hc => sound.versions _ (throughout.changes s c hc).1) ?_ same.symm⟩
  exact noCollision _ (List.mem_append_left _ hashed) _ (List.mem_append_right _ input)

/-- A script that was given out tells which of its changes are found by all columns. -/
theorem Sound.acknowledged (sound : h.Sound) {s : SessionId} {script : Script}
    (given : (s, script) ∈ h.scripts) {c : Change} (live : c ∈ h.engine.ledger.changes s)
    (covered : c.id ∈ script.changeIds) (full : Script.isFullRowChange c = true) :
    script.needsAcknowledgement = true := by
  obtain ⟨fullRow, throughout, scripts⟩ := sound.known
  obtain ⟨keyColumns, changes, compiles, known, -⟩ := (scripts s script given).compiled
  rw [compiles.changeIds] at covered
  obtain ⟨c', hc', same⟩ := List.mem_map.1 covered
  have mem : c' ∈ changes := (Script.covered_sublist _ _).subset hc'
  have full' : Script.isFullRowChange c' = true := by
    rw [← (known c' mem).2, same, (throughout.changes s c live).2]
    exact full
  have listed : c'.id ∈ script.fullRowChanges := by
    rw [compiles.fullRowChanges]
    exact List.mem_map.2 ⟨c', List.mem_filter.2 ⟨hc', full'⟩, rfl⟩
  cases none : script.fullRowChanges with
  | nil => simp [none] at listed
  | cons id rest => simp [Script.needsAcknowledgement, none]

/-- What is hashed when a script goes to the database is what its session comes to. -/
theorem hashed_of_sent {request : Apply.Request} {script : Script} {id : ApplyId} {e' : Engine}
    (sent : h.engine.Sent request script id e') :
    (h.step (.startApply request script id)).hashed =
      h.hashed ++ h.engine.compileInputs request.session script.dialect script.scope := by
  simp [step, hashInputs, sent.idle, sent.confirmed, Engine.isFrozen, Ledger.isFrozen, sent.free]

theorem sent_of_submitted {e e' : Engine} (turn : e.Turn m e')
    (called : e'.database.transactions ≠ e.database.transactions) :
    ∃ request script id, m = .startApply request script id ∧ e.Sent request script id e' := by
  cases turn with
  | quiet aside => exact absurd aside.transactions called
  | staged aside => exact absurd aside.transactions called
  | sent sent => exact ⟨_, _, _, rfl, sent⟩
  | dropped settings found ending ledger transactions => exact absurd transactions called
  | committed settings found success ledger transactions => exact absurd transactions called
  | storage refusal => exact absurd rfl called
  | reopen => exact absurd rfl called

/-- What goes to the database went through the gate: it is the statements of a script, not none, whose
request is confirmed where that is needed and whose session no other apply holds. If the session was
given the script before, its statements are those of the changes as they are now, and if one of the
covered changes finds its row by all columns, that was accepted. -/
theorem submitted_gated {settings : Settings} {store : Store} {database : Database} {e : Engine}
    {issued : List ChangeId} (opened : Engine.opened settings store database = .ok e)
    (identified : e.ledger.Identified issued) (reaches : Reaches Fresh (start e issued) h)
    (fresh : h.Fresh m) (noCollision : Script.CollisionFree (h.step m).hashed)
    (called : (h.engine.perform m).database.transactions ≠ h.engine.database.transactions) :
    ∃ request script id, m = .startApply request script id ∧
      (h.engine.perform m).database.transactions =
        h.engine.database.transactions ++ [script.statements] ∧
      (request.environment ≠ .production ∨ request.confirmation = some Apply.token) ∧
      (∀ call ∈ h.engine.calls, call.session ≠ request.session) ∧
      ((h.engine.perform m).ledger.session request.session).frozen = true ∧
      script.statements ≠ [] ∧
      ((request.session, script) ∈ h.scripts →
        (∃ now, Script.compile h.engine.settings.threshold h.engine.ledger.keyColumns script.dialect
            script.scope (h.engine.ledger.changes request.session) = .ok now ∧
          script.statements = now.statements) ∧
        ∀ c ∈ h.engine.ledger.changes request.session, c.id ∈ script.changeIds →
          c.kind ≠ .insert → c.isFullRowAddressed = true → request.acknowledged = true) := by
  have sound : h.Sound :=
    reaches.invariant (sound_start opened identified) fun h m sound fresh => sound.step fresh
  obtain ⟨request, script, id, rfl, sent⟩ := sent_of_submitted (h.engine.perform_turn m) called
  refine ⟨request, script, id, rfl, sent.transactions, ?_, fun call mem => ?_, ?_, ?_, fun given =>
    ⟨?_, fun c live covered update full => ?_⟩⟩
  · simpa [Apply.Request.isConfirmed, Environment.needsToken] using sent.confirmed
  · exact Ledger.ne_of_frozen (sound.coherent.held call mem) sent.free
  · rw [sent.ledger, Ledger.session_put, if_pos rfl]
  · simpa [Script.isEmpty] using sent.nonempty
  · obtain ⟨now, compiled, -, statements⟩ :=
      sound.current given sent.current (hashed_of_sent sent ▸ noCollision)
    exact ⟨now, compiled, statements⟩
  · refine sent.acknowledged (sound.acknowledged given live covered ?_)
    simp [Script.isFullRowChange, update, full]

end History

namespace Sample

open Engine History

theorem engine_identified : engine.ledger.Identified [] := opened_identified engine_opened

/-- A row without a known key is renamed. -/
def renamed : History :=
  ((start engine []).step (.activate desk)).step
    (.record desk (.update items none (item 1 "a") (named "b")) (id 1) 0)

/-- The script of that for Postgres is generated. -/
def scripted : History := renamed.step (.generate desk .postgres none)

/-- Everything is confirmed. -/
def approval : Apply.Request := ⟨desk, .production, some "APPLY", true⟩

/-- An identifier of an apply. -/
def tenth : ApplyId := ⟨(id 10).uuid⟩

theorem scripted_reached : Reaches Fresh (start engine []) scripted := by
  refine .step _ (.step _ (.step _ .refl trivial) ?_) trivial
  exact ⟨List.not_mem_nil, rfl⟩

theorem renamed_compiles :
    ∃ script, Script.compile renamed.engine.settings.threshold renamed.engine.ledger.keyColumns
        .postgres none (renamed.engine.ledger.changes desk) = .ok script ∧
      script.isEmpty = false ∧ script.changeIds = [id 1] := ⟨_, rfl, rfl, rfl⟩

theorem scripted_ledger : scripted.engine.ledger = renamed.engine.ledger.visit desk :=
  step_generate_ledger renamed desk .postgres none

/-- The script that is generated is compiled from the same changes again when it is applied, so that
only one input is hashed. -/
theorem scripted_compiles :
    ∃ script, (desk, script) ∈ scripted.scripts ∧ script.isEmpty = false ∧
      script.changeIds = [id 1] ∧ scripted.engine.checkCurrent desk script = .ok () ∧
      Script.CollisionFree (scripted.step (.startApply approval script tenth)).hashed := by
  obtain ⟨script, compiled, nonempty, changeIds⟩ := renamed_compiles
  obtain ⟨dialect, scope⟩ := (Script.compiles_of_compile compiled).target
  have changes : scripted.engine.ledger.changes desk = renamed.engine.ledger.changes desk := by
    rw [Ledger.changes, scripted_ledger, (renamed.engine.ledger.visit_loaded desk).session]
    rfl
  have keyColumns : scripted.engine.ledger.keyColumns = renamed.engine.ledger.keyColumns := by
    rw [scripted_ledger, (renamed.engine.ledger.visit_loaded desk).keyColumns]
  have threshold : scripted.engine.settings.threshold = renamed.engine.settings.threshold := rfl
  have again : Script.compile scripted.engine.settings.threshold scripted.engine.ledger.keyColumns
      script.dialect script.scope (scripted.engine.ledger.changes desk) = .ok script := by
    rw [dialect, scope, changes, keyColumns, threshold]
    exact compiled
  refine ⟨script, List.mem_append_right _ ?_, nonempty, changeIds, checkCurrent_of_compile again, ?_⟩
  · rw [givenScripts_of_compile compiled]
    exact List.mem_singleton.2 rfl
  have first : renamed.engine.hashInputs (.generate desk .postgres none) = _ :=
    compileInputs_of_compile compiled
  have second : scripted.engine.hashInputs (.startApply approval script tenth) = _ :=
    compileInputs_of_compile again
  rw [dialect, scope, show approval.session = desk from rfl, changes] at second
  have all : ∀ w ∈ (scripted.step (.startApply approval script tenth)).hashed,
      w = Script.fingerprintInput .postgres
        (Script.covered none (renamed.engine.ledger.changes desk)) script.sql := by
    intro w hw
    rcases List.mem_append.1 hw with hw | hw
    · rcases List.mem_append.1 hw with hw | hw
      · exact absurd hw List.not_mem_nil
      · rw [first] at hw
        exact List.mem_singleton.1 hw
    · rw [second] at hw
      exact List.mem_singleton.1 hw
  intro u hu v hv _
  rw [all u hu, all v hv]

/-- The script that was generated goes to the database, through the gate. -/
theorem submitted_gated_renamed :
    ∃ script, (desk, script) ∈ scripted.scripts ∧
      (scripted.engine.perform (.startApply approval script tenth)).database.transactions =
        scripted.engine.database.transactions ++ [script.statements] ∧
      ∃ now, Script.compile scripted.engine.settings.threshold scripted.engine.ledger.keyColumns
          script.dialect script.scope (scripted.engine.ledger.changes desk) = .ok now ∧
        script.statements = now.statements := by
  obtain ⟨script, given, nonempty, -, current, noCollision⟩ := scripted_compiles
  obtain ⟨e', eq, database, -⟩ := sent_of_gates (e := scripted.engine) approval tenth rfl rfl rfl
    current nonempty fun _ => rfl
  have called : (scripted.engine.perform (.startApply approval script tenth)).database.transactions ≠
      scripted.engine.database.transactions := by
    rw [eq, database]
    simp [Database.submit]
  have fresh : scripted.Fresh (.startApply approval script tenth) := trivial
  obtain ⟨request, script', id', same, transactions, -, -, -, -, rest⟩ :=
    submitted_gated engine_opened engine_identified scripted_reached fresh noCollision called
  cases same
  exact ⟨script, given, transactions, (rest given).1⟩

end Sample

end DraftLedger
