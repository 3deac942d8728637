import DraftLedger.Proofs.Clocks
import DraftLedger.Proofs.Course
import DraftLedger.Proofs.ExactlyOnce
import DraftLedger.Proofs.Mirror

/-!
# Revisions name versions

The identifier of a change and the time of its last edit are its revision.  A change that takes in an
edit gets a time later than any that it had, so that there are not two versions of one revision, but
for what happens to a change without an edit: an insertion gets its key, and a document is read back.

* `Change.SameRevision`, `Change.Noted` : a version of the revision is known, and none is later than
  the clock.
* `Ledger.Settled` : the store has no change of a session without changes.
* `Ledger.Chronicle` : the invariant, up to a relation between the versions of a revision.
* `Ledger.Chronicle.handles`, `Ledger.Chronicle.course` : what is done through a session keeps it.
* `History.Unbroken`, `History.Reaches.chronicle` : the runs of one ledger.
-/

set_option autoImplicit false

namespace DraftLedger

/-! ## Revisions -/

namespace Change

variable {R : Change → Change → Prop} {past : Change → Prop} {c c' v : Change} {m n : Nat}

/-- The changes are versions of one change with one time. -/
def SameRevision (c c' : Change) : Prop := c.id = c'.id ∧ c.updatedAt = c'.updatedAt

theorem SameRevision.refl (c : Change) : c.SameRevision c := ⟨rfl, rfl⟩

theorem SameRevision.symm (h : c.SameRevision c') : c'.SameRevision c := ⟨h.1.symm, h.2.symm⟩

theorem SameRevision.trans {c'' : Change} (h : c.SameRevision c') (h' : c'.SameRevision c'') :
    c.SameRevision c'' := ⟨h.1.trans h'.1, h.2.trans h'.2⟩

theorem ReadsAs.times (h : c.ReadsAs c') :
    c'.timestamp = c.timestamp ∧ c'.updatedAt = c.updatedAt := by
  unfold ReadsAs Change.ofJson? at h
  simp only [fields?_toJson, Option.bind_eq_bind, Option.bind_some, idOfJson?_text, Cell.choice?,
    ChangeKind.ofName?_name, Table.ofJson?_toJson, Stamp.ofJson?_toJson, Option.bind_eq_some_iff,
    Option.some.injEq] at h
  obtain ⟨key, -, old, -, new, -, timestamp, rfl, updatedAt, rfl, rfl⟩ := h
  exact ⟨rfl, rfl⟩

theorem ReadsAs.sameRevision (h : c.ReadsAs c') : c.SameRevision c' :=
  ⟨h.spec.1.symm, h.times.2.symm⟩

/-- There has been a version of that revision which is related to this one, and no version of the
change was later than a number. -/
structure Noted (R : Change → Change → Prop) (past : Change → Prop) (n : Nat) (c : Change) : Prop where
  version : ∃ v, past v ∧ v.SameRevision c ∧ R v c
  latest : ∀ v, past v → v.id = c.id → v.updatedAt.rank ≤ n

namespace Noted

theorem mono (h : c.Noted R past m) (le : m ≤ n) : c.Noted R past n :=
  ⟨h.version, fun v hv same => Nat.le_trans (h.latest v hv same) le⟩

theorem congr (h : c.Noted R past n) (transitive : ∀ {a b c}, R a b → R b c → R a c)
    (same : c.SameRevision c') (related : R c c') : c'.Noted R past n := by
  obtain ⟨v, hv, revision, version⟩ := h.version
  exact ⟨⟨v, hv, revision.trans same, transitive version related⟩,
    fun w hw here => h.latest w hw (here.trans same.1.symm)⟩

theorem add (h : c.Noted R past n) (v : Change) (le : v.updatedAt.rank ≤ n) :
    c.Noted R (fun w => past w ∨ w = v) n := by
  obtain ⟨w, hw, version⟩ := h.version
  refine ⟨⟨w, .inl hw, version⟩, fun u hu same => ?_⟩
  rcases hu with hu | rfl
  · exact h.latest u hu same
  · exact le

end Noted

end Change

/-- Staging leaves the changes as they are but for one, which is new or has taken in the edit. -/
theorem stage_renews {changes result : List Change} {incoming : Change} {outcome : Outcome}
    (staged : stage changes incoming = .ok (result, outcome)) :
    ∃ new : Change, new.updatedAt = incoming.updatedAt ∧
      (new.id = incoming.id ∨ ∃ existing ∈ changes, new.id = existing.id) ∧
      ∀ c ∈ result, c ∈ changes ∨ c = new := by
  obtain ⟨address, -, ⟨rfl, -⟩ | ⟨noInsertion, before, existing, after, taken, rfl, -, -, takes,
    rfl⟩⟩ := stage_cases staged
  · refine ⟨incoming, rfl, .inl rfl, fun c hc => ?_⟩
    simpa using hc
  · cases taken with
    | none =>
      refine ⟨incoming, rfl, .inl rfl, fun c hc => .inl ?_⟩
      rcases List.mem_append.1 hc with front | back
      · rw [Option.toList_none, List.append_nil] at front
        exact List.mem_append_left _ front
      · exact List.mem_append_right _ (List.mem_cons_of_mem _ back)
    | some changed =>
      refine ⟨changed, Change.takeIn_updatedAt takes noInsertion,
        .inr ⟨existing, by simp, (Change.takeIn_identity takes noInsertion).1⟩, fun c hc => ?_⟩
      simp only [Option.toList_some, List.mem_append, List.mem_cons, List.not_mem_nil, or_false] at hc ⊢
      rcases hc with (front | rfl) | back
      · exact .inl (.inl front)
      · exact .inr rfl
      · exact .inl (.inr (.inr back))

/-- An insertion that gets its key is the only change that is another one afterwards. -/
theorem withAssignedKey_renews {changes result : List Change} {id : ChangeId} {key : Row}
    (assigned : Ledger.withAssignedKey changes id key = .ok result) :
    ∀ c ∈ result, ∃ b ∈ changes, c = b ∨
      b.kind = .insert ∧ c = { b with primaryKey := some key } := by
  unfold Ledger.withAssignedKey at assigned
  split at assigned
  · cases assigned
  next before found after located =>
  obtain ⟨rfl, -⟩ := Ledger.locate?_eq_some located
  split at assigned
  · cases assigned
  next insertion =>
  split at assigned
  · cases assigned
  cases assigned
  have insertion : found.kind = .insert := by simpa using insertion
  intro c hc
  rcases List.mem_append.1 hc with front | back
  · exact ⟨c, List.mem_append_left _ front, .inl rfl⟩
  · rcases List.mem_cons.1 back with rfl | back
    · exact ⟨found, List.mem_append_right _ List.mem_cons_self, .inr ⟨insertion, rfl⟩⟩
    · exact ⟨c, List.mem_append_right _ (List.mem_cons_of_mem _ back), .inl rfl⟩

namespace Ledger

variable {l l' : Ledger} {s t : SessionId} {c c' : Change}

/-! ## Sessions without changes -/

/-- The store has no change of the session if it has none. -/
def Settled (l : Ledger) (s : SessionId) : Prop := l.changes s = [] → l.keptChanges s = []

theorem settled_tracks : Tracks Settled where
  rests {l l' s} rests h none := by
    rw [keptChanges, rests.kept]
    exact h (rests.changes ▸ none)
  written {l s} x answers none := by
    rw [changes, session_written, if_pos rfl] at none
    exact keptChanges_written_nil answers none
  forgets {l l' s} _ forgets h _ := by
    rw [keptChanges_congr forgets.space forgets.store]
    exact h forgets.nothing.2.2

/-! ## The invariant -/

/-- There have been versions of changes, those of one revision being related, and every change is noted:
in memory it is not behind the clock, and in the store neither behind the clock nor behind its own
time.  If the store does not fail, only the sessions that are not in memory matter there. -/
structure Chronicle (R : Change → Change → Prop) (fails : Prop) (issued : List ChangeId)
    (past : Change → Prop) (l : Ledger) : Prop where
  alike : ∀ v w, past v → past w → v.SameRevision w → R v w
  issued : ∀ v, past v → v.id ∈ issued
  memory : ∀ s x, l.sessions.get? s = some x → ∀ c ∈ x.changes, c.Noted R past l.clock.rank
  stored : ∀ s, fails ∨ l.sessions.get? s = none → ∀ c ∈ l.keptChanges s, ∀ n, l.clock.rank ≤ n →
    c.updatedAt.rank ≤ n → c.Noted R past n
  settled : fails ∨ ∃ listing, l.Tracked Settled listing

/-- What versions of one revision are to each other: documents may come in between if the store
fails. -/
structure Tolerates (R : Change → Change → Prop) (fails : Prop) : Prop where
  equivalence : Equivalence R
  readBack : fails → ∀ c c', c.ReadsAs c' → R c c'

/-- The keys that a move assigns are tolerated. -/
def ToleratesKeys (R : Change → Change → Prop) (m : Engine.Move) : Prop :=
  ∀ s id key, m = .assignPrimaryKey s id key → ∀ c : Change, c.kind = .insert →
    R c { c with primaryKey := some key }

namespace Chronicle

variable {R : Change → Change → Prop} {fails : Prop} {issued issued' : List ChangeId}
  {past : Change → Prop} {m : Engine.Move}

theorem live (h : Chronicle R fails issued past l) (hc : c ∈ l.changes s) :
    ∃ n, c.Noted R past n := by
  cases present : l.sessions.get? s with
  | some x =>
    rw [changes_of_present present] at hc
    exact ⟨_, h.memory s x present c hc⟩
  | none =>
    exact ⟨_, h.stored s (.inr present) c (mem_keptChanges_of_absent present hc)
      (l.clock.rank + c.updatedAt.rank) (Nat.le_add_right _ _) (Nat.le_add_left _ _)⟩

theorem related (tolerates : Tolerates R fails) (h : Chronicle R fails issued past l)
    {past' : Change → Prop} (h' : Chronicle R fails issued' past' l') (more : ∀ v, past v → past' v)
    (hc : c ∈ l.changes s) (hc' : c' ∈ l'.changes t) (same : c.SameRevision c') : R c c' := by
  obtain ⟨_, noted⟩ := h.live hc
  obtain ⟨_, noted'⟩ := h'.live hc'
  obtain ⟨v, hv, revision, version⟩ := noted.version
  obtain ⟨w, hw, revision', version'⟩ := noted'.version
  have versions : R v w :=
    h'.alike v w (more v hv) hw ((revision.trans same).trans revision'.symm)
  have equivalence := tolerates.equivalence
  exact equivalence.trans (equivalence.symm version) (equivalence.trans versions version')

theorem of_issued (h : Chronicle R fails issued past l) (more : issued ⊆ issued') :
    Chronicle R fails issued' past l :=
  ⟨h.alike, fun v hv => more (h.issued v hv), h.memory, h.stored, h.settled⟩

theorem keyColumns (h : Chronicle R fails issued past l) (keyColumns : KeyColumns) :
    Chronicle R fails issued past { l with keyColumns } := by
  have rests (s : SessionId) : Rests s l { l with keyColumns } := ⟨rfl, rfl, rfl, rfl⟩
  exact ⟨h.alike, h.issued, h.memory, h.stored, h.settled.imp_right (.imp fun _ tracked =>
    ⟨tracked.answers, tracked.listing, fun s => settled_tracks.rests (rests s) (tracked.each s)⟩)⟩

theorem load (h : Chronicle R fails issued past l) (s : SessionId) :
    Chronicle R fails issued past (l.load s) := by
  have loaded := l.load_loaded s
  obtain ⟨ahead, seen⟩ := l.rank_load s
  refine ⟨h.alike, h.issued, fun t x present c hc => ?_, fun t needed c hc n here there => ?_,
    h.settled.imp_right (.imp fun _ tracked => tracked.loaded settled_tracks loaded)⟩
  · by_cases same : t = s
    · subst same
      rw [get?_load] at present
      obtain rfl := Option.some.inj present
      cases absent : l.sessions.get? t with
      | some x =>
        rw [session, absent] at hc
        exact (h.memory t x absent c hc).mono ahead
      | none =>
        have kept := mem_keptChanges_of_absent absent hc
        exact h.stored t (.inr absent) c kept _ ahead (seen absent c hc)
    · rw [get?_load_of_ne l same] at present
      exact (h.memory t x present c hc).mono ahead
  · rw [keptChanges, loaded.kept?] at hc
    refine h.stored t (needed.imp_right fun absent => ?_) c hc n (Nat.le_trans ahead here) there
    rcases loaded.sessions t with same | ⟨absent', -⟩
    · exact same ▸ absent
    · exact absent'

/-- A session in memory may be replaced by one whose changes are noted, if that is written. -/
theorem written (tolerates : Tolerates R fails) (h : Chronicle R fails issued past l) {x : Session}
    (noted : ∀ c ∈ x.changes, c.Noted R past l.clock.rank) :
    Chronicle R fails issued past (l.written s x) := by
  have clock : (l.written s x).clock = l.clock := by
    obtain ⟨store, eq, -⟩ := persist_eq (l.put s x) s
    rw [Ledger.written, eq]
    rfl
  refine ⟨h.alike, h.issued, fun t y present c hc => ?_, fun t needed c hc n here there => ?_,
    h.settled.imp_right (.imp fun _ tracked => tracked.written settled_tracks x)⟩
  · rw [clock]
    rw [get?_sessions_written] at present
    split at present
    · obtain rfl := Option.some.inj present
      exact noted c hc
    · exact h.memory t y present c hc
  · rw [clock] at here
    rw [get?_sessions_written] at needed
    by_cases same : t = s
    · subst same
      have fails := needed.resolve_right (by simp)
      cases kept : (l.written t x).kept? t with
      | none => rw [keptChanges, kept] at hc; cases hc
      | some d =>
        rw [keptChanges, kept] at hc
        rcases kept?_written x kept with ⟨-, before⟩ | ⟨-, -, read⟩
        · exact h.stored t (.inl fails) c (by rw [keptChanges, before]; exact hc) n here there
        · refine forall_mem_of_forall₂ read (fun b b' reads hb => ?_) (fun b hb => noted b hb) c hc
          exact (hb.mono here).congr tolerates.equivalence.trans reads.sameRevision
            (tolerates.readBack fails b b' reads)
    · rw [if_neg same] at needed
      rw [keptChanges, kept?_written_of_ne x same] at hc
      exact h.stored t needed c hc n here there

theorem mark (h : Chronicle R fails issued past l) {x : Session} (frozen : Bool)
    (present : l.sessions.get? s = some x) :
    Chronicle R fails issued past (l.put s { x with frozen }) := by
  have session : l.session s = x := by rw [Ledger.session, present]
  refine ⟨h.alike, h.issued, fun t y found c hc => ?_, fun t needed => ?_,
    h.settled.imp_right (.imp fun _ tracked => tracked.put settled_tracks (by rw [isActive, session])
      (by rw [Ledger.changes, session]))⟩
  · simp only [put, Dict.get?_insert] at found
    split at found
    · obtain rfl := Option.some.inj found
      exact h.memory s x present c hc
    · exact h.memory t y found c hc
  · refine h.stored t (needed.imp_right fun absent => ?_)
    simp only [put, Dict.get?_insert] at absent
    split at absent
    · cases absent
    · exact absent

/-- A session without changes may be forgotten: if the store does not fail, it has none of it. -/
theorem forget (h : Chronicle R fails issued past l) {x : Session}
    (present : l.sessions.get? s = some x) (vacant : x.isVacant = true) :
    Chronicle R fails issued past { l with sessions := l.sessions.erase s } := by
  have session : l.session s = x := by rw [Ledger.session, present]
  have forgets : Forgets s l { l with sessions := l.sessions.erase s } :=
    ⟨rfl, rfl, rfl, session.symm ▸ vacant, by simp [Dict.get?_erase],
      fun t other => by simp [Dict.get?_erase, other]⟩
  refine ⟨h.alike, h.issued, fun t y found c hc => ?_, fun t needed c hc => ?_,
    h.settled.imp_right (.imp fun _ tracked => tracked.forgets settled_tracks forgets)⟩
  · simp only [Dict.get?_erase] at found
    split at found
    · cases found
    · exact h.memory t y found c hc
  · have kept : c ∈ l.keptChanges t := hc
    rcases h.settled with fails | ⟨listing, tracked⟩
    · exact h.stored t (.inl fails) c kept
    by_cases same : t = s
    · subst same
      rw [tracked.each t forgets.nothing.2.2] at kept
      cases kept
    · exact h.stored t (needed.imp_right fun absent => forgets.others t same ▸ absent) c kept

/-- What is done through a session without staging anything keeps the invariant. -/
theorem handles (tolerates : Tolerates R fails) (keys : ToleratesKeys R m) (moved : Handles m s l l')
    (h : Chronicle R fails issued past l) : Chronicle R fails issued past l' := by
  induction moved with
  | refl => exact h
  | load => exact h.load s
  | @thin l x y present _ fewer =>
    exact h.written tolerates fun c hc => h.memory s y present c (fewer.subset hc)
  | @assign l y id key changes assigns present assigned =>
    refine h.written tolerates fun c hc => ?_
    obtain ⟨b, hb, same | ⟨insertion, rekeyed⟩⟩ := withAssignedKey_renews assigned c hc
    · exact same ▸ h.memory s y present b hb
    · subst rekeyed
      exact (h.memory s y present b hb).congr tolerates.equivalence.trans ⟨rfl, rfl⟩
        (keys s id key assigns b insertion)
  | mark frozen present => exact h.mark frozen present
  | forget present vacant => exact h.forget present vacant
  | trans _ _ ih ih' => exact ih' (ih h)

/-- A version that is later than all before is noted, with the clock at its time. -/
theorem grown (tolerates : Tolerates R fails) (h : Chronicle R fails issued past l) {new : Change}
    (later : l.clock.rank < new.updatedAt.rank) (given : new.id ∈ issued)
    (latest : ∀ v, past v → v.id = new.id → v.updatedAt.rank ≤ l.clock.rank) :
    Chronicle R fails issued (fun v => past v ∨ v = new) { l with clock := ⟨new.updatedAt⟩ } ∧
      new.Noted R (fun v => past v ∨ v = new) new.updatedAt.rank := by
  have le := Nat.le_of_lt later
  have older {v : Change} (hv : past v) : ¬ v.SameRevision new := fun same => by
    have before := latest v hv same.1
    rw [same.2] at before
    omega
  refine ⟨⟨?_, ?_, fun s x present c hc => ?_, fun s needed c hc n here there => ?_,
    h.settled.imp_right (.imp fun _ tracked =>
      tracked.loaded settled_tracks (withClock_loaded l _))⟩,
    ⟨new, .inr rfl, .refl new, tolerates.equivalence.refl new⟩, ?_⟩
  · rintro v w (hv | rfl) (hw | rfl) same
    · exact h.alike v w hv hw same
    · exact absurd same (older hv)
    · exact absurd same.symm (older hw)
    · exact tolerates.equivalence.refl _
  · rintro v (hv | rfl)
    · exact h.issued v hv
    · exact given
  · exact ((h.memory s x present c hc).mono le).add new (Nat.le_refl _)
  · exact (h.stored s needed c hc n (Nat.le_trans le here) there).add new here
  · rintro v (hv | rfl) same
    · exact Nat.le_trans (latest v hv same) le
    · exact Nat.le_refl _

theorem ticked (h : Chronicle R fails issued past l) {clock : Clock}
    (ahead : l.clock.rank ≤ clock.rank) : Chronicle R fails issued past { l with clock } :=
  ⟨h.alike, h.issued, fun s x present c hc => (h.memory s x present c hc).mono ahead,
    fun s needed c hc n here there => h.stored s needed c hc n (Nat.le_trans ahead here) there,
    h.settled.imp_right (.imp fun _ tracked =>
      tracked.loaded settled_tracks (withClock_loaded l clock))⟩

/-- What a move does through its session keeps the invariant, with a further version if an edit is
staged, if that gets an identifier that was not given before. -/
theorem course (tolerates : Tolerates R fails) (keys : ToleratesKeys R m) (moved : Course m s l l')
    (h : Chronicle R fails issued past l)
    (fresh : ∀ edit id now, m = .record s edit id now → id ∉ issued) :
    ∃ past', (∀ v, past v → past' v) ∧ Chronicle R fails (issued ++ m.issues) past' l' := by
  have loaded := h.load s
  cases moved with
  | still moved =>
    exact ⟨past, fun v hv => hv,
      (h.handles tolerates keys moved).of_issued (List.subset_append_left _ _)⟩
  | ticked _ reading =>
    exact ⟨past, fun v hv => hv, (loaded.ticked
      (Nat.le_of_lt (Clock.rank_next? reading))).of_issued (List.subset_append_left _ _)⟩
  | @staged edit id now stamp changes outcome _ records reading staged rest =>
    have fresh := fresh edit id now records
    obtain ⟨new, time, origin, renewed⟩ := stage_renews staged
    have time : new.updatedAt = stamp := time
    have present := l.get?_load s
    have before (c : Change) (hc : c ∈ l.changes s) : c.Noted R past (l.load s).clock.rank :=
      loaded.memory s _ present c hc
    have latest : new.id ∈ issued ++ m.issues ∧
        ∀ v, past v → v.id = new.id → v.updatedAt.rank ≤ (l.load s).clock.rank := by
      rcases origin with own | ⟨existing, mem, same⟩
      · have own : new.id = id := own
        refine ⟨by simp [own, records, Engine.Move.issues], fun v hv same => ?_⟩
        exact absurd (own ▸ same ▸ h.issued v hv) fresh
      · have noted := before existing mem
        obtain ⟨v, hv, revision, -⟩ := noted.version
        refine ⟨List.mem_append_left _ ?_, fun v hv eq => noted.latest v hv (eq.trans same)⟩
        rw [same, ← revision.1]
        exact h.issued v hv
    have later : (l.load s).clock.rank < new.updatedAt.rank := time ▸ Clock.rank_next? reading
    obtain ⟨grown, noted⟩ := (loaded.of_issued (List.subset_append_left _ m.issues)).grown tolerates
      later latest.1 latest.2
    refine ⟨fun v => past v ∨ v = new, fun v hv => .inl hv, handles tolerates keys rest ?_⟩
    rw [← time]
    refine grown.written tolerates fun c hc => ?_
    rcases renewed c hc with old | rfl
    · exact ((before c old).mono (Nat.le_of_lt later)).add new (Nat.le_refl _)
    · exact noted

theorem storage (h : Chronicle R fails issued past l) {refusal : Option String}
    (served : fails ∨ refusal = none) :
    Chronicle R fails issued past { l with store.refusal := refusal } := by
  by_cases always : fails
  · exact ⟨h.alike, h.issued, h.memory, h.stored, .inl always⟩
  · obtain ⟨listing, tracked⟩ := h.settled.resolve_left always
    have same : ({ l with store.refusal := refusal } : Ledger) = l := by
      rw [served.resolve_left always, ← tracked.answers]
    rw [same]
    exact h

/-- The changes that are live may begin a chronicle of their own, since they can be told apart. -/
theorem again (h : Chronicle R False issued past l) {gone : List ChangeId}
    (distinct : l.Distinct gone) :
    Chronicle Eq False issued (fun c => ∃ s, c ∈ l.changes s) l := by
  have one {v w : Change} (hv : ∃ s, v ∈ l.changes s) (hw : ∃ s, w ∈ l.changes s)
      (same : v.id = w.id) : v = w := by
    obtain ⟨s, hv⟩ := hv
    obtain ⟨t, hw⟩ := hw
    by_cases here : s = t
    · subst here
      exact List.inj_on_of_nodup_map (distinct.nodup s _ .memory) hv hw same
    · exact absurd (List.mem_map.2 ⟨w, hw, same.symm⟩)
        (distinct.apart s t here _ _ .memory .memory (List.mem_map_of_mem hv))
  have noted {c : Change} {n : Nat} (hc : ∃ s, c ∈ l.changes s) (le : c.updatedAt.rank ≤ n) :
      c.Noted Eq (fun c => ∃ s, c ∈ l.changes s) n :=
    ⟨⟨c, hc, .refl c, rfl⟩, fun v hv same => one hv hc same ▸ le⟩
  refine ⟨fun v w hv hw same => one hv hw same.1, fun v ⟨s, hv⟩ => ?_, fun s x present c hc => ?_,
    fun s needed c hc n here there => ?_, h.settled⟩
  · obtain ⟨n, known⟩ := h.live hv
    obtain ⟨w, hw, revision, -⟩ := known.version
    exact revision.1 ▸ h.issued w hw
  · have known := h.memory s x present c hc
    obtain ⟨w, hw, revision, -⟩ := known.version
    refine noted ⟨s, (changes_of_present present).symm ▸ hc⟩ ?_
    rw [← revision.2]
    exact known.latest w hw revision.1
  · obtain ⟨listing, tracked⟩ := h.settled.resolve_left not_false
    refine noted ⟨s, ?_⟩ there
    rw [changes, session, needed.resolve_left not_false, recovered_changes, if_pos tracked.answers]
    exact hc

end Chronicle

end Ledger

/-! ## Runs -/

namespace History

open Engine Ledger

variable {R : Change → Change → Prop} {fails : Prop} {past : Change → Prop} {h h' : History}
  {m : Move}

/-- The ledger goes on, and a change is given a new identifier. -/
def Unbroken (h : History) (m : Move) : Prop := h.Fresh m ∧ m ≠ .reopen

/-- The store goes on answering as well. -/
def Served (h : History) (m : Move) : Prop :=
  h.Unbroken m ∧ ∀ refusal, m = .storage refusal → refusal = none

/-- On a store with changes that can be told apart, the chronicle begins with them. -/
theorem chronicle_start {settings : Settings} {store : Store} {database : Database} {e : Engine}
    {issued : List ChangeId} (opened : Engine.opened settings store database = .ok e)
    (identified : e.ledger.Identified issued) (tolerates : Tolerates R fails)
    (answers : fails ∨ store.refusal = none) :
    e.ledger.Chronicle R fails issued fun c => ∃ s, c ∈ e.ledger.keptChanges s := by
  obtain rfl := opened_eq opened
  let l := Ledger.onStore store settings.storagePrefix
  have one {v w : Change} : (∃ s, v ∈ l.keptChanges s) → (∃ s, w ∈ l.keptChanges s) →
      v.id = w.id → v = w := fun ⟨_, hv⟩ ⟨_, hw⟩ same => identified.eq_of_id hv hw same
  refine ⟨fun v w hv hw same => ?_, fun v ⟨s, hv⟩ => identified.mem s v hv,
    fun s x present => ?_, fun s _ c hc n _ there => ?_, answers.imp_right fun answers => ?_⟩
  · rw [one hv hw same.1]
    exact tolerates.equivalence.refl w
  · simp [Ledger.onStore] at present
  · exact ⟨⟨c, ⟨s, hc⟩, .refl c, tolerates.equivalence.refl c⟩,
      fun v hv same => one hv ⟨s, hc⟩ same ▸ there⟩
  · have recovered (s : SessionId) : l.changes s = l.keptChanges s :=
      (l.recovered_changes s).trans (if_pos answers)
    exact ⟨store.listing, answers, rfl, fun s none => (recovered s).symm.trans none⟩

/-- Every move on the same ledger keeps the invariant. -/
theorem Unbroken.chronicle (unbroken : h.Unbroken m) (tolerates : Tolerates R fails)
    (keys : ToleratesKeys R m) (served : fails ∨ ∀ refusal, m = .storage refusal → refusal = none)
    (chronicle : h.engine.ledger.Chronicle R fails h.issued past) :
    ∃ past', (∀ v, past v → past' v) ∧
      (h.step m).engine.ledger.Chronicle R fails (h.step m).issued past' := by
  cases about : h.engine.sessionOf? m with
  | some s =>
    refine chronicle.course tolerates keys (h.engine.perform_course about) ?_
    rintro edit id now rfl
    exact unbroken.1.1
  | none =>
    have more := chronicle.of_issued (List.subset_append_left _ m.issues)
    refine ⟨past, fun v hv => hv, ?_⟩
    rcases h.engine.perform_elsewhere about with ⟨keyColumns, eq⟩ | ⟨refusal, rfl⟩ | rfl
    · have keyed := more.keyColumns keyColumns
      rw [← eq] at keyed
      exact keyed
    · exact more.storage (served.imp_right fun served => served refusal rfl)
    · exact absurd rfl unbroken.2

theorem Reaches.chronicle {allowed : History → Move → Prop} (reaches : Reaches allowed h h')
    (tolerates : Tolerates R fails)
    (may : ∀ h m, allowed h m → h.Unbroken m ∧ ToleratesKeys R m ∧
      (fails ∨ ∀ refusal, m = .storage refusal → refusal = none))
    (chronicle : h.engine.ledger.Chronicle R fails h.issued past) :
    ∃ past', (∀ v, past v → past' v) ∧ h'.engine.ledger.Chronicle R fails h'.issued past' := by
  induction reaches with
  | refl => exact ⟨past, fun v hv => hv, chronicle⟩
  | step m _ allows ih =>
    obtain ⟨past₁, first, chronicle⟩ := ih
    obtain ⟨unbroken, keys, served⟩ := may _ m allows
    obtain ⟨past₂, second, chronicle⟩ := unbroken.chronicle tolerates keys served chronicle
    exact ⟨past₂, fun v hv => second v (first v hv), chronicle⟩

end History

end DraftLedger
