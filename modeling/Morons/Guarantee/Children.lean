import Morons.Tool.Children

/-!
# Child journals are chains

Every journal is numbered without a gap, each entry names the digest of the one
before it, and nothing follows an entry that ends it.  The row of a child says
what its last entry says, so a restart finds every journal in order and ends
the open ones.
-/

namespace Morons

open Attempt ChildStore

variable {sha256 : List UInt8 → ChildDigest} {s t : ChildStore} {callId : ToolCallId}
  {child ordinal : Nat} {kind : ChildEntryKind} {payload : List UInt8}
  {previous digest : ChildDigest} {entry : ChildEntry} {rows older : List ChildEntry}
  {run : ChildRun}

/-! ## Kinds -/

theorem validTransition_next {a b : Nat} (h : validTransition a b = true) : 1 ≤ b ∧ b ≤ 9 := by
  simp only [validTransition, Bool.or_eq_true, Bool.and_eq_true, decide_eq_true_eq,
    Prod.mk.injEq] at h
  omega

/-- Nothing follows an end. -/
theorem validTransition_previous {a b : Nat} (h : validTransition a b = true) : a ≤ 7 := by
  simp only [validTransition, Bool.or_eq_true, Bool.and_eq_true, decide_eq_true_eq,
    Prod.mk.injEq] at h
  omega

/-- An open child can be interrupted. -/
theorem validTransition_interrupted {a : Nat} (hlow : 1 ≤ a) (hhigh : a ≤ 7) :
    validTransition a 9 = true := by
  simp [validTransition, hlow, hhigh]

theorem impliedState_open {a : Nat} (h : impliedState a = 1) : a ≠ 8 ∧ a ≠ 9 := by
  constructor
  · rintro rfl
    cases h
  · rintro rfl
    cases h

/-! ## Chains -/

/-- The kind of the newest entry, 0 in front of the first. -/
def lastKind (rows : List ChildEntry) : Nat := (rows.head?.map (·.kind)).getD 0

def lastDigest (rows : List ChildEntry) : ChildDigest :=
  (rows.head?.map (·.digest)).getD zeroDigest

/-- A journal, the newest entry first: every entry fits the ones before it. -/
def Chain (sha256 : List UInt8 → ChildDigest) (callId : ToolCallId) (child : Nat) :
    List ChildEntry → Prop
  | [] => True
  | entry :: older =>
    entry.ordinal = older.length + 1 ∧ entry.previousDigest = lastDigest older ∧
      validTransition (lastKind older) entry.kind = true ∧ entry.payload ≠ [] ∧
      entry.payload.length ≤ maxChildEntryBytes ∧
      entry.digest = entryDigest sha256 callId child entry.ordinal entry.kind entry.payload
        entry.previousDigest ∧
      Chain sha256 callId child older

theorem Chain.below (h : Chain sha256 callId child rows) :
    Ledger.Below ChildEntry.ordinal (rows.length + 1) rows := by
  induction rows with
  | nil => exact Ledger.below_nil
  | cons entry older ih =>
    obtain ⟨hordinal, -, -, -, -, -, hchain⟩ := h
    refine (ih hchain).cons (Nat.le_of_eq hordinal.symm) ?_
    rw [hordinal, List.length_cons]
    omega

/-- The head that an append reads is the newest entry. -/
theorem Chain.latest (h : Chain sha256 callId child rows) :
    Ledger.latest ChildEntry.ordinal rows = rows.head? :=
  h.below.latest_head

theorem Chain.ordered (h : Chain sha256 callId child rows) :
    Ledger.ordered ChildEntry.ordinal rows = rows.reverse :=
  h.below.ordered_perm (List.Perm.refl rows)

theorem Chain.head_ordinal (h : Chain sha256 callId child rows) :
    (rows.head?.map (·.ordinal)).getD 0 = rows.length := by
  cases rows with
  | nil => rfl
  | cons entry older => exact h.1

/-- What an append reads of the newest entry. -/
theorem Chain.head (h : Chain sha256 callId child rows) :
    (rows.head?.map fun entry => (entry.ordinal, entry.kind, entry.digest)).getD
      (0, 0, zeroDigest) = (rows.length, lastKind rows, lastDigest rows) := by
  rw [← h.head_ordinal, lastKind, lastDigest]
  cases rows.head? <;> rfl

theorem Chain.suffix {newer : List ChildEntry} (h : Chain sha256 callId child (newer ++ older)) :
    Chain sha256 callId child older := by
  induction newer with
  | nil => exact h
  | cons entry newer ih => exact ih h.2.2.2.2.2.2

theorem Chain.lastKind_le (h : Chain sha256 callId child rows) (hrows : rows ≠ []) :
    1 ≤ lastKind rows ∧ lastKind rows ≤ 9 := by
  cases rows with
  | nil => exact absurd rfl hrows
  | cons entry older => exact validTransition_next h.2.2.1

/-- An entry that ends a journal is its newest one. -/
theorem Chain.end_last (h : Chain sha256 callId child rows) (hentry : entry ∈ rows)
    (hend : 8 ≤ entry.kind) : 8 ≤ lastKind rows := by
  obtain ⟨newer, older, rfl⟩ := List.append_of_mem hentry
  induction newer using List.reverseRecOn with
  | nil => exact hend
  | append_singleton newer next _ =>
    rw [List.append_assoc] at h
    have hnext : validTransition entry.kind next.kind = true := h.suffix.2.2.1
    have := validTransition_previous hnext
    omega

/-- The number and the links of the entries in order. -/
structure WellFormedJournal (journal : List ChildEntry) : Prop where
  numbered : journal.map (·.ordinal) = List.range' 1 journal.length
  linked : ∀ entry before, (entry, before) ∈ Ledger.withPrevious journal →
    entry.previousDigest = (before.map (·.digest)).getD zeroDigest ∧
      validTransition ((before.map (·.kind)).getD 0) entry.kind = true

theorem Chain.wellFormed (h : Chain sha256 callId child rows) :
    WellFormedJournal (Ledger.ordered ChildEntry.ordinal rows) := by
  rw [h.ordered]
  constructor
  · induction rows with
    | nil => rfl
    | cons entry older ih =>
      rw [List.reverse_cons, List.map_append, ih h.2.2.2.2.2.2, List.length_append,
        List.length_reverse, List.length_singleton, List.range'_concat]
      simp [h.1, Nat.add_comm]
  · intro entry before hmem
    obtain ⟨newer, older, hsplit, rfl⟩ := Ledger.mem_withPrevious_reverse hmem
    rw [hsplit] at h
    obtain ⟨-, hprevious, hkind, -⟩ := h.suffix
    exact ⟨hprevious, hkind⟩

/-! ## What one append does -/

/-- What an append checked, and the tables it leaves. -/
structure Appended (sha256 : List UInt8 → ChildDigest) (s : ChildStore) (callId : ToolCallId)
    (child ordinal : Nat) (kind : ChildEntryKind) (payload : List UInt8)
    (previous digest : ChildDigest) (t : ChildStore) : Prop where
  ranged : 1 ≤ child ∧ child ≤ 3
  sized : payload ≠ [] ∧ payload.length ≤ maxChildEntryBytes
  next : ordinal = (s.entries callId child).length + 1
  linked : previous = lastDigest (s.entries callId child)
  follows : validTransition (lastKind (s.entries callId child)) kind.toRecord = true
  digested : digest = entryDigest sha256 callId child ordinal kind.toRecord payload previous
  /-- A start makes the row of the child, any other kind finds it open. -/
  runs : (kind = .start ∧ (∀ run ∈ s.childRuns, run.key ≠ (callId, child)) ∧
      t.childRuns = ⟨callId, child, 1⟩ :: s.childRuns) ∨
    (kind ≠ .start ∧ (∃ run ∈ s.childRuns, run.key = (callId, child) ∧ run.state = 1) ∧
      t.childRuns = if kind = .terminal ∨ kind = .interrupted then
        Table.modify ChildRun.key (callId, child)
          (fun run => { run with state := if kind = .terminal then 2 else 3 }) s.childRuns
      else s.childRuns)
  journal : t.childJournal = ⟨callId, child, ordinal, kind.toRecord, payload, previous, digest⟩ ::
    s.childJournal

theorem admitEntry_ok (h : s.admitEntry callId child kind = .ok t) :
    t.childJournal = s.childJournal ∧
      ((kind = .start ∧ (∀ run ∈ s.childRuns, run.key ≠ (callId, child)) ∧
        t.childRuns = ⟨callId, child, 1⟩ :: s.childRuns) ∨
      (kind ≠ .start ∧ (∃ run ∈ s.childRuns, run.key = (callId, child) ∧ run.state = 1) ∧
        t.childRuns = s.childRuns)) := by
  unfold admitEntry at h
  split at h
  case isTrue hstart =>
    simp only [bind_ok, require_ok, exists_const, pure_ok, Option.isNone_iff_eq_none,
      Table.find_none] at h
    obtain ⟨-, hnone, rfl⟩ := h
    exact ⟨rfl, .inl ⟨hstart, hnone, rfl⟩⟩
  case isFalse hstart =>
    simp only [bind_ok, require_ok, demand_ok, exists_const, pure_ok] at h
    obtain ⟨run, hfind, hstate, rfl⟩ := h
    exact ⟨rfl, .inr ⟨hstart, ⟨run, Table.find_mem hfind, Table.find_key hfind, hstate⟩, rfl⟩⟩

theorem appended_ok (hchain : Chain sha256 callId child (s.entries callId child))
    (h : s.appended sha256 callId child ordinal kind payload previous = .ok (digest, t)) :
    Appended sha256 s callId child ordinal kind payload previous digest t := by
  simp only [appended, hchain.latest, hchain.head, bind_ok, require_ok, exists_const,
    sequenceToSql, pure_ok, Prod.mk.injEq] at h
  obtain ⟨⟨hlow, hhigh, hsized⟩, -, ⟨hnext, hlinked, hfollows⟩, u, hadmit, rfl, rfl⟩ := h
  obtain ⟨hjournal, hruns⟩ := admitEntry_ok hadmit
  refine ⟨⟨hlow, hhigh⟩, hsized, hnext.symm, hlinked, hfollows, rfl, ?_, ?_⟩
  · obtain ⟨rfl, hnone, hruns⟩ | ⟨hstart, hopen, hruns⟩ := hruns
    · exact .inl ⟨rfl, hnone, by simp [closeChild, hruns]⟩
    · refine .inr ⟨hstart, hopen, ?_⟩
      unfold closeChild
      split <;> simp [hruns]
  · unfold closeChild
    split <;> simp [hjournal]

/-- A journal grows by the entry, and the others stay. -/
theorem Appended.entries (h : Appended sha256 s callId child ordinal kind payload previous digest t) :
    t.entries callId child =
      ⟨callId, child, ordinal, kind.toRecord, payload, previous, digest⟩ ::
        s.entries callId child := by
  rw [ChildStore.entries, h.journal, List.filter_cons_of_pos (by simp [ChildEntry.key])]
  rfl

theorem Appended.entries_other
    (h : Appended sha256 s callId child ordinal kind payload previous digest t)
    {callId' : ToolCallId} {child' : Nat} (hne : (callId', child') ≠ (callId, child)) :
    t.entries callId' child' = s.entries callId' child' := by
  rw [ChildStore.entries, h.journal, List.filter_cons_of_neg]
  · rfl
  · simpa [ChildEntry.key] using fun h₁ h₂ => hne (by rw [h₁, h₂])

/-! ## What every step keeps -/

/-- The journals are chains, and the rows of the children say how they end. -/
structure ChildrenSound (sha256 : List UInt8 → ChildDigest) (s : ChildStore) : Prop where
  keyed : Table.Keyed ChildRun.key s.childRuns
  ranged : ∀ run ∈ s.childRuns, 1 ≤ run.child ∧ run.child ≤ 3
  chained : ∀ callId child, Chain sha256 callId child (s.entries callId child)
  states : ∀ run ∈ s.childRuns, s.entries run.callId run.child ≠ [] ∧
    run.state = impliedState (lastKind (s.entries run.callId run.child))
  owned : ∀ entry ∈ s.childJournal, ∃ run ∈ s.childRuns, run.key = entry.key

theorem mem_entries : entry ∈ s.entries callId child ↔
    entry ∈ s.childJournal ∧ entry.key = (callId, child) := by
  simp [ChildStore.entries]

/-- A chain goes on with an entry that an append has checked. -/
theorem Appended.chain (h : Appended sha256 s callId child ordinal kind payload previous digest t)
    (hchain : Chain sha256 callId child (s.entries callId child)) :
    Chain sha256 callId child (t.entries callId child) := by
  rw [h.entries]
  exact ⟨h.next, h.linked, h.follows, h.sized.1, h.sized.2, h.digested, hchain⟩

theorem impliedState_toRecord (kind : ChildEntryKind) :
    impliedState kind.toRecord =
      if kind = .terminal ∨ kind = .interrupted then (if kind = .terminal then 2 else 3) else 1 := by
  cases kind <;> rfl

/-- The rows of the children after an append: the one of its child says what the
entry says, and the others stay. -/
theorem Appended.mem_runs (hs : Table.Keyed ChildRun.key s.childRuns)
    (h : Appended sha256 s callId child ordinal kind payload previous digest t) :
    (∀ run, run ∈ t.childRuns ↔ (run ∈ s.childRuns ∧ run.key ≠ (callId, child)) ∨
      run = ⟨callId, child, impliedState kind.toRecord⟩) ∧
      Table.Keyed ChildRun.key t.childRuns := by
  obtain ⟨rfl, hfresh, hruns⟩ | ⟨hstart, ⟨old, hold, hkey, hopen⟩, hruns⟩ := h.runs
  · rw [hruns]
    constructor
    · intro run
      rw [List.mem_cons]
      constructor
      · rintro (rfl | hrun)
        · exact .inr rfl
        · exact .inl ⟨hrun, hfresh run hrun⟩
      · rintro (⟨hrun, -⟩ | rfl)
        · exact .inr hrun
        · exact .inl rfl
    · refine List.nodup_cons.mpr ⟨?_, hs⟩
      intro hmem
      obtain ⟨run, hrun, hsame⟩ := List.mem_map.mp hmem
      exact hfresh run hrun hsame
  · have hopened : old = ⟨callId, child, 1⟩ := by
      obtain ⟨c, n, state⟩ := old
      obtain ⟨rfl, rfl⟩ := Prod.mk.inj hkey
      obtain rfl : state = 1 := hopen
      rfl
    have hunique (run : ChildRun) (hrun : run ∈ s.childRuns) (hsame : run.key = (callId, child)) :
        run = ⟨callId, child, 1⟩ :=
      (Table.eq_of_key hs hrun hold (hsame.trans hkey.symm)).trans hopened
    rw [hruns, impliedState_toRecord]
    split
    case isTrue =>
      refine ⟨?_, hs.modify fun _ => rfl⟩
      intro run
      rw [Table.mem_modify]
      constructor
      · rintro ⟨before, hbefore, rfl⟩
        split
        case isTrue hsame =>
          rw [hunique before hbefore hsame]
          exact .inr rfl
        case isFalse hne => exact .inl ⟨hbefore, hne⟩
      · rintro (⟨hrun, hne⟩ | rfl)
        · exact ⟨run, hrun, by rw [if_neg hne]⟩
        · exact ⟨old, hold, by rw [if_pos hkey, hopened]⟩
    case isFalse =>
      refine ⟨?_, hs⟩
      intro run
      constructor
      · intro hrun
        by_cases hsame : run.key = (callId, child)
        · exact .inr (hunique run hrun hsame)
        · exact .inl ⟨hrun, hsame⟩
      · rintro (⟨hrun, -⟩ | rfl)
        · exact hrun
        · rwa [← hopened]

/-- **Append step.** -/
theorem ChildrenSound.append (hs : ChildrenSound sha256 s)
    (h : Appended sha256 s callId child ordinal kind payload previous digest t) :
    ChildrenSound sha256 t := by
  obtain ⟨hmem, hkeyed⟩ := h.mem_runs hs.keyed
  refine ⟨hkeyed, ?_, ?_, ?_, ?_⟩
  · intro run hrun
    obtain ⟨hold, -⟩ | rfl := (hmem run).mp hrun
    · exact hs.ranged run hold
    · exact h.ranged
  · intro callId' child'
    by_cases hsame : (callId', child') = (callId, child)
    · obtain ⟨rfl, rfl⟩ := Prod.mk.inj hsame
      exact h.chain (hs.chained _ _)
    · rw [h.entries_other hsame]
      exact hs.chained callId' child'
  · intro run hrun
    obtain ⟨hold, hne⟩ | rfl := (hmem run).mp hrun
    · rw [h.entries_other hne]
      exact hs.states run hold
    · rw [h.entries]
      exact ⟨by simp, rfl⟩
  · intro entry hentry
    rw [h.journal] at hentry
    have hrow : (⟨callId, child, impliedState kind.toRecord⟩ : ChildRun) ∈ t.childRuns :=
      (hmem _).mpr (.inr rfl)
    rcases List.mem_cons.mp hentry with rfl | hentry
    · exact ⟨_, hrow, rfl⟩
    · obtain ⟨run, hrun, hkey⟩ := hs.owned entry hentry
      by_cases hsame : run.key = (callId, child)
      · exact ⟨_, hrow, hsame.symm.trans hkey⟩
      · exact ⟨run, (hmem run).mpr (.inl ⟨hrun, hsame⟩), hkey⟩

theorem ChildrenSound.appendChildEntry (hs : ChildrenSound sha256 s) :
    ChildrenSound sha256
      (s.appendChildEntry sha256 callId child ordinal kind payload previous).2 := by
  rw [ChildStore.appendChildEntry]
  cases h : s.appended sha256 callId child ordinal kind payload previous with
  | error error => exact hs
  | ok result =>
    obtain ⟨digest, t⟩ := result
    exact hs.append (appended_ok (hs.chained callId child) h)

/-! ## Recovery -/

theorem checkJournal_append {callId : ToolCallId} {child ordinal lastKind : Nat}
    {previous : ChildDigest} (front back : List ChildEntry) :
    checkJournal sha256 callId child ordinal previous lastKind (front ++ back) = (do
      let (ordinal, previous, lastKind) ←
        checkJournal sha256 callId child ordinal previous lastKind front
      checkJournal sha256 callId child ordinal previous lastKind back) := by
  induction front generalizing ordinal previous lastKind with
  | nil => rfl
  | cons entry front ih =>
    simp only [List.cons_append, checkJournal, ih, bind_assoc]

/-- The check of a chain passes. -/
theorem Chain.check (h : Chain sha256 callId child rows) :
    checkJournal sha256 callId child 0 zeroDigest 0 rows.reverse =
      .ok (rows.length, lastDigest rows, lastKind rows) := by
  induction rows with
  | nil => rfl
  | cons entry older ih =>
    obtain ⟨hordinal, hprevious, hkind, hpayload, hsize, hdigest, hchain⟩ := h
    have hcheck : older.length + 1 = entry.ordinal ∧ lastDigest older = entry.previousDigest ∧
        validTransition (lastKind older) entry.kind = true ∧ entry.payload ≠ [] ∧
        entry.payload.length ≤ maxChildEntryBytes ∧
        entryDigest sha256 callId child entry.ordinal entry.kind entry.payload
          entry.previousDigest = entry.digest :=
      ⟨hordinal.symm, hprevious.symm, hkind, hpayload, hsize, hdigest.symm⟩
    have hpassed := (require_ok _ childJournalInvalid ()).mpr hcheck
    rw [List.reverse_cons, checkJournal_append, ih hchain]
    simp only [bind, Except.bind, checkJournal, hpassed]
    rw [hordinal]
    rfl

/-- An open child whose journal has room is interrupted. -/
theorem appended_interrupted (hs : ChildrenSound sha256 s) (hrun : run ∈ s.childRuns)
    (hopen : run.state = 1) (hroom : (s.entries run.callId run.child).length + 1 < 2 ^ 63) :
    ∃ digest t, s.appended sha256 run.callId run.child
      ((s.entries run.callId run.child).length + 1) .interrupted interruption
      (lastDigest (s.entries run.callId run.child)) = .ok (digest, t) := by
  obtain ⟨hlow, hhigh⟩ := hs.ranged run hrun
  obtain ⟨hnonempty, hstate⟩ := hs.states run hrun
  have hchain := hs.chained run.callId run.child
  have hkinds := hchain.lastKind_le hnonempty
  have hends := impliedState_open (hstate.symm.trans hopen)
  have hfollows : validTransition (lastKind (s.entries run.callId run.child))
      ChildEntryKind.interrupted.toRecord = true :=
    validTransition_interrupted hkinds.1 (by omega)
  have hpayload : interruption ≠ [] ∧ interruption.length ≤ maxChildEntryBytes := by
    decide +kernel
  have hfind : Table.find ChildRun.key (run.callId, run.child) s.childRuns = some run :=
    (Table.find_iff hs.keyed).mpr ⟨hrun, rfl⟩
  have hsized := (require_ok _ childJournalInvalid ()).mpr
    (And.intro hlow (And.intro hhigh hpayload))
  have hnumber : (s.entries run.callId run.child).length + 1 ≤ maxInteger :=
    Nat.le_sub_one_of_lt hroom
  have hstill := (require_ok _ childJournalInvalid ()).mpr hopen
  simp only [appended, hchain.latest, hchain.head, hsized, sequenceToSql, admitEntry,
    reduceCtorEq, if_false, hfind, demand, hstill, bind, Except.bind, pure, Except.pure]
  rw [require, if_pos hnumber, require, if_pos ⟨trivial, trivial, hfollows⟩]
  exact ⟨_, _, rfl⟩

/-- The recovery of one child ends it and leaves the others. -/
theorem recoverChild_ok (hs : ChildrenSound sha256 s) (hrun : run ∈ s.childRuns)
    (hroom : (s.entries run.callId run.child).length + 1 < 2 ^ 63) :
    ∃ t, s.recoverChild sha256 run = (.ok (), t) ∧ ChildrenSound sha256 t ∧
      (∀ other, other ∈ t.childRuns ↔ (other ∈ s.childRuns ∧ other.key ≠ run.key) ∨
        other = { run with state := if run.state = 1 then 3 else run.state }) ∧
      ∀ callId child, (callId, child) ≠ run.key → t.entries callId child = s.entries callId child := by
  have hchain := hs.chained run.callId run.child
  obtain ⟨hnonempty, hstate⟩ := hs.states run hrun
  have hcheck : (s.entries run.callId run.child).length ≠ 0 ∧
      run.state = impliedState (lastKind (s.entries run.callId run.child)) := by
    exact ⟨fun h => hnonempty (List.length_eq_zero_iff.mp h), hstate⟩
  have hpassed := (require_ok _ childJournalInvalid ()).mpr hcheck
  have hnext : Provider.checkedAdd (s.entries run.callId run.child).length 1 =
      some ((s.entries run.callId run.child).length + 1) := by
    rw [Provider.checkedAdd, if_pos (by omega)]
  rw [recoverChild, hchain.ordered, hchain.check]
  simp only [bind, Except.bind, hpassed, hnext, demand, pure, Except.pure]
  by_cases hopen : run.state = 1
  · obtain ⟨digest, t, happended⟩ := appended_interrupted hs hrun hopen hroom
    have happend := appended_ok hchain happended
    refine ⟨t, ?_, hs.append happend, ?_, ?_⟩
    · rw [if_pos hopen, ChildStore.appendChildEntry, happended]
      rfl
    · intro other
      rw [(happend.mem_runs hs.keyed).1 other, if_pos hopen]
      rfl
    · intro callId child hne
      exact happend.entries_other hne
  · refine ⟨s, by rw [if_neg hopen], hs, ?_, fun _ _ _ => rfl⟩
    intro other
    rw [if_neg hopen]
    constructor
    · intro hother
      by_cases hsame : other.key = run.key
      · exact .inr (Table.eq_of_key hs.keyed hother hrun hsame)
      · exact .inl ⟨hother, hsame⟩
    · rintro (⟨hother, -⟩ | rfl)
      · exact hother
      · exact hrun

/-- **Recovery loop.**  Every open child is among those still to come. -/
theorem recoverChildren_ok {runs : List ChildRun} (hs : ChildrenSound sha256 s)
    (hruns : ∀ run ∈ runs, run ∈ s.childRuns) (hkeys : (runs.map ChildRun.key).Nodup)
    (hopen : ∀ run ∈ s.childRuns, run.state = 1 → run ∈ runs)
    (hroom : ∀ run ∈ runs, (s.entries run.callId run.child).length + 1 < 2 ^ 63) :
    ∃ t, s.recoverChildren sha256 runs = (.ok (), t) ∧ ChildrenSound sha256 t ∧
      ∀ run ∈ t.childRuns, run.state ≠ 1 := by
  induction runs generalizing s with
  | nil => exact ⟨s, rfl, hs, fun run hrun h => by simpa using hopen run hrun h⟩
  | cons run rest ih =>
    obtain ⟨hrun, hrest⟩ := List.forall_mem_cons.mp hruns
    obtain ⟨hfresh, hkeys⟩ := List.nodup_cons.mp hkeys
    obtain ⟨t, hrecover, ht, hmem, hentries⟩ :=
      recoverChild_ok hs hrun (hroom run (List.mem_cons_self ..))
    have hapart (other : ChildRun) (hother : other ∈ rest) : other.key ≠ run.key := by
      intro hsame
      exact hfresh (hsame ▸ List.mem_map_of_mem hother)
    obtain ⟨u, hdone, hu, hended⟩ := ih ht
      (fun other hother => (hmem other).mpr (.inl ⟨hrest other hother, hapart other hother⟩)) hkeys
      (by
        intro other hother hstate
        obtain ⟨hold, hne⟩ | rfl := (hmem other).mp hother
        · rcases List.mem_cons.mp (hopen other hold hstate) with rfl | hother
          · exact absurd rfl hne
          · exact hother
        · split at hstate
          · cases hstate
          · contradiction)
      (by
        intro other hother
        rw [hentries _ _ (hapart other hother)]
        exact hroom other (List.mem_cons_of_mem _ hother))
    refine ⟨u, ?_, hu, hended⟩
    rw [recoverChildren, hrecover]
    exact hdone

theorem recoverChildJournals_ok (hs : ChildrenSound sha256 s)
    (hroom : ∀ run ∈ s.childRuns, (s.entries run.callId run.child).length + 1 < 2 ^ 63) :
    ∃ t, s.recoverChildJournals sha256 = (.ok (), t) ∧ ChildrenSound sha256 t ∧
      ∀ run ∈ t.childRuns, run.state ≠ 1 := by
  have hperm := List.perm_insertionSort (fun a b : ChildRun =>
    a.callId < b.callId ∨ (a.callId = b.callId ∧ a.child ≤ b.child)) s.childRuns
  refine recoverChildren_ok hs (fun run hrun => hperm.mem_iff.mp hrun)
    ((hperm.map ChildRun.key).nodup_iff.mpr hs.keyed)
    (fun run hrun _ => hperm.mem_iff.mpr hrun)
    fun run hrun => hroom run (hperm.mem_iff.mp hrun)

theorem recoverChild_keeps (hs : ChildrenSound sha256 s) :
    ChildrenSound sha256 (s.recoverChild sha256 run).2 := by
  unfold recoverChild
  dsimp only
  split
  · exact hs
  · split
    · exact hs.appendChildEntry
    · exact hs

theorem recoverChildren_keeps {runs : List ChildRun} (hs : ChildrenSound sha256 s) :
    ChildrenSound sha256 (s.recoverChildren sha256 runs).2 := by
  induction runs generalizing s with
  | nil => exact hs
  | cons run rest ih =>
    have hnext : ChildrenSound sha256 (s.recoverChild sha256 run).2 := recoverChild_keeps hs
    rw [recoverChildren]
    split
    case h_1 t hrecover =>
      rw [hrecover] at hnext
      exact ih hnext
    case h_2 error t hrecover =>
      rw [hrecover] at hnext
      exact hnext

/-! ## Runs -/

/-- The rows of some calls go, as a whole. -/
theorem ChildrenSound.filter (hs : ChildrenSound sha256 s) (keep : ToolCallId → Bool)
    (hruns : t.childRuns = s.childRuns.filter fun run => keep run.callId)
    (hjournal : t.childJournal = s.childJournal.filter fun entry => keep entry.callId) :
    ChildrenSound sha256 t := by
  have hentries (callId : ToolCallId) (child : Nat) : t.entries callId child =
      if keep callId then s.entries callId child else [] := by
    rw [ChildStore.entries, hjournal, List.filter_filter]
    split
    case isTrue hkeep =>
      apply List.filter_congr
      intro entry _
      by_cases hkey : entry.key = (callId, child)
      · have hcall : entry.callId = callId := (Prod.mk.inj hkey).1
        simp [hkey, hcall, hkeep]
      · simp [hkey]
    case isFalse hkeep =>
      rw [List.filter_eq_nil_iff]
      intro entry _
      by_cases hkey : entry.key = (callId, child)
      · have hcall : entry.callId = callId := (Prod.mk.inj hkey).1
        simp [hcall, hkeep]
      · simp [hkey]
  refine ⟨?_, ?_, ?_, ?_, ?_⟩
  · rw [hruns]
    exact hs.keyed.filter _
  · intro run hrun
    rw [hruns] at hrun
    exact hs.ranged run (List.mem_of_mem_filter hrun)
  · intro callId child
    rw [hentries]
    split
    · exact hs.chained callId child
    · trivial
  · intro run hrun
    rw [hruns] at hrun
    obtain ⟨hrun, hkeep⟩ := List.mem_filter.mp hrun
    rw [hentries, if_pos hkeep]
    exact hs.states run hrun
  · intro entry hentry
    rw [hjournal] at hentry
    obtain ⟨hentry, hkeep⟩ := List.mem_filter.mp hentry
    obtain ⟨run, hrun, hkey⟩ := hs.owned entry hentry
    have hcall : run.callId = entry.callId := (Prod.mk.inj hkey).1
    refine ⟨run, ?_, hkey⟩
    rw [hruns]
    exact List.mem_filter.mpr ⟨hrun, by rwa [hcall]⟩

theorem childrenSound_start : ChildrenSound sha256 ⟨Store.empty, [], [], []⟩ :=
  ⟨List.nodup_nil, by simp, fun _ _ => trivial, by simp, by simp⟩

/-- **Run lemma.**  Every reachable state has sound journals. -/
theorem ChildReachable.sound (h : ChildReachable sha256 s) : ChildrenSound sha256 s := by
  refine h.invariant (fun s hs => hs ▸ childrenSound_start) ?_
  intro s t hs hstep
  cases hstep with
  | append => exact hs.appendChildEntry
  | operate _ _ => exact ⟨hs.keyed, hs.ranged, hs.chained, hs.states, hs.owned⟩
  | bind => exact ⟨hs.keyed, hs.ranged, hs.chained, hs.states, hs.owned⟩
  | delete sessionId _ _ => exact hs.filter (fun callId => !s.ofSession sessionId callId) rfl rfl
  | restart => exact recoverChildren_keeps hs

/-- An append that follows an end is refused. -/
theorem ChildrenSound.refuses (hs : ChildrenSound sha256 s) (hentry : entry ∈ s.childJournal)
    (hend : 8 ≤ entry.kind) :
    ∃ error, s.appended sha256 entry.callId entry.child ordinal kind payload previous =
      .error error := by
  cases happended : s.appended sha256 entry.callId entry.child ordinal kind payload previous with
  | error error => exact ⟨error, rfl⟩
  | ok result =>
    obtain ⟨digest, t⟩ := result
    have hchain := hs.chained entry.callId entry.child
    have hlast := hchain.end_last (mem_entries.mpr ⟨hentry, rfl⟩) hend
    have hfollows := validTransition_previous (appended_ok hchain happended).follows
    omega

/-- In every state of a run, however entries are appended, the store goes on and
the server restarts, the journals are chains that their ends close, and a
restart, as long as no journal has used up the numbers of the database, ends
every child. -/
theorem childJournals_chained (h : ChildReachable sha256 s) :
    (∀ callId child,
      WellFormedJournal (Ledger.ordered ChildEntry.ordinal (s.entries callId child))) ∧
    (∀ run ∈ s.childRuns, s.entries run.callId run.child ≠ [] ∧ run.state =
      impliedState (((Ledger.latest ChildEntry.ordinal (s.entries run.callId run.child)).map
        (·.kind)).getD 0)) ∧
    (∀ entry ∈ s.childJournal, ∃ run ∈ s.childRuns, run.key = entry.key) ∧
    (∀ callId child ordinal kind payload previous error t,
      s.appendChildEntry sha256 callId child ordinal kind payload previous = (.error error, t) →
      t = s) ∧
    (∀ entry ∈ s.childJournal,
      entry.kind = ChildEntryKind.terminal.toRecord ∨
        entry.kind = ChildEntryKind.interrupted.toRecord →
      ∀ ordinal kind payload previous, ∃ error,
        s.appendChildEntry sha256 entry.callId entry.child ordinal kind payload previous =
          (.error error, s)) ∧
    ((∀ run ∈ s.childRuns, (s.entries run.callId run.child).length + 1 < 2 ^ 63) →
      (s.recoverChildJournals sha256).1 = .ok () ∧
        ∀ run ∈ (s.recoverChildJournals sha256).2.childRuns, run.state = 2 ∨ run.state = 3) := by
  have hs := h.sound
  refine ⟨fun callId child => (hs.chained callId child).wellFormed, ?_, hs.owned, ?_, ?_, ?_⟩
  · intro run hrun
    rw [(hs.chained run.callId run.child).latest]
    exact hs.states run hrun
  · intro callId child ordinal kind payload previous error t happend
    exact transact_error happend
  · intro entry hentry hend ordinal kind payload previous
    have hlate : 8 ≤ entry.kind := by
      rcases hend with hend | hend <;> simp [hend, ChildEntryKind.toRecord]
    obtain ⟨error, herror⟩ := hs.refuses hentry hlate
    exact ⟨error, by rw [ChildStore.appendChildEntry, herror]; rfl⟩
  · intro hroom
    obtain ⟨t, hrecover, ht, hended⟩ := recoverChildJournals_ok hs hroom
    rw [hrecover]
    refine ⟨rfl, ?_⟩
    intro run hrun
    have hstate := (ht.states run hrun).2
    have hne := hended run hrun
    rw [hstate] at hne ⊢
    unfold impliedState at hne ⊢
    split <;> simp_all

/-- What a run of the store reaches, the children are reached on. -/
theorem childReachable_of_store {store : Store} (h : Reachable Undeleting store) :
    ChildReachable sha256 ⟨store, [], [], []⟩ := by
  obtain ⟨empty, rfl, hrun⟩ := h
  induction hrun with
  | refl => exact Transition.reachable_start rfl
  | tail _ hstep ih =>
    obtain ⟨env, op, hop, hexecute⟩ := hstep
    exact ih.next (.operate hop hexecute)

theorem childReachable_bound {store : Store} (h : Reachable Undeleting store)
    (binding : TaskModelBinding) : ChildReachable sha256 ⟨store, [binding], [], []⟩ :=
  (childReachable_of_store h).next (.bind binding)

/-- What entry `ordinal` of child 1 of call 10 feeds to the hash. -/
def childBytes (ordinal kind : Nat) (previous : ChildDigest) (payload : List UInt8) : List UInt8 :=
  Provider.bytesOf "morons.dev/child-journal/v1\x00" ++ BigEndian.bytes 16 10 ++
    BigEndian.bytes 2 1 ++ BigEndian.bytes 8 ordinal ++ BigEndian.bytes 8 kind ++ previous ++ payload

def startDigest : ChildDigest :=
  BigEndian.bytes 32 0xd38fca30bf81351e621d40fba5b26379db2a77292ac1e6e33c55c961fa54ef76

def interruptedDigest : ChildDigest :=
  BigEndian.bytes 32 0x21b16ece9d0b60d885b1ca74e46879d5e1245194b25c5bfccb80a3f1008e9c31

/-- SHA-256 on the bytes of the two entries below. -/
def childSha256 (bytes : List UInt8) : ChildDigest :=
  if bytes = childBytes 1 1 zeroDigest [1] then startDigest
  else if bytes = childBytes 2 9 startDigest interruption then interruptedDigest
  else []

/-- A call bound to an active run, with one child that a restart interrupts. -/
theorem childJournals_chained_interrupted :
    let env := Environment.open 10
    let steps := createSession env 1 "/work" ++ [submitInput env 2 1 "go", (env, .activateRun 4)]
    let bound : ChildStore := ⟨executed steps, [⟨10, 4⟩], [], []⟩
    let started := (bound.appendChildEntry childSha256 10 1 1 .start [1] zeroDigest).2
    let recovered := (started.recoverChildJournals childSha256).2
    ChildReachable childSha256 started ∧ started.childRuns = [⟨10, 1, 1⟩] ∧
      (started.recoverChildJournals childSha256).1 = .ok () ∧
      recovered.childJournal.map (fun entry => (entry.previousDigest, entry.digest)) =
        [(startDigest, interruptedDigest), (zeroDigest, startDigest)] ∧
      ∀ run ∈ recovered.childRuns, run.state = 2 ∨ run.state = 3 := by
  intro env steps bound started recovered
  have hstore : Reachable Undeleting (executed steps) :=
    reachable_executed_undeleting rfl (by decide +kernel)
  have hbound : ChildReachable childSha256 bound :=
    childReachable_bound hstore ⟨10, 4⟩
  have hstarted : ChildReachable childSha256 started :=
    hbound.next (.append 10 1 1 .start [1] zeroDigest)
  have hruns : started.childRuns = [⟨10, 1, 1⟩] := by decide +kernel
  have hroom : ∀ run ∈ started.childRuns,
      (started.entries run.callId run.child).length + 1 < 2 ^ 63 := by
    rw [hruns]
    decide +kernel
  obtain ⟨-, -, -, -, -, hends⟩ := childJournals_chained hstarted
  obtain ⟨hrecovered, hended⟩ := hends hroom
  exact ⟨hstarted, hruns, hrecovered, by decide +kernel, hended⟩

end Morons
