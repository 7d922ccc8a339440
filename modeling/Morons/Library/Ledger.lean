import Mathlib.Data.Int.NatAbs
import Mathlib.Data.List.MinMax
import Mathlib.Data.List.Pairwise
import Mathlib.Data.List.Sort
import Mathlib.Tactic.Common

/-!
# Append-only ledgers

A ledger is a list of rows, newest first, numbered by `seq`.

* `Below seq bound rows`: the numbers strictly decrease from the newest row
  to the oldest, and all of them lie below `bound`, the next number to give out.
* `latest` and `greatest` are the row and the number that a query ordered by
  `seq` finds; on a ledger both sit at the head.
* `newest n` are the `n` greatest numbers, the greatest first, as a query with a
  limit lists them.
* `ordered`, `lagged` and `withPrevious` are what a window over `seq` sees, and
  on the rows of a ledger, however they come, they follow the ledger.
* `Taken seq bound rows`: in whatever order the rows come, no number occurs
  twice and all of them lie below `bound`.
* `Accrued seq bound rows rows'`: rows with numbers from `bound` on were put before
  the others, so that what is read up to a smaller number is what it was.
* `Staged rank rows`: every row has a higher rank than the rows before it, so
  that no rank occurs twice.
-/

namespace Ledger

variable {Row : Type} {seq : Row → Nat} {bound : Nat} {row : Row} {rows rows' : List Row}

structure Below (seq : Row → Nat) (bound : Nat) (rows : List Row) : Prop where
  decreasing : rows.Pairwise (fun newer older => seq older < seq newer)
  bounded : ∀ row ∈ rows, seq row < bound

theorem below_nil : Below seq bound [] := ⟨List.Pairwise.nil, by simp⟩

theorem Below.mono (h : Below seq bound rows) {next : Nat} (hle : bound ≤ next) :
    Below seq next rows :=
  ⟨h.decreasing, fun r hr => lt_of_lt_of_le (h.bounded r hr) hle⟩

theorem Below.cons (h : Below seq bound rows) {next : Nat} (hlow : bound ≤ seq row)
    (hhigh : seq row < next) : Below seq next (row :: rows) := by
  refine ⟨List.pairwise_cons.mpr ⟨fun r hr => ?_, h.decreasing⟩, fun r hr => ?_⟩
  · exact lt_of_lt_of_le (h.bounded r hr) hlow
  · rcases List.mem_cons.mp hr with rfl | hr
    · exact hhigh
    · exact lt_trans (lt_of_lt_of_le (h.bounded r hr) hlow) hhigh

theorem Below.tail (h : Below seq bound (row :: rows)) : Below seq bound rows :=
  ⟨(List.pairwise_cons.mp h.decreasing).2, fun r hr => h.bounded r (List.mem_cons_of_mem _ hr)⟩

theorem Below.head_gt (h : Below seq bound (row :: rows)) : ∀ r ∈ rows, seq r < seq row :=
  (List.pairwise_cons.mp h.decreasing).1

theorem Below.filter (h : Below seq bound rows) (p : Row → Bool) :
    Below seq bound (rows.filter p) :=
  ⟨h.decreasing.filter p, fun r hr => h.bounded r (List.mem_of_mem_filter hr)⟩

/-- Rewriting rows under their numbers. -/
theorem Below.map (h : Below seq bound rows) (f : Row → Row) (hf : ∀ r, seq (f r) = seq r) :
    Below seq bound (rows.map f) := by
  refine ⟨List.pairwise_map.mpr (h.decreasing.imp fun {a b} hab => ?_), fun r hr => ?_⟩
  · rw [hf a, hf b]
    exact hab
  · obtain ⟨r', hr', rfl⟩ := List.mem_map.mp hr
    rw [hf r']
    exact h.bounded r' hr'

theorem Below.nodup (h : Below seq bound rows) : (rows.map seq).Nodup := by
  refine List.pairwise_map.mpr (h.decreasing.imp fun {a b} hab => ?_)
  exact fun e => absurd hab (by omega)

/-- Two rows of a ledger with one number are one row. -/
theorem Below.eq_of_seq (h : Below seq bound rows) {a b : Row} (ha : a ∈ rows) (hb : b ∈ rows)
    (e : seq a = seq b) : a = b := by
  induction rows with
  | nil => simp at ha
  | cons r rows ih =>
    have hgt := h.head_gt
    rcases List.mem_cons.mp ha with ea | ha' <;> rcases List.mem_cons.mp hb with eb | hb'
    · rw [ea, eb]
    · subst ea
      exact absurd (hgt b hb') (by omega)
    · subst eb
      exact absurd (hgt a ha') (by omega)
    · exact ih h.tail ha' hb'

/-- Two ledgers with the same rows are one. -/
theorem Below.eq_of_mem (h : Below seq bound rows) {bound' : Nat} (h' : Below seq bound' rows')
    (hmem : ∀ r, r ∈ rows ↔ r ∈ rows') : rows = rows' := by
  have hperm : rows.Perm rows' :=
    (List.perm_ext_iff_of_nodup (.of_map _ h.nodup) (.of_map _ h'.nodup)).mpr hmem
  refine List.Perm.eq_of_pairwise (fun a b _ _ hab hba => ?_) h.decreasing h'.decreasing hperm
  exact absurd hab hba.not_gt

/-! ## Numbers that are taken -/

structure Taken (seq : Row → Nat) (bound : Nat) (rows : List Row) : Prop where
  nodup : (rows.map seq).Nodup
  bounded : ∀ row ∈ rows, seq row < bound

theorem taken_nil : Taken seq bound [] := ⟨List.nodup_nil, by simp⟩

theorem Taken.subperm (h : Taken seq bound rows) (hrows : rows'.Subperm rows) :
    Taken seq bound rows' := by
  obtain ⟨kept, hperm, hsub⟩ := hrows
  refine ⟨?_, fun r hr => h.bounded r (hsub.subset (hperm.mem_iff.mpr hr))⟩
  exact (hperm.map seq).nodup_iff.mp (h.nodup.sublist (hsub.map seq))

/-- New rows take numbers from the bound on. -/
theorem Taken.append (h : Taken seq bound rows) {next : Nat} {fresh : List Row}
    (hfresh : (fresh.map seq).Nodup) (hdrawn : ∀ r ∈ fresh, bound ≤ seq r ∧ seq r < next)
    (hle : bound ≤ next) : Taken seq next (fresh ++ rows) := by
  constructor
  · rw [List.map_append, List.nodup_append]
    refine ⟨hfresh, h.nodup, fun a ha b hb => ?_⟩
    obtain ⟨r, hr, rfl⟩ := List.mem_map.mp ha
    obtain ⟨r', hr', rfl⟩ := List.mem_map.mp hb
    have hlow := (hdrawn r hr).1
    have hhigh := h.bounded r' hr'
    omega
  · intro r hr
    rcases List.mem_append.mp hr with hr | hr
    · exact (hdrawn r hr).2
    · exact lt_of_lt_of_le (h.bounded r hr) hle

/-! ## The newest row -/

/-- `ORDER BY seq DESC LIMIT 1`. -/
def latest (seq : Row → Nat) (rows : List Row) : Option Row := rows.argmax seq

/-- `COALESCE(MAX(seq), 0)`. -/
def greatest (seq : Row → Nat) (rows : List Row) : Nat := rows.foldr (fun r n => max (seq r) n) 0

@[simp] theorem latest_nil : latest seq [] = none := rfl

@[simp] theorem greatest_nil : greatest seq [] = 0 := rfl

theorem greatest_cons : greatest seq (row :: rows) = max (seq row) (greatest seq rows) := rfl

theorem Below.latest_head (h : Below seq bound rows) : latest seq rows = rows.head? := by
  induction rows with
  | nil => rfl
  | cons r rows ih =>
    have ht : List.argmax seq rows = rows.head? := ih h.tail
    rw [latest, List.argmax_cons, ht]
    cases rows with
    | nil => rfl
    | cons r' rows =>
      have hlt : seq r' < seq r := h.head_gt r' (List.mem_cons_self ..)
      simp [Nat.not_lt.mpr (Nat.le_of_lt hlt)]

/-- A row above the newest one is the newest. -/
theorem latest_cons_of_lt (h : ∀ r, latest seq rows = some r → seq r < seq row) :
    latest seq (row :: rows) = some row := by
  rw [latest, List.argmax_cons]
  cases hrest : List.argmax seq rows with
  | none => rfl
  | some r => simp [Nat.not_lt.mpr (h r hrest).le]

/-- On a ledger the newest of the chosen rows is the first one found. -/
theorem Below.latest_filter (h : Below seq bound rows) (p : Row → Bool) :
    latest seq (rows.filter p) = rows.find? p := by
  rw [(h.filter p).latest_head, List.head?_filter]

theorem le_greatest {r : Row} (hr : r ∈ rows) : seq r ≤ greatest seq rows := by
  induction rows with
  | nil => simp at hr
  | cons r' rows ih =>
    rw [greatest_cons]
    rcases List.mem_cons.mp hr with rfl | hr
    · exact le_max_left _ _
    · exact le_trans (ih hr) (le_max_right _ _)

theorem greatest_le {n : Nat} (h : ∀ r ∈ rows, seq r ≤ n) : greatest seq rows ≤ n := by
  induction rows with
  | nil => exact Nat.zero_le n
  | cons r rows ih =>
    rw [greatest_cons]
    exact max_le (h r (List.mem_cons_self ..)) (ih fun r hr => h r (List.mem_cons_of_mem _ hr))

/-- The row that is above all others. -/
theorem greatest_eq (hrow : row ∈ rows) (h : ∀ r ∈ rows, r = row ∨ seq r < seq row) :
    greatest seq rows = seq row := by
  refine le_antisymm (greatest_le fun r hr => ?_) (le_greatest hrow)
  rcases h r hr with rfl | hlt
  · exact le_rfl
  · exact hlt.le

theorem latest_eq (hrow : row ∈ rows) (h : ∀ r ∈ rows, r = row ∨ seq r < seq row) :
    latest seq rows = some row := by
  cases hl : latest seq rows with
  | none =>
    rw [latest, List.argmax_eq_none] at hl
    rw [hl] at hrow
    cases hrow
  | some r =>
    rcases h r (List.argmax_mem hl) with rfl | hlt
    · rfl
    · exact absurd (List.le_of_mem_argmax hrow hl) (Nat.not_le.mpr hlt)

theorem greatest_lt {n : Nat} (hn : 0 < n) (h : ∀ r ∈ rows, seq r < n) :
    greatest seq rows < n := by
  have : greatest seq rows ≤ n - 1 := greatest_le fun r hr => Nat.le_sub_one_of_lt (h r hr)
  omega

/-- The only row of its kind is the one that is found. -/
theorem find?_unique {p : Row → Bool} (hrow : row ∈ rows) (hp : p row = true)
    (h : ∀ r ∈ rows, p r = true → r = row) : rows.find? p = some row := by
  obtain ⟨r, hr⟩ := Option.isSome_iff_exists.mp (List.find?_isSome.mpr ⟨row, hrow, hp⟩)
  rw [hr, h r (List.mem_of_find?_eq_some hr) (List.find?_some hr)]

/-! ## Rows in another order -/

/-- The `n` greatest numbers, the greatest first. -/
def newest (n : Nat) (numbers : List Nat) : List Nat := (numbers.insertionSort (· ≥ ·)).take n

theorem newest_decreasing {n : Nat} {numbers : List Nat} (h : numbers.Nodup) :
    (newest n numbers).Pairwise (· > ·) := by
  have hperm := List.perm_insertionSort (· ≥ ·) numbers
  have hsorted : (numbers.insertionSort (· ≥ ·)).Pairwise (· ≥ ·) :=
    List.pairwise_insertionSort (· ≥ ·) numbers
  have hnodup : (numbers.insertionSort (· ≥ ·)).Nodup := hperm.nodup_iff.mpr h
  refine List.Pairwise.sublist (List.take_sublist ..) ?_
  exact (hsorted.and hnodup).imp fun ⟨hge, hne⟩ => lt_of_le_of_ne hge (Ne.symm hne)

/-- Of a decreasing list, an element is among the first `n` when fewer than `n` exceed it. -/
theorem mem_take_decreasing {numbers : List Nat} (h : numbers.Pairwise (· > ·)) {n x : Nat} :
    x ∈ numbers.take n ↔ x ∈ numbers ∧ (numbers.filter (x < ·)).length < n := by
  induction numbers generalizing n with
  | nil => simp
  | cons a rest ih =>
    obtain ⟨hbelow, hrest⟩ := List.pairwise_cons.mp h
    cases n with
    | zero => simp
    | succ n =>
      rw [List.take_succ_cons, List.mem_cons, List.mem_cons, ih hrest]
      by_cases hx : x = a
      · subst hx
        have hnone : rest.filter (x < ·) = [] :=
          List.filter_eq_nil_iff.mpr fun b hb => by simpa using (hbelow b hb).le
        simp [hnone]
      · simp only [hx, false_or]
        refine and_congr_right fun hmem => ?_
        rw [List.filter_cons_of_pos (by simpa using hbelow x hmem), List.length_cons,
          Nat.add_lt_add_iff_right]

theorem mem_newest {n x : Nat} {numbers : List Nat} (h : numbers.Nodup) :
    x ∈ newest n numbers ↔ x ∈ numbers ∧ (numbers.filter (x < ·)).length < n := by
  have hperm := List.perm_insertionSort (· ≥ ·) numbers
  have hall : (numbers.insertionSort (· ≥ ·)).Pairwise (· > ·) := by
    have hfull := newest_decreasing (n := numbers.length) h
    rwa [newest, List.take_of_length_le (by rw [hperm.length_eq])] at hfull
  rw [newest, mem_take_decreasing hall, hperm.mem_iff, (hperm.filter _).length_eq]

/-- Of a rising list, the first element with a property is the smallest. -/
theorem find?_rising {numbers : List Nat} (h : numbers.Pairwise (· < ·)) {p : Nat → Bool} {n : Nat} :
    numbers.find? p = some n ↔
      n ∈ numbers ∧ p n = true ∧ ∀ m ∈ numbers, p m = true → n ≤ m := by
  induction numbers with
  | nil => simp
  | cons a rest ih =>
    obtain ⟨habove, hrest⟩ := List.pairwise_cons.mp h
    by_cases ha : p a = true
    · rw [List.find?_cons_of_pos ha, Option.some.injEq]
      constructor
      · rintro rfl
        refine ⟨List.mem_cons_self .., ha, fun m hm _ => ?_⟩
        rcases List.mem_cons.mp hm with rfl | hm
        · exact le_rfl
        · exact (habove m hm).le
      · rintro ⟨hn, -, hleast⟩
        have hle := hleast a (List.mem_cons_self ..) ha
        rcases List.mem_cons.mp hn with rfl | hn
        · rfl
        · exact absurd (habove n hn) (by omega)
    · rw [List.find?_cons_of_neg ha, ih hrest]
      constructor
      · rintro ⟨hn, hp, hleast⟩
        refine ⟨List.mem_cons_of_mem _ hn, hp, fun m hm hpm => ?_⟩
        rcases List.mem_cons.mp hm with rfl | hm
        · exact absurd hpm ha
        · exact hleast m hm hpm
      · rintro ⟨hn, hp, hleast⟩
        rcases List.mem_cons.mp hn with rfl | hn
        · exact absurd hp ha
        · exact ⟨hn, hp, fun m hm => hleast m (List.mem_cons_of_mem _ hm)⟩

/-- Of a rising list, the first elements are those up to the last of them, and all when they are
fewer than were asked for. -/
theorem mem_take_rising {numbers : List Nat} (h : numbers.Pairwise (· < ·)) {n x : Nat} :
    x ∈ numbers.take n ↔ x ∈ numbers ∧
      ((numbers.take n).length < n ∨ ∃ last ∈ (numbers.take n).getLast?, x ≤ last) := by
  have hsplit := List.take_append_drop n numbers
  constructor
  · intro hx
    refine ⟨List.mem_of_mem_take hx, .inr ?_⟩
    obtain ⟨front, last, hfront⟩ := (List.eq_nil_or_concat (numbers.take n)).resolve_left
      (List.ne_nil_of_mem hx)
    rw [List.concat_eq_append] at hfront
    refine ⟨last, by rw [hfront]; simp, ?_⟩
    have hrising : (numbers.take n).Pairwise (· < ·) := h.sublist (List.take_sublist ..)
    rw [hfront] at hx hrising
    rcases List.mem_append.mp hx with hx | hx
    · exact ((List.pairwise_append.mp hrising).2.2 x hx last (List.mem_singleton_self _)).le
    · exact (List.mem_singleton.mp hx).le
  · rintro ⟨hx, hshort | ⟨last, hlast, hle⟩⟩
    · rw [List.length_take] at hshort
      rwa [List.take_of_length_le (by omega)]
    · rw [← hsplit] at hx h
      refine (List.mem_append.mp hx).resolve_right fun hdrop => ?_
      have hlt := (List.pairwise_append.mp h).2.2 last (List.mem_of_getLast? hlast) x hdrop
      exact absurd hle (Nat.not_le.mpr hlt)

/-- `ORDER BY seq`. -/
def ordered (seq : Row → Nat) (rows : List Row) : List Row :=
  rows.mergeSort fun a b => decide (seq a ≤ seq b)

/-- Every row with the one before it, as `LAG` sees them. -/
def lagged (rows : List Row) : List (Row × Row) := rows.tail.zip rows

/-- Every row with the one before it, the first with none. -/
def withPrevious (rows : List Row) : List (Row × Option Row) := rows.zip (none :: rows.map some)

theorem mem_lagged {a b : Row} (h : (a, b) ∈ lagged rows) :
    ∃ before after, rows = before ++ b :: a :: after := by
  induction rows with
  | nil => simp [lagged] at h
  | cons r rows ih =>
    cases rows with
    | nil => simp [lagged] at h
    | cons r' rows =>
      rcases List.mem_cons.mp (show (a, b) ∈ (r', r) :: lagged (r' :: rows) from h) with heq | h
      · obtain ⟨rfl, rfl⟩ := Prod.mk.inj heq
        exact ⟨[], rows, rfl⟩
      · obtain ⟨before, after, hsplit⟩ := ih h
        exact ⟨r :: before, after, congrArg (List.cons r) hsplit⟩

/-- On the rows in order, the one before is the next older row. -/
theorem mem_lagged_reverse {a b : Row} (h : (a, b) ∈ lagged rows.reverse) :
    ∃ newer older, rows = newer ++ a :: b :: older := by
  obtain ⟨before, after, hsplit⟩ := mem_lagged h
  refine ⟨after.reverse, before.reverse, ?_⟩
  rw [← rows.reverse_reverse, hsplit]
  simp

theorem mem_withPrevious {a : Row} {b : Option Row} (h : (a, b) ∈ withPrevious rows) :
    ∃ before after, rows = before ++ a :: after ∧ b = before.getLast? := by
  suffices hall : ∀ p, (a, b) ∈ rows.zip (p :: rows.map some) →
      ∃ before after, rows = before ++ a :: after ∧ b = (before.getLast?.map some).getD p by
    obtain ⟨before, after, hsplit, hb⟩ := hall none h
    refine ⟨before, after, hsplit, hb.trans ?_⟩
    cases before.getLast? <;> rfl
  clear h
  induction rows with
  | nil => simp
  | cons r rows ih =>
    intro p h
    rcases List.mem_cons.mp (show (a, b) ∈ (r, p) :: rows.zip (some r :: rows.map some) from h) with
      heq | h
    · obtain ⟨rfl, rfl⟩ := Prod.mk.inj heq
      exact ⟨[], rows, rfl, rfl⟩
    · obtain ⟨before, after, hsplit, hb⟩ := ih (some r) h
      refine ⟨r :: before, after, congrArg (List.cons r) hsplit, hb.trans ?_⟩
      cases before with
      | nil => rfl
      | cons r' before => simp [List.getLast?_cons]

theorem mem_withPrevious_reverse {a : Row} {b : Option Row} (h : (a, b) ∈ withPrevious rows.reverse) :
    ∃ newer older, rows = newer ++ a :: older ∧ b = older.head? := by
  obtain ⟨before, after, hsplit, hb⟩ := mem_withPrevious h
  refine ⟨after.reverse, before.reverse, ?_, ?_⟩
  · rw [← rows.reverse_reverse, hsplit]
    simp
  · rw [hb, List.head?_reverse]

theorem ordered_sorted (rows : List Row) :
    (ordered seq rows).Pairwise fun a b => seq a ≤ seq b := by
  have htrans : ∀ a b c : Row, decide (seq a ≤ seq b) = true → decide (seq b ≤ seq c) = true →
      decide (seq a ≤ seq c) = true := by
    intro a b c hab hbc
    simp only [decide_eq_true_eq] at hab hbc ⊢
    omega
  have htotal : ∀ a b : Row, (decide (seq a ≤ seq b) || decide (seq b ≤ seq a)) = true := by
    intro a b
    simp only [Bool.or_eq_true, decide_eq_true_eq]
    omega
  exact (List.pairwise_mergeSort htrans htotal rows).imp fun hab => by simpa using hab

/-- A strictly rising list is the only order of its rows. -/
theorem ordered_eq (hrising : rows'.Pairwise fun a b => seq a < seq b) (hp : rows'.Perm rows) :
    ordered seq rows = rows' := by
  have hnodup : (rows'.map seq).Nodup :=
    List.pairwise_map.mpr (hrising.imp fun hab => Nat.ne_of_lt hab)
  have hperm : (ordered seq rows).Perm rows' := (List.mergeSort_perm rows _).trans hp.symm
  refine List.Perm.eq_of_pairwise (fun a b ha hb hab hba => ?_) (ordered_sorted rows)
    (hrising.imp fun hab => hab.le) hperm
  exact List.inj_on_of_nodup_map hnodup (hperm.mem_iff.mp ha) hb (Nat.le_antisymm hab hba)

/-- In a rising list the rows with greater numbers are those behind a row. -/
theorem filter_behind {front back : List Row}
    (h : (front ++ row :: back).Pairwise fun a b => seq a < seq b) :
    (front ++ row :: back).filter (fun r => decide (seq row < seq r)) = back := by
  obtain ⟨-, hrow, hcross⟩ := List.pairwise_append.mp h
  have hfront : front.filter (fun r => decide (seq row < seq r)) = [] := by
    refine List.filter_eq_nil_iff.mpr fun r hr => ?_
    simpa using (hcross r hr row (List.mem_cons_self ..)).le
  have hback : back.filter (fun r => decide (seq row < seq r)) = back :=
    List.filter_eq_self.mpr fun r hr => by simpa using (List.pairwise_cons.mp hrow).1 r hr
  rw [List.filter_append, hfront, List.nil_append, List.filter_cons_of_neg (by simp), hback]

/-- The rows of a ledger in rising order are the ledger's, oldest first. -/
theorem Below.sorted_perm (h : Below seq bound rows)
    (hsorted : rows'.Pairwise fun a b => seq a ≤ seq b) (hp : rows'.Perm rows) :
    rows' = rows.reverse := by
  have hreverse : rows.reverse.Pairwise fun a b => seq a ≤ seq b :=
    List.pairwise_reverse.mpr (h.decreasing.imp fun hab => hab.le)
  refine List.Perm.eq_of_pairwise (fun a b ha hb hab hba => ?_) hsorted hreverse
    (hp.trans (List.reverse_perm rows).symm)
  exact h.eq_of_seq (hp.mem_iff.mp ha) (List.mem_reverse.mp hb) (Nat.le_antisymm hab hba)

/-- However the rows of a ledger come, in order they are the ledger's, oldest first. -/
theorem Below.ordered_perm (h : Below seq bound rows) (hp : rows'.Perm rows) :
    ordered seq rows' = rows.reverse :=
  h.sorted_perm (ordered_sorted rows') ((List.mergeSort_perm rows' _).trans hp)

theorem Below.latest_perm (h : Below seq bound rows) (hp : rows'.Perm rows) (p : Row → Bool) :
    latest seq (rows'.filter p) = rows.find? p := by
  rw [← h.latest_filter p]
  have hfilter : (rows'.filter p).Perm (rows.filter p) := hp.filter p
  cases hl : latest seq (rows.filter p) with
  | none =>
    have hnil : rows.filter p = [] := List.argmax_eq_none.mp hl
    rw [hnil] at hfilter
    rw [hfilter.eq_nil]
    rfl
  | some m =>
    obtain ⟨m', hm'⟩ : ∃ m', latest seq (rows'.filter p) = some m' := by
      cases hl' : latest seq (rows'.filter p) with
      | none =>
        have hnil : rows'.filter p = [] := List.argmax_eq_none.mp hl'
        rw [hnil] at hfilter
        rw [hfilter.symm.eq_nil] at hl
        cases hl
      | some m' => exact ⟨m', rfl⟩
    have hin : m ∈ rows.filter p := List.argmax_mem hl
    have hin' : m' ∈ rows.filter p := hfilter.mem_iff.mp (List.argmax_mem hm')
    have hle : seq m' ≤ seq m := List.le_of_mem_argmax hin' hl
    have hge : seq m ≤ seq m' := List.le_of_mem_argmax (hfilter.mem_iff.mpr hin) hm'
    rw [hm', (h.filter p).eq_of_seq hin' hin (Nat.le_antisymm hle hge)]

/-! ## The rows before a row -/

theorem Below.append_right {newer older : List Row} (h : Below seq bound (newer ++ older)) :
    Below seq bound older :=
  ⟨(List.pairwise_append.mp h.decreasing).2.1, fun r hr => h.bounded r (List.mem_append_right _ hr)⟩

/-- The rows with smaller numbers are the older ones. -/
theorem Below.filter_lt {newer older : List Row} (h : Below seq bound (newer ++ row :: older)) :
    (newer ++ row :: older).filter (fun r => decide (seq r < seq row)) = older := by
  have hnewer : newer.filter (fun r => decide (seq r < seq row)) = [] := by
    refine List.filter_eq_nil_iff.mpr fun r hr => ?_
    have hlt := (List.pairwise_append.mp h.decreasing).2.2 r hr row (List.mem_cons_self ..)
    simpa using hlt.le
  have holder : older.filter (fun r => decide (seq r < seq row)) = older :=
    List.filter_eq_self.mpr fun r hr => by simpa using h.append_right.head_gt r hr
  rw [List.filter_append, hnewer, List.nil_append, List.filter_cons_of_neg (by simp), holder]

theorem Below.filter_le {newer older : List Row} (h : Below seq bound (newer ++ row :: older)) :
    (newer ++ row :: older).filter (fun r => decide (seq r ≤ seq row)) = row :: older := by
  have hnewer : newer.filter (fun r => decide (seq r ≤ seq row)) = [] := by
    refine List.filter_eq_nil_iff.mpr fun r hr => ?_
    have hlt := (List.pairwise_append.mp h.decreasing).2.2 r hr row (List.mem_cons_self ..)
    simpa using hlt
  have holder : older.filter (fun r => decide (seq r ≤ seq row)) = older :=
    List.filter_eq_self.mpr fun r hr => by simpa using (h.append_right.head_gt r hr).le
  rw [List.filter_append, hnewer, List.nil_append, List.filter_cons_of_pos (by simp), holder]

/-! ## Growth -/

def Accrued (seq : Row → Nat) (bound : Nat) (rows rows' : List Row) : Prop :=
  ∃ fresh, rows' = fresh ++ rows ∧ ∀ r ∈ fresh, bound ≤ seq r

theorem Accrued.refl (seq : Row → Nat) (bound : Nat) (rows : List Row) :
    Accrued seq bound rows rows :=
  ⟨[], rfl, by simp⟩

theorem Accrued.of_eq (h : rows' = rows) : Accrued seq bound rows rows' := h ▸ .refl ..

theorem Accrued.trans (h : Accrued seq bound rows rows') {bound' : Nat} {rows'' : List Row}
    (h' : Accrued seq bound' rows' rows'') (hle : bound ≤ bound') :
    Accrued seq bound rows rows'' := by
  obtain ⟨fresh, rfl, hfresh⟩ := h
  obtain ⟨fresh', rfl, hfresh'⟩ := h'
  refine ⟨fresh' ++ fresh, (List.append_assoc ..).symm, fun r hr => ?_⟩
  rcases List.mem_append.mp hr with hr | hr
  · exact hle.trans (hfresh' r hr)
  · exact hfresh r hr

theorem Accrued.filter (h : Accrued seq bound rows rows') (p : Row → Bool) :
    Accrued seq bound (rows.filter p) (rows'.filter p) := by
  obtain ⟨fresh, rfl, hfresh⟩ := h
  exact ⟨fresh.filter p, List.filter_append .., fun r hr => hfresh r (List.mem_of_mem_filter hr)⟩

theorem Accrued.subset (h : Accrued seq bound rows rows') : rows ⊆ rows' := by
  obtain ⟨fresh, rfl, -⟩ := h
  exact List.subset_append_right ..

/-- A row with an old number is an old row. -/
theorem Accrued.mem (h : Accrued seq bound rows rows') {r : Row} (hr : r ∈ rows')
    (hold : seq r < bound) : r ∈ rows := by
  obtain ⟨fresh, rfl, hfresh⟩ := h
  rcases List.mem_append.mp hr with hr | hr
  · exact absurd (hfresh r hr) (Nat.not_le.mpr hold)
  · exact hr

/-- What is chosen among old numbers is what it was. -/
theorem Accrued.filter_old (h : Accrued seq bound rows rows') {p : Row → Bool}
    (hold : ∀ r, p r = true → seq r < bound) : rows'.filter p = rows.filter p := by
  obtain ⟨fresh, rfl, hfresh⟩ := h
  have hnone : fresh.filter p = [] :=
    List.filter_eq_nil_iff.mpr fun r hr hp => absurd (hfresh r hr) (Nat.not_le.mpr (hold r hp))
  rw [List.filter_append, hnone, List.nil_append]

theorem Accrued.find?_old (h : Accrued seq bound rows rows') {p : Row → Bool}
    (hold : ∀ r, p r = true → seq r < bound) : rows'.find? p = rows.find? p := by
  rw [← List.head?_filter, ← List.head?_filter, h.filter_old hold]

/-- A chosen row with a new number was put before the others. -/
theorem Accrued.head (p : Row → Bool) (hnew : bound ≤ seq row) :
    Accrued seq bound (rows.filter p) ((row :: rows).filter p) :=
  Accrued.filter ⟨[row], rfl, fun r hr => by rwa [List.mem_singleton.mp hr]⟩ p

/-! ## Stages -/

def Staged (rank : Row → Nat) (rows : List Row) : Prop :=
  rows.Pairwise (fun newer older => rank older < rank newer)

variable {rank : Row → Nat}

theorem staged_nil : Staged rank [] := List.Pairwise.nil

theorem staged_cons : Staged rank (row :: rows) ↔ (∀ r ∈ rows, rank r < rank row) ∧ Staged rank rows :=
  List.pairwise_cons

theorem Staged.eq_of_rank (h : Staged rank rows) {a b : Row} (ha : a ∈ rows) (hb : b ∈ rows)
    (e : rank a = rank b) : a = b := by
  induction rows with
  | nil => simp at ha
  | cons r rows ih =>
    obtain ⟨hgt, ht⟩ := staged_cons.mp h
    rcases List.mem_cons.mp ha with ea | ha' <;> rcases List.mem_cons.mp hb with eb | hb'
    · rw [ea, eb]
    · subst ea
      exact absurd (hgt b hb') (by omega)
    · subst eb
      exact absurd (hgt a ha') (by omega)
    · exact ih ht ha' hb'

/-- On a staged ledger the earlier stage has the smaller number. -/
theorem Staged.seq_lt (h : Staged rank rows) (hb : Below seq bound rows) {a b : Row}
    (ha : a ∈ rows) (hmem : b ∈ rows) (hlt : rank a < rank b) : seq a < seq b := by
  induction rows with
  | nil => simp at ha
  | cons r rows ih =>
    obtain ⟨hgt, ht⟩ := staged_cons.mp h
    rcases List.mem_cons.mp ha with ea | ha' <;> rcases List.mem_cons.mp hmem with eb | hb'
    · subst ea eb
      exact absurd hlt (lt_irrefl _)
    · subst ea
      exact absurd (hgt b hb') (by omega)
    · subst eb
      exact hb.head_gt a ha'
    · exact ih ht hb.tail ha' hb'

end Ledger
