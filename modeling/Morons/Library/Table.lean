import Mathlib.Data.Int.NatAbs
import Mathlib.Data.List.Nodup
import Mathlib.Tactic.Common

/-!
# Keyed tables

A table is a list of rows, read through a key.  `find` looks a row up,
`modify` rewrites the rows of one key and leaves every other row alone.
`Keyed` says that no two rows share their key.
-/

namespace Table

variable {Row Key : Type} [DecidableEq Key]

def find (key : Row → Key) (k : Key) (rows : List Row) : Option Row :=
  rows.find? (fun row => key row = k)

def modify (key : Row → Key) (k : Key) (f : Row → Row) (rows : List Row) : List Row :=
  rows.map (fun row => if key row = k then f row else row)

def Keyed (key : Row → Key) (rows : List Row) : Prop := (rows.map key).Nodup

variable {key : Row → Key} {k j : Key} {f : Row → Row} {row : Row} {rows : List Row}

/-! ## Looking up -/

theorem find_mem (h : find key k rows = some row) : row ∈ rows :=
  List.mem_of_find?_eq_some h

theorem find_key (h : find key k rows = some row) : key row = k := by
  simpa using List.find?_some h

theorem find_none : find key k rows = none ↔ ∀ r ∈ rows, key r ≠ k := by
  simp [find]

@[simp] theorem find_nil : find key k [] = none := rfl

@[simp] theorem find_cons :
    find key k (row :: rows) = if key row = k then some row else find key k rows := by
  by_cases h : key row = k <;> simp [find, h]

theorem find_of_mem (hk : Keyed key rows) (hr : row ∈ rows) :
    find key (key row) rows = some row := by
  induction rows with
  | nil => simp at hr
  | cons r rows ih =>
    obtain ⟨hn, hk⟩ := List.nodup_cons.mp hk
    rcases List.mem_cons.mp hr with rfl | hr
    · simp
    · have hne : key r ≠ key row := by
        intro e
        exact hn (e ▸ List.mem_map_of_mem hr)
      simp [hne, ih hk hr]

theorem eq_of_key (hk : Keyed key rows) {a b : Row} (ha : a ∈ rows) (hb : b ∈ rows)
    (h : key a = key b) : a = b := by
  have h1 := find_of_mem hk ha
  have h2 := find_of_mem hk hb
  rw [h, h2] at h1
  exact (Option.some.inj h1).symm

theorem find_iff (hk : Keyed key rows) : find key k rows = some row ↔ row ∈ rows ∧ key row = k :=
  ⟨fun h => ⟨find_mem h, find_key h⟩, fun ⟨hr, e⟩ => e ▸ find_of_mem hk hr⟩

/-! ## Rewriting the rows of one key -/

theorem modify_eq_map : modify key k f rows = rows.map fun row => if key row = k then f row else row :=
  rfl

@[simp] theorem modify_nil : modify key k f [] = [] := rfl

theorem mem_modify :
    row ∈ modify key k f rows ↔ ∃ r ∈ rows, (if key r = k then f r else r) = row := by
  simp [modify]

/-- New rows of the key they replace. -/
theorem modify_keys_at (hf : ∀ r, key r = k → key (f r) = k) :
    (modify key k f rows).map key = rows.map key := by
  simp only [modify, List.map_map]
  refine List.map_congr_left fun r _ => ?_
  by_cases h : key r = k <;> simp [h, hf]

theorem modify_keys (hf : ∀ r, key (f r) = key r) :
    (modify key k f rows).map key = rows.map key :=
  modify_keys_at fun r h => (hf r).trans h

theorem Keyed.modify (h : Keyed key rows) (hf : ∀ r, key (f r) = key r) :
    Keyed key (modify key k f rows) := by
  unfold Keyed
  rw [modify_keys hf]
  exact h

omit [DecidableEq Key] in
theorem Keyed.filter (h : Keyed key rows) (p : Row → Bool) : Keyed key (rows.filter p) :=
  h.sublist (List.filter_sublist.map key)

/-- A column that `f` leaves alone is the same before and after. -/
theorem modify_column {Col : Type} (col : Row → Col) (hf : ∀ r, col (f r) = col r) :
    (modify key k f rows).map col = rows.map col := by
  simp only [modify, List.map_map]
  refine List.map_congr_left fun r _ => ?_
  by_cases h : key r = k <;> simp [h, hf]

/-- A rewrite commutes with a projection that knows the key. -/
theorem map_modify {Row' : Type} {key' : Row' → Key} {f' : Row' → Row'} (g : Row → Row')
    (hkey : ∀ r, key' (g r) = key r) (hf : ∀ r, g (f r) = f' (g r)) :
    (modify key k f rows).map g = modify key' k f' (rows.map g) := by
  simp only [modify, List.map_map]
  refine List.map_congr_left fun r _ => ?_
  by_cases h : key r = k <;> simp [h, hkey, hf]

theorem filter_modify {p : Row → Bool} (hp : ∀ r, p (f r) = p r) :
    (modify key k f rows).filter p = modify key k f (rows.filter p) := by
  unfold modify
  rw [List.filter_map]
  refine congrArg _ (List.filter_congr fun r _ => ?_)
  by_cases h : key r = k <;> simp [h, hp]

/-- Two rewrites of one key are one. -/
theorem modify_modify {g : Row → Row} (hg : ∀ r, key (g r) = key r) :
    modify key k f (modify key k g rows) = modify key k (fun r => f (g r)) rows := by
  simp only [modify, List.map_map]
  refine List.map_congr_left fun r _ => ?_
  by_cases h : key r = k <;> simp [h, hg]

theorem find_modify (hf : ∀ r, key (f r) = key r) :
    find key j (modify key k f rows)
      = if j = k then (find key j rows).map f else find key j rows := by
  induction rows with
  | nil => simp
  | cons r rows ih =>
    rw [modify] at ih
    by_cases hr : key r = k
    · by_cases hj : k = j
      · subst hj
        simp [modify, hr, hf]
      · have hj' : ¬ j = k := fun e => hj e.symm
        simp [modify, hr, hf, hj, hj', ih]
    · by_cases hj : key r = j
      · have hjk : ¬ j = k := fun e => hr (hj.trans e)
        simp [modify, hj, hjk]
      · simp [modify, hr, hj, ih]

theorem find_modify_self (hf : ∀ r, key (f r) = key r) :
    find key k (modify key k f rows) = (find key k rows).map f := by
  simp [find_modify hf]

theorem find_rewritten (h : find key k rows = some row) (hf : ∀ r, key (f r) = key r) :
    find key k (modify key k f rows) = some (f row) := by
  rw [find_modify_self hf, h]
  rfl

theorem find_modify_ne (hf : ∀ r, key (f r) = key r) (h : j ≠ k) :
    find key j (modify key k f rows) = find key j rows := by
  simp [find_modify hf, h]

/-- A partial column that `f` leaves alone is the same before and after. -/
theorem modify_filterMap {Col : Type} (col : Row → Option Col)
    (hf : ∀ r ∈ rows, key r = k → col (f r) = col r) :
    (modify key k f rows).filterMap col = rows.filterMap col := by
  simp only [modify, List.filterMap_map]
  refine List.filterMap_congr fun r hr => ?_
  by_cases h : key r = k
  · simp [h, hf r hr h]
  · simp [h]

/-- A table with no row of the key is not changed. -/
theorem modify_absent (h : ∀ r ∈ rows, key r ≠ k) : modify key k f rows = rows := by
  induction rows with
  | nil => rfl
  | cons r rows ih =>
    have hr : key r ≠ k := h r (List.mem_cons_self ..)
    have ht := ih (fun r hr => h r (List.mem_cons_of_mem _ hr))
    rw [modify] at ht ⊢
    simp [hr, ht]

/-- The one row of its key is rewritten among the others. -/
theorem modify_split (hk : Keyed key rows) (found : find key k rows = some row) :
    ∃ others, rows.Perm (row :: others) ∧ (modify key k f rows).Perm (f row :: others) := by
  induction rows with
  | nil => simp at found
  | cons r rows ih =>
    obtain ⟨hn, hrest⟩ := List.nodup_cons.mp hk
    rw [find_cons] at found
    by_cases hr : key r = k
    · rw [if_pos hr] at found
      obtain rfl := Option.some.inj found
      have habsent : modify key k f rows = rows :=
        modify_absent fun r' hr' e => hn ((hr.trans e.symm) ▸ List.mem_map_of_mem hr')
      have hcons : modify key k f (r :: rows) = f r :: modify key k f rows := by
        simp [modify, hr]
      exact ⟨rows, List.Perm.refl _, by rw [hcons, habsent]⟩
    · rw [if_neg hr] at found
      have hcons : modify key k f (r :: rows) = r :: modify key k f rows := by
        simp [modify, hr]
      obtain ⟨others, hbefore, hafter⟩ := ih hrest found
      rw [hcons]
      exact ⟨r :: others, (hbefore.cons r).trans (List.Perm.swap _ _ _),
        (hafter.cons r).trans (List.Perm.swap _ _ _)⟩

/-- A rewrite that gives the one row of its key a value in a partial column. -/
theorem modify_filterMap_perm {Col : Type} (col : Row → Option Col) {c : Col}
    (hk : Keyed key rows) (found : find key k rows = some row) (hnone : col row = none)
    (hsome : col (f row) = some c) :
    ((modify key k f rows).filterMap col).Perm (c :: rows.filterMap col) := by
  obtain ⟨others, hbefore, hafter⟩ := modify_split (f := f) hk found
  have hrows := hbefore.filterMap col
  rw [List.filterMap_cons_none hnone] at hrows
  have hmodified := hafter.filterMap col
  rw [List.filterMap_cons_some hsome] at hmodified
  exact hmodified.trans (hrows.symm.cons c)

/-- A rewrite that takes the value of the one row of its key away. -/
theorem modify_filterMap_loses {Col : Type} (col : Row → Option Col) {c : Col}
    (hk : Keyed key rows) (found : find key k rows = some row) (hsome : col row = some c)
    (hnone : col (f row) = none) :
    (rows.filterMap col).Perm (c :: (modify key k f rows).filterMap col) := by
  obtain ⟨others, hbefore, hafter⟩ := modify_split (f := f) hk found
  have hrows := hbefore.filterMap col
  rw [List.filterMap_cons_some hsome] at hrows
  have hmodified := hafter.filterMap col
  rw [List.filterMap_cons_none hnone] at hmodified
  exact hrows.trans (hmodified.symm.cons c)

omit [DecidableEq Key] in
/-- A value that occurs once in a column comes from one row. -/
theorem eq_of_column {Col : Type} {col : Row → Option Col} (h : (rows.filterMap col).Nodup)
    {a b : Row} (ha : a ∈ rows) (hb : b ∈ rows) {c : Col} (hac : col a = some c) (hbc : col b = some c) :
    a = b := by
  induction rows with
  | nil => cases ha
  | cons r rows ih =>
    have hlater : ∀ {x : Row}, x ∈ rows → col x = some c → col r ≠ some c := by
      intro x hx hxc hrc
      rw [List.filterMap_cons_some hrc, List.nodup_cons] at h
      exact h.1 (List.mem_filterMap.mpr ⟨x, hx, hxc⟩)
    rcases List.mem_cons.mp ha with hae | ha' <;> rcases List.mem_cons.mp hb with hbe | hb'
    · rw [hae, hbe]
    · exact absurd (hae ▸ hac) (hlater hb' hbc)
    · exact absurd (hbe ▸ hbc) (hlater ha' hac)
    · refine ih (h.sublist ?_) ha' hb'
      exact (List.sublist_cons_self r rows).filterMap col

/-! ## Removing the rows of a group -/

omit [DecidableEq Key] in
/-- Two tables with one column lose the same values. -/
theorem filter_column {Row' Col : Type} {col : Row → Col} {col' : Row' → Col} {rows' : List Row'}
    (p : Col → Bool) (h : rows.map col = rows'.map col') :
    (rows.filter fun r => p (col r)).map col = (rows'.filter fun r => p (col' r)).map col' := by
  have hleft : (rows.filter fun r => p (col r)).map col = (rows.map col).filter p := by
    rw [List.filter_map]
    rfl
  have hright : (rows'.filter fun r => p (col' r)).map col' = (rows'.map col').filter p := by
    rw [List.filter_map]
    rfl
  rw [hleft, hright, h]

/-- Rows that are all kept are not missed. -/
theorem filter_kept {p q : Row → Bool} (h : ∀ r ∈ rows, q r = true → p r = true) :
    (rows.filter p).filter q = rows.filter q := by
  rw [List.filter_filter]
  refine List.filter_congr fun r hr => ?_
  cases hq : q r with
  | false => rfl
  | true => simp [h r hr hq]

theorem countP_kept {p q : Row → Bool} (h : ∀ r ∈ rows, q r = true → p r = true) :
    (rows.filter p).countP q = rows.countP q := by
  rw [List.countP_eq_length_filter, filter_kept h, ← List.countP_eq_length_filter]

theorem any_kept {p q : Row → Bool} (h : ∀ r ∈ rows, q r = true → p r = true) :
    (rows.filter p).any q = rows.any q := by
  rw [Bool.eq_iff_iff, List.any_eq_true, List.any_eq_true]
  constructor
  · rintro ⟨r, hr, hq⟩
    exact ⟨r, List.mem_of_mem_filter hr, hq⟩
  · rintro ⟨r, hr, hq⟩
    exact ⟨r, List.mem_filter.mpr ⟨hr, h r hr hq⟩, hq⟩

theorem find_kept {p : Row → Bool} (h : ∀ r ∈ rows, key r = k → p r = true) :
    find key k (rows.filter p) = find key k rows := by
  rw [find, find, ← List.head?_filter, ← List.head?_filter, filter_kept fun r hr e =>
    h r hr (of_decide_eq_true e)]

theorem filterMap_kept {Col : Type} {p : Row → Bool} {col : Row → Option Col}
    (h : ∀ r ∈ rows, col r ≠ none → p r = true) :
    (rows.filter p).filterMap col = rows.filterMap col := by
  rw [List.filterMap_filter]
  refine List.filterMap_congr fun r hr => ?_
  cases hp : p r with
  | true => rfl
  | false =>
    by_contra hne
    have hkept := h r hr fun e => hne (by simpa using e.symm)
    rw [hp] at hkept
    cases hkept

omit [DecidableEq Key] in
/-- A sum over a table is the sum over the rows of a group and over the others. -/
theorem sum_split (p : Row → Bool) (f : Row → Nat) :
    (rows.map f).sum = ((rows.filter p).map f).sum + ((rows.filter fun r => !p r).map f).sum := by
  induction rows with
  | nil => rfl
  | cons r rows ih =>
    cases hp : p r with
    | true =>
      simp only [List.map_cons, List.sum_cons, List.filter_cons, hp, if_true, Bool.not_true,
        Bool.false_eq_true, if_false, ih]
      omega
    | false =>
      simp only [List.map_cons, List.sum_cons, List.filter_cons, hp, Bool.not_false, if_true,
        Bool.false_eq_true, if_false, ih]
      omega

omit [DecidableEq Key] in
/-- The sums of two columns that differ in one group only differ by those of the group. -/
theorem sum_balance {p : Row → Bool} {f g : Row → Nat}
    (h : ∀ r ∈ rows, p r = false → f r = g r) :
    (rows.map f).sum + ((rows.filter p).map g).sum =
      (rows.map g).sum + ((rows.filter p).map f).sum := by
  have hrest : (rows.filter fun r => !p r).map f = (rows.filter fun r => !p r).map g := by
    refine List.map_congr_left fun r hr => ?_
    obtain ⟨hr, hp⟩ := List.mem_filter.mp hr
    exact h r hr (by simpa using hp)
  have hf : (rows.map f).sum = _ := sum_split p f
  have hg : (rows.map g).sum = _ := sum_split p g
  rw [hrest] at hf
  omega

theorem length_modify : (modify key k f rows).length = rows.length := by
  simp [modify]

theorem find_isSome : (find key k rows).isSome ↔ k ∈ rows.map key := by
  simp [find, List.find?_isSome]

/-- A rewrite neither adds nor removes a key. -/
theorem isSome_modify (hf : ∀ r, key (f r) = key r) :
    (find key j (modify key k f rows)).isSome = (find key j rows).isSome := by
  rw [Bool.eq_iff_iff, find_isSome, find_isSome, modify_keys hf]

/-- A rewrite that a predicate does not see on its row. -/
theorem any_modify {p : Row → Bool} (hkeyed : Keyed key rows) (hrow : row ∈ rows)
    (hp : p (f row) = p row) : (modify key (key row) f rows).any p = rows.any p := by
  rw [modify_eq_map, List.any_map, Bool.eq_iff_iff, List.any_eq_true, List.any_eq_true]
  refine exists_congr fun r => and_congr_right fun hr => ?_
  by_cases hkey : key r = key row
  · obtain rfl := eq_of_key hkeyed hr hrow hkey
    simp [hp]
  · simp [hkey]

/-- Rows gathered key by key hold one part for a key. -/
theorem filter_flatMap_key {keys : List Key} {part : Key → List Row} (hnodup : keys.Nodup)
    (hpart : ∀ k, ∀ r ∈ part k, key r = k) :
    (keys.flatMap part).filter (fun r => key r = k) = if k ∈ keys then part k else [] := by
  induction keys with
  | nil => rfl
  | cons j keys ih =>
    obtain ⟨hhead, hnodup⟩ := List.nodup_cons.mp hnodup
    rw [List.flatMap_cons, List.filter_append, ih hnodup]
    by_cases hj : j = k
    · subst hj
      have hself : (part j).filter (fun r => key r = j) = part j :=
        List.filter_eq_self.mpr fun r hr => decide_eq_true (hpart j r hr)
      simp [hself, hhead]
    · have hnone : (part j).filter (fun r => key r = k) = [] :=
        List.filter_eq_nil_iff.mpr fun r hr => by simpa [hpart j r hr] using hj
      simp [hnone, Ne.symm hj]

end Table
