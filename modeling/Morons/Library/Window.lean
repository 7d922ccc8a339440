import Mathlib.Data.Int.NatAbs
import Mathlib.Data.List.Infix
import Mathlib.Tactic.Common

/-!
# Sliding windows

A window holds the last items of a stream within a limit on their total weight.
Items are added at the end and leave at the front, the oldest first, until the
total is within the limit: what stays is the longest suffix that fits.
-/

variable {α : Type}

structure Window (α : Type) where
  items : List α := []
  /-- The weight of the items. -/
  total : Nat := 0
  /-- Whether an item has left. -/
  dropped : Bool := false

namespace Window

def weigh (weight : α → Nat) (items : List α) : Nat := (items.map weight).sum

/-- The oldest items leave.  A window without items has no weight. -/
def evict (weight : α → Nat) (limit : Nat) : List α → Nat → Bool → Window α
  | [], total, dropped => ⟨[], total, dropped⟩
  | oldest :: rest, total, dropped =>
    if limit < total then evict weight limit rest (total - weight oldest) true
    else ⟨oldest :: rest, total, dropped⟩

def push (weight : α → Nat) (limit : Nat) (w : Window α) (item : α) : Window α :=
  evict weight limit (w.items ++ [item]) (w.total + weight item) w.dropped

/-- The longest suffix of `all` whose weight is within the limit. -/
structure Longest (weight : α → Nat) (limit : Nat) (kept all : List α) : Prop where
  suffix : kept <:+ all
  fits : weigh weight kept ≤ limit
  longest : ∀ other, other <:+ all → weigh weight other ≤ limit → other <:+ kept

/-- The window of a stream. -/
structure Holds (weight : α → Nat) (limit : Nat) (w : Window α) (all : List α) : Prop where
  longest : Longest weight limit w.items all
  weighed : w.total = weigh weight w.items
  dropped : w.dropped = true ↔ w.items ≠ all

variable {weight : α → Nat} {limit total : Nat} {w : Window α} {items kept all other : List α}
  {a item : α}

@[simp] theorem weigh_nil : weigh weight [] = 0 := rfl

@[simp] theorem weigh_cons : weigh weight (a :: items) = weight a + weigh weight items := by
  simp [weigh]

@[simp] theorem weigh_append :
    weigh weight (items ++ other) = weigh weight items + weigh weight other := by
  simp [weigh]

/-- A list within the limit is its own longest suffix. -/
theorem Longest.whole (h : weigh weight items ≤ limit) : Longest weight limit items items :=
  ⟨List.suffix_refl _, h, fun _ hother _ => hother⟩

/-- Where the whole list is too heavy, its first item is in no suffix that fits. -/
theorem Longest.cons (hheavy : limit < weigh weight (a :: items))
    (h : Longest weight limit kept items) : Longest weight limit kept (a :: items) := by
  refine ⟨h.suffix.trans (List.suffix_cons a items), h.fits, fun other hother hfits => ?_⟩
  rcases List.suffix_cons_iff.mp hother with rfl | hother
  · omega
  · exact h.longest other hother hfits

/-- There is only one. -/
theorem Longest.unique (h : Longest weight limit kept all) (k : Longest weight limit other all) :
    kept = other :=
  (k.longest kept h.suffix h.fits).eq_of_length_le (h.longest other k.suffix k.fits).length_le

/-- **The eviction loop keeps the longest suffix that fits.** -/
theorem evict_longest (limit : Nat) (dropped : Bool) (htotal : total = weigh weight items) :
    Longest weight limit (evict weight limit items total dropped).items items ∧
      (evict weight limit items total dropped).total =
        weigh weight (evict weight limit items total dropped).items ∧
      ((evict weight limit items total dropped).dropped = true ↔
        dropped = true ∨ (evict weight limit items total dropped).items ≠ items) := by
  induction items generalizing total dropped with
  | nil =>
    subst htotal
    exact ⟨Longest.whole (Nat.zero_le limit), rfl, by simp [evict]⟩
  | cons oldest rest ih =>
    rw [evict]
    split
    case isTrue hheavy =>
      have hrest : total - weight oldest = weigh weight rest := by
        rw [htotal, weigh_cons]
        omega
      obtain ⟨hlongest, hweighed, hdropped⟩ := ih true hrest
      refine ⟨hlongest.cons (htotal ▸ hheavy), hweighed, ?_⟩
      have hshort := hlongest.suffix.length_le
      refine ⟨fun _ => Or.inr fun hsame => ?_, fun _ => hdropped.mpr (Or.inl rfl)⟩
      rw [hsame, List.length_cons] at hshort
      omega
    case isFalse hfits =>
      rw [not_lt, htotal] at hfits
      exact ⟨Longest.whole hfits, htotal, by simp⟩

/-- A longest suffix is all that counts of what came before. -/
theorem Longest.append (h : Longest weight limit kept all)
    (k : Longest weight limit other (kept ++ [item])) :
    Longest weight limit other (all ++ [item]) := by
  obtain ⟨front, hfront⟩ := h.suffix
  refine ⟨k.suffix.trans ⟨front, by rw [← List.append_assoc, hfront]⟩, k.fits, ?_⟩
  intro candidate hcandidate hfits
  rcases List.suffix_concat_iff.mp hcandidate with rfl | ⟨before, rfl, hbefore⟩
  · exact List.nil_suffix
  · refine k.longest _ ?_ hfits
    rw [weigh_append] at hfits
    obtain ⟨gap, hgap⟩ := h.longest before hbefore (by omega)
    exact ⟨gap, by rw [← List.append_assoc, hgap]⟩

theorem Holds.empty : Holds weight limit ({} : Window α) [] :=
  ⟨Longest.whole (Nat.zero_le limit), rfl, by simp⟩

/-- **Pushing an item keeps the window.** -/
theorem Holds.push (h : Holds weight limit w all) (item : α) :
    Holds weight limit (w.push weight limit item) (all ++ [item]) := by
  have htotal : w.total + weight item = weigh weight (w.items ++ [item]) := by
    simp [h.weighed]
  obtain ⟨hlongest, hweighed, hdropped⟩ := evict_longest limit w.dropped htotal
  have hwhole := h.longest.append hlongest
  refine ⟨hwhole, hweighed, ?_⟩
  rw [Window.push, hdropped, h.dropped]
  constructor
  · rintro (hbefore | hnow) hsame
    · -- What had left before cannot be there again.
      have hlength := hlongest.suffix.length_le
      rw [hsame, List.length_append, List.length_append] at hlength
      exact hbefore (h.longest.suffix.eq_of_length_le (by omega))
    · have hlength := hlongest.suffix.length_le
      rw [hsame, List.length_append, List.length_append] at hlength
      have hall : w.items = all := h.longest.suffix.eq_of_length_le (by omega)
      exact hnow (by rw [hsame, hall])
  · intro hshort
    by_cases hall : w.items = all
    · refine Or.inr fun hsame => hshort ?_
      rw [hsame, hall]
    · exact Or.inl hall

end Window
