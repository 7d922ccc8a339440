import Mathlib.Data.List.Range
import Morons.Library.Attempt

/-!
# Paged readers

A reader takes numbered items page by page, each page from the number that
follows the last item, and hands them to a visitor.  Where every page is the
next part of a numbered list, the reader is a sweep over the list.
-/

namespace Paging

open Attempt

variable {ε α σ : Type}

/-- The items of a page, one after the other while the visitor goes on. -/
def visitPage (seq : α → Nat) (gap : ε) (visit : σ → α → Except ε (σ × Bool)) :
    Nat → σ → List α → Except ε (Nat × σ × Bool)
  | after, s, [] => .ok (after, s, true)
  | after, s, a :: rest => do
    require (seq a = after + 1) gap
    let (s, goesOn) ← visit s a
    if goesOn then visitPage seq gap visit (seq a) s rest else return (seq a, s, false)

/-- Pages above `after` until `through` is reached.  An empty page is a gap, so that every
round moves on and `through - after` rounds are enough. -/
def visitPages (seq : α → Nat) (gap : ε) (visit : σ → α → Except ε (σ × Bool))
    (page : Nat → Except ε (List α)) (through : Nat) : Nat → Nat → σ → Except ε σ
  | 0, _, s => .ok s
  | fuel + 1, after, s =>
    if after < through then do
      let items ← page after
      require (items ≠ []) gap
      let (after, s, goesOn) ← visitPage seq gap visit after s items
      if goesOn then visitPages seq gap visit page through fuel after s else return s
    else .ok s

/-! ## Merged pages -/

/-- The first items of a list lie among the first of those that satisfy `p` and the first of
those that do not. -/
theorem exists_merged (p : α → Bool) (items : List α) (a b : Nat) :
    ∃ merged : List α, merged.Sublist items ∧
      merged.Perm ((items.filter p).take a ++ (items.filter fun x => !p x).take b) ∧
      ∀ n, n ≤ a → n ≤ b → merged.take n = items.take n := by
  induction items generalizing a b with
  | nil => exact ⟨[], List.Sublist.refl [], by simp, fun n _ _ => rfl⟩
  | cons x rest ih =>
    by_cases hx : p x = true
    · have hleft : (x :: rest).filter p = x :: rest.filter p := by simp [hx]
      have hright : ((x :: rest).filter fun x => !p x) = rest.filter fun x => !p x := by simp [hx]
      rw [hleft, hright]
      cases a with
      | zero =>
        obtain ⟨merged, hsub, hperm, -⟩ := ih 0 b
        refine ⟨merged, hsub.cons x, by simpa using hperm, fun n hn _ => ?_⟩
        rw [Nat.le_zero.mp hn, List.take_zero, List.take_zero]
      | succ a =>
        obtain ⟨merged, hsub, hperm, htake⟩ := ih a b
        refine ⟨x :: merged, hsub.cons_cons x, by simpa using hperm, fun n ha hb => ?_⟩
        cases n with
        | zero => rfl
        | succ n =>
          rw [List.take_succ_cons, List.take_succ_cons, htake n (by omega) (by omega)]
    · have hleft : (x :: rest).filter p = rest.filter p := by simp [hx]
      have hright : ((x :: rest).filter fun x => !p x) = x :: rest.filter fun x => !p x := by
        simp [hx]
      rw [hleft, hright]
      cases b with
      | zero =>
        obtain ⟨merged, hsub, hperm, -⟩ := ih a 0
        refine ⟨merged, hsub.cons x, by simpa using hperm, fun n _ hn => ?_⟩
        rw [Nat.le_zero.mp hn, List.take_zero, List.take_zero]
      | succ b =>
        obtain ⟨merged, hsub, hperm, htake⟩ := ih a b
        refine ⟨x :: merged, hsub.cons_cons x, ?_, fun n ha hb => ?_⟩
        · rw [List.take_succ_cons]
          exact (hperm.cons x).trans List.perm_middle.symm
        · cases n with
          | zero => rfl
          | succ n =>
            rw [List.take_succ_cons, List.take_succ_cons, htake n (by omega) (by omega)]

/-- Of a numbered list, the items above a number are those behind as many items. -/
theorem drop_eq_filter {seq : α → Nat} {items : List α} {first n : Nat}
    (hseq : items.map seq = List.range' (first + 1) items.length) :
    items.drop n = items.filter fun a => decide (first + n < seq a) := by
  induction items generalizing first n with
  | nil => rw [List.drop_nil, List.filter_nil]
  | cons a rest ih =>
    cases n with
    | zero =>
      refine (List.filter_eq_self.mpr fun b hb => ?_).symm
      have hmem : seq b ∈ List.range' (first + 1) (a :: rest).length :=
        hseq ▸ List.mem_map_of_mem hb
      have hbounds := List.mem_range'_1.mp hmem
      simp only [decide_eq_true_eq]
      omega
    | succ n =>
      rw [List.map_cons, List.length_cons, List.range'_succ] at hseq
      obtain ⟨hfirst, hrest⟩ := List.cons.inj hseq
      have hbelow : ¬ decide (first + (n + 1) < seq a) = true := by
        simp only [decide_eq_true_eq]
        omega
      have hsame : first + 1 + n = first + (n + 1) := by omega
      rw [List.drop_succ_cons, List.filter_cons, if_neg hbelow, ih hrest, hsame]

/-! ## Reading a numbered list -/

variable {seq : α → Nat} {gap : ε} {visit : σ → α → Except ε (σ × Bool)}
  {step : σ → α → Except ε σ} {page : Nat → Except ε (List α)} {items : List α}
  {after through pageSize : Nat} {s : σ}

/-- A numbered page is swept. -/
theorem visitPage_sweep (hvisit : ∀ s a, visit s a = (step s a).map (·, true))
    (hseq : items.map seq = List.range' (after + 1) items.length) :
    visitPage seq gap visit after s items =
      (sweep step s items).map (after + items.length, ·, true) := by
  induction items generalizing after s with
  | nil => rfl
  | cons a rest ih =>
    rw [List.map_cons, List.length_cons, List.range'_succ] at hseq
    obtain ⟨hfirst, hrest⟩ := List.cons.inj hseq
    rw [visitPage, sweep, hvisit]
    cases hstep : step s a with
    | error e => simp [require, hfirst, bind, Except.bind, Except.map]
    | ok t =>
      have hnext : visitPage seq gap visit (after + 1) t rest =
          (sweep step t rest).map (after + 1 + rest.length, ·, true) := ih hrest
      rw [hfirst]
      simp only [require, if_true, bind, Except.bind, Except.map]
      rw [hnext, List.length_cons, Nat.add_right_comm after 1, Nat.add_assoc]
      rfl

/-- **A reader of a numbered list is a sweep over it.** -/
theorem visitPages_sweep (hsize : 0 < pageSize)
    (hvisit : ∀ s a, visit s a = (step s a).map (·, true))
    (hseq : items.map seq = List.range' (after + 1) items.length)
    (hpage : ∀ n, n < items.length →
      page (after + n) = .ok ((items.drop n).take pageSize)) :
    visitPages seq gap visit page (after + items.length) items.length after s =
      sweep step s items := by
  -- The rounds that are left are at least the items that are left.
  suffices h : ∀ fuel n s, n ≤ items.length → items.length ≤ n + fuel →
      visitPages seq gap visit page (after + items.length) fuel (after + n) s =
        sweep step s (items.drop n) by
    simpa using h items.length 0 s (Nat.zero_le _) (by omega)
  intro fuel
  induction fuel with
  | zero =>
    intro n s hn hfuel
    rw [List.drop_eq_nil_of_le (by omega)]
    rfl
  | succ fuel ih =>
    intro n s hn hfuel
    rw [visitPages]
    split
    case isFalse hdone =>
      rw [List.drop_eq_nil_of_le (by omega)]
      rfl
    case isTrue hmore =>
      have hlt : n < items.length := by omega
      have hlength : ((items.drop n).take pageSize).length = min pageSize (items.length - n) := by
        rw [List.length_take, List.length_drop]
      have hfront : ((items.drop n).take pageSize).map seq =
          List.range' (after + n + 1) ((items.drop n).take pageSize).length := by
        have hstart : after + 1 + n * 1 = after + n + 1 := by omega
        rw [List.map_take, List.map_drop, hseq, List.drop_range', hstart, hlength]
        rcases le_total pageSize (items.length - n) with hle | hle
        · rw [List.take_range'_of_length_ge hle, Nat.min_eq_left hle]
        · rw [List.take_range'_of_length_le hle, Nat.min_eq_right hle]
      have hsome : (items.drop n).take pageSize ≠ [] := by
        intro hnone
        rw [hnone, List.length_nil] at hlength
        omega
      have hsplit : items.drop n =
          (items.drop n).take pageSize ++ items.drop (n + min pageSize (items.length - n)) := by
        conv => lhs; rw [← List.take_append_drop pageSize (items.drop n)]
        rw [List.drop_drop]
        congr 1
        by_cases hle : pageSize ≤ items.length - n
        · rw [Nat.min_eq_left hle]
        · rw [List.drop_eq_nil_of_le (by omega), List.drop_eq_nil_of_le (by omega)]
      rw [hpage n hlt]
      simp only [bind, Except.bind, require, ne_eq, hsome, not_false_eq_true, if_true]
      rw [visitPage_sweep hvisit hfront, hlength]
      conv => rhs; rw [hsplit]
      rw [sweep_append]
      cases sweep step s ((items.drop n).take pageSize) with
      | error e => rfl
      | ok t =>
        have hrest := ih (n + min pageSize (items.length - n)) t (by omega) (by omega)
        simpa [Except.map, bind, Except.bind, Nat.add_assoc] using hrest

end Paging
