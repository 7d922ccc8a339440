import Mathlib.Data.List.SplitBy
import Morons.Library.Attempt

/-!
# Runs of a list

A loop that takes a run of elements from the front of a list in every round, and
what it makes of them when each run becomes one message: the messages are the
groups of elements that belong together, in their order.
-/

namespace Runs

open Attempt

variable {ε α β σ : Type}

/-- What is left of a list. -/
structure Rest (as : List α) where
  items : List α
  shorter : items.length ≤ as.length

/-- All that follows an element. -/
def Rest.all (as : List α) : Rest as := ⟨as, Nat.le_refl _⟩

/-- The answers of `f` to the run at the front that it answers, and what follows it. -/
def leading (f : α → Option β) : (as : List α) → List β × Rest as
  | [] => ([], .all [])
  | a :: as =>
    match f a with
    | some b =>
      let (run, rest) := leading f as
      (b :: run, ⟨rest.items, Nat.le_succ_of_le rest.shorter⟩)
    | none => ([], .all (a :: as))

/-- Rounds over a list until nothing is left of it. -/
def walk (round : σ → α → (as : List α) → Except ε (σ × Rest as)) : σ → List α → Except ε σ
  | s, [] => .ok s
  | s, a :: as => do
    let (t, rest) ← round s a as
    walk round t rest.items
termination_by _ as => as.length
decreasing_by
  have := rest.shorter
  simp only [List.length_cons]
  omega

/-- A list is the run that `f` answers and what follows it. -/
theorem leading_append {f : α → Option β} {g : β → α} (hfg : ∀ a b, f a = some b ↔ a = g b)
    (as : List α) :
    as = (leading f as).1.map g ++ (leading f as).2.items ∧
      ∀ a ∈ (leading f as).2.items.head?, f a = none := by
  induction as with
  | nil => simp [leading, Rest.all]
  | cons a as ih =>
    cases hf : f a with
    | none => simp [leading, hf, Rest.all]
    | some b =>
      obtain ⟨hsplit, hrest⟩ := ih
      simp only [leading, hf, List.map_cons, List.cons_append, ← (hfg a b).mp hf]
      exact ⟨congrArg _ hsplit, hrest⟩

/-! ## What fits -/

/-- Every element fits after those before it. -/
def Fits (Fit : List α → α → Prop) (done as : List α) : Prop :=
  ∀ before a after, as = before ++ a :: after → Fit (done ++ before) a

variable {Fit : List α → α → Prop}

theorem fits_nil (done : List α) : Fits Fit done [] := by
  intro before a after h
  simp at h

theorem fits_of_forall {done as : List α} (h : ∀ before, ∀ a ∈ as, Fit before a) :
    Fits Fit done as := by
  rintro before a after rfl
  exact h _ a (by simp)

theorem fits_append {done first later : List α} :
    Fits Fit done (first ++ later) ↔ Fits Fit done first ∧ Fits Fit (done ++ first) later := by
  constructor
  · intro h
    refine ⟨fun before a after hsplit => ?_, fun before a after hsplit => ?_⟩
    · exact h before a (after ++ later) (by rw [hsplit, List.append_assoc, List.cons_append])
    · rw [List.append_assoc]
      exact h (first ++ before) a after (by rw [hsplit, List.append_assoc])
  · rintro ⟨hfirst, hlater⟩ before a after hsplit
    rcases List.append_eq_append_iff.mp hsplit with ⟨more, rfl, hmore⟩ | ⟨more, rfl, hmore⟩
    · rw [← List.append_assoc]
      exact hlater more a after hmore
    · cases more with
      | nil =>
        have hhead : later = a :: after := by simpa using hmore.symm
        have := hlater [] a after hhead
        simpa using this
      | cons b more =>
        obtain ⟨rfl, -⟩ := List.cons.inj hmore
        exact hfirst before a more rfl

theorem fits_singleton {done : List α} {a : α} : Fits Fit done [a] ↔ Fit done a := by
  constructor
  · intro h
    simpa using h [] a [] rfl
  · intro h before b after hsplit
    obtain ⟨rfl, hrest⟩ | ⟨_, rfl, hrest⟩ := List.cons_eq_append_iff.mp hsplit
    · obtain ⟨rfl, -⟩ := List.cons.inj hrest
      simpa using h
    · simp at hrest

theorem fits_cons {done as : List α} {a : α} :
    Fits Fit done (a :: as) ↔ Fit done a ∧ Fits Fit (done ++ [a]) as := by
  rw [← List.singleton_append, fits_append, fits_singleton]

theorem fits_map {g : β → α} {done : List α} {bs : List β} :
    Fits (fun before b => Fit (done ++ before.map g) (g b)) [] bs ↔ Fits Fit done (bs.map g) := by
  induction bs generalizing done with
  | nil => exact iff_of_true (fits_nil []) (fits_nil done)
  | cons b bs ih =>
    have hshift : Fits (fun before b => Fit (done ++ before.map g) (g b)) [b] bs ↔
        Fits (fun before c => Fit ((done ++ [g b]) ++ before.map g) (g c)) [] bs := by
      unfold Fits
      simp
    rw [List.map_cons, fits_cons, fits_cons, ← ih, List.nil_append, hshift, List.map_nil,
      List.append_nil]

/-- A run over a list that takes each element exactly when it fits. -/
theorem sweep_fits {f : σ → α → Except ε σ} {Holds : List α → σ → Prop} {e : ε} {as : List α}
    (round : ∀ done s, ∀ a ∈ as, Holds done s →
      (Fit done a ∧ ∃ t, f s a = .ok t ∧ Holds (done ++ [a]) t) ∨ (¬ Fit done a ∧ f s a = .error e))
    {done : List α} {s : σ} (hs : Holds done s) :
    (Fits Fit done as ∧ ∃ t, sweep f s as = .ok t ∧ Holds (done ++ as) t) ∨
      (¬ Fits Fit done as ∧ sweep f s as = .error e) := by
  induction as generalizing done s with
  | nil => exact .inl ⟨fits_nil done, s, rfl, by rwa [List.append_nil]⟩
  | cons a as ih =>
    rw [fits_cons]
    rcases round done s a (List.mem_cons_self ..) hs with ⟨hfit, t, ht, hholds⟩ | ⟨hunfit, herror⟩
    · rcases ih (fun done s b hb => round done s b (List.mem_cons_of_mem a hb)) hholds with
        ⟨hfits, u, hu, hend⟩ | ⟨hnot, herror⟩
      · refine .inl ⟨⟨hfit, hfits⟩, u, (sweep_cons_ok f s u a as).mpr ⟨t, ht, hu⟩, ?_⟩
        rwa [List.append_assoc] at hend
      · exact .inr ⟨fun h => hnot h.2, by rw [sweep, bind_error]; exact .inr ⟨t, ht, herror⟩⟩
    · exact .inr ⟨fun h => hunfit h.1, by rw [sweep, bind_error]; exact .inl herror⟩

/-! ## Groups -/

variable {ω κ : Type} {joins : α → α → Bool} {read : ω → List κ} {carry : α → Option κ}

/-- An element and the run after it that belongs with it. -/
structure Group (joins : α → α → Bool) (a : α) (as run rest : List α) : Prop where
  split : as = run ++ rest
  chain : (a :: run).IsChain fun b c => joins b c
  ends : ∀ b ∈ rest.head?, joins ((a :: run).getLast (List.cons_ne_nil a run)) b = false

theorem Group.splitBy {a : α} {as run rest : List α} (h : Group joins a as run rest) :
    (a :: as).splitBy joins = (a :: run) :: rest.splitBy joins := by
  have hends : ∀ x ∈ (a :: run).getLast?, ∀ y ∈ rest.head?, joins x y = false := by
    intro x hx y hy
    rw [List.getLast?_eq_some_getLast (List.cons_ne_nil a run), Option.mem_some_iff] at hx
    exact hx ▸ h.ends y hy
  rw [h.split, ← List.cons_append, List.splitBy_append hends,
    List.splitBy_of_isChain (List.cons_ne_nil a run) h.chain, List.singleton_append]

/-- An element that joins with none after it is a group of its own. -/
theorem Group.alone {a : α} {as : List α} (h : ∀ b ∈ as.head?, joins a b = false) :
    Group joins a as [] as :=
  ⟨rfl, List.isChain_singleton a, h⟩

/-- An element and the run that `f` answers, when it joins with what `f` answers and no more. -/
theorem Group.leading {f : α → Option β} {g : β → α} (hfg : ∀ a b, f a = some b ↔ a = g b) {a : α}
    (as : List α) (hjoins : ∀ x, x = a ∨ (f x).isSome → ∀ y, joins x y = (f y).isSome) :
    Group joins a as ((leading f as).1.map g) (leading f as).2.items := by
  obtain ⟨hsplit, hrest⟩ := leading_append hfg as
  have hrun : ∀ x ∈ (Runs.leading f as).1.map g, (f x).isSome := by
    intro x hx
    obtain ⟨b, -, rfl⟩ := List.mem_map.mp hx
    rw [(hfg (g b) b).mpr rfl]
    rfl
  have hall : ∀ x ∈ a :: (Runs.leading f as).1.map g, x = a ∨ (f x).isSome := by
    intro x hx
    exact (List.mem_cons.mp hx).imp_right (hrun x)
  refine ⟨hsplit, List.Pairwise.isChain (List.pairwise_cons.mpr ⟨fun y hy => ?_, ?_⟩),
    fun b hb => ?_⟩
  · rw [hjoins a (.inl rfl)]
    exact hrun y hy
  · refine List.pairwise_of_forall_mem_list fun x hx y hy => ?_
    rw [hjoins x (.inr (hrun x hx))]
    exact hrun y hy
  · rw [hjoins _ (hall _ (List.getLast_mem _)), hrest b hb]
    rfl

/-- What is carried of the groups that something is carried of. -/
def carried (joins : α → α → Bool) (carry : α → Option κ) (as : List α) : List (List κ) :=
  ((as.splitBy joins).map (List.filterMap carry)).filter fun group => !group.isEmpty

/-- Each message, read back, is what is carried of one group. -/
def Carries (joins : α → α → Bool) (read : ω → List κ) (carry : α → Option κ) (as : List α)
    (messages : List ω) : Prop :=
  messages.map read = carried joins carry as

/-- Messages read back one after the other are what is carried, in its order. -/
theorem Carries.flatten {as : List α} {messages : List ω} (h : Carries joins read carry as messages) :
    messages.flatMap read = as.filterMap carry := by
  rw [List.flatMap_def, h, carried, List.flatten_filter_not_isEmpty, ← List.filterMap_flatten,
    List.flatten_splitBy]

/-- What a round makes of a group: a message when something is carried of it. -/
structure Sends (read : ω → List κ) (carry : α → Option κ) (group : List α)
    (before after : List ω) : Prop where
  message : ∃ new, after = before ++ new ∧
    new.map read = [group.filterMap carry].filter fun group => !group.isEmpty

theorem Sends.one {group : List α} {before : List ω} {message : ω}
    (hread : read message = group.filterMap carry) (hsome : group.filterMap carry ≠ []) :
    Sends read carry group before (before ++ [message]) := by
  refine ⟨[message], rfl, ?_⟩
  rw [List.filter_singleton, List.isEmpty_eq_false_iff.mpr hsome, List.map_singleton, hread]
  rfl

theorem Sends.none {group : List α} {before : List ω} (hnone : group.filterMap carry = []) :
    Sends read carry group before before :=
  ⟨[], (List.append_nil before).symm, by rw [hnone]; rfl⟩

/-- A round takes one group from the front, and takes it exactly when it fits. -/
def Taken (joins : α → α → Bool) (Fit : List α → α → Prop) (Holds : List α → σ → Prop)
    (messages : σ → List ω) (read : ω → List κ) (carry : α → Option κ)
    (round : σ → α → (as : List α) → Except ε (σ × Rest as)) (e : ε) (done : List α) (s : σ) (a : α)
    (as : List α) : Prop :=
  ∃ run rest, Group joins a as run rest ∧
    ((Fits Fit done (a :: run) ∧ ∃ t left, round s a as = .ok (t, left) ∧ left.items = rest ∧
        Holds (done ++ a :: run) t ∧ Sends read carry (a :: run) (messages s) (messages t)) ∨
      (¬ Fits Fit done (a :: run) ∧ round s a as = .error e))

/-- Where every round takes one group, the messages carry the list, and the walk fails when
something does not fit. -/
theorem walk_carries {round : σ → α → (as : List α) → Except ε (σ × Rest as)}
    {Holds : List α → σ → Prop} {messages : σ → List ω} {e : ε} {whole : List α}
    (taken : ∀ done s a as, whole = done ++ a :: as → Holds done s →
      Taken joins Fit Holds messages read carry round e done s a as)
    {done : List α} (s : σ) {as : List α} (hwhole : whole = done ++ as) (hs : Holds done s) :
    (Fits Fit done as ∧ ∃ t new, walk round s as = .ok t ∧ Holds whole t ∧
        messages t = messages s ++ new ∧ Carries joins read carry as new) ∨
      (¬ Fits Fit done as ∧ walk round s as = .error e) := by
  induction hlength : as.length using Nat.strongRecOn generalizing done s as with
  | ind n ih =>
  cases as with
  | nil =>
    refine .inl ⟨fits_nil done, s, [], by rw [walk], ?_, (List.append_nil _).symm, rfl⟩
    rwa [hwhole, List.append_nil]
  | cons a as =>
    obtain ⟨run, rest, hgroup, htaken⟩ := taken done s a as hwhole hs
    have hsplit : a :: as = (a :: run) ++ rest := congrArg (a :: ·) hgroup.split
    rw [hsplit, fits_append, ← hsplit, walk]
    rcases htaken with ⟨hfits, t, left, hround, hleft, hholds, hsends⟩ | ⟨hunfit, herror⟩
    · have hrest : whole = (done ++ a :: run) ++ rest := by rw [hwhole, hsplit, List.append_assoc]
      have hshorter : rest.length < n := by
        rw [← hlength, hsplit, List.length_append, List.length_cons]
        omega
      simp only [hround, bind, Except.bind, hleft]
      rcases ih rest.length hshorter t hrest hholds rfl with
        ⟨hlater, u, new, hwalk, hend, hmessages, hcarries⟩ | ⟨hlater, herror⟩
      · obtain ⟨first, hfirst, hread⟩ := hsends.message
        refine .inl ⟨⟨hfits, hlater⟩, u, first ++ new, hwalk, hend, ?_, ?_⟩
        · rw [hmessages, hfirst, List.append_assoc]
        · rw [Carries, List.map_append, hread, hcarries, carried, carried, hgroup.splitBy,
            ← List.filter_append, List.map_cons, List.singleton_append]
      · exact .inr ⟨fun h => hlater h.2, herror⟩
    · refine .inr ⟨fun h => hunfit h.1, ?_⟩
      simp only [herror, bind, Except.bind]

end Runs
