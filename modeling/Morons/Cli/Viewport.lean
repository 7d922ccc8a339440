import Morons.Library.Table
import Morons.Library.Transition
import Morons.Types

/-!
# The transcript viewport

The viewport keeps the places of the blocks of a transcript and the row at its top.  A
reader either follows the latest output or stays at a row of a block.
-/

namespace Morons.Cli

open Transition

/-- `usize::MAX`. -/
def usizeMax : Nat := 2 ^ 64 - 1

/-- `usize::saturating_add`. -/
def saturatingAdd (a b : Nat) : Nat := min (a + b) usizeMax

inductive TranscriptBlockKey
  | entry (message : MessageId) (part : Nat)
  | transient (run : RunId) (part : Nat)
  deriving DecidableEq

structure TranscriptBlockMetric where
  key : TranscriptBlockKey
  start : Nat
  height : Nat
  deriving DecidableEq

structure TranscriptAnchor where
  key : TranscriptBlockKey
  row : Nat
  deriving DecidableEq

structure TranscriptViewport where
  followLatest : Bool := true
  top : Nat := 0
  width : Nat := 0
  height : Nat := 0
  contentHeight : Nat := 0
  blocks : List TranscriptBlockMetric := []
  layoutDirty : Bool := true
  newerOutput : Bool := false
  deriving DecidableEq

namespace TranscriptViewport

def reset (_ : TranscriptViewport) : TranscriptViewport := {}

def resetToTop (_ : TranscriptViewport) : TranscriptViewport := { followLatest := false }

def maximumTop (v : TranscriptViewport) : Nat := v.contentHeight - v.height

def pageRows (v : TranscriptViewport) : Nat := max (v.height - 1) 1

def anchor (v : TranscriptViewport) : Option TranscriptAnchor :=
  (v.blocks.find? fun m =>
      decide (m.start ≤ v.top) && decide (v.top < saturatingAdd m.start m.height)).map
    fun m => ⟨m.key, v.top - m.start⟩

/-- The metrics of measured blocks, and where the last one ends. -/
def measure : Nat → List (TranscriptBlockKey × Nat) → List TranscriptBlockMetric × Nat
  | start, [] => ([], start)
  | start, (key, height) :: rest =>
    let height := max height 1
    let (blocks, stop) := measure (saturatingAdd start height) rest
    (⟨key, start, height⟩ :: blocks, stop)

/-- The row that the anchor has now. -/
def anchoredTop (v : TranscriptViewport) (anchor : Option TranscriptAnchor) : Nat :=
  (anchor.bind fun anchor =>
      (v.blocks.find? fun m => decide (m.key = anchor.key)).map fun m =>
        saturatingAdd m.start (min anchor.row (m.height - 1))).getD v.top

/-- The blocks that an update leaves. -/
def measureBlocks (v : TranscriptViewport) (width : Nat) :
    Option (List (TranscriptBlockKey × Nat)) → TranscriptViewport
  | some measured =>
    let (blocks, contentHeight) := measure 0 measured
    { v with blocks, contentHeight, width, layoutDirty := false }
  | none => v

/-- The row at the top of a layout, and whether the reader follows the latest output. -/
def settle (v : TranscriptViewport) (anchor : Option TranscriptAnchor) : TranscriptViewport :=
  if v.followLatest then { v with top := v.maximumTop, newerOutput := false }
  else if v.maximumTop = 0 then { v with followLatest := true, top := 0, newerOutput := false }
  else { v with top := min (v.anchoredTop anchor) v.maximumTop }

def updateLayout (v : TranscriptViewport) (width height : Nat)
    (measured : Option (List (TranscriptBlockKey × Nat))) : TranscriptViewport :=
  let anchor := if v.followLatest then none else v.anchor
  { v.measureBlocks width measured with height }.settle anchor

/-- The key of a block once the run's output is an entry. -/
def replacedKey (run : RunId) (message : MessageId) : TranscriptBlockKey → TranscriptBlockKey
  | .transient id part => if id = run then .entry message part else .transient id part
  | key => key

def replaceTransient (v : TranscriptViewport) (run : RunId) (message : MessageId) :
    TranscriptViewport :=
  { v with blocks := v.blocks.map fun m => { m with key := replacedKey run message m.key } }

def noteLayoutChanged (v : TranscriptViewport) : TranscriptViewport := { v with layoutDirty := true }

def noteContentChanged (v : TranscriptViewport) : TranscriptViewport :=
  let v := v.noteLayoutChanged
  if v.followLatest then v else { v with newerOutput := true }

def noteNewerOutput (v : TranscriptViewport) : TranscriptViewport := { v with newerOutput := true }

def scrollLinesUp (v : TranscriptViewport) (rows : Nat) : TranscriptViewport :=
  let current := if v.followLatest then v.maximumTop else v.top
  let next := current - rows
  if next < current then { v with followLatest := false, top := next } else v

def scrollToBottom (v : TranscriptViewport) : TranscriptViewport :=
  { v with followLatest := true, top := v.maximumTop, newerOutput := false }

def scrollLinesDown (v : TranscriptViewport) (rows : Nat) : TranscriptViewport :=
  if v.followLatest then v
  else
    let v := { v with top := min (saturatingAdd v.top rows) v.maximumTop }
    if v.top = v.maximumTop then v.scrollToBottom else v

def scrollPageUp (v : TranscriptViewport) : TranscriptViewport := v.scrollLinesUp v.pageRows

def scrollPageDown (v : TranscriptViewport) : TranscriptViewport := v.scrollLinesDown v.pageRows

def scrollToTop (v : TranscriptViewport) : TranscriptViewport :=
  if 0 < v.maximumTop then { v with followLatest := false, top := 0 } else v

/-- The first block shown, the first one after it that is not, and the rows of the first block
that are above the top. -/
def visibleBlockRange (v : TranscriptViewport) : Nat × Nat × Nat :=
  let visibleEnd := saturatingAdd v.top v.height
  let start := v.blocks.findIdx fun m => decide (v.top < saturatingAdd m.start m.height)
  let stop :=
    match (v.blocks.drop start).findIdx? fun m => decide (visibleEnd ≤ m.start) with
    | some offset => start + offset
    | none => v.blocks.length
  (start, stop, ((v.blocks[start]?).map fun m => v.top - m.start).getD 0)

end TranscriptViewport

inductive ViewportOperation
  | reset | resetToTop
  | updateLayout (width height : Nat) (measured : Option (List (TranscriptBlockKey × Nat)))
  | replaceTransient (run : RunId) (message : MessageId)
  | noteContentChanged | noteLayoutChanged | noteNewerOutput
  | scrollLinesUp (rows : Nat) | scrollLinesDown (rows : Nat)
  | scrollPageUp | scrollPageDown | scrollToTop | scrollToBottom
  deriving DecidableEq

namespace ViewportOperation

def apply (v : TranscriptViewport) : ViewportOperation → TranscriptViewport
  | reset => v.reset
  | resetToTop => v.resetToTop
  | updateLayout width height measured => v.updateLayout width height measured
  | replaceTransient run message => v.replaceTransient run message
  | noteContentChanged => v.noteContentChanged
  | noteLayoutChanged => v.noteLayoutChanged
  | noteNewerOutput => v.noteNewerOutput
  | scrollLinesUp rows => v.scrollLinesUp rows
  | scrollLinesDown rows => v.scrollLinesDown rows
  | scrollPageUp => v.scrollPageUp
  | scrollPageDown => v.scrollPageDown
  | scrollToTop => v.scrollToTop
  | scrollToBottom => v.scrollToBottom

/-- The measured blocks have different keys and can be counted, and an entry that replaces
output is a new one. -/
def allowed (v : TranscriptViewport) : ViewportOperation → Bool
  | updateLayout _ _ (some measured) =>
    decide (measured.map (·.1)).Nodup &&
      decide ((measured.map fun m => max m.2 1).sum ≤ usizeMax)
  | replaceTransient run message =>
    decide (v.blocks.map fun m => TranscriptViewport.replacedKey run message m.key).Nodup
  | _ => true

end ViewportOperation

/-! ## Layouts -/

/-- The blocks cover the rows from one to another, in their order. -/
def Tiles : Nat → List TranscriptBlockMetric → Nat → Prop
  | start, [], stop => start = stop
  | start, m :: rest, stop => m.start = start ∧ 1 ≤ m.height ∧ Tiles (start + m.height) rest stop

/-- The blocks are all of the content, and each has its own key. -/
structure Layout (v : TranscriptViewport) : Prop where
  tiles : Tiles 0 v.blocks v.contentHeight
  counted : v.contentHeight ≤ usizeMax
  keys : (v.blocks.map (·.key)).Nodup

/-- A viewport that is shown. -/
structure Settled (v : TranscriptViewport) : Prop where
  bounded : v.top ≤ v.contentHeight - v.height
  latest : v.followLatest = true → v.top = v.contentHeight - v.height
  range : v.visibleBlockRange.1 ≤ v.visibleBlockRange.2.1 ∧
    v.visibleBlockRange.2.1 ≤ v.blocks.length
  /-- The blocks in the range are those with a row that is shown. -/
  visible : 0 < v.height → ∀ i m, v.blocks[i]? = some m →
    (v.visibleBlockRange.1 ≤ i ∧ i < v.visibleBlockRange.2.1 ↔
      ∃ row, v.top ≤ row ∧ row < v.top + v.height ∧ m.start ≤ row ∧ row < m.start + m.height)
  /-- The top is a row of the first block. -/
  offset : ∀ m, v.blocks[v.visibleBlockRange.1]? = some m →
    v.top = m.start + v.visibleBlockRange.2.2 ∧ v.visibleBlockRange.2.2 < m.height

/-- The blocks are the measured ones, with their keys and their heights, of one row at least;
without a measurement they stay. -/
def Measures (v w : TranscriptViewport) : Option (List (TranscriptBlockKey × Nat)) → Prop
  | some measured =>
    w.blocks.map (fun m => (m.key, m.height)) = measured.map fun m => (m.1, max m.2 1)
  | none => w.blocks = v.blocks

/-- The row of the old block at the top stays at the top, unless the content ends before. -/
def KeepsRow (v w : TranscriptViewport) : Prop :=
  v.followLatest = false → ∀ old ∈ v.blocks, old.start ≤ v.top → v.top < old.start + old.height →
    ∀ new ∈ w.blocks, new.key = old.key → v.top - old.start < new.height →
      w.top = min (new.start + (v.top - old.start)) (w.contentHeight - w.height)

namespace TranscriptViewport

def Started (v : TranscriptViewport) : Prop := v = {}

def Step (v w : TranscriptViewport) : Prop :=
  ∃ operation : ViewportOperation, operation.allowed v = true ∧ w = operation.apply v

end TranscriptViewport

section Tilings

variable {blocks : List TranscriptBlockMetric} {m : TranscriptBlockMetric} {start stop : Nat}

theorem tiles_le (h : Tiles start blocks stop) : start ≤ stop := by
  induction blocks generalizing start with
  | nil => exact Nat.le_of_eq h
  | cons m rest ih =>
    obtain ⟨-, -, hrest⟩ := h
    exact Nat.le_trans (Nat.le_add_right _ _) (ih hrest)

theorem tiles_append {more : List TranscriptBlockMetric} :
    Tiles start (blocks ++ more) stop ↔ ∃ middle, Tiles start blocks middle ∧ Tiles middle more stop := by
  induction blocks generalizing start with
  | nil => simp [Tiles]
  | cons m rest ih =>
    simp only [List.cons_append, Tiles, ih]
    constructor
    · rintro ⟨hstart, hheight, middle, hrest, hmore⟩
      exact ⟨middle, ⟨hstart, hheight, hrest⟩, hmore⟩
    · rintro ⟨middle, ⟨hstart, hheight, hrest⟩, hmore⟩
      exact ⟨hstart, hheight, middle, hrest, hmore⟩

theorem tiles_mem (h : Tiles start blocks stop) (hm : m ∈ blocks) :
    start ≤ m.start ∧ 1 ≤ m.height ∧ m.start + m.height ≤ stop := by
  obtain ⟨before, after, rfl⟩ := List.append_of_mem hm
  obtain ⟨middle, hbefore, rfl, hheight, hafter⟩ := tiles_append.mp h
  exact ⟨tiles_le hbefore, hheight, tiles_le hafter⟩

/-- A block ends where those after it begin. -/
theorem tiles_pairwise (h : Tiles start blocks stop) :
    blocks.Pairwise fun a b => a.start + a.height ≤ b.start := by
  induction blocks generalizing start with
  | nil => exact List.Pairwise.nil
  | cons m rest ih =>
    obtain ⟨rfl, -, hrest⟩ := h
    exact List.pairwise_cons.mpr ⟨fun other hother => (tiles_mem hrest hother).1, ih hrest⟩

/-- The rows before a block are those of the blocks before it. -/
theorem tiles_start {i : Nat} (h : Tiles start blocks stop) (hi : blocks[i]? = some m)
    {row : Nat} (hrow : start ≤ row)
    (hbefore : ∀ j other, j < i → blocks[j]? = some other → other.start + other.height ≤ row) :
    m.start ≤ row := by
  induction blocks generalizing start i with
  | nil => simp at hi
  | cons first rest ih =>
    obtain ⟨rfl, -, hrest⟩ := h
    cases i with
    | zero =>
      obtain rfl : first = m := by simpa using hi
      exact hrow
    | succ i =>
      refine ih hrest (by simpa using hi) (hbefore 0 first (Nat.succ_pos i) rfl) ?_
      intro j other hj hother
      exact hbefore (j + 1) other (Nat.succ_lt_succ hj) (by simpa using hother)

theorem saturatingAdd_eq {a b : Nat} (h : a + b ≤ usizeMax) : saturatingAdd a b = a + b :=
  Nat.min_eq_left h

theorem measure_tiles (start : Nat) (measured : List (TranscriptBlockKey × Nat))
    (h : start + (measured.map fun m => max m.2 1).sum ≤ usizeMax) :
    Tiles start (TranscriptViewport.measure start measured).1
        (TranscriptViewport.measure start measured).2 ∧
      (TranscriptViewport.measure start measured).2 =
        start + (measured.map fun m => max m.2 1).sum ∧
      (TranscriptViewport.measure start measured).1.map (fun m => (m.key, m.height)) =
        measured.map fun m => (m.1, max m.2 1) := by
  induction measured generalizing start with
  | nil => exact ⟨rfl, rfl, rfl⟩
  | cons first rest ih =>
    obtain ⟨key, height⟩ := first
    rw [List.map_cons, List.sum_cons] at h
    have hnext : saturatingAdd start (max height 1) = start + max height 1 :=
      saturatingAdd_eq (by omega)
    obtain ⟨htiles, hstop, hblocks⟩ := ih (start + max height 1) (by omega)
    simp only [TranscriptViewport.measure, hnext, List.map_cons, List.sum_cons]
    exact ⟨⟨rfl, Nat.le_max_right _ _, htiles⟩, by omega, by rw [hblocks]⟩

theorem findIdx_congr {α : Type} {p q : α → Bool} {xs : List α} (h : ∀ a ∈ xs, p a = q a) :
    xs.findIdx p = xs.findIdx q := by
  induction xs with
  | nil => rfl
  | cons x rest ih =>
    rw [List.forall_mem_cons] at h
    rw [List.findIdx_cons, List.findIdx_cons, h.1, ih h.2]

theorem find?_unique {α : Type} {p : α → Bool} {xs : List α} {a : α} (ha : a ∈ xs)
    (hp : p a = true) (hunique : ∀ b ∈ xs, p b = true → b = a) : xs.find? p = some a := by
  cases hfound : xs.find? p with
  | none => exact absurd hp (by simpa using List.find?_eq_none.mp hfound a ha)
  | some b => rw [hunique b (List.mem_of_find?_eq_some hfound) (List.find?_some hfound)]

/-- A row is of one block only. -/
theorem tiles_unique {other : TranscriptBlockMetric} {row : Nat} (h : Tiles start blocks stop)
    (hm : m ∈ blocks) (hother : other ∈ blocks) (hrow : m.start ≤ row ∧ row < m.start + m.height)
    (hrow' : other.start ≤ row ∧ row < other.start + other.height) : other = m := by
  obtain ⟨before, after, rfl⟩ := List.append_of_mem hm
  have hpairs := tiles_pairwise h
  obtain ⟨-, hafter, hbefore⟩ := List.pairwise_append.mp hpairs
  rw [List.mem_append, List.mem_cons] at hother
  rcases hother with hother | rfl | hother
  · have := hbefore other hother m (List.mem_cons_self ..)
    omega
  · rfl
  · have := (List.pairwise_cons.mp hafter).1 other hother
    omega

/-- The places of a predicate that stays true. -/
theorem findIdx_le_iff {α : Type} {p : α → Bool} {xs : List α} {i : Nat} {a : α}
    (hmono : xs.Pairwise fun a b => p a = true → p b = true) (hi : xs[i]? = some a) :
    xs.findIdx p ≤ i ↔ p a = true := by
  induction xs generalizing i with
  | nil => simp at hi
  | cons x rest ih =>
    obtain ⟨hfirst, hrest⟩ := List.pairwise_cons.mp hmono
    rw [List.findIdx_cons]
    cases hx : p x with
    | true =>
      simp only [cond_true, Nat.zero_le, true_iff]
      cases i with
      | zero =>
        obtain rfl : x = a := by simpa using hi
        exact hx
      | succ i => exact hfirst a (List.mem_of_getElem? (by simpa using hi)) hx
    | false =>
      simp only [cond_false]
      cases i with
      | zero =>
        obtain rfl : x = a := by simpa using hi
        simp [hx]
      | succ i =>
        rw [Nat.add_le_add_iff_right]
        exact ih hrest (by simpa using hi)

end Tilings

/-! ## What is visible -/

section Visible

variable {v : TranscriptViewport}

theorem first_visible (h : Layout v) : v.visibleBlockRange.1 =
    v.blocks.findIdx fun m => decide (v.top < m.start + m.height) := by
  refine findIdx_congr fun m hm => ?_
  have hstop := (tiles_mem h.tiles hm).2.2
  have hcounted := h.counted
  rw [saturatingAdd_eq (by omega)]

theorem last_visible (h : Layout v) : v.visibleBlockRange.2.1 = v.visibleBlockRange.1 +
    (v.blocks.drop v.visibleBlockRange.1).findIdx fun m => decide (v.top + v.height ≤ m.start) := by
  have hstarts : ∀ m ∈ v.blocks.drop v.visibleBlockRange.1,
      decide (saturatingAdd v.top v.height ≤ m.start) = decide (v.top + v.height ≤ m.start) := by
    intro m hm
    obtain ⟨-, hheight, hstop⟩ := tiles_mem h.tiles (List.mem_of_mem_drop hm)
    have hcounted := h.counted
    refine decide_eq_decide.mpr ⟨fun hle => ?_, fun hle => Nat.le_trans (Nat.min_le_left _ _) hle⟩
    unfold saturatingAdd at hle
    omega
  have hrange : v.visibleBlockRange.1 ≤ v.blocks.length := List.findIdx_le_length
  rw [← findIdx_congr hstarts]
  show (match (v.blocks.drop v.visibleBlockRange.1).findIdx? _ with
    | some offset => v.visibleBlockRange.1 + offset
    | none => v.blocks.length) = _
  split
  case h_1 offset hfound => rw [(List.findIdx?_eq_some_iff_findIdx_eq.mp hfound).2]
  case h_2 hnone =>
    rw [List.findIdx?_eq_none_iff_findIdx_eq.mp hnone, List.length_drop]
    omega

/-- The range of the blocks that are shown, once the top is within the content. -/
theorem settled_visible (h : Layout v) (hbounded : v.top ≤ v.contentHeight - v.height)
    (hlatest : v.followLatest = true → v.top = v.contentHeight - v.height) : Settled v := by
  have hfirst := first_visible h
  have hlast := last_visible h
  have hpairs := tiles_pairwise h.tiles
  have hends : v.blocks.Pairwise fun a b => decide (v.top < a.start + a.height) = true →
      decide (v.top < b.start + b.height) = true := by
    refine hpairs.imp fun hab ha => ?_
    simp only [decide_eq_true_eq] at ha ⊢
    omega
  have hstarts : (v.blocks.drop v.visibleBlockRange.1).Pairwise fun a b =>
      decide (v.top + v.height ≤ a.start) = true → decide (v.top + v.height ≤ b.start) = true := by
    refine (hpairs.sublist (List.drop_sublist _ _)).imp fun hab ha => ?_
    simp only [decide_eq_true_eq] at ha ⊢
    omega
  refine ⟨hbounded, hlatest, ⟨?_, ?_⟩, ?_, ?_⟩
  · rw [hlast]
    exact Nat.le_add_right _ _
  · have hrange : v.visibleBlockRange.1 ≤ v.blocks.length := List.findIdx_le_length
    have hrest : (v.blocks.drop v.visibleBlockRange.1).findIdx
        (fun m : TranscriptBlockMetric => decide (v.top + v.height ≤ m.start)) ≤
        (v.blocks.drop v.visibleBlockRange.1).length := List.findIdx_le_length
    rw [List.length_drop] at hrest
    rw [hlast]
    omega
  · intro hheight i m hi
    have hm := List.mem_of_getElem? hi
    obtain ⟨-, htall, -⟩ := tiles_mem h.tiles hm
    have hbegun : v.visibleBlockRange.1 ≤ i ↔ v.top < m.start + m.height := by
      rw [hfirst, findIdx_le_iff hends hi, decide_eq_true_eq]
    have hshown : v.visibleBlockRange.1 ≤ i → (i < v.visibleBlockRange.2.1 ↔
        m.start < v.top + v.height) := by
      intro hge
      have hdrop : (v.blocks.drop v.visibleBlockRange.1)[i - v.visibleBlockRange.1]? = some m := by
        rw [List.getElem?_drop, Nat.add_sub_cancel' hge]
        exact hi
      have hle := findIdx_le_iff hstarts hdrop
      rw [decide_eq_true_eq] at hle
      rw [hlast]
      omega
    constructor
    · rintro ⟨hge, hlt⟩
      have hend := hbegun.mp hge
      have hstart := (hshown hge).mp hlt
      exact ⟨max v.top m.start, Nat.le_max_left _ _, by omega, Nat.le_max_right _ _, by omega⟩
    · rintro ⟨row, htop, hbottom, hstart, hend⟩
      have hge := hbegun.mpr (by omega)
      exact ⟨hge, (hshown hge).mpr (by omega)⟩
  · intro m hi
    have hend : v.top < m.start + m.height := by
      have hle := findIdx_le_iff hends hi
      rw [← hfirst, decide_eq_true_eq] at hle
      exact hle.mp (Nat.le_refl _)
    have hstart : m.start ≤ v.top := by
      refine tiles_start h.tiles hi (Nat.zero_le _) fun j other hj hother => ?_
      have hle := findIdx_le_iff hends hother
      rw [← hfirst, decide_eq_true_eq] at hle
      omega
    have hoffset : v.visibleBlockRange.2.2 = v.top - m.start := by
      show ((v.blocks[v.visibleBlockRange.1]?).map fun m => v.top - m.start).getD 0 = _
      rw [hi]
      rfl
    rw [hoffset]
    omega

end Visible

/-! ## Updates -/

section Updates

variable {v : TranscriptViewport} {width height : Nat}
  {measured : Option (List (TranscriptBlockKey × Nat))}

theorem settle_layout (v : TranscriptViewport) (anchor : Option TranscriptAnchor) :
    (v.settle anchor).blocks = v.blocks ∧ (v.settle anchor).contentHeight = v.contentHeight ∧
      (v.settle anchor).height = v.height := by
  unfold TranscriptViewport.settle
  split
  · exact ⟨rfl, rfl, rfl⟩
  split <;> exact ⟨rfl, rfl, rfl⟩

theorem measureBlocks_kept (v : TranscriptViewport) (width : Nat)
    (measured : Option (List (TranscriptBlockKey × Nat))) :
    (v.measureBlocks width measured).followLatest = v.followLatest ∧
      (v.measureBlocks width measured).top = v.top := by
  cases measured <;> exact ⟨rfl, rfl⟩

theorem layout_measured (h : Layout v)
    (hallowed : (ViewportOperation.updateLayout width height measured).allowed v = true) :
    Layout (v.measureBlocks width measured) := by
  cases measured with
  | none => exact h
  | some measured =>
    simp only [ViewportOperation.allowed, Bool.and_eq_true, decide_eq_true_eq] at hallowed
    obtain ⟨hkeys, hcounted⟩ := hallowed
    obtain ⟨htiles, hstop, hsame⟩ := measure_tiles 0 measured (by omega)
    refine ⟨htiles, ?_, ?_⟩
    · show (TranscriptViewport.measure 0 measured).2 ≤ usizeMax
      omega
    · show ((TranscriptViewport.measure 0 measured).1.map (·.key)).Nodup
      have hsameKeys := congrArg (List.map Prod.fst) hsame
      simp only [List.map_map, Function.comp_def] at hsameKeys
      rw [hsameKeys]
      exact hkeys

/-- What is shown are the blocks of the update. -/
theorem measures_updated
    (hallowed : (ViewportOperation.updateLayout width height measured).allowed v = true) :
    Measures v (v.updateLayout width height measured) measured := by
  have hblocks := (settle_layout { v.measureBlocks width measured with height }
    (if v.followLatest then none else v.anchor)).1
  cases measured with
  | none => exact hblocks
  | some measured =>
    simp only [ViewportOperation.allowed, Bool.and_eq_true, decide_eq_true_eq] at hallowed
    exact (congrArg _ hblocks).trans (measure_tiles 0 measured (by omega)).2.2

theorem layout_updated (h : Layout v)
    (hallowed : (ViewportOperation.updateLayout width height measured).allowed v = true) :
    Layout (v.updateLayout width height measured) := by
  obtain ⟨htiles, hcounted, hkeys⟩ := layout_measured h hallowed
  obtain ⟨hblocks, hcontent, -⟩ := settle_layout
    { v.measureBlocks width measured with height } (if v.followLatest then none else v.anchor)
  refine ⟨?_, ?_, ?_⟩
  · show Tiles 0 (TranscriptViewport.settle _ _).blocks (TranscriptViewport.settle _ _).contentHeight
    rw [hblocks, hcontent]
    exact htiles
  · show (TranscriptViewport.settle _ _).contentHeight ≤ usizeMax
    rw [hcontent]
    exact hcounted
  · show ((TranscriptViewport.settle _ _).blocks.map (·.key)).Nodup
    rw [hblocks]
    exact hkeys

/-- After an update the top is within the content, at its end for a reader who follows. -/
theorem settle_top (v : TranscriptViewport) (anchor : Option TranscriptAnchor) :
    (v.settle anchor).top ≤ v.maximumTop ∧
      ((v.settle anchor).followLatest = true → (v.settle anchor).top = v.maximumTop) ∧
      (v.followLatest = false →
        (v.settle anchor).top = min (v.anchoredTop anchor) v.maximumTop) := by
  unfold TranscriptViewport.settle
  cases hlatest : v.followLatest with
  | true => exact ⟨Nat.le_refl _, fun _ => rfl, nofun⟩
  | false =>
    simp only [Bool.false_eq_true, if_false]
    split
    case isTrue hnone => exact ⟨Nat.zero_le _, fun _ => hnone.symm, fun _ => by simp [hnone]⟩
    case isFalse => exact ⟨Nat.min_le_right _ _, by simp, fun _ => rfl⟩

theorem settled_updated (h : Layout v)
    (hallowed : (ViewportOperation.updateLayout width height measured).allowed v = true) :
    Settled (v.updateLayout width height measured) := by
  have hlayout := layout_updated h hallowed
  obtain ⟨-, hcontent, hheight⟩ := settle_layout
    { v.measureBlocks width measured with height } (if v.followLatest then none else v.anchor)
  obtain ⟨hbounded, hlatest, -⟩ := settle_top
    { v.measureBlocks width measured with height } (if v.followLatest then none else v.anchor)
  have hmaximum : (v.updateLayout width height measured).contentHeight -
      (v.updateLayout width height measured).height =
        TranscriptViewport.maximumTop { v.measureBlocks width measured with height } := by
    show (TranscriptViewport.settle _ _).contentHeight - (TranscriptViewport.settle _ _).height = _
    rw [hcontent, hheight]
    rfl
  refine settled_visible hlayout ?_ ?_
  · rw [hmaximum]
    exact hbounded
  · rw [hmaximum]
    exact hlatest

/-- A reader who stays keeps the row of the anchor. -/
theorem anchoredTop_eq {w : TranscriptViewport} (h : Layout v) (hw : Layout w)
    {old new : TranscriptBlockMetric} (hold : old ∈ v.blocks) (hstart : old.start ≤ v.top)
    (hend : v.top < old.start + old.height) (hnew : new ∈ w.blocks) (hkey : new.key = old.key)
    (hrow : v.top - old.start < new.height) :
    w.anchoredTop v.anchor = new.start + (v.top - old.start) := by
  have hanchor : v.anchor = some ⟨old.key, v.top - old.start⟩ := by
    have hunique : v.blocks.find? (fun m =>
        decide (m.start ≤ v.top) && decide (v.top < saturatingAdd m.start m.height)) = some old := by
      have hbelow : ∀ m ∈ v.blocks, saturatingAdd m.start m.height = m.start + m.height := by
        intro m hm
        have hstop := (tiles_mem h.tiles hm).2.2
        have hcounted := h.counted
        exact saturatingAdd_eq (by omega)
      refine find?_unique hold ?_ fun other hother hinside => ?_
      · rw [hbelow old hold, decide_eq_true hstart, decide_eq_true hend]
        rfl
      · rw [hbelow other hother, Bool.and_eq_true, decide_eq_true_eq, decide_eq_true_eq] at hinside
        exact tiles_unique h.tiles hold hother ⟨hstart, hend⟩ hinside
    rw [TranscriptViewport.anchor, hunique]
    rfl
  have hfound : w.blocks.find? (fun m => decide (m.key = old.key)) = some new :=
    (Table.find_iff hw.keys).mpr ⟨hnew, hkey⟩
  have hstop := (tiles_mem hw.tiles hnew).2.2
  have hcounted := hw.counted
  rw [TranscriptViewport.anchoredTop, hanchor]
  simp only [Option.bind_some, hfound, Option.map_some, Option.getD_some]
  rw [saturatingAdd_eq (by omega)]
  omega

theorem keepsRow_updated (h : Layout v)
    (hallowed : (ViewportOperation.updateLayout width height measured).allowed v = true) :
    KeepsRow v (v.updateLayout width height measured) := by
  intro hlatest old hold hstart hend new hnew hkey hrow
  have hmeasured := layout_measured h hallowed
  obtain ⟨hblocks, hcontent, hheight⟩ := settle_layout
    { v.measureBlocks width measured with height } v.anchor
  obtain ⟨hfollow, -⟩ := measureBlocks_kept v width measured
  have htop := (settle_top { v.measureBlocks width measured with height } v.anchor).2.2
    (hfollow.trans hlatest)
  have hupdate : v.updateLayout width height measured =
      TranscriptViewport.settle { v.measureBlocks width measured with height } v.anchor := by
    rw [TranscriptViewport.updateLayout, hlatest]
    rfl
  rw [hupdate, hblocks] at hnew
  have hanchored : TranscriptViewport.anchoredTop { v.measureBlocks width measured with height }
      v.anchor = new.start + (v.top - old.start) := by
    refine anchoredTop_eq h ⟨hmeasured.tiles, hmeasured.counted, hmeasured.keys⟩ hold hstart hend hnew
      hkey hrow
  rw [hupdate, htop, hanchored, hcontent, hheight]
  rfl

end Updates

/-! ## Runs -/

namespace TranscriptViewport

/-- What does not touch the blocks keeps the layout. -/
theorem layout_same {v w : TranscriptViewport} (h : Layout v) (hblocks : w.blocks = v.blocks)
    (hcontent : w.contentHeight = v.contentHeight) : Layout w :=
  ⟨by rw [hblocks, hcontent]; exact h.tiles, by rw [hcontent]; exact h.counted,
    by rw [hblocks]; exact h.keys⟩

theorem scrollLinesUp_layout (v : TranscriptViewport) (rows : Nat) :
    (v.scrollLinesUp rows).blocks = v.blocks ∧
      (v.scrollLinesUp rows).contentHeight = v.contentHeight := by
  unfold scrollLinesUp
  simp only
  generalize (if v.followLatest then v.maximumTop else v.top) = current
  split <;> exact ⟨rfl, rfl⟩

theorem scrollLinesDown_layout (v : TranscriptViewport) (rows : Nat) :
    (v.scrollLinesDown rows).blocks = v.blocks ∧
      (v.scrollLinesDown rows).contentHeight = v.contentHeight := by
  unfold scrollLinesDown scrollToBottom
  split
  · exact ⟨rfl, rfl⟩
  simp only
  split <;> exact ⟨rfl, rfl⟩

theorem tiles_rekeyed (rekey : TranscriptBlockKey → TranscriptBlockKey)
    {blocks : List TranscriptBlockMetric} {start stop : Nat} (h : Tiles start blocks stop) :
    Tiles start (blocks.map fun m => { m with key := rekey m.key }) stop := by
  induction blocks generalizing start with
  | nil => exact h
  | cons m rest ih =>
    obtain ⟨hstart, hheight, hrest⟩ := h
    exact ⟨hstart, hheight, ih hrest⟩

/-- Every operation keeps the layout. -/
theorem layout_step {v w : TranscriptViewport} (h : Layout v) (hstep : Step v w) : Layout w := by
  obtain ⟨operation, hallowed, rfl⟩ := hstep
  cases operation with
  | reset | resetToTop => exact ⟨rfl, Nat.zero_le _, List.nodup_nil⟩
  | updateLayout width height measured => exact layout_updated h hallowed
  | replaceTransient run message =>
    refine ⟨tiles_rekeyed _ h.tiles, h.counted, ?_⟩
    simp only [ViewportOperation.apply, replaceTransient, List.map_map]
    exact of_decide_eq_true hallowed
  | noteContentChanged =>
    refine layout_same h ?_ ?_ <;> simp only [ViewportOperation.apply, noteContentChanged] <;>
      split <;> rfl
  | noteLayoutChanged | noteNewerOutput | scrollToBottom => exact layout_same h rfl rfl
  | scrollLinesUp rows =>
    obtain ⟨hblocks, hcontent⟩ := scrollLinesUp_layout v rows
    exact layout_same h hblocks hcontent
  | scrollLinesDown rows =>
    obtain ⟨hblocks, hcontent⟩ := scrollLinesDown_layout v rows
    exact layout_same h hblocks hcontent
  | scrollPageUp =>
    obtain ⟨hblocks, hcontent⟩ := scrollLinesUp_layout v v.pageRows
    exact layout_same h hblocks hcontent
  | scrollPageDown =>
    obtain ⟨hblocks, hcontent⟩ := scrollLinesDown_layout v v.pageRows
    exact layout_same h hblocks hcontent
  | scrollToTop =>
    refine layout_same h ?_ ?_ <;> simp only [ViewportOperation.apply, scrollToTop] <;>
      split <;> rfl

/-- **Viewports.**  In every state that is reached the blocks are laid out one after the other,
and after an update they are the measured ones and what is shown is what the rows of the viewport
hold. -/
theorem viewport_layout {v : TranscriptViewport} (h : Reachable Started Step v) :
    Layout v ∧ ∀ width height measured,
      (ViewportOperation.updateLayout width height measured).allowed v = true →
      Settled (v.updateLayout width height measured) ∧
        KeepsRow v (v.updateLayout width height measured) ∧
        Measures v (v.updateLayout width height measured) measured := by
  have hlayout : Layout v := by
    refine h.invariant (I := Layout) ?_ fun s t hs hst => layout_step hs hst
    rintro s rfl
    exact ⟨rfl, Nat.zero_le _, List.nodup_nil⟩
  exact ⟨hlayout, fun width height measured hallowed =>
    ⟨settled_updated hlayout hallowed, keepsRow_updated hlayout hallowed,
      measures_updated hallowed⟩⟩

def runAll (v : TranscriptViewport) (operations : List ViewportOperation) : TranscriptViewport :=
  operations.foldl ViewportOperation.apply v

/-- A reader scrolls up from the second block into the first, of five rows. -/
def scrolledUp : TranscriptViewport :=
  runAll {} [.updateLayout 80 2 (some [(.entry 1 0, 5), (.entry 2 0, 4)]), .scrollLinesUp 6]

/-- Older blocks are loaded and a narrower window wraps the rest anew. -/
def rewrapped : TranscriptViewport :=
  scrolledUp.updateLayout 60 3 (some [(.entry 3 0, 2), (.entry 1 0, 7), (.entry 2 0, 0)])

theorem scrolledUp_shown : Settled rewrapped ∧ rewrapped.top = 3 ∧
    rewrapped.blocks.map (fun m => (m.key, m.height)) =
      [(.entry 3 0, 2), (.entry 1 0, 7), (.entry 2 0, 1)] := by
  have hfirst : Reachable Started Step
      (updateLayout {} 80 2 (some [(.entry 1 0, 5), (.entry 2 0, 4)])) :=
    Reachable.next (reachable_start rfl)
      ⟨.updateLayout 80 2 (some [(.entry 1 0, 5), (.entry 2 0, 4)]), by decide +kernel, rfl⟩
  have hreach : Reachable Started Step scrolledUp :=
    hfirst.next ⟨.scrollLinesUp 6, rfl, rfl⟩
  obtain ⟨hsettled, hkeeps, hmeasures⟩ := (viewport_layout hreach).2 60 3
    (some [(.entry 3 0, 2), (.entry 1 0, 7), (.entry 2 0, 0)]) (by decide +kernel)
  have htop := hkeeps (by decide +kernel) ⟨.entry 1 0, 0, 5⟩ (by decide +kernel) (by decide +kernel)
    (by decide +kernel) ⟨.entry 1 0, 2, 7⟩ (by decide +kernel) rfl (by decide +kernel)
  exact ⟨hsettled, htop.trans (by decide +kernel), hmeasures⟩

/-- A viewport without rows shows a block, blocks that cannot be counted overlap, and two blocks
with one key are taken for one another. -/
theorem viewport_limits :
    (scrolledUp.updateLayout 80 0 none).visibleBlockRange = (0, 1, 1) ∧
    (updateLayout {} 80 2 (some [(.entry 1 0, usizeMax), (.entry 2 0, 1)])).blocks =
      [⟨.entry 1 0, 0, usizeMax⟩, ⟨.entry 2 0, usizeMax, 1⟩] ∧
    (updateLayout {} 80 2 (some [(.entry 1 0, usizeMax), (.entry 2 0, 1)])).contentHeight =
      usizeMax ∧
    (let v := runAll {} [.updateLayout 80 2 (some [(.entry 1 0, 5), (.transient 1 0, 5)]),
      .scrollLinesUp 1, .replaceTransient 1 1]
    v.top = 7 ∧ v.followLatest = false ∧
      (v.updateLayout 80 2 none).blocks = [⟨.entry 1 0, 0, 5⟩, ⟨.entry 1 0, 5, 5⟩] ∧
      (v.updateLayout 80 2 none).top = 2) := by
  decide +kernel

end TranscriptViewport

end Morons.Cli
