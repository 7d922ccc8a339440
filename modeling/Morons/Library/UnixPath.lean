import Mathlib.Data.Int.NatAbs
import Mathlib.Data.List.Basic
import Mathlib.Tactic.Common

/-!
# Paths

A path as its bytes.  Two paths are compared by their components, for which
empty parts and single dots do not count; its ancestors are cut from its end.
-/

namespace UnixPath

abbrev Path := List UInt8

def separator : UInt8 := 0x2f
def dot : List UInt8 := [0x2e]

def parts (path : Path) : List (List UInt8) := path.splitOn separator

def isTrivial (part : List UInt8) : Bool := part = [] || part = dot

def isAbsolute (path : Path) : Bool := path.head? = some separator

/-- A path such as `./a`, the dot of which counts. -/
def startsInside (path : Path) : Bool := (parts path).head? = some dot

/-- What two paths have in common that are equal. -/
structure Components where
  absolute : Bool
  inside : Bool
  names : List (List UInt8)
  deriving DecidableEq

def components (path : Path) : Components where
  absolute := isAbsolute path
  inside := startsInside path
  names := (parts path).filter fun part => !isTrivial part

/-- The path with a separator at its end, before a name is added. -/
def stem (path : Path) : Path :=
  if path = [] ∨ path.getLast? = some separator then path else path ++ [separator]

def join (path name : Path) : Path := if isAbsolute name then name else stem path ++ name

def parent (path : Path) : Option Path :=
  match (parts path).reverse.dropWhile isTrivial with
  | [] => if startsInside path then some [] else none
  | _ :: outer =>
    match outer.dropWhile isTrivial with
    | [] =>
      some (if isAbsolute path then [separator] else if startsInside path then dot else [])
    | rest => some ([separator].intercalate rest.reverse)

/-- The first ancestors of a path, beginning with itself. -/
def ancestors : Nat → Path → List Path
  | 0, _ => []
  | count + 1, path =>
    path :: match parent path with
      | some outer => ancestors count outer
      | none => []

variable {path other name next : Path}

theorem stem_last : stem path = [] ∨ (stem path).getLast? = some separator := by
  unfold stem
  split
  case isTrue h => exact h
  case isFalse => exact .inr (by simp)

/-- A name without separators is found again at the end of a joined path. -/
theorem stem_of_append {a b : Path} (ha : a = [] ∨ a.getLast? = some separator)
    (hname : separator ∉ next) {c : Path} (hc : a = b ++ c) (hnext : next = c ++ name) : c = [] := by
  by_contra hne
  obtain ⟨front, last, rfl⟩ := List.eq_nil_or_concat c |>.resolve_left hne
  rcases ha with rfl | hlast
  · simp at hc
  · rw [hc, List.concat_eq_append, ← List.append_assoc, List.getLast?_concat] at hlast
    obtain rfl := Option.some.inj hlast
    exact hname (hnext ▸ by simp)

theorem stem_inj (hname : separator ∉ name) (hnext : separator ∉ next)
    (h : stem path ++ name = stem other ++ next) : stem path = stem other := by
  obtain ⟨c, hother, hc⟩ | ⟨c, hpath, hc⟩ := List.append_eq_append_iff.mp h
  · obtain rfl := stem_of_append stem_last hname hother hc
    rw [hother, List.append_nil]
  · obtain rfl := stem_of_append stem_last hnext hpath hc
    rw [hpath, List.append_nil]

/-- Two paths with the same stem are the same up to a separator at the end. -/
theorem eq_of_stem (h : stem path = stem other) : path = other ∨
    (path ≠ [] ∧ path.getLast? ≠ some separator ∧ other = path ++ [separator]) ∨
    (other ≠ [] ∧ other.getLast? ≠ some separator ∧ path = other ++ [separator]) := by
  unfold stem at h
  split at h
  case isTrue hpath =>
    split at h
    case isTrue => exact .inl h
    case isFalse hother =>
      obtain ⟨hnonempty, hlast⟩ := not_or.mp hother
      exact .inr (.inr ⟨hnonempty, hlast, h⟩)
  case isFalse hpath =>
    obtain ⟨hnonempty, hlast⟩ := not_or.mp hpath
    split at h
    case isTrue => exact .inr (.inl ⟨hnonempty, hlast, h.symm⟩)
    case isFalse => exact .inl (List.append_cancel_right h)

/-- A separator at the end of a path does not count. -/
theorem components_append (h : path ≠ []) : components (path ++ [separator]) = components path := by
  have hparts : parts (path ++ [separator]) = parts path ++ [[]] :=
    List.splitOn_append_cons_self path []
  have hsome : parts path ≠ [] := List.splitOn_ne_nil separator path
  have habsolute : isAbsolute (path ++ [separator]) = isAbsolute path := by
    rw [isAbsolute, isAbsolute, List.head?_append_of_ne_nil _ h]
  have hinside : startsInside (path ++ [separator]) = startsInside path := by
    rw [startsInside, startsInside, hparts, List.head?_append_of_ne_nil _ hsome]
  have htrivial : ([[]] : List (List UInt8)).filter (fun part => !isTrivial part) = [] := rfl
  rw [components, components, habsolute, hinside, hparts, List.filter_append, htrivial,
    List.append_nil]

end UnixPath
