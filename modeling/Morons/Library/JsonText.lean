import Morons.Library.Pieces

/-!
# Printed JSON

The compact text of a JSON value, as far as strings, arrays and objects go, and
how long it gets: a text without control characters at most doubles.
-/

namespace JsonText

open Utf8

def hexDigit (n : Nat) : Char := (Nat.digitChar n)

/-- A character as it stands in a string. -/
def escape (c : Char) : List Char :=
  match c with
  | '"' => ['\\', '"']
  | '\\' => ['\\', '\\']
  | '\n' => ['\\', 'n']
  | '\r' => ['\\', 'r']
  | '\t' => ['\\', 't']
  | '\x08' => ['\\', 'b']
  | '\x0c' => ['\\', 'f']
  | c =>
    if c.toNat < 32 then ['\\', 'u', '0', '0', hexDigit (c.toNat / 16), hexDigit (c.toNat % 16)]
    else [c]

def quoted (cs : List Char) : List Char := '"' :: cs.flatMap escape ++ ['"']

/-- Elements with commas between them. -/
def separated : List (List Char) → List Char
  | [] => []
  | [element] => element
  | element :: rest => element ++ ',' :: separated rest

def array (elements : List (List Char)) : List Char := '[' :: separated elements ++ [']']

def object (members : List (List Char × List Char)) : List Char :=
  '\x7b' :: separated (members.map fun member => quoted member.1 ++ ':' :: member.2) ++ ['\x7d']

def bool (value : Bool) : List Char := if value then "true".toList else "false".toList

variable {c : Char} {cs : List Char}

theorem size_escape (h : 32 ≤ c.toNat) : size (escape c) ≤ 2 * c.utf8Size := by
  have hpos := c.utf8Size_pos
  unfold escape
  split
  all_goals try (simp only [size_cons, size_nil]; decide)
  rw [if_neg (Nat.not_lt.mpr h), size_cons, size_nil]
  omega

/-- A text without control characters at most doubles, but for the quotes. -/
theorem size_quoted (h : ∀ c ∈ cs, 32 ≤ c.toNat) : size (quoted cs) ≤ 2 * size cs + 2 := by
  have hescaped : size (cs.flatMap escape) ≤ 2 * size cs := by
    induction cs with
    | nil => simp
    | cons c cs ih =>
      have hc := size_escape (h c (List.mem_cons_self ..))
      have hcs := ih fun d hd => h d (List.mem_cons_of_mem _ hd)
      rw [List.flatMap_cons, size_append, size_cons]
      omega
  have hquote : ('"' : Char).utf8Size = 1 := by decide
  simp only [quoted, List.cons_append, size_cons, size_append, size_nil, hquote]
  omega

/-- Each element takes a comma at most. -/
theorem size_separated {elements : List (List Char)} {bound : Nat}
    (h : ∀ element ∈ elements, size element + 1 ≤ bound) :
    size (separated elements) ≤ elements.length * bound := by
  have hcomma : (',' : Char).utf8Size = 1 := by decide
  induction elements with
  | nil => simp [separated]
  | cons element rest ih =>
    have hfirst := h element (List.mem_cons_self ..)
    have hrest := ih fun next hnext => h next (List.mem_cons_of_mem _ hnext)
    cases rest with
    | nil =>
      simp only [separated, List.length_cons, List.length_nil]
      omega
    | cons next rest =>
      rw [separated, size_append, size_cons, hcomma, List.length_cons, Nat.succ_mul]
      · omega
      · simp

end JsonText
