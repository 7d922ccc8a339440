import Morons.Library.Pieces
import Morons.Cli.Safety

/-!
# The prompt

`PromptBuffer` is a text with a cursor and the places of the image markers in
it, all of them byte positions.  `Represents` says which pieces stand before
and after the cursor; every edit moves, adds or removes whole pieces.
-/

namespace Morons.Cli

open Utf8 Pieces

def maxPromptBytes : Nat := 32 * 1024

/-- `char::is_whitespace`. -/
def isWhitespace (c : Char) : Bool :=
  (decide (9 ≤ c.toNat) && decide (c.toNat ≤ 13)) || decide (c.toNat = 0x20) ||
    decide (c.toNat = 0x85) || decide (c.toNat = 0xa0) || decide (c.toNat = 0x1680) ||
    (decide (0x2000 ≤ c.toNat) && decide (c.toNat ≤ 0x200a)) || decide (c.toNat = 0x2028) ||
    decide (c.toNat = 0x2029) || decide (c.toNat = 0x202f) || decide (c.toNat = 0x205f) ||
    decide (c.toNat = 0x3000)

structure PromptBuffer where
  text : List Char := []
  cursor : Nat := 0
  markers : List (Nat × Nat) := []
  deriving DecidableEq

namespace PromptBuffer

/-- `text[..cursor]`.  The cursor is always a character boundary. -/
def before (b : PromptBuffer) : List Char := ((split b.text b.cursor).map (·.1)).getD []

/-- `text[cursor..]`. -/
def after (b : PromptBuffer) : List Char := ((split b.text b.cursor).map (·.2)).getD []

def pushVisible (b : PromptBuffer) (c : Char) : PromptBuffer × Bool :=
  if maxPromptBytes < size b.text + c.utf8Size then (b, false)
  else
    ({ text := b.before ++ c :: b.after
       cursor := b.cursor + c.utf8Size
       markers := b.markers.map fun m =>
         if b.cursor ≤ m.1 then (m.1 + c.utf8Size, m.2 + c.utf8Size) else m }, true)

/-- `(0..n).all(|_| self.push_visible(c))`. -/
def pushRepeated (b : PromptBuffer) (c : Char) : Nat → PromptBuffer × Bool
  | 0 => (b, true)
  | n + 1 =>
    match b.pushVisible c with
    | (b, true) => pushRepeated b c n
    | (b, false) => (b, false)

def pushCharacter (b : PromptBuffer) (c : Char) : PromptBuffer × Bool :=
  if c = '\t' then b.pushRepeated ' ' tabWidth
  else if c = '\n' then b.pushVisible c
  else if isControl c || isBidirectionalControl c then (b, false)
  else b.pushVisible c

def pushPaste (b : PromptBuffer) : List Char → PromptBuffer
  | [] => b
  | c :: rest =>
    let b := (b.pushCharacter c).1
    if maxPromptBytes ≤ size b.text then b else b.pushPaste rest

def setCursor (b : PromptBuffer) (position : Nat) : PromptBuffer :=
  if position ≤ size b.text ∧ (split b.text position).isSome then
    { b with
      cursor := match b.markers.find? fun m => decide (m.1 < position) && decide (position < m.2) with
        | some m => m.2
        | none => position }
  else b

def moveLeft (b : PromptBuffer) : PromptBuffer :=
  match b.before.getLast? with
  | none => b
  | some c =>
    let position := b.cursor - c.utf8Size
    { b with
      cursor := match b.markers.find? fun m => decide (m.1 ≤ position) && decide (position < m.2) with
        | some m => m.1
        | none => position }

def moveRight (b : PromptBuffer) : PromptBuffer :=
  match b.after with
  | [] => b
  | c :: _ => b.setCursor (b.cursor + c.utf8Size)

/-- The characters after the last line feed. -/
def lastLine (cs : List Char) : List Char := (cs.reverse.takeWhile (· ≠ '\n')).reverse

/-- `cs.rfind('\n').map_or(0, |i| i + 1)`. -/
def lineStart (cs : List Char) : Nat := size cs - size (lastLine cs)

def verticalTarget (b : PromptBuffer) (down : Bool) : Option Nat :=
  if down then
    if '\n' ∈ b.after then some (b.cursor + size (b.after.takeWhile (· ≠ '\n')) + 1) else none
  else
    match lineStart b.before with
    | 0 => none
    | stop + 1 => some (lineStart (((split b.text stop).map (·.1)).getD []))

def moveVertical (b : PromptBuffer) (down : Bool) : PromptBuffer :=
  let column := (lastLine b.before).length
  match b.verticalTarget down with
  | none => b
  | some target =>
    let line := (((split b.text target).map (·.2)).getD []).takeWhile (· ≠ '\n')
    b.setCursor (target + size (line.take column))

def markerStart (b : PromptBuffer) (name : List Char) : Option Nat :=
  b.markers.findSome? fun m =>
    if slice b.text (m.1 + 1) (m.2 - 1) = some name then
      if m.1 < 2 ^ 32 then some m.1 else none
    else none

def backspace (b : PromptBuffer) : PromptBuffer :=
  let stop := b.cursor
  let b' := b.moveLeft
  let start := b'.cursor
  { text := b'.before ++ b.after
    cursor := start
    markers := (b'.markers.filter fun m => decide (m.2 ≤ start) || decide (stop ≤ m.1)).map fun m =>
      if stop ≤ m.1 then (m.1 - (stop - start), m.2 - (stop - start)) else m }

def isSkillCharacter (c : Char) : Bool := ('a' ≤ c && c ≤ 'z') || ('0' ≤ c && c ≤ '9') || c = '-'

def skillCompletionPrefix (b : PromptBuffer) : Option (List Char) :=
  if b.cursor ≠ size b.text then none
  else
    match (b.text.reverse.takeWhile fun c => !isWhitespace c).reverse with
    | '@' :: token => if token.all isSkillCharacter then some token else none
    | _ => none

def completeSkill (b : PromptBuffer) (name : List Char) : PromptBuffer × Bool :=
  match b.skillCompletionPrefix with
  | none => (b, false)
  | some token =>
    let start := size b.text - (size token + 1)
    if maxPromptBytes < start + (size name + 2) then (b, false)
    else
      let text := ((split b.text start).map (·.1)).getD [] ++ '@' :: name ++ [' ']
      ({ b with text := text, cursor := size text }, true)

/-- `[name]`. -/
def marker (name : List Char) : List Char := '[' :: name ++ [']']

def pushImageMarker (b : PromptBuffer) (displayName : List Char) : Option (PromptBuffer × Nat) :=
  if displayName.any fun c => isControl c || isBidirectionalControl c then none
  else if maxPromptBytes < size b.text + (size displayName + 2) then none
  else if b.cursor < 2 ^ 32 then
    let pushed := (marker displayName).foldl (fun b c => (b.pushVisible c).1) b
    some ({ pushed with markers := pushed.markers ++ [(b.cursor, pushed.cursor)] }, b.cursor)
  else none

def truncate (b : PromptBuffer) (bytes : Nat) : PromptBuffer × Bool :=
  match split b.text bytes with
  -- Beyond the end, or not a character boundary.
  | none => (b, false)
  | some (front, _) =>
    if b.markers.any fun m => decide (m.1 < bytes) && decide (bytes < m.2) then (b, false)
    else
      ({ text := front
         cursor := min b.cursor bytes
         markers := b.markers.filter fun m => decide (m.2 ≤ bytes) }, true)

def clear (_ : PromptBuffer) : PromptBuffer := {}

end PromptBuffer

end Morons.Cli
