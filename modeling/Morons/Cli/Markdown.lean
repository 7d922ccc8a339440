import Morons.Cli.Transcript

/-!
# Markdown in the transcript

A message is shown with the styles of its Markdown.  The events of the parser
are rendered one by one, each text as an untrusted one; where the rendering does
not fit, the plain text is shown instead.
-/

namespace Morons.Cli

open Attempt Utf8

inductive Color
  | cyan | yellow | darkGray
  deriving DecidableEq

structure Style where
  fg : Option Color := none
  bold : Bool := false
  italic : Bool := false
  crossedOut : Bool := false
  underlined : Bool := false
  deriving DecidableEq

/-! ## Events -/

inductive Tag
  | paragraph | strong | heading | emphasis | strikethrough | link | codeBlock
  | list (start : Option Nat)
  | item | blockQuote | other
  deriving DecidableEq

inductive TagEnd
  | paragraph | heading | codeBlock | item | blockQuote
  | list (ordered : Bool)
  | other
  deriving DecidableEq

inductive MarkdownEvent
  | opens (tag : Tag)
  | closes (tag : TagEnd)
  | text (text : List Char)
  | html (text : List Char)
  | inlineHtml (text : List Char)
  | code (text : List Char)
  | softBreak | hardBreak | rule | other
  deriving DecidableEq

/-- An event with the range of its source. -/
structure RangedEvent where
  event : MarkdownEvent
  start : Nat
  stop : Nat
  deriving DecidableEq

/-- The number of open tags after some events, unless a tag is closed that was not opened. -/
def depthAfter : Nat → List RangedEvent → Option Nat
  | n, [] => some n
  | n, e :: rest =>
    match e.event with
    | .opens _ => depthAfter (n + 1) rest
    | .closes _ => if n = 0 then none else depthAfter (n - 1) rest
    | _ => depthAfter n rest

/-- What is assumed of the parser: its tags are nested, and its ranges are those
of pieces of the text. -/
structure WellFormed (text : List Char) (events : List RangedEvent) : Prop where
  nested : (depthAfter 0 events).isSome = true
  ranges : ∀ e ∈ events, (slice text e.start e.stop).isSome = true

/-! ## Rendering -/

structure MarkdownText where
  presented : TranscriptText
  styles : List ((Nat × Nat) × Style) := []
  deriving DecidableEq

/-- The rendering so far; the innermost style and list come first. -/
structure Rendering where
  output : List Char := []
  styles : List ((Nat × Nat) × Style) := []
  stack : List Style := [{}]
  lists : List (Option Nat) := []
  blockEnd : Nat := 0
  textEnd : Nat := 0
  deriving DecidableEq

/-- How the loop over the events is left early. -/
inductive Interruption
  /-- The plain text is shown. -/
  | fallback
  | error (error : TranscriptTextError)
  | panic
  deriving DecidableEq

inductive MarkdownFault
  | error (error : TranscriptTextError)
  | panic
  deriving DecidableEq

namespace Rendering

def endsLine (text : List Char) : Bool := text.getLast? = some '\n'

variable (s : Segmentation) (plain : List Char)

def emit (r : Rendering) (text : List Char) (style : Style) :
    Except TranscriptTextError Rendering := do
  let safe ← TranscriptText.fromUntrusted s text
  let output := r.output ++ safe.text
  require (size output ≤ maxSourceBytes) .representationTooLarge
  return { r with
    output
    styles :=
      if safe.text ≠ [] ∧ style ≠ {} then r.styles ++ [((size r.output, size output), style)]
      else r.styles }

/-- An emission as the result of an event. -/
def emitOrFall (r : Rendering) (text : List Char) (style : Style) : Except Interruption Rendering :=
  (r.emit s text style).mapError fun _ => .fallback

/-- The line feeds between the last block and an event outside of blocks. -/
def separate (r : Rendering) (start : Nat) : Except Interruption Rendering :=
  if r.stack.length = 1 ∧ r.blockEnd ≤ start then do
    let between ← demand .panic (slice plain r.blockEnd start)
    return { r with output := r.output ++ between.filter (· = '\n') }
  else return r

def tagStyle (style : Style) : Tag → Style
  | .strong | .heading => { style with bold := true }
  | .emphasis => { style with italic := true }
  | .strikethrough => { style with crossedOut := true }
  | .link => { style with fg := some .cyan, underlined := true }
  | .codeBlock => { style with fg := some .yellow }
  | _ => style

/-- What stands before an item, and the lists with the next number. -/
def itemMarker : List (Option Nat) → List Char × List (Option Nat)
  | some number :: outer =>
    ((toString number ++ ". ").toList, some (min (number + 1) maxUnsigned) :: outer)
  | lists => ("• ".toList, lists)

/-- What an opened tag shows. -/
def writeMarker (r : Rendering) (style : Style) (tag : Tag) : Except Interruption Rendering :=
  match tag with
  | .list start =>
    let nested := !r.lists.isEmpty
    let needsLineBreak := !r.output.isEmpty && !endsLine r.output
    let r := { r with lists := start :: r.lists }
    if nested && needsLineBreak then r.emitOrFall s ['\n'] style else pure r
  | .item =>
    let (marker, lists) := itemMarker r.lists
    let indent := List.flatten (List.replicate (lists.length - 1) [' ', ' '])
    { r with lists }.emitOrFall s (indent ++ marker) style
  | .blockQuote => r.emitOrFall s "│ ".toList { style with fg := some .darkGray }
  | _ => pure r

def openTag (r : Rendering) (style : Style) (tag : Tag) : Except Interruption Rendering := do
  let r ← r.writeMarker s style tag
  return { r with stack := tagStyle style tag :: r.stack }

/-- The tags that end a line where their source does. -/
def TagEnd.isBlock : TagEnd → Bool
  | .other => false
  | _ => true

def closeTag (r : Rendering) (tag : TagEnd) (start stop : Nat) : Except Interruption Rendering := do
  let r := { r with
    stack := r.stack.tail
    lists :=
      match tag with
      | .list _ => r.lists.tail
      | _ => r.lists }
  if TagEnd.isBlock tag then do
    let source ← demand .panic (slice plain start stop)
    return if endsLine source && !endsLine r.output then { r with output := r.output ++ ['\n'] }
      else r
  else return r

/-- The spaces between the last text and a soft break. -/
def gap (r : Rendering) (start : Nat) : List Char := (slice plain r.textEnd start).getD []

def isBlank (text : List Char) : Bool := text.all fun c => c = ' ' || c = '\t'

/-- A failure of this emission is not answered with the plain text. -/
def writeGap (r : Rendering) (style : Style) (start : Nat) : Except Interruption Rendering :=
  if isBlank (r.gap plain start) then
    (r.emit s (r.gap plain start) style).mapError Interruption.error
  else pure r

def softBreak (r : Rendering) (style : Style) (start : Nat) : Except Interruption Rendering := do
  let r ← r.writeGap s plain style start
  r.emitOrFall s ['\n'] style

def apply (r : Rendering) (style : Style) (e : RangedEvent) : Except Interruption Rendering :=
  match e.event with
  | .opens tag => r.openTag s style tag
  | .closes tag => r.closeTag plain tag e.start e.stop
  | .text text | .html text | .inlineHtml text => r.emitOrFall s text style
  | .code text => r.emitOrFall s text { style with fg := some .yellow }
  | .softBreak => r.softBreak s plain style e.start
  | .hardBreak => r.emitOrFall s ['\n'] style
  | .rule => do
    let source ← demand .panic (slice plain e.start e.stop)
    let rule := if endsLine source then "────\n" else "────"
    r.emitOrFall s rule.toList { style with fg := some .darkGray }
  | .other => return r

/-- The places after an event. -/
def mark (r : Rendering) (e : RangedEvent) : Except Interruption Rendering :=
  if r.stack.length = 1 then
    if e.event = .closes .codeBlock then do
      let (_, rest) ← demand .panic (split plain e.stop)
      return { r with
        textEnd := e.stop
        blockEnd := if rest.head? = some '\n' then e.stop + 1 else e.stop }
    else return { r with textEnd := e.stop, blockEnd := e.stop }
  else return { r with textEnd := e.stop }

def step (r : Rendering) (e : RangedEvent) : Except Interruption Rendering := do
  let r ← r.separate plain e.start
  let style ← demand .panic r.stack.head?
  let r ← r.apply s plain style e
  r.mark plain e

/-- The last line feeds, and the check of the whole. -/
def finish (r : Rendering) (presented : TranscriptText) : Except MarkdownFault MarkdownText := do
  let rest ← demand .panic (slice plain r.blockEnd (size plain))
  let output := r.output ++ rest.filter (· = '\n')
  match TranscriptText.fromUntrusted s output with
  | .error _ => return { presented }
  | .ok rendered =>
    return if rendered.text ≠ output then { presented }
      else { presented := rendered, styles := r.styles }

end Rendering

def fromMarkdown (s : Segmentation) (parser : List Char → List RangedEvent) (input : List Char) :
    Except MarkdownFault MarkdownText := do
  let presented ← (TranscriptText.fromUntrusted s input).mapError .error
  if presented.escapedGraphemes then return { presented }
  else
    match sweep (Rendering.step s presented.text) {} (parser presented.text) with
    | .error .fallback => return { presented }
    | .error (.error error) => throw (.error error)
    | .error .panic => throw .panic
    | .ok r => r.finish s presented.text presented

/-! ## Lines -/

/-- A piece of a line, unless there is nothing of it. -/
def span (text : List Char) (start stop : Nat) (style : Style) :
    Option (List (List Char × Style)) :=
  if start < stop then (slice text start stop).map fun piece => [(piece, style)] else some []

/-- The pieces of a line from the cursor on, with the styles that reach into it. -/
def spansFrom (text : List Char) (start stop : Nat) :
    Nat → List ((Nat × Nat) × Style) → Option (List (List Char × Style))
  | cursor, [] => span text cursor stop {}
  | cursor, (range, style) :: rest =>
    if range.1 < stop then do
      let left := max range.1 start
      let right := min range.2 stop
      let before ← span text cursor left {}
      let styled ← span text left right style
      let more ← spansFrom text start stop right rest
      return before ++ styled ++ more
    else span text cursor stop {}

/-- `line` of the piece between two positions. -/
def MarkdownText.line (t : MarkdownText) (start stop : Nat) : Option (List (List Char × Style)) :=
  spansFrom t.presented.text start stop start (t.styles.dropWhile fun style => style.1.2 ≤ start)

end Morons.Cli
