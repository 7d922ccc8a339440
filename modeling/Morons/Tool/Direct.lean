import Mathlib.Data.List.Sort
import Morons.Library.Splice
import Morons.Provider.Bytes
import Morons.Tool.Catalog

/-!
# Reading, writing and editing files

The tools that touch one file directly: paged reading, whole writes, and edits
that replace texts which occur exactly once.
-/

namespace Morons

open Attempt Provider Splice

def maxReadOutputBytes : Nat := 64 * 1024
def maxInputImageBytes : Nat := 8 * 1024 * 1024

/-! ## Files -/

/-- What stands at a path, links followed. -/
inductive FileNode
  | missing
  | directory
  | file (bytes : List UInt8)
  /-- A file whose metadata is there, but which cannot be read. -/
  | unreadable (size : Nat) (error : ToolErrorKind)
  /-- The system refuses the metadata. -/
  | refused (error : ToolErrorKind)

/-- The nodes of a file system by their paths. -/
abbrev Disk := String → FileNode

/-- What the tools take from outside: path handling, the image normalizer, and
when the caller asks to stop. -/
structure DirectToolExecutor where
  resolve : String → String
  parent : String → Option String
  normalizeReadImage : String → List UInt8 → Option String
  /-- The answer to the `n`-th question whether the call is cancelled. -/
  cancelled : Nat → Bool

inductive DirectOutput
  | read (path : String) (offset nextOffset : Nat) (endOfFile : Bool) (text : String)
  | readImage (path : String) (image : String)
  | written (path : String) (bytes : Nat)
  | edited (path : String) (replacements bytes : Nat)
  deriving DecidableEq

/-- An error of the tool, or a slice that is out of range or inside a character. -/
inductive DirectFault
  | error (kind : ToolErrorKind)
  | slicePanic
  deriving DecidableEq

/-- Two counts of 32 bits as a sum that fits them. -/
def checkedAddU32 (a b : Nat) : Option Nat := if a + b < 2 ^ 32 then some (a + b) else none

def checkedSub (a b : Nat) : Option Nat := if b ≤ a then some (a - b) else none

namespace DirectToolExecutor

variable (x : DirectToolExecutor)

def readBoundedWithLimit (disk : Disk) (path : String) (maximumBytes : Nat) :
    Except ToolErrorKind (List UInt8) :=
  match disk path with
  | .missing => .error .notFound
  | .directory => .error .wrongNodeKind
  | .refused error => .error error
  | .unreadable size error => do
    require (size ≤ maximumBytes) .resourceLimit
    require (¬ x.cancelled 1) .cancelled
    .error error
  | .file bytes => do
    require (bytes.length ≤ maximumBytes) .resourceLimit
    require (¬ x.cancelled 1) .cancelled
    return bytes

def readBounded (disk : Disk) (path : String) : Except ToolErrorKind (List UInt8) :=
  x.readBoundedWithLimit disk path maxFileBytes

def preflightWrite (disk : Disk) (path : String) : Except ToolErrorKind Unit := do
  let parent ← demand .wrongNodeKind (x.parent path)
  match disk parent with
  | .directory => .ok ()
  | .missing => .error .notFound
  | .refused error => .error error
  | .file _ | .unreadable .. => .error .wrongNodeKind
  match disk path with
  | .missing | .file _ | .unreadable .. => .ok ()
  | .directory => .error .wrongNodeKind
  | .refused error => .error error

end DirectToolExecutor

/-! ## Reading -/

/-- `split_inclusive('\n')`: every line with its line feed. -/
def splitInclusive : List Char → List (List Char)
  | [] => []
  | c :: cs =>
    if c = '\n' then [c] :: splitInclusive cs
    else
      match splitInclusive cs with
      | [] => [[c]]
      | line :: lines => (c :: line) :: lines

/-- Lines from the front while they fit, with their number. -/
def takeLines (cancelled : Nat → Bool) :
    List Char → Nat → List (List Char) → Except ToolErrorKind (List Char × Nat)
  | output, returned, [] => .ok (output, returned)
  | output, returned, line :: rest => do
    require (¬ cancelled (2 + returned)) .cancelled
    match checkedAdd (Utf8.encode output).length (Utf8.encode line).length with
    | some bytes =>
      if bytes ≤ maxReadOutputBytes then do
        let returned ← demand .resourceLimit (checkedAddU32 returned 1)
        takeLines cancelled (output ++ line) returned rest
      else if output.isEmpty then .error .resourceLimit
      else .ok (output, returned)
    | none => if output.isEmpty then .error .resourceLimit else .ok (output, returned)

/-- One page of a text, from line `offset` on. -/
def readPage (cancelled : Nat → Bool) (path : String) (text : String) (offset limit : Nat) :
    Except ToolErrorKind DirectOutput := do
  let lines := splitInclusive text.toList
  let start := offset - 1
  let (output, returned) ← takeLines cancelled [] 0 ((lines.drop start).take limit)
  let nextOffset ← demand .resourceLimit (checkedAddU32 offset returned)
  let endOfFile := decide (lines.length ≤ start + returned)
  return .read path offset nextOffset endOfFile (String.ofList output)

def DirectToolExecutor.read (x : DirectToolExecutor) (disk : Disk) (path : String)
    (offset limit : Nat) : Except ToolErrorKind DirectOutput := do
  require (offset ≠ 0 ∧ limit ≠ 0 ∧ limit ≤ maxReadLines) .resourceLimit
  let bytes ← x.readBoundedWithLimit disk (x.resolve path) maxInputImageBytes
  let image : ToolErrorKind → Except ToolErrorKind DirectOutput := fun failure => do
    let image ← demand failure (x.normalizeReadImage path bytes)
    require (¬ x.cancelled 2) .cancelled
    return .readImage path image
  match decodeUtf8 bytes with
  | some text =>
    if '\x00' ∈ text.toList then image .binaryFile
    else readPage x.cancelled path text offset limit
  | none => image .invalidUtf8

/-! ## Editing -/

/-- The range of the only match of a text that is to be replaced. -/
def matchedRange (source : List UInt8) (replacement : TextReplacement) :
    Except DirectFault (Edit UInt8) := do
  let old := bytesOf replacement.oldText
  require (replacement.oldText ≠ "") (.error .replacementAmbiguous)
  match matchIndices old 0 0 source with
  | [] => .error (.error .replacementNotFound)
  | [start] => do
    let stop ← demand (.error .resourceLimit) (checkedAdd start old.length)
    return { start, stop, replacement := bytesOf replacement.newText }
  | _ :: _ :: _ => .error (.error .replacementAmbiguous)

/-- The new text, out of slices of the old one. -/
def spliceSlices (source : List UInt8) : Nat → List (Edit UInt8) → Except DirectFault (List UInt8)
  | cursor, [] => demand .slicePanic (Utf8.sliceBytes source cursor source.length)
  | cursor, range :: rest => do
    let kept ← demand .slicePanic (Utf8.sliceBytes source cursor range.start)
    let output ← spliceSlices source range.stop rest
    return kept ++ (range.replacement ++ output)

def outputBytes (source : List UInt8) (replacements : List TextReplacement) : Option Nat := do
  let bytes ← checkedAdd source.length
    (replacements.map fun replacement => (bytesOf replacement.newText).length).sum
  replacements.foldlM (fun bytes replacement => checkedSub bytes (bytesOf replacement.oldText).length)
    bytes

/-- The bytes of a text with some of its texts replaced. -/
def applyReplacements (source : String) (replacements : List TextReplacement) :
    Except DirectFault (List UInt8) := do
  let bytes := bytesOf source
  let ranges ← replacements.mapM (matchedRange bytes)
  let ranges := ranges.insertionSort fun a b => a.start ≤ b.start
  require (overlapping ranges = false) (.error .replacementOverlap)
  let outputBytes ← demand (.error .resourceLimit) (outputBytes bytes replacements)
  require (outputBytes ≤ maxFileBytes) (.error .resourceLimit)
  spliceSlices bytes 0 ranges

namespace DirectToolExecutor

variable (x : DirectToolExecutor)

/-- `fs::write`.  It may fail after it has changed the file. -/
def replaceFile (disk : Disk) (path : String) (bytes : List UInt8) (failure : Option FileNode) :
    Except DirectFault Unit × Disk :=
  match failure with
  | none => (.ok (), fun p => if p = path then .file bytes else disk p)
  | some left => (.error (.error .uncertain), fun p => if p = path then left else disk p)

def write (disk : Disk) (path content : String) (failure : Option FileNode) :
    Except DirectFault DirectOutput × Disk :=
  let target := x.resolve path
  let check : Except ToolErrorKind Unit := do
    require (content.utf8ByteSize ≤ maxFileBytes) .resourceLimit
    x.preflightWrite disk target
    require (¬ x.cancelled 1) .cancelled
  match check with
  | .error error => (.error (.error error), disk)
  | .ok () =>
    let (result, disk) := replaceFile disk target (bytesOf content) failure
    (result.map fun _ => .written path content.utf8ByteSize, disk)

/-- What `edit` does before it writes. -/
def editedBytes (disk : Disk) (path : String) (replacements : List TextReplacement) :
    Except DirectFault (List UInt8) := do
  let target := x.resolve path
  require (replacements ≠ [] ∧ replacements.length ≤ maxReplacements) (.error .resourceLimit)
  let bytes ← (x.readBounded disk target).mapError .error
  require (0 ∉ bytes) (.error .binaryFile)
  let source ← demand (.error .invalidUtf8) (decodeUtf8 bytes)
  let edited ← applyReplacements source replacements
  (x.preflightWrite disk target).mapError .error
  require (¬ x.cancelled 2) (.error .cancelled)
  return edited

def edit (disk : Disk) (path : String) (replacements : List TextReplacement)
    (failure : Option FileNode) : Except DirectFault DirectOutput × Disk :=
  match x.editedBytes disk path replacements with
  | .error fault => (.error fault, disk)
  | .ok edited =>
    let (result, disk) := replaceFile disk (x.resolve path) edited failure
    (result.map fun _ => .edited path replacements.length edited.length, disk)

/-- `execute`, with what becomes of a write that fails. -/
def execute (disk : Disk) (input : CatalogInput) (failure : Option FileNode) :
    Except DirectFault DirectOutput × Disk :=
  if x.cancelled 0 then (.error (.error .cancelled), disk)
  else
    match input with
    | .read path offset limit => ((x.read disk path offset limit).mapError .error, disk)
    | .write path content => x.write disk path content failure
    | .edit path replacements => x.edit disk path replacements failure
    | _ => (.error (.error .filesystem), disk)

end DirectToolExecutor

end Morons
