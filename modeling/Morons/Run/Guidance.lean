import Morons.Library.JsonText
import Morons.Library.UnixPath
import Morons.Provider.Bytes
import Morons.Run.Context

/-!
# Discovery of project guidance

Before a run one guidance file is looked for in the global directory and in each
ancestor of the working directory, from the outermost one on.  What cannot be
loaded leaves a warning, and files and warnings share the room of a snapshot.
-/

namespace Morons.Guidance

open UnixPath (Path join components ancestors)

def candidates : List String :=
  ["AGENTS.override.md", "AGENTS.md", "AGENTS.MD", "CLAUDE.md", "CLAUDE.MD"]

def maxAncestors : Nat := 64
def maxWarningPathBytes : Nat := 384
def omittedWarnings : String :=
  "Additional project-context warnings omitted (warning limit reached)."

/-! ## The file system -/

/-- What `symlink_metadata` says of a path. -/
inductive Metadata
  | regular | other | notFound | unavailable
  deriving DecidableEq

/-- A file that was opened: whether it is regular and its size, and what the
calls of `read` give until one of them fails or the file ends. -/
structure OpenedFile where
  metadata : Option (Bool × Nat)
  chunks : List (List UInt8)
  readFails : Bool

/-- The file system during a discovery. -/
structure Host where
  canonicalize : Path → Option Path
  symlinkMetadata : Path → Metadata
  openFile : Path → Option OpenedFile
  toStringLossy : Path → List Char
  /-- Where something is found in a directory, a separator at its end does not matter. -/
  canonicalize_append : ∀ path name, path ≠ [] → path.getLast? ≠ some UnixPath.separator →
    UnixPath.isAbsolute name = false → symlinkMetadata (join path name) = .regular →
    canonicalize (path ++ [UnixPath.separator]) = canonicalize path

/-! ## Files -/

/-- The loop of `read_file`, with the number of times the clock was read before it. -/
def readChunks (late : Nat → Bool) (limit : Nat) (readFails : Bool) :
    Nat → List UInt8 → List (List UInt8) → Except String (List UInt8) × Nat
  | checks, bytes, [] =>
    if late checks then (.error "discovery deadline reached", checks + 1)
    else if readFails then (.error "file read failed", checks + 1)
    else (.ok bytes, checks + 1)
  | checks, bytes, chunk :: rest =>
    if late checks then (.error "discovery deadline reached", checks + 1)
    else if chunk = [] then (.ok bytes, checks + 1)
    else if limit < bytes.length + chunk.length then
      (.error "file or total content limit reached; file skipped", checks + 1)
    else readChunks late limit readFails (checks + 1) (bytes ++ chunk) rest

/-- The text of the bytes that were read. -/
def fileText (bytes : List UInt8) : Except String String :=
  match decodeUtf8 bytes with
  | none => .error "file is not UTF-8"
  | some text =>
    if text.toList.any fun c => c = '\x00' then .error "file contains NUL bytes" else .ok text

variable (host : Host) (late : Nat → Bool)

def readFile (checks : Nat) (path : Path) (limit : Nat) : Except String String × Nat :=
  match host.openFile path with
  | none => (.error "file unavailable", checks)
  | some file =>
    match file.metadata with
    | none => (.error "file metadata unavailable", checks)
    | some (regular, size) =>
      if !regular then (.error "not a regular file", checks)
      else if limit < size then
        (.error "file or total content limit reached; file skipped", checks)
      else
        let (bytes, checks) := readChunks late limit file.readFails checks [] file.chunks
        (bytes >>= fileText, checks)

/-! ## The context -/

def fileJson (file : ProjectFile) : List Char :=
  JsonText.object [("path".toList, JsonText.quoted file.path.toList),
    ("global".toList, JsonText.bool file.global),
    ("content".toList, JsonText.quoted file.content.toList)]

def contextJson (enabled : Bool) (files : List ProjectFile) (warnings : List String) : List Char :=
  JsonText.object [("enabled".toList, JsonText.bool enabled),
    ("files".toList, JsonText.array (files.map fileJson)),
    ("warnings".toList, JsonText.array (warnings.map fun warning => JsonText.quoted warning.toList))]

/-- A context with its JSON text. -/
def contextOf (enabled : Bool) (files : List ProjectFile) (warnings : List String) :
    RunProjectContext :=
  { enabled, files, warnings, snapshot := String.ofList (contextJson enabled files warnings) }

/-- `str::floor_char_boundary`, as the text before it. -/
def floorCharBoundary : Nat → List Char → List Char
  | _, [] => []
  | limit, c :: cs =>
    if c.utf8Size ≤ limit then c :: floorCharBoundary (limit - c.utf8Size) cs else []

def warn (warnings : List String) (path : Path) (reason : String) : List String :=
  if warnings.length = maxProjectWarnings then warnings.dropLast ++ [omittedWarnings]
  else
    let shown := (host.toStringLossy path).map fun c => if isControl c then '?' else c
    warnings ++ [String.ofList (floorCharBoundary maxWarningPathBytes shown) ++ ": " ++ reason]

/-! ## The discovery -/

/-- What a discovery has so far, and how often it has read the clock. -/
structure Discovery where
  files : List ProjectFile := []
  warnings : List String := []
  seen : List UnixPath.Components := []
  checks : Nat := 0

namespace Discovery

def warned (d : Discovery) (path : Path) (reason : String) : Discovery :=
  { d with warnings := warn host d.warnings path reason }

end Discovery

/-- The name of a directory under which it is remembered. -/
def directoryKey (directory : Path) : UnixPath.Components :=
  components ((host.canonicalize directory).getD directory)

/-- The first candidate that exists or cannot be looked at. -/
def firstCandidate (directory : Path) : Option String :=
  candidates.find? fun name =>
    host.symlinkMetadata (join directory (Provider.bytesOf name)) ≠ .notFound

def textPath (path : Path) : Option String :=
  (decodeUtf8 path).filter fun text => text.toList.head? = some '/' &&
    decide (text.utf8ByteSize ≤ maxProjectPathBytes) && !text.toList.any isControl

def contentBytes (files : List ProjectFile) : Nat := (files.map (·.content.utf8ByteSize)).sum

/-- The room that is left for the warnings to come. -/
def maxAcceptedBytes : Nat := maxSnapshotBytes - maxProjectWarnings * (maxProjectWarningBytes * 2 + 3)

/-- A regular candidate with a path that is stored. -/
def admitFile (d : Discovery) (path : Path) (text : String) (global : Bool) : Discovery :=
  let limit := min maxProjectFileBytes (maxProjectContentBytes - contentBytes d.files)
  let (content, checks) := readFile host late d.checks path limit
  match content with
  | .error reason => { d.warned host path reason with checks }
  | .ok content =>
    let files := d.files ++ [⟨text, global, content⟩]
    if maxAcceptedBytes < Utf8.size (contextJson true files d.warnings) then
      { d.warned host path "serialized context limit reached" with checks }
    else { d with files, checks }

def loadCandidate (d : Discovery) (path : Path) (global : Bool) : Discovery :=
  if host.symlinkMetadata path = .unavailable then d.warned host path "metadata unavailable"
  else
    match textPath path with
    | none => d.warned host path "unsupported path"
    | some text =>
      if d.files.length = maxProjectFiles then d.warned host path "file count limit reached"
      else if host.symlinkMetadata path ≠ .regular then
        d.warned host path "not a regular file; links are not followed"
      else admitFile host late d path text global

/-- One directory, before the deadline. -/
def visitDirectory (d : Discovery) (directory : Path) (global : Bool) : Discovery :=
  if directoryKey host directory ∈ d.seen then d
  else
    let d := { d with seen := directoryKey host directory :: d.seen }
    match firstCandidate host directory with
    | none => d
    | some name => loadCandidate host late d (join directory (Provider.bytesOf name)) global

def discoverFrom : List (Path × Bool) → Discovery → Discovery
  | [], d => d
  | (directory, global) :: rest, d =>
    let d := { d with checks := d.checks + 1 }
    if late (d.checks - 1) then d.warned host directory "discovery deadline reached"
    else discoverFrom rest (visitDirectory host late d directory global)

/-- The directories in the order they are looked at. -/
def visitOrder (global : Option Path) (directories : List Path) : List (Path × Bool) :=
  (global.toList.map fun path => (path, true)) ++ directories.reverse.map fun path => (path, false)

def discover (global : Option Path) (directory : Path) : RunProjectContext :=
  let directories := ancestors (maxAncestors + 1) directory
  if maxAncestors < directories.length then
    contextOf true [] (warn host [] directory "ancestor limit reached; no guidance loaded")
  else
    let d := discoverFrom host late (visitOrder global directories) {}
    contextOf true d.files d.warnings

/-- How the task that runs a discovery ends. -/
inductive JobOutcome
  | completed | failed | timedOut
  deriving DecidableEq

/-- `ProjectContextDiscovery::discover`. -/
def discoverBounded (enabled permitted : Bool) (outcome : JobOutcome) (global : Option Path)
    (directory : Path) : Except Unit RunProjectContext :=
  if !enabled then .ok (contextOf false [] [])
  else if !permitted then .error ()
  else
    match outcome with
    | .completed => .ok (discover host late global directory)
    | .failed => .error ()
    | .timedOut =>
      .ok (contextOf true [] (warn host [] (Provider.bytesOf "project context")
        "discovery deadline reached; no guidance loaded"))

end Morons.Guidance
