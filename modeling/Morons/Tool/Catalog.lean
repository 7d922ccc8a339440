import Morons.Provider.Outcome
import Morons.Run.Context
import Morons.Tool.Execution

/-!
# The tool catalog

The typed input of each tool of the catalog, how it is read from the arguments
of a provider's call, and how it is printed again as arguments.
-/

namespace Morons

open Attempt Provider

def maxToolPathBytes : Nat := 4096
def maxReadLines : Nat := 200
def maxFileBytes : Nat := 2 * 1024 * 1024
def maxReplacements : Nat := 32
def maxReplacementBytes : Nat := 256 * 1024
def maxWebSearchQueryBytes : Nat := 512
def maxIpythonCellBytes : Nat := 64 * 1024

structure TextReplacement where
  oldText : String
  newText : String
  deriving DecidableEq

/-- `ToolInput` of the current catalog. -/
inductive CatalogInput
  | read (path : String) (offset limit : Nat)
  | write (path content : String)
  | edit (path : String) (replacements : List TextReplacement)
  | bash (command : String)
  | webSearch (query : String)
  | ipython (cell : String)
  deriving DecidableEq

inductive ToolCallValidationError
  | invalidProviderOutput | resourceLimit
  deriving DecidableEq

/-- The name of a tool. -/
def ToolKind.name : ToolKind → String
  | .listDirectory => "list_directory"
  | .readFile => "read_file"
  | .searchText => "search_text"
  | .editFile => "edit_file"
  | .createFile => "create_file"
  | .createDirectory => "create_directory"
  | .runCommand => "run_command"
  | .read => "read"
  | .write => "write"
  | .edit => "edit"
  | .bash => "bash"
  | .webSearch => "web_search"
  | .ipython => "ipython"
  | .task => "task"

theorem ToolKind.validToolName_name (kind : ToolKind) : validToolName kind.name = true := by
  cases kind <;> decide +kernel

namespace CatalogInput

def kind : CatalogInput → ToolKind
  | read .. => .read
  | write .. => .write
  | edit .. => .edit
  | bash _ => .bash
  | webSearch _ => .webSearch
  | ipython _ => .ipython

def pathText : CatalogInput → String
  | read path _ _ | write path _ | edit path _ => path
  | bash command => command
  | webSearch query => query
  | ipython cell => cell

def replacementJson (replacement : TextReplacement) : Json :=
  .object [("old_text", .string replacement.oldText), ("new_text", .string replacement.newText)]

/-- The fields of an input in their order. -/
def members : CatalogInput → List (String × Json)
  | read path offset limit =>
    [("path", .string path), ("offset", .natural offset), ("limit", .natural limit)]
  | write path content => [("path", .string path), ("content", .string content)]
  | edit path replacements =>
    [("path", .string path), ("replacements", .array (replacements.map replacementJson))]
  | bash command => [("command", .string command)]
  | webSearch query => [("query", .string query)]
  | ipython cell => [("cell", .string cell)]

/-- `provider_arguments`. -/
def providerArguments (codec : Codec) (input : CatalogInput) : String :=
  codec.encode (.object input.members)

/-- The input as its row stores it. -/
def stored (codec : Codec) (input : CatalogInput) : ToolInput where
  kind := input.kind
  pathText := input.pathText
  payload := codec.encode (.object (("tool", .string input.kind.name) :: input.members))

end CatalogInput

/-! ## Reading the arguments of a call -/

/-- `ToolPath::parse`. -/
def parseToolPath (value : String) : Except ToolCallValidationError String := do
  require (value ≠ "" ∧ value.utf8ByteSize ≤ maxToolPathBytes ∧ value.toList.all (!isControl ·))
    .invalidProviderOutput
  return value

def requireReadFields : Json → Except ToolCallValidationError Unit
  | .object fields =>
    require ((Json.member "path" fields).isSome ∧
      ∀ field ∈ fields, field.1 = "path" ∨ field.1 = "offset" ∨ field.1 = "limit")
      .invalidProviderOutput
  | _ => throw .invalidProviderOutput

def requireFields (names : List String) : Json → Except ToolCallValidationError Unit
  | .object fields =>
    require (fields.length = names.length ∧ ∀ name ∈ names, (Json.member name fields).isSome)
      .invalidProviderOutput
  | _ => throw .invalidProviderOutput

/-- A struct of one text. -/
def readText (name : String) (value : Json) : Option String := do
  let r ← Json.Shape.read { fields := [name] } value
  r.required name Json.asString

/-- The path, the offset and the limit of a read. -/
def readRead (value : Json) : Option (String × Nat × Nat) := do
  let r ← Json.Shape.read
    { fields := ["path", "offset", "limit"], defaulted := ["offset", "limit"] } value
  return (← r.required "path" Json.asString, ← r.withDefault "offset" Json.asU32 1,
    ← r.withDefault "limit" Json.asU16 maxReadLines)

def readWrite (value : Json) : Option (String × String) := do
  let r ← Json.Shape.read { fields := ["path", "content"] } value
  return (← r.required "path" Json.asString, ← r.required "content" Json.asString)

/-- A replacement may be an array of its two texts too. -/
def TextReplacement.read (value : Json) : Option TextReplacement := do
  let r ← Json.Shape.read { fields := ["old_text", "new_text"] } value
  return ⟨← r.required "old_text" Json.asString, ← r.required "new_text" Json.asString⟩

def readEdit (value : Json) : Option (String × List TextReplacement) := do
  let r ← Json.Shape.read { fields := ["path", "replacements"] } value
  return (← r.required "path" Json.asString,
    ← r.required "replacements" (Json.asArray TextReplacement.read))

def parseRead (value : Json) : Except ToolCallValidationError CatalogInput := do
  requireReadFields value
  let (path, offset, limit) ← demand .invalidProviderOutput (readRead value)
  require (offset ≠ 0 ∧ limit ≠ 0 ∧ limit ≤ maxReadLines) .invalidProviderOutput
  return .read (← parseToolPath path) offset limit

def parseWrite (value : Json) : Except ToolCallValidationError CatalogInput := do
  requireFields ["path", "content"] value
  let (path, content) ← demand .invalidProviderOutput (readWrite value)
  require (content.utf8ByteSize ≤ maxFileBytes) .resourceLimit
  return .write (← parseToolPath path) content

def parseEdit (value : Json) : Except ToolCallValidationError CatalogInput := do
  requireFields ["path", "replacements"] value
  let (path, replacements) ← demand .invalidProviderOutput (readEdit value)
  require (replacements ≠ [] ∧ replacements.length ≤ maxReplacements ∧
    ∀ replacement ∈ replacements, replacement.oldText ≠ "") .invalidProviderOutput
  require ((replacements.map fun r => r.oldText.utf8ByteSize + r.newText.utf8ByteSize).sum ≤
    maxReplacementBytes) .resourceLimit
  return .edit (← parseToolPath path) replacements

def parseBash (value : Json) : Except ToolCallValidationError CatalogInput := do
  requireFields ["command"] value
  let command ← demand .invalidProviderOutput (readText "command" value)
  require (command ≠ "" ∧ '\x00' ∉ command.toList) .invalidProviderOutput
  require (command.utf8ByteSize ≤ maxBashCommandBytes) .resourceLimit
  return .bash command

/-- What is asked of every character is asked along the list. -/
local instance decidableForallChars {P : Char → Prop} [DecidablePred P] (l : List Char) :
    Decidable (∀ c ∈ l, P c) :=
  List.decidableBAll P l

def parseWebSearch (value : Json) : Except ToolCallValidationError CatalogInput := do
  requireFields ["query"] value
  let query ← demand .invalidProviderOutput (readText "query" value)
  require (query ≠ "" ∧ ∀ c ∈ query.toList, c ≠ '\x00' ∧ c ≠ '\r' ∧ c ≠ '\n')
    .invalidProviderOutput
  require (query.utf8ByteSize ≤ maxWebSearchQueryBytes) .resourceLimit
  return .webSearch query

def validateIpythonCell (cell : String) : Bool :=
  !cell.isEmpty && decide (cell.utf8ByteSize ≤ maxIpythonCellBytes) &&
    decide ('\x00' ∉ cell.toList)

def parseIpython (value : Json) : Except ToolCallValidationError CatalogInput := do
  requireFields ["cell"] value
  let cell ← demand .invalidProviderOutput (readText "cell" value)
  require (cell.utf8ByteSize ≤ maxIpythonCellBytes) .resourceLimit
  require (validateIpythonCell cell) .invalidProviderOutput
  return .ipython cell

/-- `parse_input` without the tools of earlier catalogs. -/
def parseInput (name : String) (value : Json) : Except ToolCallValidationError CatalogInput :=
  match name with
  | "read" => parseRead value
  | "write" => parseWrite value
  | "edit" => parseEdit value
  | "bash" => parseBash value
  | "web_search" => parseWebSearch value
  | "ipython" => parseIpython value
  | _ => throw .invalidProviderOutput

structure ValidatedProviderCall where
  providerCallId : String
  input : CatalogInput
  opaqueContinuation : Option String
  deriving DecidableEq

/-- A call, when its identifier is not one of those before it. -/
def parseProviderCall (codec : Codec) (identifiers : List String) (call : Provider.ToolCall) :
    Except ToolCallValidationError ValidatedProviderCall := do
  require (call.providerCallId ∉ identifiers) .invalidProviderOutput
  let value ← demand .invalidProviderOutput (codec.parse (bytesOf call.arguments))
  let input ← parseInput call.name value
  return ⟨call.providerCallId, input, call.opaqueContinuation⟩

def parseCallsAfter (codec : Codec) : List String → List Provider.ToolCall →
    Except ToolCallValidationError (List ValidatedProviderCall)
  | _, [] => .ok []
  | identifiers, call :: rest => do
    let validated ← parseProviderCall codec identifiers call
    let others ← parseCallsAfter codec (call.providerCallId :: identifiers) rest
    return validated :: others

def parseProviderCalls (codec : Codec) (calls : List Provider.ToolCall) (catalogVersion : Nat) :
    Except ToolCallValidationError (List ValidatedProviderCall) := do
  require (calls ≠ [] ∧ catalogVersion = toolCatalogVersion) .invalidProviderOutput
  require (calls.length ≤ maxToolCallsPerTurn) .resourceLimit
  parseCallsAfter codec [] calls

end Morons
