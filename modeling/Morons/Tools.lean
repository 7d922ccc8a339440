import Morons.Types

/-!
# Tools

Tool inputs and tool results as the persistence layer sees them: the kind of
the tool, the text its path digest is taken of, and the payload, the JSON text
stored with the fact.  Of the many kinds of tool output only a Bash output is
taken apart, since a local command checks it; the others keep their JSON text.
-/

namespace Morons

def toolCatalogVersion : Nat := 16
def toolLimitsVersion : Nat := 14
def maxToolCallsPerTurn : Nat := 8
def maxToolPayloadBytes : Nat := 512 * 1024
def maxBashOutputBytes : Nat := 64 * 1024

inductive ToolKind
  | listDirectory | readFile | searchText | editFile | createFile | createDirectory
  | runCommand | read | write | edit | bash | webSearch | ipython | task
  deriving DecidableEq

namespace ToolKind

def toRecord : ToolKind → Nat
  | listDirectory => 1
  | readFile => 2
  | searchText => 3
  | editFile => 4
  | createFile => 5
  | createDirectory => 6
  | runCommand => 7
  | read => 8
  | write => 9
  | edit => 10
  | bash => 11
  | webSearch => 12
  | ipython => 13
  | task => 14

def isMutation : ToolKind → Bool
  | editFile | createFile | createDirectory | runCommand | write | edit | bash | ipython
  | task => true
  | listDirectory | readFile | searchText | read | webSearch => false

/-- The list of mutating kinds that the projection rebuild spells out. -/
theorem isMutation_iff_record (k : ToolKind) :
    k.isMutation = true ↔ k.toRecord ∈ [4, 5, 6, 7, 9, 10, 11, 13, 14] := by
  cases k <;> simp [isMutation, toRecord]

end ToolKind

structure ToolInput where
  kind : ToolKind
  pathText : String
  /-- The JSON text of the input. -/
  payload : String
  deriving DecidableEq

inductive ToolErrorKind
  | invalidPath | notFound | wrongNodeKind | linkOrReparsePoint | changedDuringOperation
  | binaryFile | invalidUtf8 | digestMismatch | replacementNotFound | replacementAmbiguous
  | replacementOverlap | alreadyExists | resourceLimit | outputLimit | timedOut
  | inactivityTimeout | cancelled | interrupted | notDispatched | uncertain
  | webSearchUncertain (failure : String)
  | exaSearchUncertain | filesystem | network | invalidResponse | credentialNotConfigured
  | dataUseRestricted | webSearchUnavailable | kernelUnavailable | executionFailed
  | imageInputUnsupported | modelUnavailable
  deriving DecidableEq

/-- The kinds of tool output other than Bash. -/
inductive ToolOutputForm
  | directoryPage | fileRead | searchMatches | fileEdited | fileCreated | directoryCreated
  | commandCompleted | read | readImage | written | edited | webSearch | exaWeb | openAiWeb
  | ipython | task
  deriving DecidableEq

inductive ToolOutput
  | bash (exitCode : Option Int) (signal : Option Nat) (stdout stderr : String)
  /-- An output of another form, with its JSON text. -/
  | encoded (form : ToolOutputForm) (payload : String)
  deriving DecidableEq

def ToolOutput.kind : ToolOutput → ToolKind
  | .bash .. => .bash
  | .encoded form _ =>
    match form with
    | .directoryPage => .listDirectory
    | .fileRead => .readFile
    | .searchMatches => .searchText
    | .fileEdited => .editFile
    | .fileCreated => .createFile
    | .directoryCreated => .createDirectory
    | .commandCompleted => .runCommand
    | .read | .readImage => .read
    | .written => .write
    | .edited => .edit
    | .webSearch | .exaWeb | .openAiWeb => .webSearch
    | .ipython => .ipython
    | .task => .task

inductive ToolResult
  | ok (output : ToolOutput)
  | error (error : ToolErrorKind) (output : Option ToolOutput)
  deriving DecidableEq

namespace ToolResult

def errorKind : ToolResult → Option ToolErrorKind
  | ok _ => none
  | error e _ => some e

def hasImage : ToolResult → Bool
  | ok (.encoded .readImage _) => true
  | _ => false

def isUncertain (r : ToolResult) : Bool :=
  match r.errorKind with
  | some .uncertain | some (.webSearchUncertain _) | some .exaSearchUncertain => true
  | _ => false

def stopsRun (r : ToolResult) (catalogVersion : Nat) : Bool :=
  r.isUncertain && !(decide (16 ≤ catalogVersion) &&
    match r.errorKind with
    | some (.webSearchUncertain _) => true
    | _ => false)

end ToolResult

/-! ## Payloads -/

/-- One character of a JSON string. -/
def jsonCharacter (c : Char) : String :=
  if c = '"' then "\\\""
  else if c = '\\' then "\\\\"
  else if c = '\n' then "\\n"
  else if c = '\r' then "\\r"
  else if c = '\t' then "\\t"
  else if c.toNat = 8 then "\\b"
  else if c.toNat = 12 then "\\f"
  else if c.toNat < 32 then
    "\\u00" ++ String.ofList [if c.toNat < 16 then '0' else '1', Nat.digitChar (c.toNat % 16)]
  else String.ofList [c]

def jsonString (text : String) : String :=
  "\"" ++ String.join (text.toList.map jsonCharacter) ++ "\""

def jsonOption {α : Type} (encode : α → String) : Option α → String
  | none => "null"
  | some a => encode a

def ToolOutput.payload : ToolOutput → String
  | .bash exitCode signal stdout stderr =>
    "\x7b\"output\":\"bash\",\"exit_code\":" ++ jsonOption toString exitCode ++ ",\"signal\":" ++
      jsonOption toString signal ++ ",\"stdout\":" ++ jsonString stdout ++ ",\"stderr\":" ++
      jsonString stderr ++ "\x7d"
  | .encoded _ payload => payload

def ToolErrorKind.payload : ToolErrorKind → String
  | .invalidPath => "\"invalid_path\""
  | .notFound => "\"not_found\""
  | .wrongNodeKind => "\"wrong_node_kind\""
  | .linkOrReparsePoint => "\"link_or_reparse_point\""
  | .changedDuringOperation => "\"changed_during_operation\""
  | .binaryFile => "\"binary_file\""
  | .invalidUtf8 => "\"invalid_utf8\""
  | .digestMismatch => "\"digest_mismatch\""
  | .replacementNotFound => "\"replacement_not_found\""
  | .replacementAmbiguous => "\"replacement_ambiguous\""
  | .replacementOverlap => "\"replacement_overlap\""
  | .alreadyExists => "\"already_exists\""
  | .resourceLimit => "\"resource_limit\""
  | .outputLimit => "\"output_limit\""
  | .timedOut => "\"timed_out\""
  | .inactivityTimeout => "\"inactivity_timeout\""
  | .cancelled => "\"cancelled\""
  | .interrupted => "\"interrupted\""
  | .notDispatched => "\"not_dispatched\""
  | .uncertain => "\"uncertain\""
  | .webSearchUncertain failure => "\x7b\"web_search_uncertain\":" ++ failure ++ "\x7d"
  | .exaSearchUncertain => "\"exa_search_uncertain\""
  | .filesystem => "\"filesystem\""
  | .network => "\"network\""
  | .invalidResponse => "\"invalid_response\""
  | .credentialNotConfigured => "\"credential_not_configured\""
  | .dataUseRestricted => "\"data_use_restricted\""
  | .webSearchUnavailable => "\"web_search_unavailable\""
  | .kernelUnavailable => "\"kernel_unavailable\""
  | .executionFailed => "\"execution_failed\""
  | .imageInputUnsupported => "\"image_input_unsupported\""
  | .modelUnavailable => "\"model_unavailable\""

def ToolResult.payload : ToolResult → String
  | .ok output => "\x7b\"status\":\"ok\",\"output\":" ++ output.payload ++ "\x7d"
  | .error e none => "\x7b\"status\":\"error\",\"error\":" ++ e.payload ++ "\x7d"
  | .error e (some output) =>
    "\x7b\"status\":\"error\",\"error\":" ++ e.payload ++ ",\"output\":" ++ output.payload ++ "\x7d"

def ToolInput.payloadBytes (i : ToolInput) : Nat := i.payload.utf8ByteSize

def ToolResult.payloadBytes (r : ToolResult) : Nat := r.payload.utf8ByteSize

/-! ## Canonical Bash results -/

def validateBashOutput (requireExit : Bool) : ToolOutput → Bool
  | .bash exitCode signal stdout stderr =>
    ((!requireExit && exitCode.isNone && signal.isNone) || xor exitCode.isSome signal.isSome) &&
      decide (stdout.utf8ByteSize ≤ maxBashOutputBytes) &&
      decide (stderr.utf8ByteSize ≤ maxBashOutputBytes)
  | .encoded .. => false

/-- `validate_canonical_result` at the Bash tool. -/
def validateCanonicalBashResult : ToolResult → Bool
  | .error (.webSearchUncertain _) _ | .error .exaSearchUncertain _ => false
  | .error _ none => true
  | .error e (some output) =>
    (match e with
      | .outputLimit | .timedOut | .inactivityTimeout | .cancelled | .uncertain => true
      | _ => false) && validateBashOutput false output
  | .ok output => decide (output.kind = .bash) && validateBashOutput true output

end Morons
