import Morons.Cli.Draft
import Morons.Library.BigEndian
import Morons.Library.Window
import Morons.Run.History
import Morons.Tool.Catalog

/-!
# The source of a summary

A compaction hashes the whole prefix it replaces, and hands the part behind the
parent checkpoint to the model that summarizes it: each entry as an excerpt, and
of the excerpts the last ones that fit.
-/

namespace Morons.ContextCompaction

open Attempt ContextHistory
open Provider (bytesOf checkedAdd)

def maxSourceBytes : Nat := 48 * 1024
def maxEntryExcerptBytes : Nat := 8 * 1024
def maxGuidanceBytes : Nat := 8 * 1024

def omitted : String :=
  "[Earlier context-visible source omitted to fit the summarization budget. The canonical source " ++
    "remains intact.]\n"

/-- What the projection takes from elsewhere. -/
structure Encodings where
  sha256 : List UInt8 → Digest
  /-- The bytes of an identifier. -/
  identifier : Nat → List UInt8
  imageIdentifier : ImageAttachmentId → List UInt8
  digest : Digest → List UInt8
  /-- `provider_arguments`: the JSON text of the fields of an input. -/
  providerArguments : ToolInput → Option String

/-- The JSON text of an input can always be printed. -/
def Encodings.Prints (x : Encodings) : Prop := ∀ input, (x.providerArguments input).isSome = true

/-! ## The digest -/

def contextSourceDigest : String := "morons.dev/context-source/v1\x00"

structure ContextSourceHasher where
  /-- The bytes that the digest was updated with. -/
  fed : List UInt8
  highWater : Nat
  nextSequence : Nat

def updateBytes (value : List UInt8) : List UInt8 := BigEndian.bytes 8 value.length ++ value

def updateText (value : String) : List UInt8 := updateBytes (bytesOf value)

def mediaTypeRecord : ImageMediaType → Nat
  | .png => 1
  | .jpeg => 2
  | .gif => 3

def serviceRecord : RunService → Nat
  | .zen => 1
  | .go => 2
  | .openAiChatGpt => 3

def phaseRecord : AssistantMessagePhase → Nat
  | .commentary => 1
  | .final => 2

def statusRecord : LocalCommandStatus → Nat
  | .succeeded => 1
  | .failed => 2
  | .interrupted => 3
  | .uncertain => 4

/-- A signed number of 32 bits. -/
def signedBytes (value : Int) : List UInt8 := BigEndian.bytes 4 (value % 2 ^ 32).toNat

def byteOf (value : Nat) : List UInt8 := [UInt8.ofNat value]

section

variable (x : Encodings)

def attachmentBytes (attachment : ImageAttachment) : List UInt8 :=
  x.imageIdentifier attachment.id ++ updateText attachment.displayName ++
    BigEndian.bytes 4 attachment.markerStart ++ byteOf (mediaTypeRecord attachment.mediaType) ++
    BigEndian.bytes 4 attachment.width ++ BigEndian.bytes 4 attachment.height ++
    BigEndian.bytes 8 attachment.bytes ++ x.digest attachment.digest

/-- What an entry updates the digest with. -/
def entryBytes (entry : TranscriptEntry) : List UInt8 :=
  BigEndian.bytes 8 entry.entrySequence ++
    match entry.body with
    | .userMessage runId text attachments =>
      byteOf 1 ++ x.identifier entry.id ++ x.identifier runId ++ updateText text ++
        BigEndian.bytes 4 attachments.length ++ attachments.flatMap (attachmentBytes x)
    | .assistantMessage runId service modelId text refusal phase =>
      byteOf 2 ++ x.identifier entry.id ++ x.identifier runId ++ byteOf (serviceRecord service) ++
        updateText modelId ++ updateText text ++ byteOf refusal.toNat ++ byteOf (phaseRecord phase)
    | .toolCall runId callId operationId providerOperationId input =>
      byteOf 3 ++ x.identifier entry.id ++ x.identifier runId ++ x.identifier callId ++
        x.identifier operationId ++ x.identifier providerOperationId ++ updateText input.payload
    | .toolResult runId callId operationId tool result =>
      byteOf 4 ++ x.identifier entry.id ++ x.identifier runId ++ x.identifier callId ++
        x.identifier operationId ++ BigEndian.bytes 8 tool.toRecord ++ updateText result.payload
    | .localCommand commandId command contextVisible status exitCode signal stdout stderr =>
      byteOf 5 ++ x.identifier entry.id ++ x.identifier commandId ++ updateText command ++
        byteOf contextVisible.toNat ++ byteOf (statusRecord status) ++
        signedBytes (exitCode.getD (-2 ^ 31)) ++ BigEndian.bytes 2 (signal.getD 65535) ++
        updateText stdout ++ updateText stderr

/-- What the digest begins with. -/
def digestHeader (highWater : Nat) : List UInt8 :=
  bytesOf contextSourceDigest ++ BigEndian.bytes 8 highWater

namespace ContextSourceHasher

def new (highWater : Nat) : ContextSourceHasher where
  fed := digestHeader highWater
  highWater
  nextSequence := 1

def push (h : ContextSourceHasher) (entry : TranscriptEntry) : Option ContextSourceHasher :=
  if entry.entrySequence ≠ h.nextSequence ∨ h.highWater < h.nextSequence then none
  else do
    let next ← checkedAdd h.nextSequence 1
    return { h with nextSequence := next, fed := h.fed ++ entryBytes x entry }

def finish (h : ContextSourceHasher) : Option Digest := do
  let last ← checkedAdd h.highWater 1
  if 0 < h.highWater ∧ h.nextSequence = last then return x.sha256 h.fed else none

end ContextSourceHasher

/-! ## Excerpts -/

def mediaTypeText : ImageMediaType → String
  | .png => "image/png"
  | .jpeg => "image/jpeg"
  | .gif => "image/gif"

def statusText : LocalCommandStatus → String
  | .succeeded => "Succeeded"
  | .failed => "Failed"
  | .interrupted => "Interrupted"
  | .uncertain => "Uncertain"

def imageLine (image : ImageAttachment) : String :=
  "\nIMAGE: " ++ image.displayName ++ " · " ++ mediaTypeText image.mediaType ++ " · " ++
    toString image.width ++ "x" ++ toString image.height

def invalidProjection : PersistenceError :=
  .invalidState "a canonical tool entry cannot be projected"

/-- The text of an entry; a hidden command has none. -/
def bodyText : TranscriptBody → Except PersistenceError (Option String)
  | .userMessage _ text attachments =>
    return some ("USER:\n" ++ text ++ String.join (attachments.map imageLine))
  | .assistantMessage _ _ _ text _ _ => return some ("ASSISTANT:\n" ++ text)
  | .toolCall _ _ _ _ input => do
    let arguments ← demand invalidProjection (x.providerArguments input)
    return some ("TOOL CALL " ++ input.kind.name ++ ":\n" ++ arguments)
  -- `provider_output` prints the result as its row stores it.
  | .toolResult _ _ _ _ result => return some ("TOOL RESULT:\n" ++ result.payload)
  | .localCommand _ _ false _ _ _ _ _ => return none
  | .localCommand _ command true status _ _ stdout stderr =>
    return some ("LOCAL COMMAND " ++ statusText status ++ ":\n" ++ command ++ "\nstdout:\n" ++ stdout ++
      "\nstderr:\n" ++ stderr)

def projectEntry (entry : TranscriptEntry) : Except PersistenceError (Option String) := do
  let text ← bodyText x entry.body
  return text.map (· ++ "\n\n")

def marker : String := "\n[Source excerpt truncated; omitted text remains canonical.]\n"

def boundedExcerpt (text : String) (maximum : Nat) : String :=
  if text.utf8ByteSize ≤ maximum then text
  else
    let cs := text.toList
    let keep := maximum - marker.utf8ByteSize
    let head := Utf8.floorBoundary cs (keep / 2)
    let tail := Utf8.ceilBoundary cs (keep / 2) (text.utf8ByteSize - keep / 2)
    match Utf8.split cs head, Utf8.split cs tail with
    | some (front, _), some (_, back) => String.ofList front ++ marker ++ String.ofList back
    -- A slice off a character boundary panics: neither position is off one.
    | _, _ => text

/-! ## The projection -/

structure CompactionPlan where
  parentCheckpointId : Option ContextCheckpointId
  sourceEntryHighWater : Nat
  sourceDigest : Digest
  source : String
  parentSummary : Option String
  userGuidance : Option String
  estimatedInputTokens : Nat

structure Projecting where
  digest : ContextSourceHasher
  excerpts : Window String := {}

/-- The excerpt of an entry behind the parent checkpoint, and the eviction of the oldest ones. -/
def takeExcerpt (covered : Nat) (excerpts : Window String) (entry : TranscriptEntry) :
    Except PersistenceError (Window String) :=
  if entry.entrySequence ≤ covered then .ok excerpts
  else do
    match ← projectEntry x entry with
    | none => return excerpts
    | some text =>
      return excerpts.push String.utf8ByteSize maxSourceBytes (boundedExcerpt text maxEntryExcerptBytes)

def projectStep (covered : Nat) (p : Projecting) (entry : TranscriptEntry) :
    Except PersistenceError Projecting := do
  let digest ← demand (.invalidState "a compaction source prefix is not contiguous")
    (p.digest.push x entry)
  let excerpts ← takeExcerpt x covered p.excerpts entry
  return ⟨digest, excerpts⟩

def noVisibleSource : String := "[No context-visible source text in this prefix.]\n"

def sourceOf (excerpts : Window String) : String :=
  let source := (if excerpts.dropped then omitted else "") ++ String.join excerpts.items
  if source.isEmpty then noVisibleSource else source

def coveredBy (checkpoint : Option ContextCheckpoint) : Nat :=
  (checkpoint.map (·.sourceEntryHighWater)).getD 0

def projectCompactionPrefix (s : Store) (sessionId : SessionId) (checkpoint : Option ContextCheckpoint)
    (sourceEntryHighWater : Nat) (userGuidance : Option String) :
    Except PersistenceError CompactionPlan := do
  let covered := coveredBy checkpoint
  require (covered < sourceEntryHighWater)
    (.invalidState "a compaction prefix does not advance beyond its parent checkpoint")
  let projected ← visitContextEntries s sessionId 0 sourceEntryHighWater
    (fun p entry => (projectStep x covered p entry).map (·, true))
    { digest := ContextSourceHasher.new sourceEntryHighWater }
  let source := sourceOf projected.excerpts
  let parentSummary :=
    checkpoint.map fun checkpoint => boundedExcerpt checkpoint.summary maxCompactionSummaryBytes
  let estimate := source.utf8ByteSize + (parentSummary.map String.utf8ByteSize).getD 0 + 32
  require (estimate ≤ maxTokens) (.invalidState "a bounded compaction source estimate overflowed")
  let sourceDigest ← demand (.invalidState "a compaction source prefix is incomplete")
    (projected.digest.finish x)
  return {
    parentCheckpointId := checkpoint.map (·.checkpointId)
    sourceEntryHighWater
    sourceDigest
    source
    parentSummary
    userGuidance := ((userGuidance.map fun text => String.ofList (Cli.AppState.trim text.toList)).filter
      (· ≠ "")).map fun text => boundedExcerpt text maxGuidanceBytes
    estimatedInputTokens := estimate }

end

end Morons.ContextCompaction
