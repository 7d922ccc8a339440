import Morons.Library.Transition
import Morons.Provider.Request
import Morons.Run.Normalization

/-!
# The continuation of a run

How the input of the next provider request is built from the entries of the
context: the reasoning of the last turn goes back in front of its calls, and the
requests of a native run are held to the reasoning their turn has seen.
-/

namespace Morons

open Attempt Provider

/-! ## Call identifiers -/

def hexDigits : Nat → Nat → List Char
  | 0, _ => []
  | count + 1, value => hexDigits count (value / 16) ++ [Nat.digitChar (value % 16)]

/-- The 16 bytes of an identifier in hexadecimal digits. -/
def deterministicProviderCallId (callId : ToolCallId) : String :=
  "call_" ++ String.ofList (hexDigits 32 callId)

theorem digitChar_graphic : ∀ digit < 16,
    isGraphic (Nat.digitChar digit) = true ∧
      (String.ofList [Nat.digitChar digit]).utf8ByteSize = 1 := by decide

theorem hexDigits_graphic (count value : Nat) :
    (hexDigits count value).all isGraphic = true ∧
      (String.ofList (hexDigits count value)).utf8ByteSize = count := by
  induction count generalizing value with
  | zero => exact ⟨rfl, rfl⟩
  | succ count ih =>
    obtain ⟨hall, hsize⟩ := ih (value / 16)
    obtain ⟨hdigit, hone⟩ := digitChar_graphic (value % 16) (Nat.mod_lt _ (by decide))
    constructor
    · simp only [hexDigits, List.all_append, hall, List.all_cons, hdigit, List.all_nil, Bool.and_self]
    · rw [hexDigits, String.ofList_append, String.utf8ByteSize_append, hsize, hone]

theorem validIdentifier_callId (callId : ToolCallId) :
    validIdentifier (deterministicProviderCallId callId) maxProviderCallIdBytes = true := by
  obtain ⟨hall, hsize⟩ := hexDigits_graphic 32 callId
  have hbytes : (deterministicProviderCallId callId).utf8ByteSize = 37 := by
    rw [deterministicProviderCallId, String.utf8ByteSize_append, hsize]
    decide
  have hname : "call_".toList.all isGraphic = true := by decide
  have hsome : deterministicProviderCallId callId ≠ "" := by
    intro hempty
    rw [hempty] at hbytes
    cases hbytes
  simp only [validIdentifier, Bool.and_eq_true, decide_eq_true_eq, hbytes]
  refine ⟨⟨by simpa using hsome, by decide⟩, ?_⟩
  rw [deterministicProviderCallId, String.toList_append, List.all_append, hname,
    String.toList_ofList, hall, Bool.and_self]

/-! ## The entries of a context -/

/-- An entry of the context, with the images it refers to loaded. -/
inductive ContextEntry
  /-- A message without images, or a local command as the text that tells of it. -/
  | userMessage (text : String)
  /-- The texts and the images of a message that has attachments. -/
  | userImages (parts : List ContentPart)
  | assistantMessage (text : String) (phase : MessagePhase)
  | toolCall (callId : ToolCallId) (operationId : ProviderOperationId) (input : CatalogInput)
  /-- A result, and the parts of the message that shows the image of a read. -/
  | toolResult (callId : ToolCallId) (result : ToolResult) (image : Option (List ContentPart))

/-- What the last turn of a run has left for its next request. -/
structure ProviderTurnContinuation where
  reasoning : Option (ProviderOperationId × List InputItem)
  toolCalls : List (ToolCallId × String)

/-- The continuation of a call. -/
def callContinuation (continuation : Option ProviderTurnContinuation) (callId : ToolCallId) :
    Option String :=
  (continuation.bind fun c => c.toolCalls.find? fun call => call.1 = callId).map (·.2)

/-- The items of an entry, without the reasoning in front of it. -/
def entryItems (codec : Codec) (continuation : Option ProviderTurnContinuation) :
    ContextEntry → List InputItem
  | .userMessage text => [.message .user text none]
  | .userImages parts => [.multimodalMessage .user parts none]
  | .assistantMessage text phase => [.message .assistant text (some phase)]
  | .toolCall callId _ input =>
    [.functionCall (deterministicProviderCallId callId) input.kind.name
      (input.providerArguments codec) (callContinuation continuation callId)]
  | .toolResult callId result image =>
    .functionCallOutput (deterministicProviderCallId callId) result.payload ::
      (image.map fun parts => InputItem.multimodalMessage .user parts none).toList

/-- What has been built of the input. -/
structure InputScan where
  input : List InputItem
  reasoningInserted : Bool := false
  toolContinuationsInserted : Nat := 0

/-- The reasoning that goes in front of an entry. -/
def reasoningBefore (continuation : Option ProviderTurnContinuation) :
    ContextEntry → Option (List InputItem)
  | .toolCall _ operationId _ =>
    (continuation.bind (·.reasoning)).bind fun reasoning =>
      if reasoning.1 = operationId then some reasoning.2 else none
  | _ => none

def hasContinuation (continuation : Option ProviderTurnContinuation) : ContextEntry → Bool
  | .toolCall callId _ _ => (callContinuation continuation callId).isSome
  | _ => false

def pushEntry (codec : Codec) (continuation : Option ProviderTurnContinuation) (s : InputScan)
    (entry : ContextEntry) : InputScan :=
  let reasoning := if s.reasoningInserted then none else reasoningBefore continuation entry
  { input := s.input ++ reasoning.getD [] ++ entryItems codec continuation entry
    reasoningInserted := s.reasoningInserted || reasoning.isSome
    toolContinuationsInserted :=
      s.toolContinuationsInserted + if hasContinuation continuation entry then 1 else 0 }

def developerItems (developer : List String) : List InputItem :=
  developer.map fun text => .message .developer text none

/-- `build_provider_input` for the developer texts of a context; a native request
takes the first of them as its instructions. -/
def buildProviderInput (codec : Codec) (developer : List String) (entries : List ContextEntry)
    (continuation : Option ProviderTurnContinuation) : Except ProviderError (List InputItem) := do
  let s := entries.foldl (pushEntry codec continuation) { input := developerItems developer }
  require (∀ c ∈ continuation, (c.reasoning.isSome → s.reasoningInserted) ∧
    c.toolCalls.length = s.toolContinuationsInserted) .invalidRequest
  return s.input

/-! ## What is built -/

section Built

variable {codec : Codec} {continuation : Option ProviderTurnContinuation}

theorem callContinuation_none (h : ∀ c ∈ continuation, c.toolCalls = []) (callId : ToolCallId) :
    callContinuation continuation callId = none := by
  cases continuation with
  | none => rfl
  | some c =>
    have hnone : c.toolCalls = [] := h c rfl
    simp [callContinuation, hnone]

theorem entryItems_none (h : ∀ c ∈ continuation, c.toolCalls = []) (entry : ContextEntry) :
    entryItems codec continuation entry = entryItems codec none entry := by
  cases entry with
  | toolCall callId operationId input =>
    have hnone : callContinuation none callId = none := rfl
    simp only [entryItems, callContinuation_none h, hnone]
  | userMessage | userImages | assistantMessage | toolResult => rfl

theorem hasContinuation_none (h : ∀ c ∈ continuation, c.toolCalls = []) (entry : ContextEntry) :
    hasContinuation continuation entry = false := by
  cases entry with
  | toolCall callId operationId input => simp only [hasContinuation, callContinuation_none h,
      Option.isSome_none]
  | userMessage | userImages | assistantMessage | toolResult => rfl

/-- Without continuations of calls, each entry gives its items and the reasoning
comes in front of the first of its calls. -/
theorem foldl_pushEntry (h : ∀ c ∈ continuation, c.toolCalls = []) (entries : List ContextEntry)
    (s : InputScan) :
    (entries.foldl (pushEntry codec continuation) s).toolContinuationsInserted =
        s.toolContinuationsInserted ∧
      (entries.foldl (pushEntry codec continuation) s).reasoningInserted =
        (s.reasoningInserted || (entries.findSome? (reasoningBefore continuation)).isSome) ∧
      (entries.foldl (pushEntry codec continuation) s).input.Perm (s.input ++
        (if s.reasoningInserted then []
          else (entries.findSome? (reasoningBefore continuation)).getD []) ++
        entries.flatMap (entryItems codec none)) := by
  induction entries generalizing s with
  | nil => simp
  | cons entry rest ih =>
    obtain ⟨hcount, hinserted, hinput⟩ := ih (pushEntry codec continuation s entry)
    rw [List.foldl_cons]
    refine ⟨?_, ?_, hinput.trans ?_⟩
    · rw [hcount]
      simp [pushEntry, hasContinuation_none h]
    · rw [hinserted]
      cases hsome : s.reasoningInserted <;>
        cases hbefore : reasoningBefore continuation entry <;>
          simp [pushEntry, hsome, hbefore]
    · simp only [pushEntry, entryItems_none h, List.flatMap_cons]
      cases hsome : s.reasoningInserted with
      | true => simp
      | false =>
        cases hbefore : reasoningBefore continuation entry with
        | some reasoning => simp [hbefore]
        | none =>
          simp only [Bool.false_or, Option.isSome_none, Bool.false_eq_true, if_false,
            Option.getD_none, List.append_nil, List.findSome?_cons, hbefore, List.append_assoc]
          refine List.Perm.append_left _ ?_
          rw [← List.append_assoc, ← List.append_assoc]
          exact List.perm_append_comm.append_right _

/-- **The input of a request.**  The reasoning of the last turn goes with the items
of the entries, when a call of its operation is among them. -/
theorem buildProviderInput_ok (h : ∀ c ∈ continuation, c.toolCalls = [])
    {developer : List String} {entries : List ContextEntry} {reasoning : List InputItem}
    (hreasoning : (entries.findSome? (reasoningBefore continuation)).getD [] = reasoning)
    (hinserted : ∀ c ∈ continuation, c.reasoning.isSome →
      (entries.findSome? (reasoningBefore continuation)).isSome) :
    ∃ input, buildProviderInput codec developer entries continuation = .ok input ∧
      input.Perm (developerItems developer ++ reasoning ++
        entries.flatMap (entryItems codec none)) := by
  have hfold := @foldl_pushEntry codec _ h entries { input := developerItems developer }
  obtain ⟨hcount, hflag, hinput⟩ := hfold
  rw [if_neg Bool.false_ne_true, hreasoning] at hinput
  refine ⟨_, ?_, hinput⟩
  simp only [buildProviderInput, bind_ok, require_ok, pure_ok]
  refine ⟨(), fun c hc => ⟨fun hsome => ?_, ?_⟩, trivial⟩
  · rw [hflag, hinserted c hc hsome, Bool.or_true]
  · rw [hcount, h c hc]
    rfl

end Built

/-! ## The reasoning of a native turn -/

variable {δ : Type}

def InputItem.reasoning? : InputItem → Option Reasoning
  | .reasoning item => some item
  | _ => none

/-- The fingerprints of the reasoning of a request, when its turn has seen all of it. -/
def requestReasoning [DecidableEq δ] (fingerprint : Reasoning → δ) (seen : List δ)
    (input : List InputItem) : Except ProviderError (List δ) := do
  let fingerprints := (input.filterMap InputItem.reasoning?).map fingerprint
  require (∀ f ∈ fingerprints, f ∈ seen) .invalidRequest
  return fingerprints

/-- What a turn has seen after an answer: the reasoning of its request and of the answer. -/
def seenAfter (fingerprint : Reasoning → δ) (request : List δ) (outcome : Outcome) : List δ :=
  request ++ (outcome.output.filterMap OutputItem.reasoning?).map fingerprint

/-! ## The turns of a run -/

/-- What a run carries from turn to turn. -/
structure LoopState (δ : Type) where
  continuation : Option ProviderTurnContinuation := none
  /-- The reasoning the native turn has seen. -/
  seen : List δ := []

/-- The continuation after a tool turn whose calls are committed under `callIds`. -/
def continueTurn (continuation : Option ProviderTurnContinuation)
    (operationId : ProviderOperationId) (reasoning : List Reasoning)
    (calls : List (ToolCallId × ValidatedProviderCall)) : Option ProviderTurnContinuation :=
  let toolCalls := (continuation.map (·.toolCalls)).getD [] ++
    calls.filterMap fun call => call.2.opaqueContinuation.map fun text => (call.1, text)
  let reasoning :=
    if reasoning = [] then none else some (operationId, reasoning.map InputItem.reasoning)
  if reasoning.isSome ∨ toolCalls ≠ [] then some ⟨reasoning, toolCalls⟩ else none

/-- The entries of a tool turn: its commentary and its calls. -/
def turnEntries (operationId : ProviderOperationId) (commentary : Option (String × Bool))
    (calls : List (ToolCallId × ValidatedProviderCall)) : List ContextEntry :=
  (commentary.map fun text => ContextEntry.assistantMessage text.1 .commentary).toList ++
    calls.map fun call => .toolCall call.1 operationId call.2.input

end Morons
