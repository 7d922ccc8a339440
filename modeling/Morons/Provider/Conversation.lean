import Morons.Provider.Messages

/-!
# Conversations on the wire

What the messages of a request say when they are read back: the items of the
request in their order, each message one group of them.  A message is read by
its role and by the names and texts in it, and one that cannot be read says
nothing.  An encoder fails exactly when an item does not fit after those before
it.
-/

namespace Morons.Provider

open Attempt Runs

/-! ## What is carried of an item -/

/-- A part that is shown: a text, or an image with its data as a text. -/
inductive ShownPart
  | text (text : String)
  | image (mediaType : ImageMediaType) (data : String)

/-- The arguments of a call, as a text or as what the text stands for. -/
inductive SpokenArguments
  | text (text : String)
  | value (value : Option Json)

/-- A call; what a protocol has no place for is absent. -/
structure SpokenCall where
  id : Option String := none
  name : String
  arguments : SpokenArguments
  continuation : Option String := none

/-- An item as it is read from messages. -/
inductive Carried
  | text (role : MessageRole) (text : String)
  | parts (role : MessageRole) (parts : List ShownPart)
  | call (call : SpokenCall)
  | output (reference output : String)

/-- What a protocol has a place for: developer messages among the others, what of a call, and
what an output is sent with to name its call. -/
structure Carriage where
  developer : Bool
  encodeBase64 : List UInt8 → String
  call : FunctionCall → SpokenCall
  reference : String → String

namespace InputItem

def isReasoning : InputItem → Bool
  | .reasoning _ => true
  | _ => false

def developerText? : InputItem → Option String
  | .message .developer text _ => some text
  | _ => none

def isDeveloper (item : InputItem) : Bool := item.developerText?.isSome

def isAssistantText : InputItem → Bool
  | .message .assistant _ _ => true
  | _ => false

theorem call?_eq_some (item : InputItem) (call : FunctionCall) :
    item.call? = some call ↔ item = ofCall call := by
  cases item <;> simp [call?, ofCall, eq_comm, FunctionCall.ext_iff]

theorem output?_eq_some (item : InputItem) (output : FunctionCallOutput) :
    item.output? = some output ↔ item = ofOutput output := by
  cases item <;> simp [output?, ofOutput, eq_comm, FunctionCallOutput.ext_iff]

end InputItem

namespace Carriage

def part (c : Carriage) : ContentPart → ShownPart
  | .text text => .text text
  | .image image => .image image.mediaType (c.encodeBase64 image.bytes)

def carry (c : Carriage) : InputItem → Option Carried
  | .message .developer text _ => if c.developer then some (.text .developer text) else none
  | .message role text _ => some (.text role text)
  | .multimodalMessage role parts _ => some (.parts role (parts.map c.part))
  | .functionCall callId name arguments opaqueContinuation =>
    some (.call (c.call ⟨callId, name, arguments, opaqueContinuation⟩))
  | .functionCallOutput callId output => some (.output (c.reference callId) output)
  | .reasoning _ => none

theorem carry_calls (c : Carriage) (calls : List FunctionCall) :
    (calls.map InputItem.ofCall).filterMap c.carry = calls.map fun call => .call (c.call call) := by
  induction calls with
  | nil => rfl
  | cons call rest ih => simp [InputItem.ofCall, carry, ih]

theorem carry_outputs (c : Carriage) (outputs : List FunctionCallOutput) :
    (outputs.map InputItem.ofOutput).filterMap c.carry =
      outputs.map fun output => .output (c.reference output.callId) output.output := by
  induction outputs with
  | nil => rfl
  | cons output rest ih => simp [InputItem.ofOutput, carry, ih]

end Carriage

/-- Reading what was sent of each element, when each can be read. -/
theorem mapM_sent {α β γ : Type} {sent : α → β} {read : β → Option γ} {said : α → γ}
    (h : ∀ a, read (sent a) = some (said a)) (as : List α) :
    (as.map sent).mapM read = some (as.map said) := by
  have hread : (read ∘ sent) = fun a => pure (said a) := funext h
  rw [List.mapM_map, hread, List.mapM_pure]
  rfl

/-! ## Images -/

def readMediaType (name : String) : Option ImageMediaType :=
  if name = "image/png" then some .png
  else if name = "image/jpeg" then some .jpeg
  else if name = "image/gif" then some .gif
  else none

def readImage (mediaType data : String) : Option ShownPart :=
  (readMediaType mediaType).map (.image · data)

/-- An image in a URL of the form `data:TYPE;base64,DATA`. -/
def readDataUrl (url : String) : Option ShownPart := do
  let rest ← url.toList.dropPrefix? "data:".toList
  let mediaType := rest.takeWhile (· ≠ ';')
  let data ← (rest.drop mediaType.length).dropPrefix? ";base64,".toList
  readImage (String.ofList mediaType) (String.ofList data)

theorem readImage_sent (mediaType : ImageMediaType) (data : String) :
    readImage (mediaTypeText mediaType) data = some (.image mediaType data) := by
  cases mediaType <;> rfl

theorem readDataUrl_sent (mediaType : ImageMediaType) (data : String) :
    readDataUrl ("data:" ++ mediaTypeText mediaType ++ ";base64," ++ data) =
      some (.image mediaType data) := by
  rw [← readImage_sent mediaType data]
  cases mediaType <;>
    simp [readDataUrl, mediaTypeText, String.toList_append, List.dropPrefix?, List.takeWhile]

/-! ## Encoders -/

/-- A result is the error of an invalid request exactly when `encodable` fails, and otherwise
a value that is `good`. -/
def Settles {α : Type} (result : Except ProviderError α) (encodable : Prop) (good : α → Prop) :
    Prop :=
  (encodable ∧ ∃ a, result = .ok a ∧ good a) ∨ (¬ encodable ∧ result = .error .invalidRequest)

/-! ## Chat Completions -/

/-- Calls that follow each other are one message. -/
def chatJoins (a b : InputItem) : Bool := a.call?.isSome && b.call?.isSome

def ChatFit (_ : List InputItem) (item : InputItem) : Prop := item.isReasoning = false

def readChatRole (role : String) : Option MessageRole :=
  if role = "system" then some .developer
  else if role = "user" then some .user
  else if role = "assistant" then some .assistant
  else none

def ChatWireContentPart.read : ChatWireContentPart → Option ShownPart
  | .text shown => some (.text shown)
  | .imageUrl url => readDataUrl url

/-- A message without reasoning: a text, the parts of the user, the calls of the assistant, or
the output of a tool. -/
def ChatWireMessage.read (message : ChatWireMessage) : List Carried :=
  if message.reasoningContent.getD "" ≠ "" then []
  else
    match message.content, message.toolCalls, message.toolCallId with
    | some (.text text), none, none => ((readChatRole message.role).map (.text · text)).toList
    | some (.parts parts), none, none =>
      if message.role = "user" then
        ((parts.mapM ChatWireContentPart.read).map (.parts .user)).toList
      else []
    | none, some calls, none =>
      if message.role = "assistant" then
        calls.map fun call =>
          .call { id := some call.id, name := call.name, arguments := .text call.arguments }
      else []
    | some (.text output), none, some reference =>
      if message.role = "tool" then [.output reference output] else []
    | _, _, _ => []

/-- Chat Completions takes a call with its arguments as a text. -/
def chatCarriage (encodeBase64 : List UInt8 → String) : Carriage where
  developer := true
  encodeBase64 := encodeBase64
  call call := { id := some call.callId, name := call.name, arguments := .text call.arguments }
  reference := id

theorem chatPart_read (encodeBase64 : List UInt8 → String) (part : ContentPart) :
    (chatPart encodeBase64 part).read = some ((chatCarriage encodeBase64).part part) := by
  cases part with
  | text => rfl
  | image image => exact readDataUrl_sent image.mediaType _

theorem read_chatText (role : MessageRole) (text : String) {reasoning : Option String}
    (h : reasoning.getD "" = "") :
    ({ role := chatRole role, content := some (.text text), reasoningContent := reasoning } :
      ChatWireMessage).read = [.text role text] := by
  cases role <;> simp [ChatWireMessage.read, chatRole, readChatRole, h]

theorem read_chatParts (encodeBase64 : List UInt8 → String) (parts : List ContentPart) :
    ({ role := "user", content := some (.parts (parts.map (chatPart encodeBase64))) } :
      ChatWireMessage).read = [.parts .user (parts.map (chatCarriage encodeBase64).part)] := by
  simp [ChatWireMessage.read, mapM_sent (chatPart_read encodeBase64), -List.mapM_map]

theorem read_chatCalls (encodeBase64 : List UInt8 → String) (calls : List FunctionCall)
    {reasoning : Option String} (h : reasoning.getD "" = "") :
    ({ role := "assistant", content := none, toolCalls := some (calls.map chatToolCall),
       reasoningContent := reasoning } : ChatWireMessage).read =
      calls.map fun call => .call ((chatCarriage encodeBase64).call call) := by
  simp [ChatWireMessage.read, h, chatCarriage, chatToolCall, Function.comp_def]

theorem read_chatOutput (callId output : String) :
    ({ role := "tool", content := some (.text output), toolCallId := some callId } :
      ChatWireMessage).read = [.output callId output] := by
  simp [ChatWireMessage.read]

/-- The reasoning that is sent where a model requires one is empty. -/
theorem reasoning_empty (c : Prop) [Decidable c] :
    (if c then some "" else none : Option String).getD "" = "" := by
  split <;> rfl

theorem chatMessages_settles {m : RequestModel} (encodeBase64 : List UInt8 → String)
    (requiresReasoningContent : Bool) {input : List InputItem}
    (hadmitted : ∀ item ∈ input, ItemAdmitted m item) :
    Settles (chatMessages encodeBase64 input requiresReasoningContent) (Fits ChatFit [] input)
      (Carries chatJoins ChatWireMessage.read (chatCarriage encodeBase64).carry input) := by
  have taken (done : List InputItem) (s : List ChatWireMessage) (a : InputItem)
      (as : List InputItem) (hwhole : input = done ++ a :: as) :
      Taken chatJoins ChatFit (fun _ _ => True) id ChatWireMessage.read
        (chatCarriage encodeBase64).carry (chatRound encodeBase64 requiresReasoningContent)
        .invalidRequest done s a as := by
    cases a with
    | message role text phase =>
      refine ⟨[], as, Group.alone fun _ _ => rfl, .inl ⟨fits_singleton.mpr rfl, _, _, rfl, rfl,
        trivial, Sends.one ((read_chatText role text (reasoning_empty _)).trans ?_) ?_⟩⟩
      · cases role <;> rfl
      · cases role <;> simp [Carriage.carry, chatCarriage]
    | multimodalMessage role parts phase =>
      have hitem : ItemAdmitted m (.multimodalMessage role parts phase) :=
        hadmitted _ (by simp [hwhole])
      obtain rfl : role = .user := hitem.1.1
      exact ⟨[], as, Group.alone fun _ _ => rfl, .inl ⟨fits_singleton.mpr rfl, _, _, rfl, rfl,
        trivial, Sends.one (read_chatParts encodeBase64 parts) (by simp [Carriage.carry])⟩⟩
    | functionCallOutput callId output =>
      exact ⟨[], as, Group.alone fun _ _ => rfl, .inl ⟨fits_singleton.mpr rfl, _, _, rfl, rfl,
        trivial, Sends.one (read_chatOutput callId output) (by simp [Carriage.carry])⟩⟩
    | reasoning item =>
      refine ⟨[], as, Group.alone fun _ _ => rfl, .inr ⟨fun h => ?_, rfl⟩⟩
      cases fits_singleton.mp h
    | functionCall callId name arguments opaqueContinuation =>
      have hgroup : Group chatJoins (.functionCall callId name arguments opaqueContinuation) as _ _ :=
        Group.leading InputItem.call?_eq_some as fun x hx y => by
          rcases hx with rfl | hcall
          · rfl
          · simp [chatJoins, hcall]
      refine ⟨_, _, hgroup, .inl ⟨fits_of_forall fun _ item hitem => ?_, _, _, rfl, rfl, trivial,
        Sends.one ?_ (by simp [Carriage.carry])⟩⟩
      · rcases List.mem_cons.mp hitem with rfl | hrun
        · rfl
        · obtain ⟨call, -, rfl⟩ := List.mem_map.mp hrun
          rfl
      · exact (read_chatCalls encodeBase64 _ (reasoning_empty _)).trans
          ((chatCarriage encodeBase64).carry_calls
            (⟨callId, name, arguments, opaqueContinuation⟩ :: (leading InputItem.call? as).1)).symm
  rcases walk_carries (fun done s a as hwhole _ => taken done s a as hwhole) []
    (List.nil_append input).symm trivial with
    ⟨hfits, messages, new, hwalk, -, hmessages, hcarries⟩ | ⟨hunfit, herror⟩
  · obtain rfl : messages = new := hmessages
    exact .inl ⟨hfits, messages, hwalk, hcarries⟩
  · exact .inr ⟨hunfit, herror⟩

/-! ## Anthropic Messages and Gemini -/

/-- Calls join with the calls and the assistant text before them, outputs with outputs. -/
def groupJoins (a b : InputItem) : Bool :=
  ((a.isAssistantText || a.call?.isSome) && b.call?.isSome) ||
    (a.output?.isSome && b.output?.isSome)

/-- A group of calls, after the text of the assistant that they follow if it is there. -/
theorem groupJoins_calls {a : InputItem} (h : a.isAssistantText ∨ a.call?.isSome)
    (as : List InputItem) :
    Group groupJoins a as ((leading InputItem.call? as).1.map InputItem.ofCall)
      (leading InputItem.call? as).2.items := by
  refine Group.leading InputItem.call?_eq_some as fun x hx y => ?_
  have hfirst : x.isAssistantText ∨ x.call?.isSome := by
    rcases hx with rfl | hcall
    · exact h
    · exact .inr hcall
  cases x <;> simp_all [groupJoins, InputItem.isAssistantText, InputItem.call?, InputItem.output?]

theorem groupJoins_outputs {a : InputItem} (h : a.output?.isSome) (as : List InputItem) :
    Group groupJoins a as ((leading InputItem.output? as).1.map InputItem.ofOutput)
      (leading InputItem.output? as).2.items := by
  refine Group.leading InputItem.output?_eq_some as fun x hx y => ?_
  have hfirst : x.output?.isSome := by
    rcases hx with rfl | houtput
    · exact h
    · exact houtput
  cases x <;> simp_all [groupJoins, InputItem.isAssistantText, InputItem.call?, InputItem.output?]

theorem groupJoins_alone {a : InputItem} (htext : a.isAssistantText = false)
    (hcall : a.call? = none) (houtput : a.output? = none) (as : List InputItem) :
    Group groupJoins a as [] as :=
  Group.alone fun b _ => by simp [groupJoins, htext, hcall, houtput]

/-- A part of a message as it is read. -/
inductive WirePiece
  | shown (part : ShownPart)
  | call (call : SpokenCall)
  | output (reference output : String)

namespace WirePiece

def shown? : WirePiece → Option ShownPart
  | shown part => some part
  | _ => none

def output? : WirePiece → Option Carried
  | output reference result => some (.output reference result)
  | _ => none

/-- A part of what the assistant says. -/
def spoken? : WirePiece → Option Carried
  | shown (.text text) => some (.text .assistant text)
  | call spoken => some (.call spoken)
  | _ => none

/-- The text of a message that is nothing else. -/
def text? : List WirePiece → Option Carried
  | [shown (.text text)] => some (.text .user text)
  | _ => none

end WirePiece

/-- A message of the user: outputs, a text, or shown parts. -/
def readUser (pieces : List WirePiece) : Option (List Carried) :=
  (pieces.mapM WirePiece.output?).or
    (((WirePiece.text? pieces).or ((pieces.mapM WirePiece.shown?).map (.parts .user))).map ([·]))

/-- A message of the assistant: texts and calls. -/
def readAssistant (pieces : List WirePiece) : Option (List Carried) :=
  pieces.mapM WirePiece.spoken?

/-- A message by the name of its role, for a protocol with two of them. -/
def readSpeaker (assistant user role : String) (pieces : Option (List WirePiece)) : List Carried :=
  (pieces.bind fun pieces =>
    if role = assistant then readAssistant pieces
    else if role = user then readUser pieces
    else none).getD []

section

variable {assistant user : String} {pieces : List WirePiece} {carried : List Carried}

theorem readSpeaker_assistant (h : readAssistant pieces = some carried) :
    readSpeaker assistant user assistant (some pieces) = carried := by
  simp [readSpeaker, h]

theorem readSpeaker_user (hroles : user ≠ assistant) (h : readUser pieces = some carried) :
    readSpeaker assistant user user (some pieces) = carried := by
  simp [readSpeaker, hroles, h]

theorem readUser_outputs {α : Type} (reference output : α → String) (as : List α) :
    readUser (as.map fun a => .output (reference a) (output a)) =
      some (as.map fun a => .output (reference a) (output a)) := by
  have houtputs : (as.map fun a => WirePiece.output (reference a) (output a)).mapM
      WirePiece.output? = some (as.map fun a => Carried.output (reference a) (output a)) := by
    refine mapM_sent ?_ as
    exact fun _ => rfl
  rw [readUser, houtputs]
  rfl

/-- Parts that show an image are no text and no outputs. -/
theorem readUser_parts {α : Type} {said : α → ShownPart} {as : List α} {mediaType : ImageMediaType}
    {data : String} (h : .image mediaType data ∈ as.map said) :
    readUser (as.map fun a => .shown (said a)) = some [.parts .user (as.map said)] := by
  have hshown : (as.map fun a => WirePiece.shown (said a)).mapM WirePiece.shown? =
      some (as.map said) := by
    refine mapM_sent ?_ as
    exact fun _ => rfl
  cases as with
  | nil => cases h
  | cons a rest =>
    have houtputs : ((a :: rest).map fun a => WirePiece.shown (said a)).mapM
        WirePiece.output? = none := by
      rw [List.map_cons, List.mapM_cons]
      rfl
    have htext : WirePiece.text? ((a :: rest).map fun a => WirePiece.shown (said a)) = none := by
      cases rest with
      | nil =>
        have hsaid := List.mem_singleton.mp h
        rw [List.map_singleton, ← hsaid]
        rfl
      | cons =>
        rw [List.map_cons]
        cases said a <;> rfl
    rw [readUser, houtputs, htext, hshown]
    rfl

theorem readAssistant_calls (call : FunctionCall → SpokenCall) (calls : List FunctionCall) :
    readAssistant (calls.map fun c => .call (call c)) = some (calls.map fun c => .call (call c)) := by
  refine mapM_sent ?_ calls
  exact fun _ => rfl

theorem readAssistant_text (text : String) (h : readAssistant pieces = some carried) :
    readAssistant (.shown (.text text) :: pieces) = some (.text .assistant text :: carried) := by
  rw [readAssistant] at h ⊢
  simp [h, WirePiece.spoken?]

end

/-- The texts of the developer, with a blank line between each two of them. -/
def developerPrefix (input : List InputItem) : Option String :=
  match input.filterMap InputItem.developerText? with
  | [] => none
  | texts => some ("\n\n".intercalate texts)

theorem joinParts_developer (input : List InputItem) :
    joinParts (input.filterMap InputItem.developerText?) = developerPrefix input := by
  unfold joinParts developerPrefix
  cases input.filterMap InputItem.developerText? <;> rfl

/-- Developer messages come before the conversation. -/
def ConversationFit (before : List InputItem) (item : InputItem) : Prop :=
  item.isReasoning = false ∧
    (item.isDeveloper = true → ∀ earlier ∈ before, earlier.isDeveloper = true)

/-- The developer messages so far, and whether there are others. -/
def Framed (done : List InputItem) (systemParts : List String) (sent : Bool) : Prop :=
  systemParts = done.filterMap InputItem.developerText? ∧
    (sent = false ↔ ∀ item ∈ done, item.isDeveloper = true)

theorem Framed.developer {done : List InputItem} {systemParts : List String} {text : String}
    {phase : Option MessagePhase} (h : Framed done systemParts false) :
    Framed (done ++ [.message .developer text phase]) (systemParts ++ [text]) false := by
  obtain ⟨hparts, hdone⟩ := h
  refine ⟨?_, iff_of_true rfl fun item hitem => ?_⟩
  · rw [List.filterMap_append, hparts]
    rfl
  · rcases List.mem_append.mp hitem with hbefore | hlast
    · exact hdone.mp rfl item hbefore
    · rw [List.mem_singleton.mp hlast]
      rfl

/-- An item that every protocol makes a message of. -/
def InputItem.Plain (item : InputItem) : Prop :=
  item.isDeveloper = false ∧ item.isReasoning = false

theorem InputItem.Plain.fits {item : InputItem} (h : item.Plain) (before : List InputItem) :
    ConversationFit before item := by
  refine ⟨h.2, fun hdeveloper => ?_⟩
  rw [h.1] at hdeveloper
  cases hdeveloper

/-- A group without developer messages is sent. -/
theorem Framed.group {done : List InputItem} {systemParts : List String} {sent : Bool}
    {a : InputItem} {run : List InputItem} (h : Framed done systemParts sent)
    (hgroup : ∀ item ∈ a :: run, item.Plain) : Framed (done ++ a :: run) systemParts true := by
  refine ⟨?_, ?_⟩
  · have hnone : (a :: run).filterMap InputItem.developerText? = [] := by
      refine List.filterMap_eq_nil_iff.mpr fun item hitem => ?_
      exact Option.not_isSome_iff_eq_none.mp (Bool.not_eq_true _ ▸ (hgroup item hitem).1)
    rw [List.filterMap_append, hnone, List.append_nil]
    exact h.1
  · refine iff_of_false (by decide) fun hall => ?_
    have := hall a (by simp)
    rw [(hgroup a (List.mem_cons_self ..)).1] at this
    cases this

/-- The end of an encoder: there is a message exactly when not all items are developer messages. -/
theorem Framed.settles {ω : Type} {Fit : List InputItem → InputItem → Prop} {read : ω → List Carried}
    {carry : InputItem → Option Carried} {input : List InputItem} {systemParts : List String}
    {messages : List ω} (hframed : Framed input systemParts !messages.isEmpty)
    (hfits : Fits Fit [] input) (hcarries : Carries groupJoins read carry input messages) :
    Settles (do
        require (!messages.isEmpty) .invalidRequest
        return (joinParts systemParts, messages))
      (Fits Fit [] input ∧ ∃ item ∈ input, item.isDeveloper = false)
      fun encoded => encoded.1 = developerPrefix input ∧
        Carries groupJoins read carry input encoded.2 := by
  cases hempty : messages.isEmpty with
  | true =>
    rw [hempty] at hframed
    refine .inr ⟨fun h => ?_, rfl⟩
    obtain ⟨item, hitem, hother⟩ := h.2
    rw [hframed.2.mp rfl item hitem] at hother
    cases hother
  | false =>
    rw [hempty] at hframed
    have hsome : ∃ item ∈ input, item.isDeveloper = false := by
      by_contra hnone
      push Not at hnone
      cases hframed.2.mpr fun item hitem => (Bool.not_eq_false _).mp (hnone item hitem)
    exact .inl ⟨⟨hfits, hsome⟩, _, rfl, by rw [hframed.1, joinParts_developer], hcarries⟩

/-- A message with parts that is admitted shows an image. -/
theorem shows_image {m : RequestModel} {role : MessageRole} {parts : List ContentPart}
    {phase : Option MessagePhase} (h : ItemAdmitted m (.multimodalMessage role parts phase)) :
    ∃ image, ContentPart.image image ∈ parts := by
  obtain ⟨shown, hshown⟩ := List.exists_mem_of_ne_nil _ h.2.2
  obtain ⟨part, hpart, himage⟩ := List.mem_filterMap.mp hshown
  cases part with
  | text text => cases himage
  | image shown => exact ⟨shown, hpart⟩

theorem plain_calls {a : InputItem} (h : a.Plain) (calls : List FunctionCall) :
    ∀ item ∈ a :: calls.map InputItem.ofCall, item.Plain := by
  refine List.forall_mem_cons.mpr ⟨h, fun item hitem => ?_⟩
  obtain ⟨call, -, rfl⟩ := List.mem_map.mp hitem
  exact ⟨rfl, rfl⟩

theorem plain_outputs {a : InputItem} (h : a.Plain) (outputs : List FunctionCallOutput) :
    ∀ item ∈ a :: outputs.map InputItem.ofOutput, item.Plain := by
  refine List.forall_mem_cons.mpr ⟨h, fun item hitem => ?_⟩
  obtain ⟨output, -, rfl⟩ := List.mem_map.mp hitem
  exact ⟨rfl, rfl⟩

/-- The arguments of every call parse. -/
def ArgumentsParse (codec : Codec) (calls : List FunctionCall) : Prop :=
  ∀ call ∈ calls, ∃ arguments, codec.parse (bytesOf call.arguments) = some arguments

theorem argumentsParse_cons {codec : Codec} {call : FunctionCall} {calls : List FunctionCall} :
    ArgumentsParse codec (call :: calls) ↔
      (∃ arguments, codec.parse (bytesOf call.arguments) = some arguments) ∧
        ArgumentsParse codec calls :=
  List.forall_mem_cons

/-- The calls of an input that is admitted have arguments that parse. -/
theorem leading_parses {m : RequestModel} {as : List InputItem}
    (hadmitted : ∀ item ∈ as, ItemAdmitted m item) :
    ArgumentsParse m.codec (leading InputItem.call? as).1 := by
  intro call hcall
  have hmem : InputItem.ofCall call ∈ as := by
    rw [(leading_append InputItem.call?_eq_some as).1]
    exact List.mem_append_left _ (List.mem_map_of_mem hcall)
  obtain ⟨-, -, -, arguments, hparse, -⟩ := hadmitted _ hmem
  exact ⟨arguments, hparse⟩

theorem call_parses {m : RequestModel} {call : FunctionCall} {as : List InputItem}
    (hitem : ItemAdmitted m (.ofCall call)) (hafter : ∀ item ∈ as, ItemAdmitted m item) :
    ArgumentsParse m.codec (call :: (leading InputItem.call? as).1) := by
  obtain ⟨-, -, -, value, hvalue, -⟩ := hitem
  exact argumentsParse_cons.mpr ⟨⟨value, hvalue⟩, leading_parses hafter⟩

/-! ## Anthropic Messages -/

def AnthropicWireContent.piece? : AnthropicWireContent → Option WirePiece
  | .text shown => some (.shown (.text shown))
  | .image mediaType data => (readImage mediaType data).map .shown
  | .toolUse id name input =>
    some (.call { id := some id, name := name, arguments := .value (some input) })
  | .toolResult toolUseId content => some (.output toolUseId content)

def AnthropicWireMessage.read (message : AnthropicWireMessage) : List Carried :=
  readSpeaker "assistant" "user" message.role (message.content.mapM AnthropicWireContent.piece?)

/-- A call with the value of its arguments. -/
def anthropicCall (codec : Codec) (call : FunctionCall) : SpokenCall where
  id := some call.callId
  name := call.name
  arguments := .value (codec.parse (bytesOf call.arguments))

def anthropicCarriage (codec : Codec) (encodeBase64 : List UInt8 → String) : Carriage where
  developer := false
  encodeBase64 := encodeBase64
  call := anthropicCall codec
  reference := id

theorem anthropicPart_read (codec : Codec) (encodeBase64 : List UInt8 → String)
    (part : ContentPart) : (anthropicPart encodeBase64 part).piece? =
      some (.shown ((anthropicCarriage codec encodeBase64).part part)) := by
  cases part with
  | text => rfl
  | image image => exact congrArg (Option.map _) (readImage_sent image.mediaType _)

theorem appendAnthropicToolUses_ok {codec : Codec} (content : List AnthropicWireContent)
    {calls : List FunctionCall} (hparse : ArgumentsParse codec calls) :
    ∃ uses, appendAnthropicToolUses codec content calls = .ok (content ++ uses) ∧
      uses.mapM AnthropicWireContent.piece? =
        some (calls.map fun call => .call (anthropicCall codec call)) := by
  induction calls generalizing content with
  | nil => exact ⟨[], by simp [appendAnthropicToolUses], rfl⟩
  | cons call rest ih =>
    obtain ⟨⟨arguments, harguments⟩, hlater⟩ := argumentsParse_cons.mp hparse
    obtain ⟨uses, hrest, hread⟩ :=
      ih (content ++ [.toolUse call.callId call.name arguments]) hlater
    refine ⟨.toolUse call.callId call.name arguments :: uses, ?_, ?_⟩
    · rw [appendAnthropicToolUses, sweep_cons_ok]
      refine ⟨_, by rw [appendAnthropicToolUse, harguments]; rfl, ?_⟩
      rw [← List.append_cons] at hrest
      exact hrest
    · simp [hread, AnthropicWireContent.piece?, anthropicCall, harguments]

section

variable {m : RequestModel} {encodeBase64 : List UInt8 → String} {done as run rest : List InputItem}
variable {s : AnthropicEncoding} {a : InputItem}

def AnthropicTaken (m : RequestModel) (encodeBase64 : List UInt8 → String) :
    List InputItem → AnthropicEncoding → InputItem → List InputItem → Prop :=
  Taken groupJoins ConversationFit (fun done s => Framed done s.systemParts !s.messages.isEmpty)
    (·.messages) AnthropicWireMessage.read (anthropicCarriage m.codec encodeBase64).carry
    (anthropicRound encodeBase64 m.codec) .invalidRequest

/-- A group that is sent as a message. -/
theorem AnthropicTaken.sent (hs : Framed done s.systemParts !s.messages.isEmpty)
    (hgroup : Group groupJoins a as run rest) (hplain : ∀ item ∈ a :: run, item.Plain)
    {message : AnthropicWireMessage} {left : Rest as}
    (hround : anthropicRound encodeBase64 m.codec s a as =
      .ok ({ s with messages := s.messages ++ [message] }, left)) (hleft : left.items = rest)
    (hread : message.read = (a :: run).filterMap (anthropicCarriage m.codec encodeBase64).carry)
    (hsome : message.read ≠ []) : AnthropicTaken m encodeBase64 done s a as := by
  have hfits : Fits ConversationFit done (a :: run) :=
    fits_of_forall fun before item hitem => (hplain item hitem).fits before
  have hsent : (s.messages ++ [message]).isEmpty = false := by simp
  refine ⟨run, rest, hgroup,
    .inl ⟨hfits, _, left, hround, hleft, ?_, Sends.one hread (hread ▸ hsome)⟩⟩
  change Framed (done ++ a :: run) s.systemParts !(s.messages ++ [message]).isEmpty
  rw [hsent]
  exact hs.group hplain

/-- A developer message joins those before it, and comes too late after others. -/
theorem AnthropicTaken.developer (hs : Framed done s.systemParts !s.messages.isEmpty) (text : String)
    (phase : Option MessagePhase) :
    AnthropicTaken m encodeBase64 done s (.message .developer text phase) as := by
  refine ⟨[], as, groupJoins_alone rfl rfl rfl as, ?_⟩
  cases hempty : s.messages.isEmpty with
  | true =>
    rw [hempty] at hs
    refine .inl ⟨fits_singleton.mpr ⟨rfl, fun _ => hs.2.mp rfl⟩,
      { s with systemParts := s.systemParts ++ [text] }, .all as, ?_, rfl, ?_, Sends.none rfl⟩
    · simp [anthropicRound, hempty, require, bind, Except.bind, pure, Except.pure]
    · simp only [hempty]
      exact hs.developer
  | false =>
    rw [hempty] at hs
    refine .inr ⟨fun h => ?_, ?_⟩
    · cases hs.2.mpr ((fits_singleton.mp h).2 rfl)
    · simp [anthropicRound, hempty, require, bind, Except.bind]

/-- A text of the assistant is sent with the calls that follow it. -/
theorem AnthropicTaken.assistant (hs : Framed done s.systemParts !s.messages.isEmpty)
    (hafter : ∀ item ∈ as, ItemAdmitted m item) (text : String) (phase : Option MessagePhase) :
    AnthropicTaken m encodeBase64 done s (.message .assistant text phase) as := by
  obtain ⟨uses, huses, hread⟩ := appendAnthropicToolUses_ok [.text text] (leading_parses hafter)
  have hmessage : (⟨"assistant", .text text :: uses⟩ : AnthropicWireMessage).read =
      (InputItem.message .assistant text phase ::
        (leading InputItem.call? as).1.map InputItem.ofCall).filterMap
          (anthropicCarriage m.codec encodeBase64).carry := by
    have hcalls := (anthropicCarriage m.codec encodeBase64).carry_calls
      (leading InputItem.call? as).1
    rw [AnthropicWireMessage.read, List.mapM_cons, hread]
    refine (readSpeaker_assistant (readAssistant_text text (readAssistant_calls _ _))).trans ?_
    exact congrArg (List.cons _) hcalls.symm
  refine .sent hs (groupJoins_calls (.inl rfl) as) (plain_calls ⟨rfl, rfl⟩ _) ?_ rfl hmessage
    (by rw [hmessage]; simp [Carriage.carry])
  simp [anthropicRound, huses, bind, Except.bind, pure, Except.pure]

theorem AnthropicTaken.parts (hs : Framed done s.systemParts !s.messages.isEmpty)
    {parts : List ContentPart} {phase : Option MessagePhase}
    (hitem : ItemAdmitted m (.multimodalMessage .user parts phase)) :
    AnthropicTaken m encodeBase64 done s (.multimodalMessage .user parts phase) as := by
  have hread : (⟨"user", parts.map (anthropicPart encodeBase64)⟩ : AnthropicWireMessage).read =
      [.parts .user (parts.map (anthropicCarriage m.codec encodeBase64).part)] := by
    obtain ⟨image, himage⟩ := shows_image hitem
    rw [AnthropicWireMessage.read, mapM_sent (anthropicPart_read m.codec encodeBase64)]
    exact readSpeaker_user (by decide) (readUser_parts (List.mem_map_of_mem himage))
  exact .sent hs (groupJoins_alone rfl rfl rfl as) (List.forall_mem_singleton.mpr ⟨rfl, rfl⟩) rfl
    rfl hread (by rw [hread]; simp)

/-- A call is sent with the calls that follow it. -/
theorem AnthropicTaken.call (hs : Framed done s.systemParts !s.messages.isEmpty) {call : FunctionCall}
    (hitem : ItemAdmitted m (.ofCall call)) (hafter : ∀ item ∈ as, ItemAdmitted m item) :
    AnthropicTaken m encodeBase64 done s (.ofCall call) as := by
  obtain ⟨uses, huses, hread⟩ := appendAnthropicToolUses_ok [] (call_parses hitem hafter)
  have hmessage : (⟨"assistant", uses⟩ : AnthropicWireMessage).read =
      (InputItem.ofCall call :: (leading InputItem.call? as).1.map InputItem.ofCall).filterMap
        (anthropicCarriage m.codec encodeBase64).carry := by
    rw [AnthropicWireMessage.read, hread, readSpeaker_assistant (readAssistant_calls _ _)]
    exact ((anthropicCarriage m.codec encodeBase64).carry_calls
      (call :: (leading InputItem.call? as).1)).symm
  refine .sent hs (groupJoins_calls (.inr rfl) as) (plain_calls ⟨rfl, rfl⟩ _) ?_ rfl hmessage
    (by rw [hmessage]; simp [InputItem.ofCall, Carriage.carry])
  simp [InputItem.ofCall, anthropicRound, huses, bind, Except.bind, pure, Except.pure]

/-- An output is sent with the outputs that follow it. -/
theorem AnthropicTaken.output (hs : Framed done s.systemParts !s.messages.isEmpty)
    (output : FunctionCallOutput) :
    AnthropicTaken m encodeBase64 done s (.ofOutput output) as := by
  have hsent (output : FunctionCallOutput) : AnthropicWireContent.piece?
      (.toolResult output.callId output.output) =
        some (.output output.callId output.output) := rfl
  have hmessage : (⟨"user", (output :: (leading InputItem.output? as).1).map
        fun (output : FunctionCallOutput) => .toolResult output.callId output.output⟩ :
        AnthropicWireMessage).read =
      (InputItem.ofOutput output ::
        (leading InputItem.output? as).1.map InputItem.ofOutput).filterMap
          (anthropicCarriage m.codec encodeBase64).carry := by
    rw [AnthropicWireMessage.read, mapM_sent hsent,
      readSpeaker_user (by decide) (readUser_outputs ..)]
    exact ((anthropicCarriage m.codec encodeBase64).carry_outputs
      (output :: (leading InputItem.output? as).1)).symm
  exact .sent hs (groupJoins_outputs rfl as) (plain_outputs ⟨rfl, rfl⟩ _) rfl rfl hmessage
    (by rw [hmessage]; simp [InputItem.ofOutput, Carriage.carry])

end

theorem anthropicMessages_settles {m : RequestModel} (encodeBase64 : List UInt8 → String)
    {input : List InputItem} (hadmitted : ∀ item ∈ input, ItemAdmitted m item) :
    Settles (anthropicMessages encodeBase64 m.codec input)
      (Fits ConversationFit [] input ∧ ∃ item ∈ input, item.isDeveloper = false)
      fun encoded => encoded.1 = developerPrefix input ∧
        Carries groupJoins AnthropicWireMessage.read (anthropicCarriage m.codec encodeBase64).carry
          input encoded.2 := by
  have taken (done : List InputItem) (s : AnthropicEncoding) (a : InputItem)
      (as : List InputItem) (hwhole : input = done ++ a :: as)
      (hs : Framed done s.systemParts !s.messages.isEmpty) :
      AnthropicTaken m encodeBase64 done s a as := by
    have hitem : ItemAdmitted m a := hadmitted a (by simp [hwhole])
    have hafter : ∀ item ∈ as, ItemAdmitted m item :=
      fun item hmem => hadmitted item (by simp [hwhole, hmem])
    cases a with
    | message role text phase =>
      cases role with
      | developer => exact .developer hs text phase
      | user =>
        exact .sent hs (groupJoins_alone rfl rfl rfl as)
          (List.forall_mem_singleton.mpr ⟨rfl, rfl⟩) rfl rfl rfl nofun
      | assistant => exact .assistant hs hafter text phase
    | multimodalMessage role parts phase =>
      obtain rfl : role = .user := hitem.1.1
      exact .parts hs hitem
    | functionCall callId name arguments opaqueContinuation =>
      have hcall : ItemAdmitted m (.ofCall ⟨callId, name, arguments, opaqueContinuation⟩) := hitem
      exact .call hs hcall hafter
    | functionCallOutput callId output => exact .output hs ⟨callId, output⟩
    | reasoning item =>
      refine ⟨[], as, groupJoins_alone rfl rfl rfl as, .inr ⟨fun h => ?_, rfl⟩⟩
      cases (fits_singleton.mp h).1
  have hstart : Framed [] ({} : AnthropicEncoding).systemParts
      !({} : AnthropicEncoding).messages.isEmpty := ⟨rfl, by simp⟩
  unfold anthropicMessages
  rcases walk_carries taken {} (List.nil_append input).symm hstart with
    ⟨hfits, t, new, hwalk, hframed, hmessages, hcarries⟩ | ⟨hunfit, herror⟩
  · obtain rfl : t.messages = new := hmessages
    rw [hwalk]
    exact hframed.settles hfits hcarries
  · refine .inr ⟨fun h => hunfit h.1, ?_⟩
    simp [herror, bind, Except.bind]

/-! ## Gemini -/

def GeminiWirePart.piece? : GeminiWirePart → Option WirePiece
  | .text shown => some (.shown (.text shown))
  | .inlineData mimeType data => (readImage mimeType data).map .shown
  | .functionCall name args thoughtSignature =>
    some (.call { name := name, arguments := .value (some args), continuation := thoughtSignature })
  | .functionResponse name bodyName content =>
    if name = bodyName then some (.output name content) else none

def GeminiWireContent.read (content : GeminiWireContent) : List Carried :=
  readSpeaker "model" "user" content.role (content.parts.mapM GeminiWirePart.piece?)

def callIds (items : List InputItem) : List String :=
  items.filterMap fun item => item.call?.map (·.callId)

/-- The name of the call with an identifier. -/
def nameOf (items : List InputItem) (callId : String) : Option String :=
  items.findSome? fun item =>
    item.call?.bind fun call => if call.callId = callId then some call.name else none

/-- A call has an identifier of its own, and an output the identifier of an earlier call. -/
def GeminiFit (before : List InputItem) (item : InputItem) : Prop :=
  ConversationFit before item ∧ (∀ call ∈ item.call?, call.callId ∉ callIds before) ∧
    ∀ output ∈ item.output?, output.callId ∈ callIds before

/-- A call without its identifier. -/
def geminiCall (codec : Codec) (call : FunctionCall) : SpokenCall where
  name := call.name
  arguments := .value (codec.parse (bytesOf call.arguments))
  continuation := call.opaqueContinuation

/-- Outputs are sent with the names of their calls. -/
def geminiCarriage (codec : Codec) (encodeBase64 : List UInt8 → String) (input : List InputItem) :
    Carriage where
  developer := false
  encodeBase64 := encodeBase64
  call := geminiCall codec
  reference callId := (nameOf input callId).getD ""

theorem geminiPart_read (codec : Codec) (encodeBase64 : List UInt8 → String)
    (input : List InputItem) (part : ContentPart) : (geminiPart encodeBase64 part).piece? =
      some (.shown ((geminiCarriage codec encodeBase64 input).part part)) := by
  cases part with
  | text => rfl
  | image image => exact congrArg (Option.map _) (readImage_sent image.mediaType _)

theorem geminiResponse_read (name content : String) :
    (GeminiWirePart.functionResponse name name content).piece? = some (.output name content) :=
  if_pos rfl

theorem nameOf_append (first later : List InputItem) (callId : String) :
    nameOf (first ++ later) callId = (nameOf first callId).or (nameOf later callId) :=
  List.findSome?_append

theorem callIds_append (first later : List InputItem) :
    callIds (first ++ later) = callIds first ++ callIds later :=
  List.filterMap_append

theorem nameOf_isSome {items : List InputItem} {callId : String} :
    (nameOf items callId).isSome ↔ callId ∈ callIds items := by
  induction items with
  | nil => simp [nameOf, callIds]
  | cons item rest ih =>
    rw [← List.singleton_append, nameOf_append, callIds_append, Option.isSome_or, Bool.or_eq_true,
      ih, List.mem_append]
    refine or_congr_left ?_
    cases hcall : item.call? with
    | none => simp [nameOf, callIds, hcall]
    | some call =>
      by_cases hid : call.callId = callId
      · simp [nameOf, callIds, hcall, hid]
      · simp [nameOf, callIds, hcall, hid, Ne.symm hid]

/-- The names kept are those of the calls so far. -/
def Named (done : List InputItem) (callNames : AList fun _ : String => String) : Prop :=
  ∀ callId, callNames.lookup callId = nameOf done callId

theorem Named.mem {done : List InputItem} {callNames : AList fun _ : String => String}
    (h : Named done callNames) {callId : String} : callId ∈ callNames ↔ callId ∈ callIds done := by
  rw [← AList.lookup_isSome, h callId, nameOf_isSome]

theorem Named.other {done more : List InputItem} {callNames : AList fun _ : String => String}
    (h : Named done callNames) (hmore : ∀ item ∈ more, item.call? = none) :
    Named (done ++ more) callNames := by
  intro callId
  have hnone : nameOf more callId = none := by
    rw [nameOf, List.findSome?_eq_none_iff]
    intro item hitem
    rw [hmore item hitem]
    rfl
  rw [nameOf_append, hnone, Option.or_none, h callId]

theorem Named.call {done : List InputItem} {callNames : AList fun _ : String => String}
    {call : FunctionCall} (h : Named done callNames) (hfresh : call.callId ∉ callIds done) :
    Named (done ++ [.ofCall call]) (callNames.insert call.callId call.name) := by
  intro callId
  rw [nameOf_append]
  by_cases hid : callId = call.callId
  · subst hid
    have hnone : nameOf done call.callId = none := by
      rw [← Option.not_isSome_iff_eq_none, nameOf_isSome]
      exact hfresh
    rw [AList.lookup_insert, hnone, Option.none_or]
    simp [nameOf, InputItem.ofCall, InputItem.call?]
  · have hother : nameOf [.ofCall call] callId = none := by
      simp [nameOf, InputItem.ofCall, InputItem.call?, Ne.symm hid]
    rw [AList.lookup_insert_ne hid, hother, Option.or_none, h callId]

theorem geminiFit_call {before : List InputItem} {call : FunctionCall} :
    GeminiFit before (.ofCall call) ↔ call.callId ∉ callIds before := by
  have hconversation : ConversationFit before (.ofCall call) := InputItem.Plain.fits ⟨rfl, rfl⟩ before
  rw [GeminiFit, and_iff_right hconversation]
  simp [InputItem.ofCall, InputItem.call?, InputItem.output?]

theorem geminiFit_output {before : List InputItem} {output : FunctionCallOutput} :
    GeminiFit before (.ofOutput output) ↔ output.callId ∈ callIds before := by
  have hconversation : ConversationFit before (.ofOutput output) :=
    InputItem.Plain.fits ⟨rfl, rfl⟩ before
  rw [GeminiFit, and_iff_right hconversation]
  simp [InputItem.ofOutput, InputItem.call?, InputItem.output?]

/-- The calls have been named and appended to the parts. -/
def CallsAppended (codec : Codec) (done : List InputItem) (parts : List GeminiWirePart)
    (calls : List FunctionCall) (s : GeminiCalls) : Prop :=
  Named (done ++ calls.map .ofCall) s.1 ∧ ∃ uses, s.2 = parts ++ uses ∧
    uses.mapM GeminiWirePart.piece? = some (calls.map fun call => .call (geminiCall codec call))

theorem appendGeminiFunctionCall_takes {codec : Codec} {done : List InputItem}
    {parts : List GeminiWirePart} {before : List FunctionCall} {s : GeminiCalls}
    {call : FunctionCall} {args : Json} (hargs : codec.parse (bytesOf call.arguments) = some args)
    (hs : CallsAppended codec done parts before s) :
    (GeminiFit (done ++ before.map .ofCall) (.ofCall call) ∧ ∃ t,
        appendGeminiFunctionCall codec s call = .ok t ∧
          CallsAppended codec done parts (before ++ [call]) t) ∨
      (¬ GeminiFit (done ++ before.map .ofCall) (.ofCall call) ∧
        appendGeminiFunctionCall codec s call = .error .invalidRequest) := by
  obtain ⟨hnamed, uses, huses, hread⟩ := hs
  rw [geminiFit_call, ← hnamed.mem]
  by_cases hknown : call.callId ∈ s.1
  case pos =>
    exact .inr ⟨not_not.mpr hknown, by simp [appendGeminiFunctionCall, hknown, require, bind,
      Except.bind]⟩
  case neg =>
    refine .inl ⟨hknown, (s.1.insert call.callId call.name,
      s.2 ++ [.functionCall call.name args call.opaqueContinuation]), ?_, ?_,
      uses ++ [.functionCall call.name args call.opaqueContinuation], ?_, ?_⟩
    · simp [appendGeminiFunctionCall, hknown, hargs, require, demand, bind, Except.bind, pure,
        Except.pure]
    · rw [List.map_append, ← List.append_assoc]
      exact hnamed.call (mt hnamed.mem.mpr hknown)
    · rw [huses, List.append_assoc]
    · simp [hread, GeminiWirePart.piece?, geminiCall, hargs]

theorem appendGeminiFunctionCalls_takes {codec : Codec} {done : List InputItem}
    {callNames : AList fun _ : String => String} (parts : List GeminiWirePart)
    {calls : List FunctionCall} (hparse : ArgumentsParse codec calls)
    (hnamed : Named done callNames) :
    (Fits GeminiFit done (calls.map .ofCall) ∧ ∃ t,
        appendGeminiFunctionCalls codec (callNames, parts) calls = .ok t ∧
          CallsAppended codec done parts calls t) ∨
      (¬ Fits GeminiFit done (calls.map .ofCall) ∧
        appendGeminiFunctionCalls codec (callNames, parts) calls = .error .invalidRequest) := by
  have hstart : CallsAppended codec done parts [] (callNames, parts) :=
    ⟨by simpa using hnamed, [], (List.append_nil parts).symm, rfl⟩
  rw [← fits_map]
  refine sweep_fits (fun before s call hcall hs => ?_) hstart
  obtain ⟨args, hargs⟩ := hparse call hcall
  exact appendGeminiFunctionCall_takes hargs hs

theorem callIds_outputs (done : List InputItem) (outputs : List FunctionCallOutput) :
    callIds (done ++ outputs.map .ofOutput) = callIds done := by
  have hnone : callIds (outputs.map .ofOutput) = [] := by
    simp [callIds, InputItem.ofOutput, InputItem.call?]
  rw [callIds_append, hnone, List.append_nil]

/-- Outputs that fit name calls before all of them. -/
theorem fits_outputs {done : List InputItem} {outputs : List FunctionCallOutput}
    (h : Fits GeminiFit done (outputs.map .ofOutput)) :
    ∀ output ∈ outputs, output.callId ∈ callIds done := by
  intro output houtput
  obtain ⟨before, after, rfl⟩ := List.mem_iff_append.mp houtput
  have hfit := fits_map.mpr h before output after rfl
  rwa [List.nil_append, geminiFit_output, callIds_outputs] at hfit

/-- The responses to outputs of calls that have been named. -/
theorem geminiResponses_takes {done : List InputItem} {callNames : AList fun _ : String => String}
    (hnamed : Named done callNames) (outputs : List FunctionCallOutput) :
    (Fits GeminiFit done (outputs.map .ofOutput) ∧
        sweep (appendGeminiResponse callNames) [] outputs =
          .ok (outputs.map fun output => .functionResponse ((nameOf done output.callId).getD "")
            ((nameOf done output.callId).getD "") output.output)) ∨
      (¬ Fits GeminiFit done (outputs.map .ofOutput) ∧
        sweep (appendGeminiResponse callNames) [] outputs = .error .invalidRequest) := by
  have round (before : List FunctionCallOutput) (parts : List GeminiWirePart)
      (output : FunctionCallOutput) (hparts : parts = before.map fun output =>
        .functionResponse ((nameOf done output.callId).getD "")
          ((nameOf done output.callId).getD "") output.output) :
      (GeminiFit (done ++ before.map .ofOutput) (.ofOutput output) ∧ ∃ t,
          appendGeminiResponse callNames parts output = .ok t ∧
            t = (before ++ [output]).map fun output =>
              .functionResponse ((nameOf done output.callId).getD "")
                ((nameOf done output.callId).getD "") output.output) ∨
        (¬ GeminiFit (done ++ before.map .ofOutput) (.ofOutput output) ∧
          appendGeminiResponse callNames parts output = .error .invalidRequest) := by
    rw [geminiFit_output, callIds_outputs, ← nameOf_isSome]
    cases hname : nameOf done output.callId with
    | none =>
      refine .inr ⟨by simp, ?_⟩
      simp [appendGeminiResponse, hnamed output.callId, hname, demand, bind, Except.bind]
    | some name =>
      refine .inl ⟨rfl, parts ++ [.functionResponse name name output.output], ?_, ?_⟩
      · simp [appendGeminiResponse, hnamed output.callId, hname, demand, bind, Except.bind, pure,
          Except.pure]
      · simp [hparts, hname]
  rw [← fits_map]
  rcases sweep_fits (fun before s output _ hs => round before s output hs) rfl with
    ⟨hfits, t, hsweep, rfl⟩ | hunfit
  · exact .inl ⟨hfits, hsweep⟩
  · exact .inr hunfit

section

variable {m : RequestModel} {encodeBase64 : List UInt8 → String}
variable {input done as run rest : List InputItem} {s : GeminiEncoding} {a : InputItem}

/-- The developer messages and the names of the calls so far. -/
def GeminiHolds (done : List InputItem) (s : GeminiEncoding) : Prop :=
  Framed done s.systemParts (!s.contents.isEmpty) ∧ Named done s.callNames

def GeminiTaken (m : RequestModel) (encodeBase64 : List UInt8 → String) (input : List InputItem) :
    List InputItem → GeminiEncoding → InputItem → List InputItem → Prop :=
  Taken groupJoins GeminiFit GeminiHolds (·.contents) GeminiWireContent.read
    (geminiCarriage m.codec encodeBase64 input).carry (geminiRound encodeBase64 m.codec)
    .invalidRequest

/-- A group that is sent as one content. -/
theorem GeminiTaken.sent (hs : GeminiHolds done s)
    (hgroup : Group groupJoins a as run rest) (hplain : ∀ item ∈ a :: run, item.Plain)
    (hfits : Fits GeminiFit done (a :: run)) {content : GeminiWireContent}
    {callNames : AList fun _ : String => String} (hnamed : Named (done ++ a :: run) callNames)
    {left : Rest as} (hround : geminiRound encodeBase64 m.codec s a as =
      .ok ({ s with contents := s.contents ++ [content], callNames := callNames }, left))
    (hleft : left.items = rest)
    (hread : content.read = (a :: run).filterMap (geminiCarriage m.codec encodeBase64 input).carry)
    (hsome : content.read ≠ []) : GeminiTaken m encodeBase64 input done s a as := by
  have hsent : (s.contents ++ [content]).isEmpty = false := by simp
  refine ⟨run, rest, hgroup,
    .inl ⟨hfits, _, left, hround, hleft, ⟨?_, hnamed⟩, Sends.one hread (hread ▸ hsome)⟩⟩
  change Framed (done ++ a :: run) s.systemParts !(s.contents ++ [content]).isEmpty
  rw [hsent]
  exact hs.1.group hplain

/-- A plain item that is neither a call nor an output, sent by itself. -/
theorem GeminiTaken.alone (hs : GeminiHolds done s) (hplain : a.Plain)
    (htext : a.isAssistantText = false) (hcall : a.call? = none) (houtput : a.output? = none)
    {content : GeminiWireContent} (hround : geminiRound encodeBase64 m.codec s a as =
      .ok ({ s with contents := s.contents ++ [content] }, .all as))
    (hread : content.read = [a].filterMap (geminiCarriage m.codec encodeBase64 input).carry)
    (hsome : content.read ≠ []) : GeminiTaken m encodeBase64 input done s a as := by
  have hfit : GeminiFit done a := by
    refine ⟨hplain.fits done, fun call h => ?_, fun output h => ?_⟩
    · rw [hcall] at h
      cases h
    · rw [houtput] at h
      cases h
  exact .sent hs (groupJoins_alone htext hcall houtput as) (by simpa using hplain)
    (fits_singleton.mpr hfit) (hs.2.other (by simpa using hcall)) hround rfl hread hsome

/-- A developer message joins those before it, and comes too late after others. -/
theorem GeminiTaken.developer (hs : GeminiHolds done s) (text : String)
    (phase : Option MessagePhase) :
    GeminiTaken m encodeBase64 input done s (.message .developer text phase) as := by
  refine ⟨[], as, groupJoins_alone rfl rfl rfl as, ?_⟩
  obtain ⟨hframed, hnamed⟩ := hs
  cases hempty : s.contents.isEmpty with
  | true =>
    rw [hempty] at hframed
    refine .inl ⟨fits_singleton.mpr ⟨⟨rfl, fun _ => hframed.2.mp rfl⟩, nofun, nofun⟩,
      { s with systemParts := s.systemParts ++ [text] }, .all as, ?_, rfl, ⟨?_, ?_⟩,
      Sends.none rfl⟩
    · simp [geminiRound, hempty, require, bind, Except.bind, pure, Except.pure]
    · simp only [hempty]
      exact hframed.developer
    · exact hnamed.other (by simp [InputItem.call?])
  | false =>
    rw [hempty] at hframed
    refine .inr ⟨fun h => ?_, ?_⟩
    · cases hframed.2.mpr ((fits_singleton.mp h).1.2 rfl)
    · simp [geminiRound, hempty, require, bind, Except.bind]

/-- A text of the assistant is sent with the calls that follow it. -/
theorem GeminiTaken.assistant (hs : GeminiHolds done s)
    (hafter : ∀ item ∈ as, ItemAdmitted m item) (text : String) (phase : Option MessagePhase) :
    GeminiTaken m encodeBase64 input done s (.message .assistant text phase) as := by
  have hfit : GeminiFit done (.message .assistant text phase) :=
    ⟨InputItem.Plain.fits ⟨rfl, rfl⟩ done, nofun, nofun⟩
  have hnamed : Named (done ++ [.message .assistant text phase]) s.callNames :=
    hs.2.other (by simp [InputItem.call?])
  rcases appendGeminiFunctionCalls_takes [.text text] (leading_parses hafter) hnamed with
    ⟨hfits, ⟨kept, parts⟩, hround, hkept, uses, huses, hread⟩ | ⟨hunfit, herror⟩
  · have hcalls := (geminiCarriage m.codec encodeBase64 input).carry_calls
      (leading InputItem.call? as).1
    have hmessage : (⟨"model", parts⟩ : GeminiWireContent).read =
        (InputItem.message .assistant text phase ::
          (leading InputItem.call? as).1.map InputItem.ofCall).filterMap
            (geminiCarriage m.codec encodeBase64 input).carry := by
      obtain rfl : parts = .text text :: uses := huses
      rw [GeminiWireContent.read, List.mapM_cons, hread]
      refine (readSpeaker_assistant (readAssistant_text text (readAssistant_calls _ _))).trans ?_
      exact congrArg (List.cons _) hcalls.symm
    rw [List.append_assoc] at hkept
    refine .sent hs (groupJoins_calls (.inl rfl) as) (plain_calls ⟨rfl, rfl⟩ _)
      (fits_cons.mpr ⟨hfit, hfits⟩) hkept ?_ rfl hmessage (by rw [hmessage]; simp [Carriage.carry])
    simp [geminiRound, hround, bind, Except.bind, pure, Except.pure]
  · refine ⟨_, _, groupJoins_calls (.inl rfl) as, .inr ⟨fun h => hunfit (fits_cons.mp h).2, ?_⟩⟩
    simp [geminiRound, herror, bind, Except.bind]

theorem GeminiTaken.parts (hs : GeminiHolds done s) {parts : List ContentPart}
    {phase : Option MessagePhase} (hitem : ItemAdmitted m (.multimodalMessage .user parts phase)) :
    GeminiTaken m encodeBase64 input done s (.multimodalMessage .user parts phase) as := by
  have hread : (⟨"user", parts.map (geminiPart encodeBase64)⟩ : GeminiWireContent).read =
      [.parts .user (parts.map (geminiCarriage m.codec encodeBase64 input).part)] := by
    obtain ⟨image, himage⟩ := shows_image hitem
    rw [GeminiWireContent.read, mapM_sent (geminiPart_read m.codec encodeBase64 input)]
    exact readSpeaker_user (by decide) (readUser_parts (List.mem_map_of_mem himage))
  exact .alone hs ⟨rfl, rfl⟩ rfl rfl rfl rfl hread (by rw [hread]; simp)

/-- A call is sent with the calls that follow it, unless one of them repeats an identifier. -/
theorem GeminiTaken.call (hs : GeminiHolds done s) {call : FunctionCall}
    (hitem : ItemAdmitted m (.ofCall call)) (hafter : ∀ item ∈ as, ItemAdmitted m item) :
    GeminiTaken m encodeBase64 input done s (.ofCall call) as := by
  rcases appendGeminiFunctionCalls_takes [] (call_parses hitem hafter) hs.2 with
    ⟨hfits, ⟨kept, parts⟩, hround, hkept, uses, huses, hread⟩ | ⟨hunfit, herror⟩
  · have hmessage : (⟨"model", parts⟩ : GeminiWireContent).read =
        (InputItem.ofCall call :: (leading InputItem.call? as).1.map InputItem.ofCall).filterMap
          (geminiCarriage m.codec encodeBase64 input).carry := by
      obtain rfl : parts = uses := huses
      rw [GeminiWireContent.read, hread, readSpeaker_assistant (readAssistant_calls _ _)]
      exact ((geminiCarriage m.codec encodeBase64 input).carry_calls
        (call :: (leading InputItem.call? as).1)).symm
    refine .sent hs (groupJoins_calls (.inr rfl) as) (plain_calls ⟨rfl, rfl⟩ _) hfits hkept ?_
      rfl hmessage (by rw [hmessage]; simp [InputItem.ofCall, Carriage.carry])
    simp [InputItem.ofCall, geminiRound, hround, bind, Except.bind, pure, Except.pure]
  · refine ⟨_, _, groupJoins_calls (.inr rfl) as, .inr ⟨hunfit, ?_⟩⟩
    simp [InputItem.ofCall, geminiRound, herror, bind, Except.bind]

/-- An output is sent with the outputs that follow it, each under the name of an earlier call. -/
theorem GeminiTaken.output (hs : GeminiHolds done s) (output : FunctionCallOutput)
    (hwhole : input = done ++ .ofOutput output :: as) :
    GeminiTaken m encodeBase64 input done s (.ofOutput output) as := by
  let outputs : List FunctionCallOutput := output :: (leading InputItem.output? as).1
  rcases geminiResponses_takes hs.2 outputs with ⟨hfits, hround⟩ | ⟨hunfit, herror⟩
  · have hnames : ∀ output ∈ outputs,
        nameOf done output.callId = nameOf input output.callId := by
      intro output houtput
      have hsome := nameOf_isSome.mpr (fits_outputs hfits output houtput)
      rw [hwhole, nameOf_append, Option.or_of_isSome hsome]
    have hmessage : (⟨"user", outputs.map fun output => .functionResponse
            ((nameOf done output.callId).getD "") ((nameOf done output.callId).getD "")
            output.output⟩ : GeminiWireContent).read =
        (outputs.map InputItem.ofOutput).filterMap
          (geminiCarriage m.codec encodeBase64 input).carry := by
      rw [GeminiWireContent.read, mapM_sent fun _ => geminiResponse_read ..,
        readSpeaker_user (by decide) (readUser_outputs ..), Carriage.carry_outputs]
      refine List.map_congr_left fun output houtput => ?_
      rw [hnames output houtput]
      rfl
    refine .sent hs (groupJoins_outputs rfl as) (plain_outputs ⟨rfl, rfl⟩ _) hfits
      (hs.2.other ?_) ?_ rfl hmessage (by rw [hmessage, Carriage.carry_outputs]; simp [outputs])
    · refine List.forall_mem_cons.mpr ⟨rfl, fun item hitem => ?_⟩
      obtain ⟨output, -, rfl⟩ := List.mem_map.mp hitem
      rfl
    · simp [InputItem.ofOutput, geminiRound, outputs] at hround ⊢
      simp [hround]
  · refine ⟨_, _, groupJoins_outputs rfl as, .inr ⟨hunfit, ?_⟩⟩
    simp [InputItem.ofOutput, geminiRound, outputs] at herror ⊢
    simp [herror]

end

theorem geminiContents_settles {m : RequestModel} (encodeBase64 : List UInt8 → String)
    {input : List InputItem} (hadmitted : ∀ item ∈ input, ItemAdmitted m item) :
    Settles (geminiContents encodeBase64 m.codec input)
      (Fits GeminiFit [] input ∧ ∃ item ∈ input, item.isDeveloper = false)
      fun encoded => encoded.1 = developerPrefix input ∧
        Carries groupJoins GeminiWireContent.read (geminiCarriage m.codec encodeBase64 input).carry
          input encoded.2 := by
  have taken (done : List InputItem) (s : GeminiEncoding) (a : InputItem)
      (as : List InputItem) (hwhole : input = done ++ a :: as) (hs : GeminiHolds done s) :
      GeminiTaken m encodeBase64 input done s a as := by
    have hitem : ItemAdmitted m a := hadmitted a (by simp [hwhole])
    have hafter : ∀ item ∈ as, ItemAdmitted m item :=
      fun item hmem => hadmitted item (by simp [hwhole, hmem])
    cases a with
    | message role text phase =>
      cases role with
      | developer => exact .developer hs text phase
      | user => exact .alone hs ⟨rfl, rfl⟩ rfl rfl rfl rfl rfl nofun
      | assistant => exact .assistant hs hafter text phase
    | multimodalMessage role parts phase =>
      obtain rfl : role = .user := hitem.1.1
      exact .parts hs hitem
    | functionCall callId name arguments opaqueContinuation =>
      have hcall : ItemAdmitted m (.ofCall ⟨callId, name, arguments, opaqueContinuation⟩) := hitem
      exact .call hs hcall hafter
    | functionCallOutput callId output => exact .output hs ⟨callId, output⟩ hwhole
    | reasoning item =>
      refine ⟨[], as, groupJoins_alone rfl rfl rfl as, .inr ⟨fun h => ?_, rfl⟩⟩
      cases (fits_singleton.mp h).1.1
  have hstart : GeminiHolds [] {} := ⟨⟨rfl, by simp⟩, fun callId => by simp [nameOf]⟩
  unfold geminiContents
  rcases walk_carries taken {} (List.nil_append input).symm hstart with
    ⟨hfits, t, new, hwalk, ⟨hframed, -⟩, hmessages, hcarries⟩ | ⟨hunfit, herror⟩
  · obtain rfl : t.contents = new := hmessages
    rw [hwalk]
    exact hframed.settles hfits hcarries
  · refine .inr ⟨fun h => hunfit h.1, ?_⟩
    simp [herror, bind, Except.bind]

/-! ## The three encoders -/

theorem Settles.imp {α : Type} {result : Except ProviderError α} {encodable : Prop}
    {good better : α → Prop} (h : Settles result encodable good) (himp : ∀ a, good a → better a) :
    Settles result encodable better := by
  rcases h with ⟨hencodable, a, hresult, hgood⟩ | herror
  · exact .inl ⟨hencodable, a, hresult, himp a hgood⟩
  · exact .inr herror

/-- An input that is admitted is sent as messages that say what it says, in its order and
grouped, or refused exactly when an item of it does not fit. -/
theorem conversation_carried {m : RequestModel} {input : List InputItem} {bytes : Nat}
    (hvalid : validateInput m input = .ok bytes) (encodeBase64 : List UInt8 → String)
    (requiresReasoningContent : Bool) :
    Settles (chatMessages encodeBase64 input requiresReasoningContent) (Fits ChatFit [] input)
      (fun messages =>
        messages.flatMap ChatWireMessage.read = input.filterMap (chatCarriage encodeBase64).carry ∧
        Carries chatJoins ChatWireMessage.read (chatCarriage encodeBase64).carry input messages) ∧
    Settles (anthropicMessages encodeBase64 m.codec input)
      (Fits ConversationFit [] input ∧ ∃ item ∈ input, item.isDeveloper = false)
      (fun (system, messages) => system = developerPrefix input ∧
        messages.flatMap AnthropicWireMessage.read =
          input.filterMap (anthropicCarriage m.codec encodeBase64).carry ∧
        Carries groupJoins AnthropicWireMessage.read (anthropicCarriage m.codec encodeBase64).carry
          input messages) ∧
    Settles (geminiContents encodeBase64 m.codec input)
      (Fits GeminiFit [] input ∧ ∃ item ∈ input, item.isDeveloper = false)
      (fun (system, contents) => system = developerPrefix input ∧
        contents.flatMap GeminiWireContent.read =
          input.filterMap (geminiCarriage m.codec encodeBase64 input).carry ∧
        Carries groupJoins GeminiWireContent.read
          (geminiCarriage m.codec encodeBase64 input).carry input contents) := by
  obtain ⟨-, hadmitted, -, -⟩ := validateInput_ok.mp hvalid
  refine ⟨?_, ?_, ?_⟩
  · exact (chatMessages_settles encodeBase64 requiresReasoningContent hadmitted).imp
      fun messages h => ⟨h.flatten, h⟩
  · exact (anthropicMessages_settles encodeBase64 hadmitted).imp
      fun _ h => ⟨h.1, h.2.flatten, h.2⟩
  · exact (geminiContents_settles encodeBase64 hadmitted).imp
      fun _ h => ⟨h.1, h.2.flatten, h.2⟩

/-- A model whose codec knows the text of an empty object. -/
def textModel : RequestModel where
  codec := {
    parse := fun bytes => if bytes = bytesOf "\x7b\x7d" then some (.object []) else none
    encode := fun _ => "\x7b\x7d"
    costText := fun _ => false
    callDigest := fun _ _ => "" }
  normalizedImage := fun _ => false
  protocol := .chatCompletions
  capabilities := ⟨false, false⟩

/-- Two calls that have been answered. -/
def answeredCalls : List InputItem :=
  [.message .developer "Be brief." none, .message .user "Look." none,
    .message .assistant "Looking." none, .functionCall "call_1" "read" "\x7b\x7d" none,
    .functionCall "call_2" "list" "\x7b\x7d" none, .functionCallOutput "call_1" "one",
    .functionCallOutput "call_2" "two"]

theorem answeredCalls_carried :
    validateInput textModel answeredCalls = .ok 64 ∧
    Settles (chatMessages (fun _ => "") answeredCalls false) (Fits ChatFit [] answeredCalls)
      (fun messages =>
        messages.flatMap ChatWireMessage.read =
          [.text .developer "Be brief.", .text .user "Look.", .text .assistant "Looking.",
            .call { id := some "call_1", name := "read", arguments := .text "\x7b\x7d" },
            .call { id := some "call_2", name := "list", arguments := .text "\x7b\x7d" },
            .output "call_1" "one", .output "call_2" "two"] ∧
        Carries chatJoins ChatWireMessage.read (chatCarriage fun _ => "").carry answeredCalls
          messages) ∧
    Settles (geminiContents (fun _ => "") textModel.codec answeredCalls)
      (Fits GeminiFit [] answeredCalls ∧ ∃ item ∈ answeredCalls, item.isDeveloper = false)
      (fun (system, contents) => system = some "Be brief." ∧
        contents.flatMap GeminiWireContent.read =
          [.text .user "Look.", .text .assistant "Looking.",
            .call { name := "read", arguments := .value (some (.object [])) },
            .call { name := "list", arguments := .value (some (.object [])) },
            .output "read" "one", .output "list" "two"] ∧
        Carries groupJoins GeminiWireContent.read
          (geminiCarriage textModel.codec (fun _ => "") answeredCalls).carry answeredCalls
          contents) := by
  have hvalid : validateInput textModel answeredCalls = .ok 64 := by decide +kernel
  obtain ⟨hchat, -, hgemini⟩ := conversation_carried hvalid (fun _ => "") false
  refine ⟨hvalid, hchat, hgemini.imp fun _ ⟨hsystem, hflat, hcarries⟩ => ⟨hsystem, hflat.trans ?_,
    hcarries⟩⟩
  simp [answeredCalls, Carriage.carry, geminiCarriage, geminiCall, nameOf, InputItem.call?, textModel]

/-- Chat Completions sends the outputs one by one, and none of them as a user message. -/
theorem outputs_apart :
    validateInput textModel answeredCalls = .ok 64 ∧
    ∃ messages, chatMessages (fun _ => "") answeredCalls false = .ok messages ∧
      messages.map (·.role) = ["system", "user", "assistant", "assistant", "tool", "tool"] ∧
      ¬ Carries (fun a b => chatJoins a b || (a.output?.isSome && b.output?.isSome))
        ChatWireMessage.read (chatCarriage fun _ => "").carry answeredCalls messages := by
  refine ⟨by decide +kernel, _, by
    simp [chatMessages, answeredCalls, walk, chatRound, leading, Rest.all, InputItem.call?, bind,
      Except.bind]
    rfl, rfl, fun h => ?_⟩
  have hcount := congrArg List.length h
  revert hcount
  decide +kernel

end Morons.Provider
