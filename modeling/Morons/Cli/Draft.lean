import Morons.Cli.Represents

/-!
# Draft images

The images of a message are kept next to its prompt, in the order in which they
were added; where each stands is looked up by its name.  `submitAction` reads
both when the message is submitted.
-/

namespace Morons.Cli

open Utf8

def maxDraftImages : Nat := 4
def maxDraftImageBytes : Nat := 6 * 1024 * 1024

/-- `while name.len() > bytes { name.pop(); }`. -/
def popTo (bytes : Nat) : List Char → List Char
  | [] => []
  | c :: cs => if c.utf8Size ≤ bytes then c :: popTo (bytes - c.utf8Size) cs else []

/-! ## Names -/

/-- `ImageMediaType::extension`. -/
def imageExtension : ImageMediaType → List Char
  | .png => "png".toList
  | .jpeg => "jpg".toList
  | .gif => "gif".toList

structure NormalizedImage where
  mediaType : ImageMediaType
  width : Nat
  height : Nat
  bytes : List UInt8
  deriving DecidableEq

def sanitizeImageName (value : List Char) : List Char :=
  let name := popTo maxImageDisplayNameBytes <| value.map fun c =>
    if isControl c || isBidirectionalControl c || c = '/' || c = '\\' || c = '[' || c = ']' then '_'
    else c
  if name = [] ∨ name = ['.'] ∨ name = ['.', '.'] then [] else name

/-- `base.rsplit_once('.')`. -/
def rsplitOnce (base : List Char) : List Char × Option (List Char) :=
  if '.' ∈ base then
    ((base.reverse.dropWhile (· ≠ '.')).tail.reverse,
      some (base.reverse.takeWhile (· ≠ '.')).reverse)
  else (base, none)

/-- The name with a number, which is one of the digits 2 to 5. -/
def numberedName (base : List Char) (digit : Char) : List Char :=
  let (stem, extension) := rsplitOnce base
  let suffix := [' ', '(', digit, ')']
  let extensionBytes := (extension.map fun e => size e + 1).getD 0
  let maximumStem := maxImageDisplayNameBytes - size suffix - extensionBytes
  let boundedStem := popTo maximumStem stem
  sanitizeImageName (boundedStem ++ suffix ++ (extension.map ('.' :: ·)).getD [])

def uniqueImageName (base : List Char) (existing : List (List Char)) : Option (List Char) :=
  if base ∉ existing then some base
  else ((['2', '3', '4', '5'] : List Char).map (numberedName base)).find? fun candidate =>
    decide (candidate ∉ existing)

/-! ## The state -/

inductive View
  | sessions | session
  deriving DecidableEq

inductive PendingOperation
  | createSession | selectModel | updateSettings | submitInput | renameSession | archiveSession
  | deleteSession | executeLocalCommand | cancelRun | cancelLocalCommand | updateCredential
  | stopServer
  deriving DecidableEq

structure SessionView where
  id : SessionId
  archived : Bool
  activeRunId : Option RunId
  activeCommandId : Option LocalCommandId
  newerCursor : Option Nat
  deferredNewerOutput : Bool
  skills : List (List Char)
  deriving DecidableEq

def SessionView.isHistoricalWindow (session : SessionView) : Bool :=
  session.newerCursor.isSome || session.deferredNewerOutput

inductive ModelTrainingUse
  | notUsed | mayUsePromptsAndCompletions | notDocumented
  deriving DecidableEq

inductive ModelRetention
  | none | upToThirtyDays | notZeroDataRetention | notDocumented
  deriving DecidableEq

structure PresentedModel where
  service : RunService
  id : String
  imageInput : Bool
  trainingUse : ModelTrainingUse
  retention : ModelRetention
  deriving DecidableEq

structure DataUsePolicy where
  blockTrainingUse : Bool
  requireZeroRetention : Bool
  deriving DecidableEq

/-- Which dialogs are open. -/
structure Dialogs where
  credential : Bool := false
  auth : Bool := false
  model : Bool := false
  settings : Bool := false
  information : Bool := false
  rename : Bool := false
  confirmStop : Bool := false
  confirmDelete : Bool := false
  deriving DecidableEq

structure ImageUpload where
  displayName : List Char
  markerStart : Nat
  data : List UInt8
  deriving DecidableEq

structure DraftImage where
  upload : ImageUpload
  normalizedBytes : Nat
  deriving DecidableEq

structure AppState where
  view : View := .sessions
  session : Option SessionView := none
  prompt : PromptBuffer := {}
  draftImages : List DraftImage := []
  pending : Option PendingOperation := none
  pendingUnknown : Bool := false
  dialogs : Dialogs := {}
  selectedModel : Option PresentedModel := none
  dataUse : Option DataUsePolicy := none
  transcriptPageLoading : Bool := false
  skillCompletionIndex : Nat := 0
  deriving DecidableEq

/-- What the runtime has to do for a key. -/
inductive AppAction
  | none
  | loadSettings
  | showContext (sessionId : SessionId) (service : RunService) (modelId : String)
  | executeLocalCommand (sessionId : SessionId) (command : List Char) (contextVisible : Bool)
  | submitInput (sessionId : SessionId) (text : List Char) (attachments : List ImageUpload)
      (service : RunService) (modelId : String)
  deriving DecidableEq

namespace AppState

/-- The names of the draft images. -/
def draftNames (s : AppState) : List (List Char) := s.draftImages.map (·.upload.displayName)

def modelPolicyBlocked (s : AppState) (model : PresentedModel) : Bool :=
  s.dataUse.any fun policy =>
    (policy.blockTrainingUse && decide (model.trainingUse ≠ .notUsed)) ||
      (policy.requireZeroRetention && decide (model.retention ≠ .none))

/-! ## Skills -/

def resetSkillCompletion (s : AppState) : AppState := { s with skillCompletionIndex := 0 }

def skillCompletion (s : AppState) : Option (List (List Char) × Nat) := do
  let token ← s.prompt.skillCompletionPrefix
  let session ← s.session
  let found := session.skills.filter token.isPrefixOf
  if found.isEmpty then none else some (found, min s.skillCompletionIndex (found.length - 1))

def cycleSkillCompletion (s : AppState) (reverse : Bool) : AppState × Bool :=
  match s.skillCompletion with
  | none => (s, false)
  | some (found, selected) =>
    let index := if reverse then (if selected = 0 then found.length - 1 else selected - 1)
      else (selected + 1) % found.length
    ({ s with skillCompletionIndex := index }, true)

def completeSelectedSkill (s : AppState) : AppState :=
  match s.skillCompletion with
  | none => s
  | some (found, selected) =>
    let (prompt, completed) := s.prompt.completeSkill (found.getD selected [])
    { s with prompt, skillCompletionIndex := if completed then 0 else s.skillCompletionIndex }

/-! ## Images -/

def acceptsImageInput (s : AppState) : Bool :=
  s.view = .session && s.pending.isNone && !s.dialogs.credential && !s.dialogs.auth &&
    !s.dialogs.model && !s.dialogs.settings && !s.dialogs.confirmStop

def draftLimitReached (s : AppState) (image : NormalizedImage) : Bool :=
  decide (maxDraftImages ≤ s.draftImages.length) ||
    decide (maxDraftImageBytes <
      (s.draftImages.map (·.normalizedBytes)).sum + image.bytes.length)

/-- `pasted-image-{count + 1}.{extension}`, where the count is below four. -/
def pastedName (count : Nat) (extension : List Char) : List Char :=
  "pasted-image-".toList ++ Nat.toDigits 10 (count + 1) ++ '.' :: extension

def baseName (s : AppState) (image : NormalizedImage) (suggestedName : Option (List Char)) :
    List Char :=
  ((suggestedName.map sanitizeImageName).filter (· ≠ [])).getD
    (pastedName s.draftImages.length (imageExtension image.mediaType))

def addDraftImage (s : AppState) (image : NormalizedImage) (suggestedName : Option (List Char)) :
    AppState :=
  if !s.acceptsImageInput then s
  else if s.draftLimitReached image then s
  else
    match uniqueImageName (s.baseName image suggestedName) s.draftNames with
    | none => s
    | some displayName =>
      match s.prompt.pushImageMarker displayName with
      | none => s
      | some (prompt, markerStart) =>
        { s with
          prompt
          draftImages := s.draftImages ++
            [⟨⟨displayName, markerStart, image.bytes⟩, image.bytes.length⟩]
          skillCompletionIndex := 0 }

def backspacePrompt (s : AppState) : AppState :=
  let prompt := s.prompt.backspace
  { s with
    prompt
    draftImages := s.draftImages.filter fun image =>
      (prompt.markerStart image.upload.displayName).isSome
    skillCompletionIndex := 0 }

def imageUploads (s : AppState) : List ImageUpload :=
  s.draftImages.filterMap fun image =>
    (s.prompt.markerStart image.upload.displayName).map fun markerStart =>
      { image.upload with markerStart }

/-! ## Submission -/

/-- `str::trim_start`. -/
def trimStart (cs : List Char) : List Char := cs.dropWhile isWhitespace

/-- `str::trim`. -/
def trim (cs : List Char) : List Char := (trimStart (trimStart cs).reverse).reverse

/-- `prompt.strip_prefix(word)`. -/
def strip (word prompt : List Char) : Option (List Char) :=
  if word.isPrefixOf prompt then some (prompt.drop word.length) else none

def modelSearch (prompt : List Char) : Option (List Char) :=
  if prompt = "/model".toList then some []
  else (strip "/model ".toList prompt).map trim

def manualCompactionGuidance (prompt : List Char) : Option (Option (List Char)) :=
  if prompt = "/compact".toList then some none
  else (((strip "/compact ".toList prompt).map trim).filter (· ≠ [])).map some

/-- The message, when the selected model takes it. -/
def submitMessage (s : AppState) (session : SessionView) : AppAction :=
  match s.selectedModel with
  | none => .none
  | some model =>
    if s.modelPolicyBlocked model then .none
    else if !s.draftImages.isEmpty && !model.imageInput then .none
    else .submitInput session.id s.prompt.text s.imageUploads model.service model.id

/-- The commands of the prompt, which start with `!` or `/compact`. -/
def submitWork (s : AppState) (session : SessionView) : AppAction :=
  let prompt := s.prompt.text
  if session.isHistoricalWindow then .none
  else if session.archived then .none
  else if session.activeRunId.isSome || session.activeCommandId.isSome then .none
  else if !s.draftImages.isEmpty &&
      (prompt.head? = some '!' || (manualCompactionGuidance prompt).isSome) then .none
  else
    match strip ['!', '!'] prompt with
    | some command =>
      if trimStart command = [] then .none
      else .executeLocalCommand session.id (trimStart command) false
    | none =>
      match strip ['!'] prompt with
      | some command =>
        if trimStart command = [] then .none
        else .executeLocalCommand session.id (trimStart command) true
      | none =>
        if (strip "/compact".toList prompt).isSome && (manualCompactionGuidance prompt).isNone then
          .none
        else s.submitMessage session

def submitAction (s : AppState) : AppState × AppAction :=
  if s.transcriptPageLoading then (s, .none)
  else if s.prompt.text = [] then (s, .none)
  else
    match s.session with
    | none => (s, .none)
    | some session =>
      let prompt := s.prompt.text
      if prompt = "/help".toList then
        ({ s with prompt := s.prompt.clear, dialogs := { s.dialogs with information := true } },
          .none)
      else if prompt = "/login".toList ∨ prompt = "/logout".toList then
        ({ s with prompt := s.prompt.clear, dialogs := { s.dialogs with auth := true } }, .none)
      else if prompt = "/settings".toList then
        ({ s with prompt := s.prompt.clear, dialogs := { s.dialogs with settings := true } },
          .loadSettings)
      else if (modelSearch prompt).isSome then
        ({ s with prompt := s.prompt.clear, dialogs := { s.dialogs with model := true } }, .none)
      else if prompt = "/context".toList then
        match s.selectedModel with
        | none => (s, .none)
        | some model => (s, .showContext session.id model.service model.id)
      else (s, s.submitWork session)

/-! ## Keys and events -/

inductive Key
  | tab | backTab | up | down | left | right | backspace | newline | enter
  | character (c : Char)
  deriving DecidableEq

/-- No dialog takes the keys before the session view does. -/
def sessionKeys (s : AppState) : Bool :=
  s.view = .session && s.dialogs = {} && !s.pendingUnknown

def edit (s : AppState) (prompt : PromptBuffer) : AppState :=
  if s.pending.isNone then { s with prompt, skillCompletionIndex := 0 } else s

def handleSessionKey (s : AppState) : Key → AppState × AppAction
  | .tab => (s.completeSelectedSkill, .none)
  | .backTab => ((s.cycleSkillCompletion true).1, .none)
  | .up =>
    match s.cycleSkillCompletion true with
    | (s', true) => (s', .none)
    | (_, false) => (s.edit (s.prompt.moveVertical false), .none)
  | .down =>
    match s.cycleSkillCompletion false with
    | (s', true) => (s', .none)
    | (_, false) => (s.edit (s.prompt.moveVertical true), .none)
  | .left => (s.edit s.prompt.moveLeft, .none)
  | .right => (s.edit s.prompt.moveRight, .none)
  | .backspace => (if s.pending.isNone then s.backspacePrompt else s, .none)
  | .newline => (s.edit (s.prompt.pushCharacter '\n').1, .none)
  | .enter => if s.pending.isNone then s.submitAction else (s, .none)
  | .character c => (s.edit (s.prompt.pushCharacter c).1, .none)

def handlePaste (s : AppState) (paste : List Char) : AppState :=
  if s.dialogs.auth || s.dialogs.model || s.dialogs.settings || s.dialogs.rename ||
      s.dialogs.credential then s
  else if s.view = .session && s.pending.isNone && !s.dialogs.confirmStop &&
      !s.dialogs.confirmDelete then
    { s with prompt := s.prompt.pushPaste paste, skillCompletionIndex := 0 }
  else s

def openSession (s : AppState) (session : SessionView) : AppState :=
  { s with
    view := .session
    session := some session
    prompt := s.prompt.clear
    draftImages := []
    transcriptPageLoading := false
    skillCompletionIndex := 0 }

def closeSession (s : AppState) : AppState :=
  { s with
    view := .sessions
    session := none
    prompt := s.prompt.clear
    draftImages := []
    dialogs := { s.dialogs with model := false, settings := false }
    pending := none
    pendingUnknown := false
    transcriptPageLoading := false
    skillCompletionIndex := 0 }

def sessionInputAccepted (s : AppState) : AppState :=
  { s with
    prompt := s.prompt.clear
    draftImages := []
    pending := none
    pendingUnknown := false
    skillCompletionIndex := 0 }

/-- The images stay.  `recorded` says that the entries of the session show the command already. -/
def localCommandAccepted (s : AppState) (sessionId : SessionId) (commandId : LocalCommandId)
    (recorded : Bool) : AppState :=
  { s with
    prompt := s.prompt.clear
    pending := none
    pendingUnknown := false
    skillCompletionIndex := 0
    session := s.session.map fun session =>
      if session.id = sessionId && !recorded then { session with activeCommandId := some commandId }
      else session }

def contextStatusLoaded (s : AppState) : AppState :=
  if s.prompt.text = "/context".toList then
    { s with prompt := s.prompt.clear, dialogs := { s.dialogs with information := true } }
  else s

/-- What the prompt and its images see. -/
inductive Action
  | key (key : Key)
  | paste (paste : List Char)
  | image (image : NormalizedImage) (suggestedName : Option (List Char))
  | openSession (session : SessionView)
  | closeSession
  | sessionInputAccepted
  | localCommandAccepted (sessionId : SessionId) (commandId : LocalCommandId) (recorded : Bool)
  | contextStatusLoaded
  /-- Everything else, which leaves the prompt and its images as they are. -/
  | other (rest : AppState)

def apply (s : AppState) : Action → AppState × AppAction
  | .key key => if s.sessionKeys then s.handleSessionKey key else (s, .none)
  | .paste paste => (s.handlePaste paste, .none)
  | .image image suggestedName => (s.addDraftImage image suggestedName, .none)
  | .openSession session => (s.openSession session, .none)
  | .closeSession => (s.closeSession, .none)
  | .sessionInputAccepted => (s.sessionInputAccepted, .none)
  | .localCommandAccepted sessionId commandId recorded =>
    (s.localCommandAccepted sessionId commandId recorded, .none)
  | .contextStatusLoaded => (s.contextStatusLoaded, .none)
  | .other rest => ({ rest with prompt := s.prompt, draftImages := s.draftImages }, .none)

end AppState

end Morons.Cli
