import Morons.Run.Context

/-!
# The two ends of a session subscription

The server keeps the run that is active and the run that ended last to decide
which transient events it sends; the client keeps its own copies to decide
which events it takes.
-/

namespace Morons.Events

/-- The bytes of a session and a sequence, the highest first. -/
structure EventCursor where
  sessionId : SessionId
  sequence : Nat
  deriving DecidableEq

/-- `next.as_bytes() <= cursor.as_bytes()`. -/
def EventCursor.notAfter (next cursor : EventCursor) : Bool :=
  decide (next.sessionId < cursor.sessionId) ||
    (decide (next.sessionId = cursor.sessionId) && decide (next.sequence ≤ cursor.sequence))

structure RunSummary where
  id : RunId
  sessionId : SessionId
  state : RunState
  service : RunService
  failure : Option RunFailureKind
  deriving DecidableEq

inductive TranscriptEntry
  | userMessage (text : String) (attachments : List ImageAttachment)
  /-- The other entries, of which the client checks nothing. -/
  | other
  deriving DecidableEq

inductive ApplicationEvent
  | transcriptEntryCommitted (cursor : EventCursor) (sessionId : SessionId) (entry : TranscriptEntry)
  | runChanged (cursor : EventCursor) (run : RunSummary)
  | localCommandChanged (cursor : EventCursor) (sessionId : SessionId) (commandId : LocalCommandId)
      (active : Bool)
  | compactionActivity (sessionId : SessionId) (runId : RunId) (active : Bool)
  | nativeResponseDiagnostic (sessionId : SessionId) (runId : RunId)
  | assistantDelta (sessionId : SessionId) (runId : RunId) (sequence : Nat) (delta : String)
      (refusal : Bool)
  /-- The events of the catalog. -/
  | sessionCreated | sessionChanged | sessionRemoved
  deriving DecidableEq

structure AssistantDelta where
  sessionId : SessionId
  runId : RunId
  sequence : Nat
  delta : String
  refusal : Bool
  deriving DecidableEq

structure NativeResponseDiagnostic where
  sessionId : SessionId
  runId : RunId
  deriving DecidableEq

/-- The run failed because of what the ChatGPT service answered. -/
def nativeProtocolFailed (run : RunSummary) : Bool :=
  decide (run.state = .failed) && decide (run.service = .openAiChatGpt) &&
    decide (run.failure = some .providerProtocol)

/-! ## Durable events -/

inductive SessionEventPayload
  | transcriptEntry (entry : TranscriptEntry)
  | runChanged (run : RunSummary)
  | localCommandChanged (commandId : LocalCommandId) (active : Bool)
  | workspaceChanged
  deriving DecidableEq

structure SessionEvent where
  sequence : Nat
  payload : SessionEventPayload
  deriving DecidableEq

structure DeliveredSessionEvent where
  cursor : EventCursor
  event : Option ApplicationEvent
  deriving DecidableEq

def sessionReplayPageSize : Nat := 8

/-- The images of a message event are checked when it is read. -/
def SessionEvent.readable (e : SessionEvent) : Bool :=
  match e.payload with
  | .transcriptEntry (.userMessage text attachments) => validStoredAttachments text attachments
  | _ => true

def SessionEvent.deliver (sessionId : SessionId) (e : SessionEvent) : DeliveredSessionEvent :=
  let cursor : EventCursor := ⟨sessionId, e.sequence⟩
  ⟨cursor, match e.payload with
    | .transcriptEntry entry => some (.transcriptEntryCommitted cursor sessionId entry)
    | .runChanged run => some (.runChanged cursor run)
    | .localCommandChanged commandId active =>
      some (.localCommandChanged cursor sessionId commandId active)
    | .workspaceChanged => none⟩

/-- The events after a sequence. -/
def eventsAfter (sequence : Nat) (history : List SessionEvent) : List SessionEvent :=
  history.filter fun e => decide (sequence < e.sequence)

/-- A page of the events after the cursor, unless the cursor is ahead of the
events or one of them is not readable. -/
def readSessionEvents (history : List SessionEvent) (highWater : Nat) (sessionId : SessionId)
    (cursor : EventCursor) : Option (List DeliveredSessionEvent) :=
  let records := (eventsAfter cursor.sequence history).take sessionReplayPageSize
  if cursor.sessionId = sessionId ∧ cursor.sequence ≤ highWater ∧
      records.all SessionEvent.readable then
    some (records.map (SessionEvent.deliver sessionId))
  else none

/-! ## The server -/

structure SessionSubscription where
  sessionId : SessionId
  cursor : EventCursor
  nativeProtocolFailure : Bool := false
  activeRun : Option RunId := none
  terminalRun : Option RunId := none
  deriving DecidableEq

namespace SessionSubscription

def advance (s : SessionSubscription) (event : DeliveredSessionEvent) : SessionSubscription :=
  let s := { s with cursor := event.cursor }
  match event.event with
  | some (.runChanged _ run) =>
    let s := { s with nativeProtocolFailure := nativeProtocolFailed run }
    if run.state.isTerminal then
      { s with
        activeRun := if s.activeRun = some run.id then none else s.activeRun
        terminalRun := some run.id }
    else { s with activeRun := some run.id, terminalRun := none }
  | _ => s

def acceptsCompaction (s : SessionSubscription) (run : RunId) : Bool :=
  decide (s.terminalRun ≠ some run) && s.activeRun.all fun active => decide (active = run)

def acceptsNativeDiagnostic (s : SessionSubscription) (diagnostic : NativeResponseDiagnostic) :
    Bool :=
  decide (diagnostic.sessionId = s.sessionId) && s.nativeProtocolFailure && s.activeRun.isNone &&
    decide (s.terminalRun = some diagnostic.runId)

def acceptsDelta (s : SessionSubscription) (delta : AssistantDelta) : SessionSubscription × Bool :=
  if delta.sessionId ≠ s.sessionId ∨ s.terminalRun = some delta.runId ∨
      (s.activeRun.any fun run => decide (run ≠ delta.runId)) then (s, false)
  else ({ s with activeRun := some delta.runId }, true)

end SessionSubscription

/-! ## The client -/

variable {text : String} {attachments : List ImageAttachment}

/-- `valid_image_attachments`, from the end of the last marker and the bytes so far. -/
def validImageAttachmentsFrom (text : String) : Nat → Nat → List ImageAttachment → Bool
  | _, _, [] => true
  | lastEnd, aggregateBytes, a :: rest =>
    let name := a.displayName.toList
    (decide (a.id ≠ (0, 0)) && !a.displayName.isEmpty &&
      decide (a.displayName.utf8ByteSize ≤ maxImageDisplayNameBytes) &&
      !(name.any fun c => isControl c || isBidirectionalControl c || c = '/' || c = '\\' ||
        c = '[' || c = ']') &&
      decide (0 < a.width) && decide (0 < a.height) && decide (a.width ≤ maxImageDimension) &&
      decide (a.height ≤ maxImageDimension) && decide (0 < a.bytes) &&
      decide (a.bytes ≤ maxNormalizedImageBytes) &&
      decide (aggregateBytes + a.bytes ≤ maxImageAttachmentAggregateBytes) &&
      decide (lastEnd ≤ a.markerStart) && markerAt text a.displayName a.markerStart) &&
    validImageAttachmentsFrom text (a.markerStart + ("[" ++ a.displayName ++ "]").utf8ByteSize)
      (aggregateBytes + a.bytes) rest

def validImageAttachments (text : String) (attachments : List ImageAttachment) : Bool :=
  decide (attachments.length ≤ maxImageAttachmentsPerMessage) &&
    decide (attachments.map (·.id)).Nodup && decide (attachments.map (·.displayName)).Nodup &&
    validImageAttachmentsFrom text 0 0 attachments

theorem validImageAttachmentsFrom_stored {lastEnd bytes : Nat}
    (hvalid : ∀ a ∈ attachments, validImage a.displayName a.width a.height a.bytes = true)
    (hids : ∀ a ∈ attachments, a.id ≠ (0, 0))
    (hmarkers : markersInOrder text lastEnd
      (attachments.map fun a => (a.displayName, a.markerStart)) = true)
    (hbytes : bytes + (attachments.map (·.bytes)).sum ≤ maxImageAttachmentAggregateBytes) :
    validImageAttachmentsFrom text lastEnd bytes attachments = true := by
  induction attachments generalizing lastEnd bytes with
  | nil => rfl
  | cons a rest ih =>
    have hfirst := hvalid a (List.mem_cons_self ..)
    simp only [validImage, validDisplayName, Bool.and_eq_true, decide_eq_true_eq,
      Bool.not_eq_true'] at hfirst
    obtain ⟨⟨⟨⟨⟨⟨⟨⟨⟨⟨⟨hname, hsize⟩, -⟩, -⟩, hcontrol⟩, hplain⟩, hwidth⟩, hheight⟩, hwide⟩, hhigh⟩,
      hempty⟩, hlarge⟩ := hfirst
    simp only [List.map_cons, markersInOrder, Bool.and_eq_true, decide_eq_true_eq] at hmarkers
    obtain ⟨⟨hstart, hat⟩, hrest⟩ := hmarkers
    rw [List.map_cons, List.sum_cons] at hbytes
    have hroom : bytes + a.bytes + (rest.map (·.bytes)).sum ≤ maxImageAttachmentAggregateBytes := by
      omega
    have htail := ih (fun b hb => hvalid b (List.mem_cons_of_mem _ hb))
      (fun b hb => hids b (List.mem_cons_of_mem _ hb)) hrest hroom
    have hcharacters : (a.displayName.toList.any fun c => isControl c ||
        isBidirectionalControl c || c = '/' || c = '\\' || c = '[' || c = ']') = false := by
      rw [List.any_eq_false] at hcontrol hplain ⊢
      intro c hc
      have hc₁ := hcontrol c hc
      have hc₂ := hplain c hc
      simp only [Bool.or_eq_true, decide_eq_true_eq, not_or] at hc₁ hc₂ ⊢
      exact ⟨⟨⟨⟨hc₁, hc₂.1.1.1⟩, hc₂.1.1.2⟩, hc₂.1.2⟩, hc₂.2⟩
    rw [validImageAttachmentsFrom, Bool.and_eq_true]
    refine ⟨?_, htail⟩
    simp only [Bool.and_eq_true, decide_eq_true_eq, Bool.not_eq_true', hcharacters, hat]
    have hid := hids a (List.mem_cons_self ..)
    refine ⟨⟨⟨⟨⟨⟨⟨⟨⟨⟨⟨⟨hid, hname⟩, hsize⟩, ?_⟩, ?_⟩, ?_⟩, ?_⟩, ?_⟩, ?_⟩, ?_⟩, ?_⟩, ?_⟩, ?_⟩ <;>
      first | trivial | omega

/-- The client takes the images that the server reads. -/
theorem validImageAttachments_stored (h : validStoredAttachments text attachments = true) :
    validImageAttachments text attachments = true := by
  simp only [validStoredAttachments, Bool.and_eq_true, decide_eq_true_eq, List.all_eq_true] at h
  obtain ⟨⟨⟨⟨⟨⟨hlength, hvalid⟩, hids⟩, hdistinct⟩, hnames⟩, hmarkers⟩, hbytes⟩ := h
  simp only [validImageAttachments, Bool.and_eq_true, decide_eq_true_eq]
  exact ⟨⟨⟨hlength, hdistinct⟩, hnames⟩,
    validImageAttachmentsFrom_stored hvalid hids hmarkers (by omega)⟩

def TranscriptEntry.valid : TranscriptEntry → Bool
  | .userMessage text attachments => validImageAttachments text attachments
  | .other => true

inductive ApplicationClientError
  | eventScopeMismatch | eventCursorNotMonotonic
  deriving DecidableEq

structure ClientSubscription where
  sessionId : SessionId
  cursor : EventCursor
  activeDeltaRun : Option RunId := none
  terminalDeltaRun : Option RunId := none
  nativeFailureRun : Option RunId := none
  deltaSequence : Nat := 0
  usable : Bool := true
  deriving DecidableEq

namespace ClientSubscription

/-- The client with the error that it returns, if there is one. -/
abbrev Verdict := ClientSubscription × Option ApplicationClientError

def ok (c : ClientSubscription) : Verdict := (c, none)

def reject (c : ClientSubscription) (error : ApplicationClientError) : Verdict :=
  ({ c with usable := false }, some error)

def advanceCursor (c : ClientSubscription) (next : EventCursor) : Verdict :=
  if next.sessionId ≠ c.sessionId then c.reject .eventScopeMismatch
  else if next.notAfter c.cursor then c.reject .eventCursorNotMonotonic
  else ok { c with cursor := next }

/-- The run event, once its cursor is taken. -/
def validateRun (c : ClientSubscription) (run : RunSummary) : Verdict :=
  if run.state.isTerminal then
    if c.activeDeltaRun.any fun active => decide (active ≠ run.id) then
      c.reject .eventScopeMismatch
    else
      ok { c with
        activeDeltaRun := none
        deltaSequence := if c.activeDeltaRun = some run.id then 0 else c.deltaSequence
        nativeFailureRun :=
          if c.terminalDeltaRun ≠ some run.id then
            if nativeProtocolFailed run then some run.id else none
          else c.nativeFailureRun
        terminalDeltaRun := some run.id }
  else
    let c := { c with nativeFailureRun := none }
    if c.terminalDeltaRun = some run.id then c.reject .eventScopeMismatch
    else
      match c.activeDeltaRun with
      | none => ok { c with activeDeltaRun := some run.id, terminalDeltaRun := none }
      | some active => if active = run.id then ok c else c.reject .eventScopeMismatch

def validateDelta (c : ClientSubscription) (runId : RunId) (sequence : Nat) : Verdict :=
  if sequence ≤ c.deltaSequence then
    ({ c with activeDeltaRun := some runId, usable := false }, some .eventCursorNotMonotonic)
  else ok { c with activeDeltaRun := some runId, deltaSequence := sequence }

def validateEvent (c : ClientSubscription) : ApplicationEvent → Verdict
  | .transcriptEntryCommitted cursor sessionId entry =>
    if sessionId ≠ c.sessionId ∨ entry.valid = false then c.reject .eventScopeMismatch
    else c.advanceCursor cursor
  | .runChanged cursor run =>
    if run.sessionId ≠ c.sessionId then c.reject .eventScopeMismatch
    else
      match c.advanceCursor cursor with
      | (c, none) => c.validateRun run
      | (c, some error) => (c, some error)
  | .localCommandChanged cursor sessionId _ _ =>
    if sessionId ≠ c.sessionId then c.reject .eventScopeMismatch else c.advanceCursor cursor
  | .compactionActivity sessionId runId active =>
    if sessionId ≠ c.sessionId ∨ (c.activeDeltaRun.any fun run => decide (run ≠ runId)) ∨
        (active ∧ c.terminalDeltaRun = some runId) then c.reject .eventScopeMismatch
    else ok c
  | .nativeResponseDiagnostic sessionId runId =>
    if sessionId ≠ c.sessionId ∨ c.nativeFailureRun ≠ some runId ∨
        c.terminalDeltaRun ≠ some runId ∨ c.activeDeltaRun.isSome then
      c.reject .eventScopeMismatch
    else ok { c with nativeFailureRun := none }
  | .assistantDelta sessionId runId sequence _ _ =>
    if sessionId ≠ c.sessionId ∨ c.terminalDeltaRun = some runId then c.reject .eventScopeMismatch
    else if c.activeDeltaRun.any fun active => decide (active ≠ runId) then
      c.reject .eventScopeMismatch
    else c.validateDelta runId sequence
  | .sessionCreated | .sessionChanged | .sessionRemoved => c.reject .eventScopeMismatch

end ClientSubscription

/-! ## Rejections -/

namespace ClientSubscription

/-- The client stays usable exactly when it takes the event. -/
def Kept (c : ClientSubscription) (verdict : Verdict) : Prop :=
  verdict.1.usable = true ↔ c.usable = true ∧ verdict.2 = none

variable {c : ClientSubscription}

theorem kept_ok {c' : ClientSubscription} (h : c'.usable = c.usable) : c.Kept (ok c') := by
  simp [Kept, ok, h]

theorem kept_reject {c' : ClientSubscription} (error : ApplicationClientError) :
    c.Kept (c'.reject error) := by
  simp [Kept, reject]

theorem advanceCursor_kept (next : EventCursor) : c.Kept (c.advanceCursor next) := by
  unfold advanceCursor
  split
  · exact kept_reject _
  split
  · exact kept_reject _
  · exact kept_ok rfl

theorem validateRun_kept (run : RunSummary) : c.Kept (c.validateRun run) := by
  unfold validateRun
  split
  · split
    · exact kept_reject _
    · exact kept_ok rfl
  · simp only
    split
    · exact kept_reject _
    split
    · exact kept_ok rfl
    split
    · exact kept_ok rfl
    · exact kept_reject _

theorem validateEvent_kept (event : ApplicationEvent) : c.Kept (c.validateEvent event) := by
  cases event with
  | transcriptEntryCommitted cursor sessionId entry =>
    rw [validateEvent]
    split
    · exact kept_reject _
    · exact advanceCursor_kept _
  | runChanged cursor run =>
    rw [validateEvent]
    split
    · exact kept_reject _
    have hcursor := advanceCursor_kept (c := c) cursor
    split
    · rename_i c' htaken
      rw [htaken] at hcursor
      have hrun := validateRun_kept (c := c') run
      simp only [Kept, and_true] at hcursor hrun ⊢
      rw [hrun, hcursor]
    · rename_i c' error htaken
      rw [htaken] at hcursor
      exact hcursor
  | localCommandChanged cursor sessionId commandId active =>
    rw [validateEvent]
    split
    · exact kept_reject _
    · exact advanceCursor_kept _
  | compactionActivity sessionId runId active =>
    rw [validateEvent]
    split
    · exact kept_reject _
    · exact kept_ok rfl
  | nativeResponseDiagnostic sessionId runId =>
    rw [validateEvent]
    split
    · exact kept_reject _
    · exact kept_ok rfl
  | assistantDelta sessionId runId sequence delta refusal =>
    rw [validateEvent]
    split
    · exact kept_reject _
    split
    · exact kept_reject _
    unfold validateDelta
    split
    · simp [Kept]
    · exact kept_ok rfl
  | sessionCreated | sessionChanged | sessionRemoved => exact kept_reject _

end ClientSubscription

end Morons.Events
