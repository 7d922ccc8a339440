import Morons.Library.Paging
import Morons.Run.Compaction
import Morons.Run.Context

/-!
# The entries of a context

The transcript of a session as it is read for a context: the entries of its
runs and its finished commands in the order of their places, page by page.
A prefix of the transcript whose rows can be read is visited entry by entry,
wherever its pages end.
-/

namespace Morons.ContextHistory

open Attempt

inductive LocalCommandStatus
  | succeeded | failed | interrupted | uncertain
  deriving DecidableEq

inductive TranscriptBody
  | userMessage (runId : RunId) (text : String) (attachments : List ImageAttachment)
  | assistantMessage (runId : RunId) (service : RunService) (modelId text : String)
      (refusal : Bool) (phase : AssistantMessagePhase)
  | toolCall (runId : RunId) (callId : ToolCallId) (operationId : ToolOperationId)
      (providerOperationId : ProviderOperationId) (input : ToolInput)
  | toolResult (runId : RunId) (callId : ToolCallId) (operationId : ToolOperationId)
      (tool : ToolKind) (result : ToolResult)
  | localCommand (commandId : LocalCommandId) (command : String) (contextVisible : Bool)
      (status : LocalCommandStatus) (exitCode : Option Int) (signal : Option Nat)
      (stdout stderr : String)
  deriving DecidableEq

structure TranscriptEntry where
  entrySequence : Nat
  id : MessageId
  body : TranscriptBody
  createdAtMilliseconds : Nat
  deriving DecidableEq

/-! ## Rows -/

/-- A row of `session_entries` or of `local_commands`. -/
inductive TranscriptRow
  | entry (e : SessionEntry)
  | command (c : LocalCommand)
  deriving DecidableEq

def TranscriptRow.isEntry : TranscriptRow → Bool
  | .entry _ => true
  | .command _ => false

def TranscriptRow.place : TranscriptRow → Nat
  | .entry e => e.entrySequence
  | .command c => c.entrySequence.getD 0

/-- The joined row of `tool_calls`. -/
def callOf (s : Store) (callId : ToolCallId) : Except PersistenceError ToolCall :=
  demand (.sqlite "tool_identifier") (Table.find ToolCall.callId callId s.toolCalls)

/-- The payload of the joined row of `tool_operation_facts`. -/
def resultOf (s : Store) (callId : ToolCallId) : Except PersistenceError ToolResult :=
  demand (.sqlite "tool_result_payload")
    ((s.toolOperationFacts.find? fun f => f.callId = callId && f.factKind.isTerminal).bind (·.result))

def transcriptBodyFromRow (s : Store) (runId : RunId) :
    EntryBody → Except PersistenceError TranscriptBody
  | .user text => return .userMessage runId text []
  | .assistant service modelId text refusal phase =>
    return .assistantMessage runId service modelId text refusal phase
  | .toolCall _ _ callId => do
    let call ← callOf s callId
    return .toolCall runId callId call.operationId call.providerOperationId call.input
  | .toolResult callId => do
    let call ← callOf s callId
    let result ← resultOf s callId
    return .toolResult runId callId call.operationId call.input.kind result

def transcriptEntryFromRow (s : Store) (e : SessionEntry) :
    Except PersistenceError TranscriptEntry := do
  let body ← transcriptBodyFromRow s e.runId e.body
  return ⟨e.entrySequence, e.messageId, body, e.createdAtMilliseconds⟩

def commandStatus : ToolResult → LocalCommandStatus
  | .ok _ => .succeeded
  | .error .uncertain _ => .uncertain
  | .error .notDispatched _ | .error .interrupted _ | .error .cancelled _
  | .error .outputLimit _ | .error .timedOut _ | .error .inactivityTimeout _ => .interrupted
  | .error _ _ => .failed

def commandOutput : ToolResult → Option ToolOutput
  | .ok output => some output
  | .error _ output => output

/-- The exit code, the signal and the streams of an output. -/
def commandStreams : Option ToolOutput → Option (Option Int × Option Nat × String × String)
  | some (.bash exitCode signal stdout stderr) => some (exitCode, signal, stdout, stderr)
  | some (.encoded ..) => none
  | none => some (none, none, "", "")

def commandResultFields (result : ToolResult) :
    Option (LocalCommandStatus × Option Int × Option Nat × String × String) :=
  if validateCanonicalBashResult result then
    (commandStreams (commandOutput result)).map fun streams => (commandStatus result, streams)
  else none

def localCommandEntryFromRow (c : LocalCommand) : Except PersistenceError TranscriptEntry := do
  let result ← demand (.sqlite "result_payload") c.result
  let (status, exitCode, signal, stdout, stderr) ←
    demand (.sqlite "result_payload") (commandResultFields result)
  let entrySequence ← demand (.sqlite "entry_sequence") c.entrySequence
  let id ← demand (.sqlite "message_id") c.messageId
  return ⟨entrySequence, id, .localCommand c.commandId c.commandText c.contextVisible status exitCode
    signal stdout stderr, c.updatedAtMilliseconds⟩

def decodeRow (s : Store) : TranscriptRow → Except PersistenceError TranscriptEntry
  | .entry e => transcriptEntryFromRow s e
  | .command c => localCommandEntryFromRow c

def attachImageMetadata (s : Store) (sessionId : SessionId) (entry : TranscriptEntry) :
    Except PersistenceError TranscriptEntry :=
  match entry.body with
  | .userMessage runId text _ => do
    let loaded := loadMessageImageAttachments s sessionId entry.id
    require (validStoredAttachments text loaded)
      (.invalidState "user message image attachment metadata is invalid")
    return { entry with body := .userMessage runId text loaded }
  | _ => return entry

/-! ## Pages -/

def pageEntries : Nat := 32

def sessionEventHighWater (s : Store) (sessionId : SessionId) : Nat :=
  Ledger.greatest DeliveryEvent.eventSequence
    (s.deliveryEvents.filter fun e => e.sessionId = sessionId)

def inRange (after through n : Nat) : Bool := decide (after < n) && decide (n ≤ through)

def entryRows (s : Store) (sessionId : SessionId) (after through : Nat) : List TranscriptRow :=
  (s.sessionEntries.filter fun e =>
    e.sessionId = sessionId && inRange after through e.entrySequence).map .entry

/-- The finished commands that the events of the session tell of. -/
def commandRows (s : Store) (sessionId : SessionId) (after through eventHighWater : Nat) :
    List TranscriptRow :=
  (s.localCommands.filter fun c =>
    c.sessionId = sessionId && c.entrySequence.any (inRange after through) &&
      decide (c.updatedSequence ≤ eventHighWater) && c.state.isTerminal).map .command

/-- `ORDER BY entry_sequence LIMIT`. -/
def firstRows (rows : List TranscriptRow) : List TranscriptRow :=
  (Ledger.ordered TranscriptRow.place rows).take pageEntries

def contextPage (s : Store) (sessionId : SessionId) (through eventHighWater after : Nat) :
    Except PersistenceError (List TranscriptEntry) := do
  sequenceToSql after
  sequenceToSql through
  let entries ← (firstRows (entryRows s sessionId after through)).mapM (decodeRow s)
  let commands ← (firstRows (commandRows s sessionId after through eventHighWater)).mapM (decodeRow s)
  let page := (Ledger.ordered TranscriptEntry.entrySequence (entries ++ commands)).take pageEntries
  page.mapM (attachImageMetadata s sessionId)

def invalidPrefix : PersistenceError :=
  .invalidState "a canonical context prefix is not contiguous"

def visitContextEntries {σ : Type} (s : Store) (sessionId : SessionId) (after through : Nat)
    (visit : σ → TranscriptEntry → Except PersistenceError (σ × Bool)) (state : σ) :
    Except PersistenceError σ :=
  Paging.visitPages TranscriptEntry.entrySequence invalidPrefix visit
    (contextPage s sessionId through (sessionEventHighWater s sessionId)) through (through - after)
    after state

/-! ## Canonical prefixes -/

def readRow (s : Store) (sessionId : SessionId) (row : TranscriptRow) :
    Except PersistenceError TranscriptEntry := do
  let entry ← decodeRow s row
  attachImageMetadata s sessionId entry

/-- The rows of a session up to a place, in order. -/
def prefixRows (s : Store) (sessionId : SessionId) (through : Nat) : List TranscriptRow :=
  Ledger.ordered TranscriptRow.place (entryRows s sessionId 0 through ++
    commandRows s sessionId 0 through (sessionEventHighWater s sessionId))

/-- The rows of a session up to a place can be read, and their places are the numbers from one
to it. -/
structure CanonicalPrefix (s : Store) (sessionId : SessionId) (through : Nat)
    (entries : List TranscriptEntry) : Prop where
  stored : through ≤ maxInteger
  read : (prefixRows s sessionId through).mapM (readRow s sessionId) = .ok entries
  numbered : entries.map TranscriptEntry.entrySequence = List.range' 1 through

/-- A row with the entry that it is read as. -/
structure ReadRow (s : Store) (sessionId : SessionId) where
  row : TranscriptRow
  decoded : TranscriptEntry
  entry : TranscriptEntry
  decodes : decodeRow s row = .ok decoded
  attaches : attachImageMetadata s sessionId decoded = .ok entry

variable {s : Store} {sessionId : SessionId} {after through : Nat}
  {entries : List TranscriptEntry} {rows : List TranscriptRow} {reads : List (ReadRow s sessionId)}

theorem decodeRow_place {row : TranscriptRow} {entry : TranscriptEntry}
    (h : decodeRow s row = .ok entry) : entry.entrySequence = row.place := by
  cases row with
  | entry e =>
    simp only [decodeRow, transcriptEntryFromRow, bind_ok, pure_ok] at h
    obtain ⟨body, -, rfl⟩ := h
    rfl
  | command c =>
    simp only [decodeRow, localCommandEntryFromRow, bind_ok, demand_ok, pure_ok, Prod.exists] at h
    obtain ⟨-, -, -, -, -, -, -, -, n, hplace, id, -, rfl⟩ := h
    rw [TranscriptRow.place, hplace, Option.getD_some]

theorem attachImageMetadata_place {decoded entry : TranscriptEntry}
    (h : attachImageMetadata s sessionId decoded = .ok entry) :
    entry.entrySequence = decoded.entrySequence := by
  unfold attachImageMetadata at h
  split at h
  case h_1 =>
    simp only [bind_ok, pure_ok] at h
    obtain ⟨-, -, rfl⟩ := h
    rfl
  case h_2 => rw [(pure_ok _ _).mp h]

theorem ReadRow.place (r : ReadRow s sessionId) : r.entry.entrySequence = r.row.place :=
  (attachImageMetadata_place r.attaches).trans (decodeRow_place r.decodes)

/-- Rows that are read one by one. -/
theorem exists_reads (h : rows.mapM (readRow s sessionId) = .ok entries) :
    ∃ reads : List (ReadRow s sessionId), reads.map (·.row) = rows ∧
      reads.map (·.entry) = entries := by
  induction rows generalizing entries with
  | nil =>
    obtain rfl := (pure_ok _ _).mp h
    exact ⟨[], rfl, rfl⟩
  | cons row rest ih =>
    simp only [List.mapM_cons, readRow, bind_ok, pure_ok] at h
    obtain ⟨entry, ⟨decoded, hdecoded, hentry⟩, others, hothers, rfl⟩ := h
    obtain ⟨reads, rfl, rfl⟩ := ih hothers
    exact ⟨⟨row, decoded, entry, hdecoded, hentry⟩ :: reads, rfl, rfl⟩

/-- What is known of each element is known of the list. -/
theorem mapM_map {ε α β γ : Type} {f : α → Except ε β} {u : γ → α} {v : γ → β} (xs : List γ)
    (h : ∀ x, f (u x) = .ok (v x)) : (xs.map u).mapM f = .ok (xs.map v) := by
  induction xs with
  | nil => rfl
  | cons x xs ih =>
    simp only [List.map_cons, List.mapM_cons, bind_ok, pure_ok]
    exact ⟨v x, h x, xs.map v, ih, rfl⟩

/-! ## Pages of a canonical prefix -/

/-- The rows of a session up to a place, in no order. -/
def unorderedRows (s : Store) (sessionId : SessionId) (through : Nat) : List TranscriptRow :=
  entryRows s sessionId 0 through ++
    commandRows s sessionId 0 through (sessionEventHighWater s sessionId)

theorem entryRows_later :
    (unorderedRows s sessionId through).filter (fun row => decide (after < row.place) && row.isEntry) =
      entryRows s sessionId after through := by
  have hcommands : ((commandRows s sessionId 0 through (sessionEventHighWater s sessionId)).filter
      fun row => decide (after < row.place) && row.isEntry) = [] := by
    refine List.filter_eq_nil_iff.mpr fun row hrow => ?_
    obtain ⟨c, -, rfl⟩ := List.mem_map.mp hrow
    simp [TranscriptRow.isEntry]
  rw [unorderedRows, List.filter_append, hcommands, List.append_nil, entryRows, entryRows,
    List.filter_map, List.filter_filter]
  congr 1
  refine List.filter_congr fun e _ => Bool.eq_iff_iff.mpr ?_
  simp only [Function.comp_apply, TranscriptRow.place, TranscriptRow.isEntry, inRange, Bool.and_true,
    Bool.and_eq_true, decide_eq_true_eq]
  constructor
  · rintro ⟨hafter, hsession, -, hthrough⟩
    exact ⟨hsession, of_decide_eq_true hafter, hthrough⟩
  · rintro ⟨hsession, hafter, hthrough⟩
    exact ⟨decide_eq_true hafter, hsession, by omega, hthrough⟩

theorem commandRows_later :
    (unorderedRows s sessionId through).filter (fun row => decide (after < row.place) && !row.isEntry) =
      commandRows s sessionId after through (sessionEventHighWater s sessionId) := by
  have hentries : ((entryRows s sessionId 0 through).filter
      fun row => decide (after < row.place) && !row.isEntry) = [] := by
    refine List.filter_eq_nil_iff.mpr fun row hrow => ?_
    obtain ⟨e, -, rfl⟩ := List.mem_map.mp hrow
    simp [TranscriptRow.isEntry]
  rw [unorderedRows, List.filter_append, hentries, List.nil_append, commandRows, commandRows,
    List.filter_map, List.filter_filter]
  congr 1
  refine List.filter_congr fun c _ => Bool.eq_iff_iff.mpr ?_
  cases hplace : c.entrySequence with
  | none => simp
  | some n =>
    simp only [Function.comp_apply, TranscriptRow.place, TranscriptRow.isEntry, hplace, inRange,
      Option.getD_some, Option.any_some, Bool.not_false, Bool.and_true, Bool.and_eq_true,
      decide_eq_true_eq]
    constructor
    · rintro ⟨hafter, ⟨⟨hsession, -, hthrough⟩, hupdated⟩, hterminal⟩
      exact ⟨⟨⟨hsession, hafter, hthrough⟩, hupdated⟩, hterminal⟩
    · rintro ⟨⟨⟨hsession, hafter, hthrough⟩, hupdated⟩, hterminal⟩
      exact ⟨hafter, ⟨⟨hsession, by omega, hthrough⟩, hupdated⟩, hterminal⟩

/-- The reads of a whole prefix. -/
structure Complete (through : Nat) (reads : List (ReadRow s sessionId)) : Prop where
  rows : (reads.map (·.row)).Perm (unorderedRows s sessionId through)
  numbered : reads.map (·.row.place) = List.range' 1 reads.length

theorem Complete.rising (h : Complete through reads) :
    reads.Pairwise fun a b => a.row.place < b.row.place := by
  have hrange : (List.range' 1 reads.length).Pairwise (· < ·) := List.pairwise_lt_range'
  rw [← h.numbered] at hrange
  exact List.pairwise_map.mp hrange

/-- One table's rows of a page are the reads behind it that come from the table. -/
theorem Complete.firstRows (h : Complete through reads) (after : Nat) {p : TranscriptRow → Bool}
    {part : List TranscriptRow}
    (hpart : (unorderedRows s sessionId through).filter
      (fun row => decide (after < row.place) && p row) = part) :
    firstRows part = (((reads.drop after).filter fun r => p r.row).take pageEntries).map (·.row) := by
  have hlater : (reads.drop after).filter (fun r => p r.row) =
      reads.filter fun r => decide (after < r.row.place) && p r.row := by
    have hdrop : reads.drop after = reads.filter fun r => decide (0 + after < r.row.place) :=
      Paging.drop_eq_filter h.numbered
    rw [hdrop, List.filter_filter]
    refine List.filter_congr fun r _ => ?_
    rw [Nat.zero_add, Bool.and_comm]
  have hperm : (((reads.drop after).filter fun r => p r.row).map (·.row)).Perm part := by
    have hfilter := h.rows.filter fun row => decide (after < row.place) && p row
    rw [List.filter_map, hpart] at hfilter
    rw [hlater]
    exact hfilter
  have hrising : (((reads.drop after).filter fun r => p r.row).map (·.row)).Pairwise
      fun a b => a.place < b.place :=
    List.pairwise_map.mpr (((h.rising.drop).sublist List.filter_sublist))
  rw [ContextHistory.firstRows, Ledger.ordered_eq hrising hperm, List.map_take]

/-- **A page of a canonical prefix is the next part of it.** -/
theorem Complete.contextPage (h : Complete through reads) (hafter : after ≤ through)
    (hstored : through ≤ maxInteger) :
    contextPage s sessionId through (sessionEventHighWater s sessionId) after =
      .ok (((reads.drop after).take pageEntries).map (·.entry)) := by
  have hentries := h.firstRows after entryRows_later
  have hcommands := h.firstRows after commandRows_later
  obtain ⟨merged, hsub, hperm, htake⟩ := Paging.exists_merged
    (fun r : ReadRow s sessionId => r.row.isEntry) (reads.drop after) pageEntries pageEntries
  have hrising : (merged.map (·.decoded)).Pairwise
      fun a b => a.entrySequence < b.entrySequence := by
    refine List.pairwise_map.mpr (((h.rising.drop).sublist hsub).imp fun {a b} hab => ?_)
    rwa [decodeRow_place a.decodes, decodeRow_place b.decodes]
  have hmerged := hperm.map (·.decoded)
  rw [List.map_append] at hmerged
  rw [ContextHistory.contextPage, hentries, hcommands]
  simp only [bind_ok, mapM_map _ ReadRow.decodes]
  refine ⟨(), (require_ok _ _ ()).mpr (hafter.trans hstored), (), (require_ok _ _ ()).mpr hstored,
    _, rfl, _, rfl, ?_⟩
  rw [Ledger.ordered_eq hrising hmerged, ← List.map_take, htake pageEntries le_rfl le_rfl]
  exact mapM_map _ ReadRow.attaches

/-- **Visiting a canonical prefix visits its entries, the first to the last.** -/
theorem visitContextEntries_sweep {σ : Type} {visit : σ → TranscriptEntry →
      Except PersistenceError (σ × Bool)} {step : σ → TranscriptEntry → Except PersistenceError σ}
    {state : σ} (h : CanonicalPrefix s sessionId through entries)
    (hvisit : ∀ state entry, visit state entry = (step state entry).map (·, true)) :
    visitContextEntries s sessionId 0 through visit state = sweep step state entries := by
  obtain ⟨reads, hrows, rfl⟩ := exists_reads h.read
  have hlength : reads.length = through := by
    have := congrArg List.length h.numbered
    rwa [List.length_map, List.length_map, List.length_range'] at this
  have hplaces : reads.map (·.row.place) = List.range' 1 reads.length := by
    rw [hlength, ← h.numbered, List.map_map]
    exact List.map_congr_left fun r _ => r.place.symm
  have hcomplete : Complete through reads :=
    ⟨hrows ▸ List.mergeSort_perm (unorderedRows s sessionId through) _, hplaces⟩
  have hseq : (reads.map (·.entry)).map TranscriptEntry.entrySequence =
      List.range' (0 + 1) (reads.map (·.entry)).length := by
    rw [h.numbered, List.length_map, hlength]
  have hpage : ∀ n, n < (reads.map (·.entry)).length →
      contextPage s sessionId through (sessionEventHighWater s sessionId) (0 + n) =
        .ok (((reads.map (·.entry)).drop n).take pageEntries) := by
    intro n hn
    rw [List.length_map, hlength] at hn
    rw [Nat.zero_add, hcomplete.contextPage hn.le h.stored, ← List.map_drop, ← List.map_take]
  have hread : Paging.visitPages TranscriptEntry.entrySequence invalidPrefix visit
      (contextPage s sessionId through (sessionEventHighWater s sessionId))
      (0 + (reads.map (·.entry)).length) (reads.map (·.entry)).length 0 state =
        sweep step state (reads.map (·.entry)) :=
    Paging.visitPages_sweep (by decide) hvisit hseq hpage
  rwa [List.length_map, hlength, Nat.zero_add] at hread

end Morons.ContextHistory
