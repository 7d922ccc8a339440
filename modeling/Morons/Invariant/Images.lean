import Morons.Invariant.Claims

/-!
# The images of messages

Every message of a user has the images it was accepted with, valid for its
text.  Messages have identifiers of their own, so that no later image joins
those of an earlier message.
-/

namespace Morons

open Ledger

variable {d : Discipline} {s t : Store}

structure Illustrated (s : Store) : Prop where
  messages : Below SessionEntry.messageId s.nextIdentifier s.sessionEntries
  images : ∀ i ∈ s.imageAttachments, i.userMessageId < s.nextIdentifier
  valid : ∀ e ∈ s.sessionEntries, ∀ text, e.body = .user text →
    validStoredAttachments text (loadMessageImageAttachments s e.sessionId e.messageId) = true

theorem illustrated_empty : Illustrated Store.empty := by
  constructor <;> first | exact below_nil | simp [Store.empty]

/-- The images of a message do not depend on those of others. -/
theorem loadMessageImageAttachments_congr {sessionId : SessionId} {messageId : MessageId}
    (h : (t.imageAttachments.filter fun r => r.sessionId = sessionId && r.userMessageId = messageId) =
      s.imageAttachments.filter fun r => r.sessionId = sessionId && r.userMessageId = messageId) :
    loadMessageImageAttachments t sessionId messageId =
      loadMessageImageAttachments s sessionId messageId := by
  rw [loadMessageImageAttachments, h]
  rfl

/-- The rows of a message are its images, in their order. -/
theorem imageRows_ordered {sessionId : SessionId} {runId : RunId} {messageId : MessageId} {now : Nat}
    {images : List ImageAttachment} :
    (ordered MessageImage.attachmentIndex (imageRows sessionId runId messageId now images)).map
      (·.image) = images := by
  have hindex : (imageRows sessionId runId messageId now images).map MessageImage.attachmentIndex =
      List.range' 1 images.length := by
    rw [imageRows, List.map_map, ← List.zipIdx_map_snd]
    rfl
  have hrising : (imageRows sessionId runId messageId now images).Pairwise
      fun a b => a.attachmentIndex < b.attachmentIndex := by
    refine List.pairwise_map.mp ?_
    rw [hindex]
    exact List.pairwise_lt_range'
  rw [ordered_eq hrising (List.Perm.refl _), imageRows, List.map_map]
  exact List.zipIdx_map_fst ..

namespace Illustrated

theorem kept (h : Illustrated s) (hentries : t.sessionEntries = s.sessionEntries)
    (himages : t.imageAttachments = s.imageAttachments) (hle : s.nextIdentifier ≤ t.nextIdentifier) :
    Illustrated t where
  messages := by
    rw [hentries]
    exact h.messages.mono hle
  images := by
    rw [himages]
    exact fun i hi => lt_of_lt_of_le (h.images i hi) hle
  valid := by
    rw [hentries]
    intro e he text hbody
    rw [loadMessageImageAttachments_congr (congrArg _ himages)]
    exact h.valid e he text hbody

/-- An entry of another kind. -/
theorem entry (h : Illustrated s) {e : SessionEntry}
    (hentries : t.sessionEntries = e :: s.sessionEntries)
    (himages : t.imageAttachments = s.imageAttachments) (hother : e.body.isUser = false)
    (hlow : s.nextIdentifier ≤ e.messageId) (hhigh : e.messageId < t.nextIdentifier) :
    Illustrated t where
  messages := by
    rw [hentries]
    exact h.messages.cons hlow hhigh
  images := by
    rw [himages]
    exact fun i hi => (h.images i hi).trans_le (hlow.trans hhigh.le)
  valid := by
    rw [hentries]
    intro e' he text hbody
    rcases List.mem_cons.mp he with rfl | he
    · rw [hbody] at hother
      cases hother
    · rw [loadMessageImageAttachments_congr (congrArg _ himages)]
      exact h.valid e' he text hbody

theorem paused (h : Illustrated s) (p : Paused s t) : Illustrated t := by
  rw [p.frame]
  exact h.kept rfl rfl le_rfl

/-- A message of a user comes with valid images. -/
theorem acceptance (h : Illustrated s) {e : SessionEntry} {text : String} {runId : RunId} {now : Nat}
    {attachments : List PreparedImageAttachment} (hentries : t.sessionEntries = e :: s.sessionEntries)
    (hbody : e.body = .user text)
    (himages : t.imageAttachments = imageRows e.sessionId runId e.messageId now
      (stageAttachments e.messageId attachments) ++ s.imageAttachments)
    (hvalid : validatePreparedAttachments text attachments = true)
    (hlow : s.nextIdentifier ≤ e.messageId) (hhigh : e.messageId < t.nextIdentifier) :
    Illustrated t := by
  have hrows : ∀ i ∈ imageRows e.sessionId runId e.messageId now
      (stageAttachments e.messageId attachments),
      i.sessionId = e.sessionId ∧ i.userMessageId = e.messageId := by
    intro i hi
    obtain ⟨⟨attachment, index⟩, -, rfl⟩ := List.mem_map.mp hi
    exact ⟨rfl, rfl⟩
  constructor
  · rw [hentries]
    exact h.messages.cons hlow hhigh
  · rw [himages]
    intro i hi
    rcases List.mem_append.mp hi with hi | hi
    · rw [(hrows i hi).2]
      exact hhigh
    · exact (h.images i hi).trans_le (hlow.trans hhigh.le)
  · rw [hentries]
    intro e' he text' hbody'
    rcases List.mem_cons.mp he with hsame | he
    · rw [hsame] at hbody' ⊢
      rw [hbody] at hbody'
      obtain rfl := EntryBody.user.inj hbody'
      have hnew : (t.imageAttachments.filter fun r =>
          r.sessionId = e.sessionId && r.userMessageId = e.messageId) =
          imageRows e.sessionId runId e.messageId now (stageAttachments e.messageId attachments) := by
        rw [himages, List.filter_append, List.filter_eq_self.mpr, List.filter_eq_nil_iff.mpr,
          List.append_nil]
        · intro i hi
          have hlt := (h.images i hi).trans_le hlow
          simpa using fun _ => hlt.ne
        · intro i hi
          simpa using hrows i hi
      have hload : loadMessageImageAttachments t e.sessionId e.messageId =
          stageAttachments e.messageId attachments := by
        rw [loadMessageImageAttachments, hnew]
        exact imageRows_ordered
      rw [hload]
      exact validStoredAttachments_stage e.messageId hvalid
    · have hlt := (h.messages.bounded e' he).trans_le hlow
      rw [loadMessageImageAttachments_congr]
      · exact h.valid e' he text' hbody'
      · rw [himages, List.filter_append, List.filter_eq_nil_iff.mpr, List.nil_append]
        intro i hi
        rw [(hrows i hi).1, (hrows i hi).2]
        simpa using fun _ => hlt.ne'

theorem cleanup (h : Illustrated s) (request : SessionDeleteRequest) :
    Illustrated (writeCleanup s request) where
  messages := h.messages.filter _
  images i hi := h.images i (List.mem_of_mem_filter hi)
  valid := by
    intro e he text hbody
    obtain ⟨he, hother⟩ := List.mem_filter.mp he
    rw [loadMessageImageAttachments_congr]
    · exact h.valid e he text hbody
    · refine Table.filter_kept fun i _ hi => ?_
      have hsession : i.sessionId = e.sessionId := of_decide_eq_true (Bool.and_eq_true_iff.mp hi).1
      rw [hsession]
      exact hother

theorem ended (h : Illustrated s) {u : Store} {run : Run} {state : RunState}
    {failure : Option RunFailureKind} {kind : EventKind} {now : Nat} :
    Illustrated (endRun s u run state failure kind now) :=
  h.kept rfl rfl (Nat.le_succ s.nextIdentifier)

theorem toolResult (h : Illustrated s) {run : Run} {call : ToolCall} {result : ToolResult}
    {factKind : ToolFactKind} {resultStatus : ToolResultStatus} {entrySequence now : Nat} :
    Illustrated (recordToolResult s run call result factKind resultStatus entrySequence now) :=
  h.entry rfl rfl rfl (le_refl s.nextIdentifier) (Nat.lt_add_of_pos_right (Nat.succ_pos 2))

theorem write (h : Illustrated s) (w : Write d s t) : Illustrated t := by
  have hforward := w.forward.2
  cases w with
  | recovery u now paused => exact h.paused (pause_paused paused)
  | steering mutation u item now fresh text admitted applied =>
    rw [(steering_frame applied).2] at hforward ⊢
    exact h.kept rfl rfl hforward
  | archiveRequest requestId fingerprint sessionId archived now u fresh found paused =>
    refine Illustrated.paused ?_ (requestArchive_paused paused)
    exact h.kept rfl rfl (Nat.le_succ _)
  | cancellation requestId fingerprint run now fresh foundSession found room recordable canonical u
      paused =>
    refine Illustrated.paused ?_ (cancelled_paused paused)
    exact h.kept rfl rfl (Nat.le_succ _)
  | cleanup request => exact h.cleanup request
  | acceptance requestId fingerprint sessionId session state binding checkpoint text context now
      fresh admitted sized =>
    exact h.acceptance rfl rfl rfl sized.attachments (Nat.le_succ _)
      (Nat.add_lt_add_left (by decide) s.nextIdentifier)
  | finish run outcome => cases outcome <;> exact h.kept rfl rfl hforward
  | answer run state fact assistant now u entry admitted completed paused =>
    have hentry : Illustrated (writeFinalEntry (writeProviderOutcome s run fact) run assistant
        (state.entryHighWater + 1) now) :=
      h.entry rfl rfl rfl (le_refl s.nextIdentifier) (Nat.lt_add_of_pos_right (Nat.succ_pos 1))
    exact hentry.ended
  | commentary =>
    exact h.entry rfl rfl rfl (le_refl s.nextIdentifier) (Nat.lt_add_of_pos_right (Nat.succ_pos 1))
  | toolCall =>
    exact h.entry rfl rfl rfl (Nat.le_add_right ..) (Nat.add_lt_add_left (by decide) s.nextIdentifier)
  | toolResult => exact h.toolResult
  | toolUncertain => exact h.toolResult.ended
  | _ => exact h.kept rfl rfl hforward

end Illustrated

/-- **The images of every message are valid**, in every reachable store. -/
theorem Reachable.illustrated {allowed : Environment → Store → Operation → Prop}
    (h : Reachable allowed s) : Illustrated s :=
  h.obeying_none.writes.invariant (fun _ e => e ▸ illustrated_empty) fun _ _ hs w => hs.write w

end Morons
