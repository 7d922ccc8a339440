import Morons.Submission
import Morons.Invariant.Sound

/-!
# The claims of request identifiers

Every accepted request leaves a row with its identifier, its arguments and
its receipt: its claim.  Claims outlive every write but the cleanup of their
session, which turns their identifiers into tombstones, and the claim of a
deletion outlives that too.
-/

namespace Morons

open Ledger

variable {d : Discipline} {s t u : Store}

/-- What the row of a request keeps of its answer. -/
inductive Receipt
  | input (sessionId : SessionId) (runId : RunId) (userMessageId : MessageId)
      (acceptedSequence : Nat)
  | runCancellation (result : RunCancellationResult)
  | command (commandId : LocalCommandId) (sessionId : SessionId) (commandText : String)
      (contextVisible : Bool)
  | commandCancellation (commandId : LocalCommandId) (intentApplied : Bool)
  | rename (sessionId : SessionId)
  | archive (sessionId : SessionId)
  | deletion
  | steering (receipt : SteeringReceipt)
  deriving DecidableEq

/-- The lasting columns of the row of a request. -/
structure Claim where
  requestId : MutationRequestId
  sessionId : SessionId
  kind : MutationOperation
  fingerprint : Fingerprint
  /-- The fingerprint that the other columns amount to. -/
  columns : Fingerprint
  receipt : Receipt
  deriving DecidableEq

def RunInputRequest.claim (r : RunInputRequest) : Claim :=
  ⟨r.requestId, r.sessionId, .runInput, r.fingerprint, r.fingerprint,
    .input r.sessionId r.runId r.userMessageId r.acceptedSequence⟩

def RunCancellationRequest.claim (r : RunCancellationRequest) : Claim :=
  ⟨r.requestId, r.sessionId, .runCancel, r.fingerprint, r.fingerprint, .runCancellation r.result⟩

def LocalCommand.claim (c : LocalCommand) : Claim :=
  ⟨c.requestId, c.sessionId, .localCommand, c.fingerprint,
    .localCommand c.sessionId c.commandText c.contextVisible,
    .command c.commandId c.sessionId c.commandText c.contextVisible⟩

def LocalCommandCancellation.claim (r : LocalCommandCancellation) : Claim :=
  ⟨r.requestId, r.sessionId, .localCommandCancel, r.fingerprint,
    .cancelLocalCommand r.sessionId r.commandId, .commandCancellation r.commandId r.intentApplied⟩

def SessionRenameRequest.claim (r : SessionRenameRequest) : Claim :=
  ⟨r.requestId, r.sessionId, .sessionRename, r.fingerprint,
    .renameSession r.sessionId r.displayName, .rename r.sessionId⟩

def SessionArchiveRequest.claim (r : SessionArchiveRequest) : Claim :=
  ⟨r.requestId, r.sessionId, .sessionArchive, r.fingerprint,
    .archiveSession r.sessionId r.archived, .archive r.sessionId⟩

def SteeringMutationRequest.claim (r : SteeringMutationRequest) : Claim :=
  ⟨r.requestId, r.sessionId, .steering, r.fingerprint, r.fingerprint, .steering r.receipt⟩

def SessionDeleteRequest.claim (r : SessionDeleteRequest) : Claim :=
  ⟨r.requestId, r.sessionId, .sessionDelete, r.fingerprint, .deleteSession r.sessionId, .deletion⟩

/-- The claims that go with their session. -/
def sessionClaims (s : Store) : List Claim :=
  s.runInputRequests.map RunInputRequest.claim ++
    s.runCancellationRequests.map RunCancellationRequest.claim ++
    s.localCommands.map LocalCommand.claim ++
    s.localCommandCancellations.map LocalCommandCancellation.claim ++
    s.sessionRenameRequests.map SessionRenameRequest.claim ++
    s.sessionArchiveRequests.map SessionArchiveRequest.claim ++
    s.steeringMutationRequests.map SteeringMutationRequest.claim

def deleteClaims (s : Store) : List Claim :=
  s.sessionDeleteRequests.map SessionDeleteRequest.claim

/-- The rows of the session were removed. -/
def sessionCleaned (s : Store) (sessionId : SessionId) : Bool :=
  s.sessionDeleteRequests.any fun r => r.sessionId = sessionId && r.state ≠ .prepared

/-- The identifier belongs to a deleted session. -/
def Buried (s : Store) (requestId : MutationRequestId) : Prop :=
  ∃ b ∈ s.deletedMutationTombstones, b.requestId = requestId

theorem mem_sessionClaims {c : Claim} : c ∈ sessionClaims s ↔
    (∃ r ∈ s.runInputRequests, r.claim = c) ∨
    (∃ r ∈ s.runCancellationRequests, r.claim = c) ∨
    (∃ r ∈ s.localCommands, r.claim = c) ∨
    (∃ r ∈ s.localCommandCancellations, r.claim = c) ∨
    (∃ r ∈ s.sessionRenameRequests, r.claim = c) ∨
    (∃ r ∈ s.sessionArchiveRequests, r.claim = c) ∨
    ∃ r ∈ s.steeringMutationRequests, r.claim = c := by
  simp only [sessionClaims, List.mem_append, List.mem_map, or_assoc]

/-! ## Writes -/

/-- A write that removes no row of a request and cleans no session. -/
structure KeepsClaims (s t : Store) : Prop where
  inputs : s.runInputRequests ⊆ t.runInputRequests
  cancellations : s.runCancellationRequests ⊆ t.runCancellationRequests
  commands : s.localCommands.map LocalCommand.claim ⊆ t.localCommands.map LocalCommand.claim
  commandCancellations : s.localCommandCancellations ⊆ t.localCommandCancellations
  renames : s.sessionRenameRequests ⊆ t.sessionRenameRequests
  archives : s.sessionArchiveRequests.map SessionArchiveRequest.claim ⊆
    t.sessionArchiveRequests.map SessionArchiveRequest.claim
  steering : s.steeringMutationRequests ⊆ t.steeringMutationRequests
  deletes : deleteClaims s ⊆ deleteClaims t
  cleaned : ∀ sessionId, sessionCleaned t sessionId = sessionCleaned s sessionId
  tombstones : s.deletedMutationTombstones ⊆ t.deletedMutationTombstones

namespace KeepsClaims

theorem refl (s : Store) : KeepsClaims s s := by
  constructor <;> first | exact List.Subset.refl _ | exact fun _ => rfl

theorem paused (h : KeepsClaims s t) (p : Paused t u) : KeepsClaims s u := by
  rw [p.frame]
  exact { h with }

theorem claims (h : KeepsClaims s t) : sessionClaims s ⊆ sessionClaims t := by
  intro c hc
  rw [mem_sessionClaims] at hc ⊢
  rcases hc with ⟨r, hr, e⟩ | ⟨r, hr, e⟩ | ⟨r, hr, e⟩ | ⟨r, hr, e⟩ | ⟨r, hr, e⟩ | ⟨r, hr, e⟩ |
    ⟨r, hr, e⟩
  · exact Or.inl ⟨r, h.inputs hr, e⟩
  · exact Or.inr (Or.inl ⟨r, h.cancellations hr, e⟩)
  · have hc : c ∈ t.localCommands.map LocalCommand.claim :=
      h.commands (List.mem_map.mpr ⟨r, hr, e⟩)
    exact Or.inr (Or.inr (Or.inl (List.mem_map.mp hc)))
  · exact Or.inr (Or.inr (Or.inr (Or.inl ⟨r, h.commandCancellations hr, e⟩)))
  · exact Or.inr (Or.inr (Or.inr (Or.inr (Or.inl ⟨r, h.renames hr, e⟩))))
  · have hc : c ∈ t.sessionArchiveRequests.map SessionArchiveRequest.claim :=
      h.archives (List.mem_map.mpr ⟨r, hr, e⟩)
    exact Or.inr (Or.inr (Or.inr (Or.inr (Or.inr (Or.inl (List.mem_map.mp hc))))))
  · exact Or.inr (Or.inr (Or.inr (Or.inr (Or.inr (Or.inr ⟨r, h.steering hr, e⟩)))))

end KeepsClaims

/-- A row that is rewritten keeps its claim. -/
theorem claims_modify {Row Key : Type} [DecidableEq Key] {key : Row → Key} {k : Key}
    {f : Row → Row} {rows : List Row} (claim : Row → Claim) (hf : ∀ r, claim (f r) = claim r) :
    rows.map claim ⊆ (Table.modify key k f rows).map claim := by
  rw [Table.modify_column claim hf]
  exact List.Subset.refl _

/-- **Only a cleanup removes claims.** -/
theorem Write.keepsClaims (w : Write d s t) (hreg : Registered s) : KeepsClaims s t ∨
    ∃ request, loadDeleteRequest s request.requestId = some request ∧ t = writeCleanup s request := by
  have hsame : KeepsClaims s s := .refl s
  cases w with
  | recovery u now paused => exact Or.inl (hsame.paused (pause_paused paused))
  | steering mutation u item now fresh text admitted applied =>
    rw [(steering_frame applied).2]
    exact Or.inl { hsame with steering := List.subset_cons_self .. }
  | rename => exact Or.inl { hsame with renames := List.subset_cons_self .. }
  | archiveRequest requestId fingerprint sessionId archived now u fresh found paused =>
    refine Or.inl (KeepsClaims.paused ?_ (requestArchive_paused paused))
    exact { hsame with archives := List.subset_cons_self .. }
  | archive request =>
    exact Or.inl { hsame with archives := claims_modify _ fun _ => rfl }
  | deleteRequest =>
    refine Or.inl { hsame with deletes := List.subset_cons_self .., cleaned := fun sessionId => ?_ }
    simp [sessionCleaned, writeDeleteRequest, insertMutationRequest, Store.drawn]
  | cleanup request session rule found => exact Or.inr ⟨request, found, rfl⟩
  | delete request rule found cleaned =>
    refine Or.inl { hsame with
      deletes := claims_modify SessionDeleteRequest.claim fun _ => rfl
      cleaned := fun sessionId => ?_ }
    exact Table.any_modify hreg.deletes.keyed (Table.find_mem found) (by simp [cleaned])
  | acceptance => exact Or.inl { hsame with inputs := List.subset_cons_self .. }
  | cancellation requestId fingerprint run now fresh foundSession found room recordable canonical u
      paused =>
    refine Or.inl (KeepsClaims.paused ?_ (cancelled_paused paused))
    exact { hsame with cancellations := List.subset_cons_self .. }
  | commandAcceptance => exact Or.inl { hsame with commands := List.subset_cons_self .. }
  | commandActivation row now =>
    exact Or.inl { hsame with commands := claims_modify _ fun _ => rfl }
  | commandResult row state result now =>
    exact Or.inl { hsame with commands := claims_modify _ fun _ => rfl }
  | commandCancellation requestId fingerprint row now =>
    refine Or.inl { hsame with commandCancellations := List.subset_cons_self .., commands := ?_ }
    simp only [writeCommandCancellation]
    split
    · exact claims_modify _ fun _ => rfl
    · exact List.Subset.refl _
  | finish run outcome => cases outcome <;> exact Or.inl { hsame with }
  | _ => exact Or.inl { hsame with }

/-! ## What retries read -/

/-- The session was created and not deleted. -/
def Created (s : Store) (sessionId : SessionId) : Prop :=
  ∃ f ∈ s.sessionCreatedFacts, f.sessionId = sessionId

/-- The fact of an accepted input. -/
def RunInputRequest.AcceptedBy (r : RunInputRequest) (f : RunAcceptedFact) : Prop :=
  f.runId = r.runId ∧ f.sessionId = r.sessionId ∧ f.userMessageId = r.userMessageId ∧
    f.factSequence = r.acceptedSequence

structure Lodged (s : Store) : Prop where
  inputs : ∀ r ∈ s.runInputRequests, ∃ f ∈ s.runAcceptedFacts, r.AcceptedBy f
  renames : ∀ r ∈ s.sessionRenameRequests, Created s r.sessionId
  archives : ∀ r ∈ s.sessionArchiveRequests, Created s r.sessionId
  cleaned : ∀ r ∈ s.sessionDeleteRequests, r.state ≠ .prepared →
    ∀ c ∈ s.sessionCreationRequests, c.sessionId ≠ r.sessionId
  deletes : ∀ r ∈ s.sessionDeleteRequests, r.sessionId < s.nextIdentifier

theorem lodged_empty : Lodged Store.empty := by
  constructor <;> simp [Store.empty]

theorem Aligned.created_of_session (h : Aligned s) {sessionId : SessionId}
    (hfound : (loadSession s sessionId).isSome) : Created s sessionId := by
  rw [loadSession, Table.find_isSome, h.sessionIds] at hfound
  exact List.mem_map.mp hfound

theorem Aligned.session_of_created (h : Aligned s) {sessionId : SessionId}
    (hcreated : Created s sessionId) : (loadSession s sessionId).isSome := by
  rw [loadSession, Table.find_isSome, h.sessionIds]
  exact List.mem_map.mpr hcreated

namespace Lodged

theorem paused (h : Lodged s) (p : Paused s t) : Lodged t := by
  rw [p.frame]
  exact { h with }

theorem cleanup (h : Lodged s) (hreg : Registered s) {request : SessionDeleteRequest}
    (hrequest : request ∈ s.sessionDeleteRequests) : Lodged (writeCleanup s request) where
  inputs := by
    intro r hr
    obtain ⟨hr, hother⟩ := List.mem_filter.mp hr
    obtain ⟨f, hf, haccepted⟩ := h.inputs r hr
    exact ⟨f, List.mem_filter.mpr ⟨hf, haccepted.2.1 ▸ hother⟩, haccepted⟩
  renames := by
    intro r hr
    obtain ⟨hr, hother⟩ := List.mem_filter.mp hr
    obtain ⟨f, hf, hsession⟩ := h.renames r hr
    exact ⟨f, List.mem_filter.mpr ⟨hf, hsession ▸ hother⟩, hsession⟩
  archives := by
    intro r hr
    obtain ⟨hr, hother⟩ := List.mem_filter.mp hr
    obtain ⟨f, hf, hsession⟩ := h.archives r hr
    exact ⟨f, List.mem_filter.mpr ⟨hf, hsession ▸ hother⟩, hsession⟩
  cleaned := by
    intro r hr hstate c hc
    obtain ⟨hc, hother⟩ := List.mem_filter.mp hc
    obtain ⟨r', hr', rfl⟩ := Table.mem_modify.mp hr
    by_cases hkey : r'.requestId = request.requestId
    · obtain rfl := Table.eq_of_key hreg.deletes.keyed hr' hrequest hkey
      simpa using hother
    · simp only [hkey, if_false] at hstate ⊢
      exact h.cleaned r' hr' hstate c hc
  deletes := by
    intro r hr
    obtain ⟨r', hr', rfl⟩ := Table.mem_modify.mp hr
    have hlt := h.deletes r' hr'
    split <;> exact hlt

theorem write (h : Lodged s) (sound : Sound s) (w : Write d s t) : Lodged t := by
  have hforward := w.forward.2
  have hdrawn : ∀ r ∈ s.sessionDeleteRequests, r.sessionId < t.nextIdentifier :=
    fun r hr => lt_of_lt_of_le (h.deletes r hr) hforward
  clear hforward
  have hcreated : ∀ {sessionId : SessionId}, (loadSession s sessionId).isSome → Created s sessionId :=
    sound.aligned.created_of_session
  cases w with
  | recovery u now paused => exact h.paused (pause_paused paused)
  | steering mutation u item now fresh text admitted applied =>
    obtain ⟨-, hframe⟩ := steering_frame applied
    rw [hframe] at hdrawn ⊢
    exact { h with deletes := hdrawn }
  | creationRequest requestId fingerprint displayName workingDirectory now fresh =>
    refine { h with cleaned := fun r hr hstate c hc => ?_, deletes := hdrawn }
    rcases List.mem_cons.mp hc with rfl | hc
    · exact (h.deletes r hr).ne'
    · exact h.cleaned r hr hstate c hc
  | workspaceDispatched request =>
    refine { h with cleaned := fun r hr hstate c hc => ?_, deletes := hdrawn }
    obtain ⟨c', hc', rfl⟩ := Table.mem_modify.mp hc
    have hne := h.cleaned r hr hstate c' hc'
    split <;> exact hne
  | session request =>
    have hgrown : ∀ {sessionId : SessionId}, Created s sessionId → Created (writeSession (s.drawn
        (s.nextValue + 1) (s.nextIdentifier + 1)) request s.nextIdentifier s.nextValue) sessionId :=
      fun ⟨f, hf, hsession⟩ => ⟨f, List.mem_cons_of_mem _ hf, hsession⟩
    refine { h with
      renames := fun r hr => hgrown (h.renames r hr)
      archives := fun r hr => hgrown (h.archives r hr)
      cleaned := fun r hr hstate c hc => ?_
      deletes := hdrawn }
    obtain ⟨c', hc', rfl⟩ := Table.mem_modify.mp hc
    have hne := h.cleaned r hr hstate c' hc'
    split <;> exact hne
  | rename requestId fingerprint sessionId displayName now fresh found =>
    exact { h with
      renames := List.forall_mem_cons.mpr ⟨hcreated found, h.renames⟩
      deletes := hdrawn }
  | archiveRequest requestId fingerprint sessionId archived now u fresh found paused =>
    refine Lodged.paused ?_ (requestArchive_paused paused)
    exact { h with
      archives := List.forall_mem_cons.mpr ⟨hcreated found, h.archives⟩
      deletes := fun r hr => lt_of_lt_of_le (h.deletes r hr) (Nat.le_succ _) }
  | archive request =>
    refine { h with archives := fun r hr => ?_ }
    obtain ⟨r', hr', rfl⟩ := Table.mem_modify.mp hr
    have hsession := h.archives r' hr'
    split <;> exact hsession
  | deleteRequest requestId fingerprint sessionId session now rule fresh found =>
    obtain ⟨f, hf, hsession⟩ := hcreated (Option.isSome_iff_exists.mpr ⟨_, found⟩)
    obtain ⟨c, hc, hcreation, -⟩ := sound.aligned.ready f hf
    have hlt := sound.identified.creations.bounded c hc
    have hnew : sessionId < s.nextIdentifier + 1 := by
      rw [← hsession, ← hcreation]
      exact Nat.lt_succ_of_lt hlt
    refine { h with
      cleaned := List.forall_mem_cons.mpr ⟨fun hstate => absurd rfl hstate, h.cleaned⟩
      deletes := List.forall_mem_cons.mpr ⟨hnew, hdrawn⟩ }
  | cleanup request session rule found => exact h.cleanup sound.registered (Table.find_mem found)
  | delete request rule found cleaned =>
    refine { h with cleaned := fun r hr hstate c hc => ?_, deletes := fun r hr => ?_ }
    · obtain ⟨r', hr', rfl⟩ := Table.mem_modify.mp hr
      by_cases hkey : r'.requestId = request.requestId
      · obtain rfl := Table.eq_of_key sound.registered.deletes.keyed hr' (Table.find_mem found) hkey
        have hne := h.cleaned r' hr' (by simp [cleaned]) c hc
        split <;> exact hne
      · simp only [hkey, if_false] at hstate ⊢
        exact h.cleaned r' hr' hstate c hc
    · obtain ⟨r', hr', rfl⟩ := Table.mem_modify.mp hr
      have hlt := h.deletes r' hr'
      split <;> exact hlt
  | acceptance =>
    refine { h with inputs := List.forall_mem_cons.mpr ⟨?_, fun r hr => ?_⟩, deletes := hdrawn }
    · exact ⟨_, List.mem_cons_self .., rfl, rfl, rfl, rfl⟩
    · obtain ⟨f, hf, haccepted⟩ := h.inputs r hr
      exact ⟨f, List.mem_cons_of_mem _ hf, haccepted⟩
  | cancellation requestId fingerprint run now fresh foundSession found room recordable canonical u
      paused =>
    refine Lodged.paused ?_ (cancelled_paused paused)
    exact { h with deletes := fun r hr => lt_of_lt_of_le (h.deletes r hr) (Nat.le_succ _) }
  | finish run outcome => cases outcome <;> exact { h with deletes := hdrawn }
  | _ => exact { h with deletes := hdrawn }

end Lodged

/-- **What retries read is there in every reachable store.** -/
theorem Reachable.lodged {allowed : Environment → Store → Operation → Prop}
    (h : Reachable allowed s) : Lodged s := by
  have hboth : Sound s ∧ Lodged s := by
    refine h.obeying_none.writes.invariant (I := fun s => Sound s ∧ Lodged s) ?_ ?_
    · rintro _ rfl
      exact ⟨sound_empty, lodged_empty⟩
    · rintro _ _ ⟨hsound, hlodged⟩ w
      exact ⟨hsound.write w, hlodged.write hsound w⟩
  exact hboth.2

/-! ## Cleanups -/

section cleanup

variable {request : SessionDeleteRequest} {c : Claim}

theorem cleanup_claim (hc : c ∈ sessionClaims s) (hother : c.sessionId ≠ request.sessionId) :
    c ∈ sessionClaims (writeCleanup s request) := by
  rw [mem_sessionClaims] at hc ⊢
  have hkeep : ∀ {Row : Type} {claim : Row → Claim} {session : Row → SessionId} {rows : List Row},
      (∀ r, (claim r).sessionId = session r) → (∃ r ∈ rows, claim r = c) →
      ∃ r ∈ rows.filter fun r => decide (session r ≠ request.sessionId), claim r = c := by
    rintro Row claim session rows hsession ⟨r, hr, e⟩
    refine ⟨r, List.mem_filter.mpr ⟨hr, decide_eq_true ?_⟩, e⟩
    rw [← hsession r, e]
    exact hother
  rcases hc with hc | hc | hc | hc | hc | hc | hc
  · exact Or.inl (hkeep (fun _ => rfl) hc)
  · exact Or.inr (Or.inl (hkeep (fun _ => rfl) hc))
  · exact Or.inr (Or.inr (Or.inl (hkeep (fun _ => rfl) hc)))
  · exact Or.inr (Or.inr (Or.inr (Or.inl (hkeep (fun _ => rfl) hc))))
  · exact Or.inr (Or.inr (Or.inr (Or.inr (Or.inl (hkeep (fun _ => rfl) hc)))))
  · exact Or.inr (Or.inr (Or.inr (Or.inr (Or.inr (Or.inl (hkeep (fun _ => rfl) hc))))))
  · exact Or.inr (Or.inr (Or.inr (Or.inr (Or.inr (Or.inr (hkeep (fun _ => rfl) hc))))))

/-- The request of a claim is registered under its operation. -/
theorem registered_claim (h : Registered s) (hc : c ∈ sessionClaims s) :
    (∃ m ∈ s.mutationRequests, m.requestId = c.requestId ∧ m.operation = c.kind) ∧
      c.requestId ∈ sessionMutations s c.sessionId := by
  rw [mem_sessionMutations]
  rcases mem_sessionClaims.mp hc with ⟨r, hr, rfl⟩ | ⟨r, hr, rfl⟩ | ⟨r, hr, rfl⟩ | ⟨r, hr, rfl⟩ |
    ⟨r, hr, rfl⟩ | ⟨r, hr, rfl⟩ | ⟨r, hr, rfl⟩
  · exact ⟨h.inputs.registered r hr, Or.inr (Or.inl ⟨r, hr, rfl, rfl⟩)⟩
  · exact ⟨h.cancellations.registered r hr, Or.inr (Or.inr (Or.inl ⟨r, hr, rfl, rfl⟩))⟩
  · exact ⟨h.commands.registered r hr, Or.inr (Or.inr (Or.inr (Or.inl ⟨r, hr, rfl, rfl⟩)))⟩
  · exact ⟨h.commandCancellations.registered r hr,
      Or.inr (Or.inr (Or.inr (Or.inr (Or.inl ⟨r, hr, rfl, rfl⟩))))⟩
  · exact ⟨h.renames.registered r hr,
      Or.inr (Or.inr (Or.inr (Or.inr (Or.inr (Or.inl ⟨r, hr, rfl, rfl⟩)))))⟩
  · exact ⟨h.archives.registered r hr,
      Or.inr (Or.inr (Or.inr (Or.inr (Or.inr (Or.inr (Or.inr ⟨r, hr, rfl, rfl⟩))))))⟩
  · exact ⟨h.steering.registered r hr,
      Or.inr (Or.inr (Or.inr (Or.inr (Or.inr (Or.inr (Or.inl ⟨r, hr, rfl, rfl⟩))))))⟩

theorem cleanup_buried (h : Registered s) (hc : c ∈ sessionClaims s)
    (hsession : c.sessionId = request.sessionId) : Buried (writeCleanup s request) c.requestId := by
  obtain ⟨⟨m, hm, hid, -⟩, hin⟩ := registered_claim h hc
  rw [hsession] at hin
  refine ⟨_, List.mem_append_left _ (List.mem_map_of_mem (List.mem_filter.mpr ⟨hm, ?_⟩)), hid⟩
  exact decide_eq_true (hid ▸ hin)

theorem cleanup_tombstones :
    s.deletedMutationTombstones ⊆ (writeCleanup s request).deletedMutationTombstones :=
  fun _ hb => List.mem_append_right _ hb

theorem cleanup_cleaned (h : Registered s) (hrequest : request ∈ s.sessionDeleteRequests)
    (sessionId : SessionId) : sessionCleaned (writeCleanup s request) sessionId =
      (decide (request.sessionId = sessionId) || sessionCleaned s sessionId) := by
  by_cases hsession : request.sessionId = sessionId
  · have hrow : { request with state := DeleteState.databaseCleaned } ∈
        (writeCleanup s request).sessionDeleteRequests :=
      Table.mem_modify.mpr ⟨request, hrequest, by simp⟩
    simp only [hsession, decide_true, Bool.true_or]
    exact List.any_eq_true.mpr ⟨_, hrow, by simp [hsession]⟩
  · simp only [hsession, decide_false, Bool.false_or]
    exact Table.any_modify h.deletes.keyed hrequest (by simp [hsession])

theorem cleanup_deletes : deleteClaims s ⊆ deleteClaims (writeCleanup s request) :=
  claims_modify _ fun _ => rfl

end cleanup

/-! ## Runs -/

/-- The claim is there, or its session was cleaned and its identifier is buried. -/
def Outlives (c : Claim) (s : Store) : Prop :=
  (sessionCleaned s c.sessionId = false ∧ c ∈ sessionClaims s) ∨
    (sessionCleaned s c.sessionId = true ∧ Buried s c.requestId)

theorem Buried.mono {requestId : MutationRequestId} (h : Buried s requestId)
    (hsub : s.deletedMutationTombstones ⊆ t.deletedMutationTombstones) : Buried t requestId := by
  obtain ⟨b, hb, hid⟩ := h
  exact ⟨b, hsub hb, hid⟩

theorem Outlives.write {c : Claim} (h : Outlives c s) (hreg : Registered s) (w : Write d s t) :
    Outlives c t := by
  rcases w.keepsClaims hreg with hkeeps | ⟨request, hfound, rfl⟩
  · rcases h with ⟨hkept, hc⟩ | ⟨hcleaned, hburied⟩
    · exact Or.inl ⟨(hkeeps.cleaned _).trans hkept, hkeeps.claims hc⟩
    · exact Or.inr ⟨(hkeeps.cleaned _).trans hcleaned, hburied.mono hkeeps.tombstones⟩
  · have hflag := cleanup_cleaned hreg (Table.find_mem hfound) c.sessionId
    rcases h with ⟨hkept, hc⟩ | ⟨hcleaned, hburied⟩
    · by_cases hsession : request.sessionId = c.sessionId
      · exact Or.inr ⟨by simp [hflag, hsession], cleanup_buried hreg hc hsession.symm⟩
      · exact Or.inl ⟨by simp [hflag, hsession, hkept], cleanup_claim hc (Ne.symm hsession)⟩
    · exact Or.inr ⟨by simp [hflag, hcleaned], hburied.mono cleanup_tombstones⟩

theorem Write.keepsDeletions (w : Write d s t) (hreg : Registered s) :
    deleteClaims s ⊆ deleteClaims t := by
  rcases w.keepsClaims hreg with hkeeps | ⟨request, -, rfl⟩
  · exact hkeeps.deletes
  · exact cleanup_deletes

/-- **Claims last over any number of writes.** -/
theorem Writes.outlives {c : Claim} (h : Outlives c s) (hs : Sound s) (w : Writes d s t) :
    Outlives c t := by
  have hboth : Sound t ∧ Outlives c t := by
    induction w with
    | refl => exact ⟨hs, h⟩
    | tail _ w ih => exact ⟨ih.1.write w, ih.2.write ih.1.registered w⟩
  exact hboth.2

theorem Writes.keepsDeletions (hs : Sound s) (w : Writes d s t) :
    deleteClaims s ⊆ deleteClaims t := by
  have hboth : Sound t ∧ deleteClaims s ⊆ deleteClaims t := by
    induction w with
    | refl => exact ⟨hs, List.Subset.refl _⟩
    | tail _ w ih => exact ⟨ih.1.write w, List.Subset.trans ih.2 (w.keepsDeletions ih.1.registered)⟩
  exact hboth.2

end Morons
