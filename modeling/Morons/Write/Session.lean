import Morons.Write.Blocks
import Morons.Operation

/-!
# The writes of the session and command operations
-/

namespace Morons

open Attempt

variable {d : Discipline} {env : Environment} {s t : Store}

theorem Writes.none : Writes d s s := Relation.ReflTransGen.refl

theorem Write.writes (h : Write d s t) : Writes d s t := Relation.ReflTransGen.single h

theorem Writes.then {u : Store} (h : Writes d s t) (k : Write d t u) : Writes d s u := h.tail k

/-- Drawing numbers and identifiers is an advance. -/
theorem Write.draw (s : Store) (k j : Nat) :
    Write d s (s.drawn (s.nextValue + k) (s.nextIdentifier + j)) :=
  Write.advance _ _ (Nat.le_add_right ..) (Nat.le_add_right ..)

/-! ## Sessions -/

theorem resolveExistingCreation_none {requestId : MutationRequestId} {fingerprint : Fingerprint}
    {displayName : Option String} {workingDirectory : String}
    (h : resolveExistingCreation s requestId fingerprint displayName workingDirectory = .ok none) :
    loadMutationOperation s requestId = none := by
  unfold resolveExistingCreation at h
  split at h
  · simp only [bind_ok, pure_ok] at h
    obtain ⟨_, -, h⟩ := h
    cases h
  · cases h
  · cases h
  · assumption

theorem prepareSessionCreation_writes {requestId : MutationRequestId} {fingerprint : Fingerprint}
    {displayName : Option String} {workingDirectory : String} {request : SessionCreationRequest}
    (h : prepareSessionCreation env s requestId fingerprint displayName workingDirectory =
      .ok (request, t)) : Writes d s t := by
  simp only [prepareSessionCreation, bind_ok] at h
  obtain ⟨existing, hexisting, h⟩ := h
  cases existing with
  | some existing =>
    simp only [pure_ok, Prod.mk.injEq] at h
    exact h.2 ▸ Writes.none
  | none =>
    simp only [prepareNewCreation, bind_ok, require_ok, pure_ok, Prod.exists, nextSequence_ok,
      exists_const] at h
    obtain ⟨-, -, n, s₁, ⟨-, rfl, rfl⟩, m, s₂, ⟨-, rfl, rfl⟩, h⟩ := h
    rw [← (Prod.mk.inj h).2]
    exact (Write.creationRequest requestId fingerprint displayName workingDirectory env.now
      (resolveExistingCreation_none hexisting)).writes.then (Write.draw _ 1 0)

theorem dispatchWorkspaceCreation_writes {requestId : MutationRequestId}
    (h : dispatchWorkspaceCreation s requestId = .ok t) : Writes d s t := by
  simp only [dispatchWorkspaceCreation, bind_ok, demand_ok] at h
  obtain ⟨request, hfound, h⟩ := h
  split at h
  · cases h
    exact Writes.none
  · rename_i hstate
    simp only [bind_ok, pure_ok, Prod.exists, nextSequence_ok] at h
    obtain ⟨n, s₁, ⟨-, rfl, rfl⟩, m, s₂, ⟨-, rfl, rfl⟩, rfl⟩ := h
    have hid : request.requestId = requestId := Table.find_key hfound
    subst hid
    exact (Write.draw s 2 0).writes.then
      (Write.workspaceDispatched request hfound (not_not.mp hstate))

theorem finalizeSessionCreation_writes {requestId : MutationRequestId}
    (h : finalizeSessionCreation env s requestId = .ok t) : Writes d s t := by
  simp only [finalizeSessionCreation, bind_ok, demand_ok] at h
  obtain ⟨request, hfound, h⟩ := h
  split at h
  · cases h
    exact Writes.none
  · simp only [bind_ok, require_ok, pure_ok, Prod.exists, nextSequence_ok, exists_const] at h
    obtain ⟨hstate, -, -, n, s₁, ⟨-, rfl, rfl⟩, m, s₂, ⟨-, rfl, rfl⟩, k, s₃, ⟨-, rfl, rfl⟩, rfl⟩ := h
    have hid : request.requestId = requestId := Table.find_key hfound
    subst hid
    -- One number before the fact of the session and one after it.
    exact ((Write.draw s 1 0).writes.then (Write.session request hfound hstate)).then
      (Write.draw _ 1 0)

theorem renameSession_writes {requestId : MutationRequestId} {fingerprint : Fingerprint}
    {sessionId : SessionId} {displayName : String} {session : Session}
    (h : renameSession env s requestId fingerprint sessionId displayName = .ok (session, t)) :
    Writes d s t := by
  unfold renameSession at h
  split at h
  · simp only [bind_ok, require_ok, pure_ok, exists_const, Prod.mk.injEq] at h
    obtain ⟨-, _, -, -, rfl⟩ := h
    exact Writes.none
  · cases h
  · cases h
  · rename_i hfresh hnone
    simp only [bind_ok, require_ok, pure_ok, Prod.exists, nextSequence_ok, exists_const] at h
    obtain ⟨hfound, n, s₁, ⟨-, rfl, rfl⟩, -, _, -, h⟩ := h
    rw [← (Prod.mk.inj h).2]
    exact (Write.rename requestId fingerprint sessionId displayName env.now hfresh hfound).writes

theorem prepareSessionArchive_writes {requestId : MutationRequestId} {fingerprint : Fingerprint}
    {sessionId : SessionId} {archived : Bool} {result : Session × Bool}
    (h : prepareSessionArchive env s requestId fingerprint sessionId archived = .ok (result, t)) :
    Writes d s t := by
  unfold prepareSessionArchive at h
  split at h
  · simp only [bind_ok, require_ok, pure_ok, exists_const, Prod.mk.injEq] at h
    obtain ⟨-, _, -, -, rfl⟩ := h
    exact Writes.none
  · cases h
  · cases h
  · rename_i hfresh hnone
    simp only [bind_ok, demand_ok, pure_ok, Prod.exists, nextSequence_ok] at h
    obtain ⟨session, hfound, n, s₁, ⟨-, rfl, rfl⟩, u, hu, h⟩ := h
    rw [← (Prod.mk.inj h).2]
    exact (Write.archiveRequest requestId fingerprint sessionId archived env.now u hfresh
      (by rw [hfound]; rfl) hu).writes

theorem completeSessionArchive_writes {requestId : MutationRequestId} {session : Session}
    (h : completeSessionArchive env s requestId = .ok (session, t)) : Writes d s t := by
  simp only [completeSessionArchive, bind_ok, demand_ok] at h
  obtain ⟨request, hfound, h⟩ := h
  split at h
  · simp only [bind_ok, pure_ok, Prod.mk.injEq] at h
    obtain ⟨_, -, -, rfl⟩ := h
    exact Writes.none
  · rename_i hpending
    simp only [bind_ok, demand_ok, refuse_ok, require_ok, pure_ok, exists_const,
      Option.map_eq_none_iff] at h
    obtain ⟨state, hstate, hidle, hcommand, -, -, hsession, _, -, h⟩ := h
    rw [← (Prod.mk.inj h).2]
    have hid : request.requestId = requestId := Table.find_key hfound
    subst hid
    exact (Write.archive request state hfound (Bool.eq_false_iff.mpr hpending) hstate hidle hcommand
      hsession).writes

/-! ## Deletions -/

theorem ensureSessionIdle_ok {sessionId : SessionId} {u : Unit}
    (h : ensureSessionIdle env s sessionId = .ok u) : Idle s sessionId := by
  simp only [ensureSessionIdle, bind_ok, demand_ok, refuse_ok, exists_const,
    Option.map_eq_none_iff] at h
  obtain ⟨_, -, state, hstate, hidle, hcommand⟩ := h
  exact ⟨⟨state, hstate, hidle⟩, hcommand⟩

theorem prepareSessionDelete_writes {requestId : MutationRequestId} {sessionId : SessionId}
    {complete : Bool} (rule : d.deletes)
    (h : prepareSessionDelete env s requestId (.deleteSession sessionId) sessionId =
      .ok (complete, t)) : Writes d s t := by
  unfold prepareSessionDelete at h
  split at h
  · simp only [bind_ok, require_ok, pure_ok, exists_const, Prod.mk.injEq] at h
    obtain ⟨-, -, rfl⟩ := h
    exact Writes.none
  · cases h
  · cases h
  · rename_i hfresh _
    simp only [bind_ok, demand_ok, require_ok, pure_ok, Prod.exists, nextSequence_ok,
      exists_const] at h
    obtain ⟨session, hsession, harchived, -, -, -, _, hidle, n, s₁, ⟨-, rfl, rfl⟩, hsingle, h⟩ := h
    rw [← (Prod.mk.inj h).2]
    exact (Write.deleteRequest requestId _ sessionId session env.now rule hfresh hsession
      harchived (ensureSessionIdle_ok hidle) hsingle rfl).writes

theorem cleanSessionDatabase_writes {requestId : MutationRequestId} (rule : d.deletes)
    (h : cleanSessionDatabase env s requestId = .ok t) : Writes d s t := by
  simp only [cleanSessionDatabase, bind_ok, demand_ok] at h
  obtain ⟨request, hfound, h⟩ := h
  split at h
  · rw [pure_ok] at h
    exact h ▸ Writes.none
  · rename_i hprepared
    simp only [bind_ok, demand_ok, require_ok, pure_ok, exists_const] at h
    obtain ⟨_, hidle, session, hsession, harchived, rfl⟩ := h
    have hid : request.requestId = requestId := Table.find_key hfound
    subst hid
    exact (Write.cleanup request session rule hfound (by simpa using hprepared) hsession harchived
      (ensureSessionIdle_ok hidle)).writes

theorem completeSessionDelete_writes {requestId : MutationRequestId} {sessionId : SessionId}
    (rule : d.deletes) (h : completeSessionDelete env s requestId = .ok (sessionId, t)) :
    Writes d s t := by
  simp only [completeSessionDelete, bind_ok, demand_ok] at h
  obtain ⟨request, hfound, h⟩ := h
  split at h
  · rw [pure_ok] at h
    exact (Prod.mk.inj h).2 ▸ Writes.none
  · simp only [bind_ok, require_ok, pure_ok, exists_const] at h
    obtain ⟨hcleaned, _, -, h⟩ := h
    rw [← (Prod.mk.inj h).2]
    have hid : request.requestId = requestId := Table.find_key hfound
    subst hid
    exact (Write.delete request rule hfound hcleaned).writes

/-! ## Local commands -/

theorem findLocalCommandRetry_none {requestId : MutationRequestId} {fingerprint : Fingerprint}
    {sessionId : SessionId} {command : String} {contextVisible : Bool}
    (h : findLocalCommandRetry s requestId fingerprint sessionId command contextVisible =
      .ok none) : loadMutationOperation s requestId = none := by
  unfold findLocalCommandRetry at h
  split at h
  · split at h <;> cases h
  · cases h
  · cases h
  · assumption

theorem acceptLocalCommand_writes {requestId : MutationRequestId} {fingerprint : Fingerprint}
    {sessionId : SessionId} {command : String} {contextVisible : Bool}
    {accepted : AcceptedLocalCommand}
    (text : validateLocalCommand command = .ok ())
    (h : acceptLocalCommand env s requestId fingerprint sessionId command contextVisible =
      .ok (accepted, t)) : Writes d s t := by
  simp only [acceptLocalCommand, bind_ok] at h
  obtain ⟨existing, hexisting, h⟩ := h
  cases existing with
  | some existing =>
    simp only [pure_ok, Prod.mk.injEq] at h
    exact h.2 ▸ Writes.none
  | none =>
    simp only [acceptNewCommand, bind_ok, demand_ok, require_ok, refuse_ok, pure_ok, Prod.exists,
      nextSequence_ok, exists_const, Option.map_eq_none_iff] at h
    obtain ⟨session, hsession, -, -, state, hstate, hidle, hfree, hcanonical, n, s₁, ⟨-, rfl, rfl⟩,
      m, s₂, ⟨-, rfl, rfl⟩, -, h⟩ := h
    rw [← (Prod.mk.inj h).2]
    exact (Write.commandAcceptance requestId fingerprint sessionId command contextVisible session
      state env.now (findLocalCommandRetry_none hexisting) hsession hstate hidle hfree
      hcanonical text).writes

theorem activateLocalCommand_writes {commandId : LocalCommandId} {active : Bool}
    (h : activateLocalCommand env s commandId = .ok (active, t)) : Writes d s t := by
  simp only [activateLocalCommand, bind_ok, demand_ok] at h
  obtain ⟨row, hfound, h⟩ := h
  split at h
  · simp only [pure_ok, Prod.mk.injEq] at h
    exact h.2 ▸ Writes.none
  · rename_i hkept
    simp only [updateLocalCommand, bind_ok, require_ok, pure_ok, Prod.exists, nextSequence_ok,
      exists_const] at h
    obtain ⟨haccepted, n, s₁, ⟨-, rfl, rfl⟩, m, s₂, ⟨-, rfl, rfl⟩, u, ⟨hclock, rfl⟩, h⟩ := h
    rw [← (Prod.mk.inj h).2]
    have hid : row.commandId = commandId := Table.find_key hfound
    subst hid
    exact (Write.commandActivation row env.now hfound haccepted
      (Bool.eq_false_iff.mpr fun hc => hkept (Or.inr hc)) hclock).writes

theorem completeLocalCommand_writes {commandId : LocalCommandId} {result : ToolResult}
    (h : completeLocalCommand env s commandId result = .ok t) : Writes d s t := by
  simp only [completeLocalCommand, updateLocalCommand, bind_ok, demand_ok, require_ok, pure_ok,
    Prod.exists, nextSequence_ok, exists_const] at h
  obtain ⟨hcanonical, row, hfound, hrunning, hpayload, state, hstate, hroom, n, s₁, ⟨-, rfl, rfl⟩,
    m, s₂, ⟨-, rfl, rfl⟩, u, ⟨hclock, rfl⟩, rfl⟩ := h
  have hid : row.commandId = commandId := Table.find_key hfound
  subst hid
  have hrunning : row.state.isTerminal = false := by
    rcases hrunning with h | h <;> rw [h] <;> rfl
  exact (Write.commandResult row state result env.now hfound hrunning hcanonical hpayload hstate
    hroom hclock).writes

theorem cancelLocalCommand_writes {requestId : MutationRequestId} {fingerprint : Fingerprint}
    {sessionId : SessionId} {commandId : LocalCommandId} {result : LocalCommandCancellationResult}
    (h : cancelLocalCommand env s requestId fingerprint sessionId commandId = .ok (result, t)) :
    Writes d s t := by
  unfold cancelLocalCommand at h
  split at h
  · simp only [bind_ok, require_ok, pure_ok, exists_const, Prod.mk.injEq] at h
    obtain ⟨-, -, rfl⟩ := h
    exact Writes.none
  · simp only [cancelNewCommand, bind_ok, demand_ok, require_ok, pure_ok, Prod.exists,
      nextSequence_ok, exists_const] at h
    obtain ⟨⟨hfresh, hcanonical⟩, row, hfound, hsession, n, s₁, ⟨-, rfl, rfl⟩, m, s₂,
      ⟨-, rfl, rfl⟩, u, hu, h⟩ := h
    rw [← (Prod.mk.inj h).2]
    have hid : row.commandId = commandId := Table.find_key hfound
    subst hid hsession
    have hclock : row.state.isTerminal = false → row.cancellationRequested = false →
        row.acceptedAtMilliseconds ≤ env.now := by
      intro h1 h2
      simp only [h1, h2, updateLocalCommand, Bool.not_false, Bool.and_self, if_true, bind_ok,
        require_ok, exists_const] at hu
      exact hu.1
    have hwrite := Write.commandCancellation (d := d) requestId fingerprint row env.now hfresh
      hfound hcanonical hclock
    refine (?_ : Write d s _).writes
    convert hwrite using 1
    unfold writeCommandCancellation
    by_cases happlied : (!row.state.isTerminal && !row.cancellationRequested) = true
    · simp only [happlied, if_true, updateLocalCommand, bind_ok, require_ok, pure_ok,
        exists_const] at hu ⊢
      rw [← hu.2]
      rfl
    · simp only [happlied, Bool.false_eq_true, if_false, Except.ok.injEq] at hu ⊢
      rw [← hu]
      rfl

/-! ## Steering -/

theorem mutateSteering_writes {mutation : SteeringMutation} {skills : Option SteeringSkills}
    {receipt : SteeringReceipt} (h : mutateSteering env s mutation skills = .ok (receipt, t)) :
    Writes d s t := by
  simp only [mutateSteering, bind_ok] at h
  obtain ⟨stored, hstored, h⟩ := h
  cases stored with
  | some stored =>
    simp only [pure_ok, Prod.mk.injEq] at h
    exact h.2 ▸ Writes.none
  | none =>
    simp only [bind_ok, require_ok, pure_ok, Prod.exists, nextSequence_ok, exists_const] at h
    obtain ⟨_, -, _, htext, _, hadmitted, n, s₁, ⟨-, rfl, rfl⟩, itemId, itemRevision, u, happlied,
      hqueue, h⟩ := h
    rw [← (Prod.mk.inj h).2]
    have htext : ∀ text ∈ mutation.change.text, validateSteeringText text = .ok () := by
      intro text hsome
      rw [Option.mem_def.mp hsome] at htext
      exact htext
    exact (Write.steering mutation u (itemId, itemRevision) env.now
      (lookupSteeringMutation_none hstored) htext hadmitted happlied hqueue).writes

end Morons
