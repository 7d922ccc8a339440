import Morons.Invariant.Growth

/-!
# Retries

A request identifier that was accepted is never acted on again: the same
submission is answered from its claim and from what its session is by then,
any other one conflicts, and both conflict once the session was deleted.
-/

namespace Morons

open Attempt

variable {env : Environment} {s t u : Store} {m m' : Submission} {outcome : Outcome} {c : Claim}

/-! ## First submissions -/

/-- The claims under which an operation looks an identifier up. -/
def claimsOf (s : Store) : MutationOperation → List Claim
  | .runInput => s.runInputRequests.map RunInputRequest.claim
  | .runCancel => s.runCancellationRequests.map RunCancellationRequest.claim
  | .localCommand => s.localCommands.map LocalCommand.claim
  | .localCommandCancel => s.localCommandCancellations.map LocalCommandCancellation.claim
  | .sessionRename => s.sessionRenameRequests.map SessionRenameRequest.claim
  | .sessionArchive => s.sessionArchiveRequests.map SessionArchiveRequest.claim
  | .sessionDelete => deleteClaims s
  | .steering => s.steeringMutationRequests.map SteeringMutationRequest.claim
  | .sessionCreate | .other _ => []

/-- What a row keeps of an answer. -/
def Outcome.receipt : Outcome → Receipt
  | .input accepted => .input accepted.run.sessionId accepted.run.id accepted.userMessageId
      accepted.run.acceptedSequence
  | .runCancellation result => .runCancellation result
  | .command accepted =>
    .command accepted.id accepted.sessionId accepted.command accepted.contextVisible
  | .commandCancellation result => .commandCancellation result.commandId result.intentApplied
  | .rename session => .rename session.id
  | .archive session _ => .archive session.id
  | .deletion _ => .deletion
  | .steering receipt => .steering receipt

/-- The claim that a submission makes. -/
def Submission.claim (m : Submission) (outcome : Outcome) : Claim :=
  ⟨m.requestId, m.sessionId, m.kind, m.fingerprint, m.fingerprint, outcome.receipt⟩

/-- The run that an accepted fact begins with. -/
def RunAcceptedFact.firstRun (f : RunAcceptedFact) : Run where
  id := f.runId
  sessionId := f.sessionId
  userMessageId := f.userMessageId
  binding := f.binding
  providerTurns := 0
  toolCalls := 0
  toolMutations := 0
  toolResultBytes := 0
  state := .accepted
  cancellationRequested := false
  failure := none
  acceptedSequence := f.factSequence
  updatedSequence := f.factSequence
  acceptedAtMilliseconds := f.acceptedAtMilliseconds
  updatedAtMilliseconds := f.acceptedAtMilliseconds

/-- The run of an answered input is that of a fact of the session. -/
def Outcome.Backed (s : Store) (sessionId : SessionId) : Outcome → Prop
  | .input accepted => ∃ f ∈ s.runAcceptedFacts, f.sessionId = sessionId ∧
      accepted.userMessageId = f.userMessageId ∧ accepted.run = f.firstRun
  | _ => True

/-- A submission was new and left its claim. -/
structure Claimed (s t : Store) (m : Submission) (outcome : Outcome) : Prop where
  claim : m.claim outcome ∈ claimsOf t m.kind
  found : (loadSession s m.sessionId).isSome
  deletes : m.kind ≠ .sessionDelete → t.sessionDeleteRequests = s.sessionDeleteRequests
  shows : outcome.Shows t
  backed : outcome.Backed t m.sessionId

theorem Claimed.paused (h : Claimed s t m outcome) (p : Paused t u) : Claimed s u m outcome := by
  have hclaim := h.claim
  have hshows := h.shows
  have hbacked := h.backed
  rw [p.frame]
  refine { h with claim := ?_, shows := ?_, backed := ?_ }
  · cases hkind : m.kind <;> rw [hkind] at hclaim <;> exact hclaim
  · cases outcome <;> exact hshows
  · cases outcome <;> exact hbacked

/-- The answer to an input comes from its request and its fact. -/
theorem acceptedRunFromRequest_firstRun (hid : Identified s) {r : RunInputRequest}
    {f : RunAcceptedFact} (hf : f ∈ s.runAcceptedFacts) (haccepted : r.AcceptedBy f)
    (newlyAccepted : Bool) : acceptedRunFromRequest s r newlyAccepted =
      .ok ⟨f.userMessageId, f.firstRun, newlyAccepted⟩ := by
  obtain ⟨hrun, hsession, hmessage, -⟩ := haccepted
  have hfound : Table.find RunAcceptedFact.runId r.runId s.runAcceptedFacts = some f :=
    (Table.find_iff hid.acceptedFacts.nodup).mpr ⟨hf, hrun⟩
  simp only [acceptedRunFromRequest, bind_ok, demand_ok, require_ok, pure_ok, exists_const]
  refine ⟨f, hfound, ⟨hsession, hmessage⟩, ?_⟩
  simp only [RunAcceptedFact.firstRun, hrun, hmessage]

theorem resolveExistingInput_fresh {requestId : MutationRequestId} {fingerprint : Fingerprint}
    {existing : Option AcceptedRun} (hfresh : loadMutationOperation s requestId = none)
    (h : resolveExistingInput s requestId fingerprint = .ok existing) : existing = none := by
  unfold resolveExistingInput at h
  rw [hfresh] at h
  split at h <;> simp_all

/-- A new input leaves its request and its fact, and is answered from them. -/
theorem acceptNewInput_receipt {requestId : MutationRequestId} {fingerprint : Fingerprint}
    {sessionId : SessionId} {text : String} {selection : RunModelSelection}
    {context : RunInputContext} {accepted : AcceptedRun}
    (h : acceptNewInput env s requestId fingerprint sessionId text selection context =
      .ok (accepted, t)) :
    (∃ r ∈ t.runInputRequests, (∃ f ∈ t.runAcceptedFacts, r.AcceptedBy f ∧
        loadRun t f.runId = some f.firstRun) ∧
      acceptedRunFromRequest t r true = .ok accepted ∧ r.requestId = requestId ∧
      r.fingerprint = fingerprint ∧ r.sessionId = sessionId) ∧
    (loadSession s sessionId).isSome ∧ t.sessionDeleteRequests = s.sessionDeleteRequests := by
  simp only [acceptNewInput, bind_ok, require_ok, demand_ok, refuse_ok, pure_ok, Prod.exists,
    nextSequence_ok, Option.map_eq_none_iff, exists_const] at h
  obtain ⟨-, -, -, -, session, hsession, directory, -, -, -, generation, -, -, -, -, state, -, -, -,
    -, skills, -, tokens, checkpoint, -, -, n₁, s₁, ⟨-, rfl, rfl⟩, n₂, s₂, ⟨-, rfl, rfl⟩, n₃, s₃,
    ⟨-, rfl, rfl⟩, answer, hanswer, hfinal⟩ := h
  obtain ⟨rfl, rfl⟩ := Prod.mk.inj hfinal
  refine ⟨⟨_, List.mem_cons_self .., ⟨_, List.mem_cons_self .., ⟨rfl, rfl, rfl, rfl⟩, ?_⟩, hanswer,
    rfl, rfl, rfl⟩, by rw [hsession]; rfl, rfl⟩
  exact (Table.find_cons ..).trans (if_pos rfl)

theorem acceptSessionInput_claimed {requestId : MutationRequestId} {fingerprint : Fingerprint}
    {sessionId : SessionId} {text : String} {selection : RunModelSelection}
    {context : RunInputContext} {accepted : AcceptedRun} (hidentified : Identified t)
    (hfresh : loadMutationOperation s requestId = none)
    (h : acceptSessionInput env s requestId fingerprint sessionId text selection context =
      .ok (accepted, t)) :
    Claimed s t (.acceptSessionInput requestId fingerprint sessionId text selection context)
      (.input accepted) := by
  simp only [acceptSessionInput, bind_ok] at h
  obtain ⟨-, -, -, -, -, -, existing, hexisting, h⟩ := h
  obtain rfl := resolveExistingInput_fresh hfresh hexisting
  obtain ⟨⟨r, hr, ⟨f, hf, haccepted, hrun⟩, hanswer, rfl, rfl, rfl⟩, hfound, hdeletes⟩ :=
    acceptNewInput_receipt h
  rw [acceptedRunFromRequest_firstRun hidentified hf haccepted, Except.ok.injEq] at hanswer
  subst hanswer
  obtain ⟨hid, hsession, hmessage, hsequence⟩ := haccepted
  refine ⟨List.mem_map.mpr ⟨r, hr, ?_⟩, hfound, fun _ => hdeletes, ⟨rfl, hrun⟩,
    ⟨f, hf, hsession, rfl, rfl⟩⟩
  simp only [RunInputRequest.claim, Submission.claim, Outcome.receipt, RunAcceptedFact.firstRun, hid,
    hsession, hmessage, hsequence]
  rfl

theorem cancelRun_claimed {requestId : MutationRequestId} {sessionId : SessionId} {runId : RunId}
    {result : RunCancellationResult} (hfresh : loadMutationOperation s requestId = none)
    (h : cancelRun env s requestId (.cancelRun sessionId runId) sessionId runId = .ok (result, t)) :
    Claimed s t (.cancelRun requestId sessionId runId) (.runCancellation result) := by
  simp only [cancelRun, bind_ok] at h
  obtain ⟨existing, hexisting, h⟩ := h
  have hnone : existing = none := by
    unfold resolveExistingCancellation at hexisting
    rw [hfresh] at hexisting
    split at hexisting <;> simp_all
  subst hnone
  simp only [insertCancellation, bind_ok, require_ok, demand_ok, pure_ok, Prod.exists,
    nextSequence_ok, exists_const, loadScopedRun_some] at h
  obtain ⟨hsession, run, ⟨hfound, hscope⟩, -, n, s₁, ⟨-, rfl, rfl⟩, m, s₂, ⟨-, rfl, rfl⟩, -, -, u,
    hu, h⟩ := h
  obtain ⟨rfl, rfl⟩ := Prod.mk.inj h
  have hid := loadRun_key hfound
  subst hid hscope
  have hcancelled : cancelled s requestId (.cancelRun run.sessionId run.id) run env.now = .ok _ :=
    cancelled_ok rfl hu
  refine Claimed.paused ?_ (cancelled_paused hcancelled)
  exact ⟨List.mem_cons_self .., hsession, fun _ => rfl, trivial, trivial⟩

theorem acceptLocalCommand_claimed {requestId : MutationRequestId} {sessionId : SessionId}
    {command : String} {contextVisible : Bool} {accepted : AcceptedLocalCommand}
    (hfresh : loadMutationOperation s requestId = none)
    (h : acceptLocalCommand env s requestId (.localCommand sessionId command contextVisible) sessionId
      command contextVisible = .ok (accepted, t)) :
    Claimed s t (.acceptLocalCommand requestId sessionId command contextVisible)
      (.command accepted) := by
  simp only [acceptLocalCommand, bind_ok] at h
  obtain ⟨existing, hexisting, h⟩ := h
  have hnone : existing = none := by
    unfold findLocalCommandRetry at hexisting
    rw [hfresh] at hexisting
    split at hexisting <;> simp_all
  subst hnone
  simp only [acceptNewCommand, bind_ok, demand_ok, require_ok, refuse_ok, pure_ok, Prod.exists,
    nextSequence_ok, exists_const, Option.map_eq_none_iff] at h
  obtain ⟨session, hsession, -, -, state, -, -, -, -, n, s₁, ⟨-, rfl, rfl⟩, m, s₂, ⟨-, rfl, rfl⟩, -,
    h⟩ := h
  obtain ⟨rfl, rfl⟩ := Prod.mk.inj h
  exact ⟨List.mem_cons_self .., Option.isSome_iff_exists.mpr ⟨_, hsession⟩, fun _ => rfl, rfl,
    trivial⟩

theorem cancelLocalCommand_claimed {requestId : MutationRequestId} {sessionId : SessionId}
    {commandId : LocalCommandId} {result : LocalCommandCancellationResult} (hsound : Sound s)
    (hfresh : loadMutationOperation s requestId = none)
    (h : cancelLocalCommand env s requestId (.cancelLocalCommand sessionId commandId) sessionId
      commandId = .ok (result, t)) :
    Claimed s t (.cancelLocalCommand requestId sessionId commandId)
      (.commandCancellation result) := by
  unfold cancelLocalCommand at h
  split at h
  · rename_i stored hstored
    obtain ⟨m, hm, hkey, -⟩ := hsound.registered.commandCancellations.registered stored
      (Table.find_mem hstored)
    exact absurd (hkey.trans (Table.find_key hstored)) ((loadMutationOperation_none.mp hfresh).1 m hm)
  · simp only [cancelNewCommand, bind_ok, demand_ok, require_ok, pure_ok, Prod.exists,
      nextSequence_ok, exists_const] at h
    obtain ⟨-, row, hrow, hsession, n, s₁, ⟨-, rfl, rfl⟩, m, s₂, ⟨-, rfl, rfl⟩, u, hu, h⟩ := h
    obtain ⟨rfl, rfl⟩ := Prod.mk.inj h
    have hfound : (loadSession s sessionId).isSome := by
      rw [loadSession, Table.find_isSome, ← hsession]
      exact hsound.occupied.commands row (Table.find_mem hrow)
    split at hu
    · rename_i happlied
      simp only [updateLocalCommand, bind_ok, require_ok, pure_ok, exists_const] at hu
      obtain ⟨-, rfl⟩ := hu
      refine ⟨List.mem_cons_self .., hfound, fun _ => rfl, ?_, trivial⟩
      obtain rfl := Table.find_key hrow
      have hrewritten := Table.find_rewritten (f := fun r : LocalCommand => { r with
        cancellationRequested := true
        updatedSequence := s.nextValue
        updatedAtMilliseconds := env.now }) hrow fun _ => rfl
      have hflag : (true : Bool) = (!row.state.isTerminal && !row.cancellationRequested ||
        row.cancellationRequested) := by rw [happlied]; rfl
      exact (congrArg (Option.map _) hrewritten).trans (congrArg some hflag)
    · rename_i hnot
      cases hu
      refine ⟨List.mem_cons_self .., hfound, fun _ => rfl, ?_, trivial⟩
      have hflag : row.cancellationRequested = (!row.state.isTerminal && !row.cancellationRequested ||
        row.cancellationRequested) := by rw [Bool.eq_false_iff.mpr hnot]; rfl
      exact (congrArg (Option.map _) hrow).trans (congrArg some hflag)

theorem renameSession_claimed {requestId : MutationRequestId} {sessionId : SessionId}
    {displayName : String} {session : Session} (hfresh : loadMutationOperation s requestId = none)
    (h : renameSession env s requestId (.renameSession sessionId displayName) sessionId displayName =
      .ok (session, t)) :
    Claimed s t (.renameSession requestId sessionId displayName) (.rename session) := by
  unfold renameSession at h
  rw [hfresh] at h
  split at h
  · contradiction
  · contradiction
  · cases h
  · simp only [bind_ok, require_ok, pure_ok, Prod.exists, nextSequence_ok, exists_const] at h
    obtain ⟨hfound, n, s₁, ⟨-, rfl, rfl⟩, -, session', hsession, h⟩ := h
    obtain ⟨rfl, rfl⟩ := Prod.mk.inj h
    have hloaded := (demand_ok ..).mp hsession
    have hid : session'.id = sessionId := Table.find_key hloaded
    subst hid
    exact ⟨List.mem_cons_self .., hfound, fun _ => rfl, hloaded, trivial⟩

theorem prepareSessionArchive_claimed {requestId : MutationRequestId} {sessionId : SessionId}
    {archived : Bool} {result : Session × Bool} (hfresh : loadMutationOperation s requestId = none)
    (h : prepareSessionArchive env s requestId (.archiveSession sessionId archived) sessionId
      archived = .ok (result, t)) :
    Claimed s t (.prepareSessionArchive requestId sessionId archived)
      (.archive result.1 result.2) := by
  unfold prepareSessionArchive at h
  rw [hfresh] at h
  split at h
  · contradiction
  · contradiction
  · cases h
  · simp only [bind_ok, demand_ok, pure_ok, Prod.exists, nextSequence_ok] at h
    obtain ⟨session, hfound, n, s₁, ⟨-, rfl, rfl⟩, u, hu, h⟩ := h
    obtain ⟨rfl, rfl⟩ := Prod.mk.inj h
    have hid : session.id = sessionId := Table.find_key hfound
    subst hid
    have harchive : requestArchive s requestId (.archiveSession session.id archived) session.id
      archived env.now = .ok u := hu
    refine Claimed.paused ?_ (requestArchive_paused harchive)
    exact ⟨List.mem_cons_self .., Option.isSome_iff_exists.mpr ⟨_, hfound⟩, fun _ => rfl,
      ⟨hfound, rfl⟩, trivial⟩

theorem prepareSessionDelete_claimed {requestId : MutationRequestId} {sessionId : SessionId}
    {complete : Bool} (hfresh : loadMutationOperation s requestId = none)
    (h : prepareSessionDelete env s requestId (.deleteSession sessionId) sessionId =
      .ok (complete, t)) :
    Claimed s t (.prepareSessionDelete requestId sessionId) (.deletion complete) := by
  unfold prepareSessionDelete at h
  rw [hfresh] at h
  split at h
  · contradiction
  · contradiction
  · cases h
  · simp only [bind_ok, demand_ok, require_ok, pure_ok, Prod.exists, nextSequence_ok,
      exists_const] at h
    obtain ⟨session, hfound, -, -, -, -, _, -, n, s₁, ⟨-, rfl, rfl⟩, -, h⟩ := h
    obtain ⟨rfl, rfl⟩ := Prod.mk.inj h
    exact ⟨List.mem_cons_self .., Option.isSome_iff_exists.mpr ⟨_, hfound⟩,
      fun hkind => absurd rfl hkind, rfl, trivial⟩

theorem mutateSteering_claimed {mutation : SteeringMutation} {skills : Option SteeringSkills}
    {receipt : SteeringReceipt} (hfresh : loadMutationOperation s mutation.requestId = none)
    (h : mutateSteering env s mutation skills = .ok (receipt, t)) :
    Claimed s t (.mutateSteering mutation skills) (.steering receipt) := by
  simp only [mutateSteering, bind_ok] at h
  obtain ⟨stored, hstored, h⟩ := h
  have hnone : stored = none := by
    simp only [lookupSteeringMutation, hfresh, bind_ok] at hstored
    obtain ⟨-, -, hstored⟩ := hstored
    split at hstored <;> simp_all
  subst hnone
  simp only [bind_ok, require_ok, pure_ok, Prod.exists, nextSequence_ok, exists_const] at h
  obtain ⟨_, -, _, -, _, hadmitted, n, s₁, ⟨-, rfl, rfl⟩, itemId, itemRevision, u, happlied, -,
    h⟩ := h
  obtain ⟨rfl, rfl⟩ := Prod.mk.inj h
  have hfound : (loadSession s mutation.sessionId).isSome := by
    simp only [admitSteeringChange, bind_ok, demand_ok] at hadmitted
    obtain ⟨session, hfound, -⟩ := hadmitted
    rw [hfound]
    rfl
  have hframe := (steering_frame happlied).2
  refine ⟨?_, hfound, fun _ => ?_, trivial, trivial⟩
  · exact List.mem_cons_self ..
  · rw [hframe]
    rfl

/-- **A submission that is accepted for the first time leaves its claim.** -/
theorem submit_claimed (hs : Sound s) (ht : Sound t)
    (hfresh : loadMutationOperation s m.requestId = none)
    (h : submit env s m = .ok (outcome, t)) : Claimed s t m outcome := by
  cases m with
  | acceptSessionInput =>
    simp only [submit, map_ok, Prod.exists, Prod.mk.injEq] at h
    obtain ⟨answer, v, h, rfl, rfl⟩ := h
    exact acceptSessionInput_claimed ht.identified hfresh h
  | cancelRun =>
    simp only [submit, map_ok, Prod.exists, Prod.mk.injEq] at h
    obtain ⟨answer, v, h, rfl, rfl⟩ := h
    exact cancelRun_claimed hfresh h
  | acceptLocalCommand =>
    simp only [submit, bind_ok, map_ok, Prod.exists, Prod.mk.injEq] at h
    obtain ⟨-, -, answer, v, h, rfl, rfl⟩ := h
    exact acceptLocalCommand_claimed hfresh h
  | cancelLocalCommand =>
    simp only [submit, map_ok, Prod.exists, Prod.mk.injEq] at h
    obtain ⟨answer, v, h, rfl, rfl⟩ := h
    exact cancelLocalCommand_claimed hs hfresh h
  | renameSession =>
    simp only [submit, map_ok, Prod.exists, Prod.mk.injEq] at h
    obtain ⟨answer, v, h, rfl, rfl⟩ := h
    exact renameSession_claimed hfresh h
  | prepareSessionArchive =>
    simp only [submit, map_ok, Prod.exists, Prod.mk.injEq] at h
    obtain ⟨answer, complete, v, h, rfl, rfl⟩ := h
    exact prepareSessionArchive_claimed hfresh h
  | prepareSessionDelete =>
    simp only [submit, map_ok, Prod.exists, Prod.mk.injEq] at h
    obtain ⟨answer, v, h, rfl, rfl⟩ := h
    exact prepareSessionDelete_claimed hfresh h
  | mutateSteering =>
    simp only [submit, map_ok, Prod.exists, Prod.mk.injEq] at h
    obtain ⟨answer, v, h, rfl, rfl⟩ := h
    exact mutateSteering_claimed hfresh h

/-! ## Later submissions -/

theorem find_claim {Row : Type} {claim : Row → Claim} {key : Row → MutationRequestId}
    {rows : List Row} {requestId : MutationRequestId} (hkey : ∀ r, (claim r).requestId = key r)
    (hrows : Table.Keyed key rows) (hc : c ∈ rows.map claim) (hid : c.requestId = requestId) :
    ∃ r, Table.find key requestId rows = some r ∧ claim r = c := by
  obtain ⟨r, hr, rfl⟩ := List.mem_map.mp hc
  exact ⟨r, (Table.find_iff hrows).mpr ⟨hr, (hkey r).symm.trans hid⟩, rfl⟩

theorem find_unclaimed {Row : Type} {claim : Row → Claim} {key : Row → MutationRequestId}
    {rows : List Row} {requestId : MutationRequestId} (hkey : ∀ r, (claim r).requestId = key r)
    (hnone : ∀ c ∈ rows.map claim, c.requestId ≠ requestId) :
    Table.find key requestId rows = none :=
  Table.find_none.mpr fun r hr => hkey r ▸ hnone _ (List.mem_map_of_mem hr)

theorem claimsOf_kind {kind : MutationOperation} (hc : c ∈ claimsOf s kind) : c.kind = kind := by
  cases kind with
  | sessionCreate | other => cases hc
  | _ =>
    obtain ⟨r, -, rfl⟩ := List.mem_map.mp hc
    rfl

theorem mem_claimsOf (hc : c ∈ sessionClaims s) : c ∈ claimsOf s c.kind := by
  rcases mem_sessionClaims.mp hc with ⟨r, hr, rfl⟩ | ⟨r, hr, rfl⟩ | ⟨r, hr, rfl⟩ | ⟨r, hr, rfl⟩ |
    ⟨r, hr, rfl⟩ | ⟨r, hr, rfl⟩ | ⟨r, hr, rfl⟩ <;> exact List.mem_map_of_mem hr

theorem sessionClaims_of_kind {kind : MutationOperation} (hc : c ∈ claimsOf s kind)
    (hkind : kind ≠ .sessionDelete) : c ∈ sessionClaims s := by
  rw [mem_sessionClaims]
  cases kind with
  | runInput => exact Or.inl (List.mem_map.mp hc)
  | runCancel => exact Or.inr (Or.inl (List.mem_map.mp hc))
  | localCommand => exact Or.inr (Or.inr (Or.inl (List.mem_map.mp hc)))
  | localCommandCancel => exact Or.inr (Or.inr (Or.inr (Or.inl (List.mem_map.mp hc))))
  | sessionRename => exact Or.inr (Or.inr (Or.inr (Or.inr (Or.inl (List.mem_map.mp hc)))))
  | sessionArchive =>
    exact Or.inr (Or.inr (Or.inr (Or.inr (Or.inr (Or.inl (List.mem_map.mp hc))))))
  | steering => exact Or.inr (Or.inr (Or.inr (Or.inr (Or.inr (Or.inr (List.mem_map.mp hc))))))
  | sessionDelete => exact absurd rfl hkind
  | sessionCreate | other => cases hc

/-- An identifier with a claim is registered under its operation, and not buried. -/
theorem operation_of_claim (h : Registered s) {kind : MutationOperation} (hc : c ∈ claimsOf s kind) :
    loadMutationOperation s c.requestId = some kind ∧ ¬ Buried s c.requestId := by
  obtain ⟨m, hm, hid, hop⟩ : ∃ m ∈ s.mutationRequests, m.requestId = c.requestId ∧
      m.operation = kind := by
    by_cases hkind : kind = .sessionDelete
    · subst hkind
      obtain ⟨r, hr, rfl⟩ := List.mem_map.mp hc
      exact h.deletes.registered r hr
    · have hregistered := (registered_claim h (sessionClaims_of_kind hc hkind)).1
      rwa [claimsOf_kind hc] at hregistered
  constructor
  · have hfound : Table.find MutationRequest.requestId c.requestId s.mutationRequests = some m :=
      (Table.find_iff h.requests).mpr ⟨hm, hid⟩
    rw [loadMutationOperation, hfound, ← hop]
    rfl
  · rintro ⟨b, hb, hburied⟩
    exact h.buried b hb m hm (hid.trans hburied.symm)

/-- An identifier that is known, but not to the operation, conflicts. -/
theorem submit_foreign {k : MutationOperation}
    (hknown : loadMutationOperation u m.requestId = some k)
    (hnone : ∀ c ∈ claimsOf u m.kind, c.requestId ≠ m.requestId) (hchecked : m.check env = .ok ()) :
    submit env u m = .error .requestConflict := by
  cases m with
  | acceptSessionInput requestId fingerprint sessionId text selection context =>
    simp only [Submission.check, bind_ok] at hchecked
    obtain ⟨_, htext, _, hselection, hintegrity⟩ := hchecked
    have hfind : Table.find RunInputRequest.requestId requestId u.runInputRequests = none :=
      find_unclaimed (fun _ => rfl) hnone
    have hknown : loadMutationOperation u requestId = some k := hknown
    simp only [submit, acceptSessionInput, htext, hselection, hintegrity, resolveExistingInput, hfind,
      hknown]
    rfl
  | cancelRun requestId sessionId runId =>
    have hfind : loadCancellationRequest u requestId = none := find_unclaimed (fun _ => rfl) hnone
    have hknown : loadMutationOperation u requestId = some k := hknown
    simp only [submit, cancelRun, resolveExistingCancellation, hfind, hknown]
    rfl
  | acceptLocalCommand requestId sessionId command contextVisible =>
    have hvalid : validateLocalCommand command = .ok () := hchecked
    have hfind : loadLocalCommandByRequest u requestId = none :=
      find_unclaimed (fun _ => rfl) hnone
    have hknown : loadMutationOperation u requestId = some k := hknown
    simp only [submit, acceptLocalCommand, hvalid, findLocalCommandRetry, hfind, hknown]
    rfl
  | cancelLocalCommand requestId sessionId commandId =>
    have hfind : Table.find LocalCommandCancellation.requestId requestId
        u.localCommandCancellations = none := find_unclaimed (fun _ => rfl) hnone
    have hknown : loadMutationOperation u requestId = some k := hknown
    simp only [submit, cancelLocalCommand, hfind, cancelNewCommand, hknown]
    rfl
  | renameSession requestId sessionId displayName =>
    have hfind : Table.find SessionRenameRequest.requestId requestId u.sessionRenameRequests =
        none := find_unclaimed (fun _ => rfl) hnone
    have hknown : loadMutationOperation u requestId = some k := hknown
    simp only [submit, renameSession, hfind, hknown]
    rfl
  | prepareSessionArchive requestId sessionId archived =>
    have hfind : loadArchiveRequest u requestId = none := find_unclaimed (fun _ => rfl) hnone
    have hknown : loadMutationOperation u requestId = some k := hknown
    simp only [submit, prepareSessionArchive, hfind, hknown]
    rfl
  | prepareSessionDelete requestId sessionId =>
    have hfind : loadDeleteRequest u requestId = none := find_unclaimed (fun _ => rfl) hnone
    have hknown : loadMutationOperation u requestId = some k := hknown
    simp only [submit, prepareSessionDelete, hfind, hknown]
    rfl
  | mutateSteering mutation skills =>
    have hvalid : mutation.requestId ≠ 0 := (require_ok ..).mp hchecked
    have hfind : loadSteeringRequest u mutation.requestId = none :=
      find_unclaimed (fun _ => rfl) hnone
    have hknown : loadMutationOperation u mutation.requestId = some k := hknown
    simp only [submit, mutateSteering, lookupSteeringMutation, require, if_pos hvalid, hfind, hknown]
    rfl

/-- The session of a request that was lodged can still be loaded. -/
theorem find_created (hs : Sound u) {sessionId : SessionId} (hcreated : Created u sessionId) :
    ∃ session, loadSession u sessionId = some session :=
  Option.isSome_iff_exists.mp (hs.aligned.session_of_created hcreated)

/-- A repeated input is answered by the run that its fact begins with. -/
theorem acceptedRunFromRequest_again (hs : Sound u) (hl : Lodged u) {r : RunInputRequest}
    (hr : r ∈ u.runInputRequests) {first : AcceptedRun} {sessionId : SessionId}
    (hreceipt : r.claim.receipt = (Outcome.input first).receipt)
    (hbacked : (Outcome.input first).Backed u sessionId) :
    acceptedRunFromRequest u r false = .ok { first with newlyAccepted := false } := by
  obtain ⟨f, hf, haccepted⟩ := hl.inputs r hr
  obtain ⟨f', hf', -, hmessage, hrun⟩ := hbacked
  have hid : r.runId = f'.runId := by
    rw [(Receipt.input.inj hreceipt).2.1, hrun]
    rfl
  obtain rfl : f = f' := Table.eq_of_key hs.identified.acceptedFacts.nodup hf hf'
    (haccepted.1.trans hid)
  rw [acceptedRunFromRequest_firstRun hs.identified hf haccepted, hmessage, hrun]

/-- How an identifier is answered that the operation knows: the submission with the
fingerprint of its request again, and any other with a conflict. -/
structure Answered (env : Environment) (u : Store) (m : Submission) (outcome : Outcome)
    (fingerprint : Fingerprint) : Prop where
  same : m.fingerprint = fingerprint →
    ∃ again, submit env u m = .ok (again, u) ∧ outcome.Retold u m.requestId again
  other : m.fingerprint ≠ fingerprint → submit env u m = .error .requestConflict

section Known

variable {requestId : MutationRequestId} {sessionId : SessionId}

theorem acceptSessionInput_known (hs : Sound u) (hl : Lodged u) {r : RunInputRequest}
    (hknown : loadMutationOperation u requestId = some .runInput)
    (hfind : Table.find RunInputRequest.requestId requestId u.runInputRequests = some r)
    (hreceipt : r.claim.receipt = outcome.receipt) {backing : SessionId}
    (hbacked : outcome.Backed u backing) {fingerprint : Fingerprint} {text : String}
    {selection : RunModelSelection} {context : RunInputContext}
    (hchecked : (Submission.acceptSessionInput requestId fingerprint sessionId text selection
      context).check env = .ok ()) :
    Answered env u (.acceptSessionInput requestId fingerprint sessionId text selection context)
      outcome r.fingerprint := by
  simp only [Submission.check, bind_ok] at hchecked
  obtain ⟨_, htext, _, hselection, hintegrity⟩ := hchecked
  constructor
  · intro hsame
    have hsame : fingerprint = r.fingerprint := hsame
    cases outcome with
    | input first =>
      have hagain := acceptedRunFromRequest_again hs hl (Table.find_mem hfind) hreceipt hbacked
      refine ⟨_, ?_, rfl⟩
      simp only [submit, acceptSessionInput, htext, hselection, hintegrity, resolveExistingInput,
        hfind, hknown, require, if_pos hsame.symm, hagain]
      rfl
    | _ => cases hreceipt
  · intro hother
    have hother : ¬ r.fingerprint = fingerprint := Ne.symm hother
    simp only [submit, acceptSessionInput, htext, hselection, hintegrity, resolveExistingInput,
      hfind, hknown, require, if_neg hother]
    rfl

theorem cancelRun_known {r : RunCancellationRequest}
    (hknown : loadMutationOperation u requestId = some .runCancel)
    (hfind : loadCancellationRequest u requestId = some r)
    (hreceipt : r.claim.receipt = outcome.receipt) {runId : RunId} :
    Answered env u (.cancelRun requestId sessionId runId) outcome r.fingerprint := by
  constructor
  · intro hsame
    have hsame : .cancelRun sessionId runId = r.fingerprint := hsame
    cases outcome with
    | runCancellation first =>
      obtain rfl : r.result = first := Receipt.runCancellation.inj hreceipt
      refine ⟨_, ?_, rfl⟩
      simp only [submit, cancelRun, resolveExistingCancellation, hfind, hknown, require,
        if_pos hsame.symm]
      rfl
    | _ => cases hreceipt
  · intro hother
    have hother : ¬ r.fingerprint = .cancelRun sessionId runId := Ne.symm hother
    simp only [submit, cancelRun, resolveExistingCancellation, hfind, hknown, require,
      if_neg hother]
    rfl

theorem acceptLocalCommand_known {r : LocalCommand}
    (hknown : loadMutationOperation u requestId = some .localCommand)
    (hfind : loadLocalCommandByRequest u requestId = some r)
    (hvalues : Fingerprint.localCommand r.sessionId r.commandText r.contextVisible = r.fingerprint)
    (hreceipt : r.claim.receipt = outcome.receipt) {command : String} {contextVisible : Bool}
    (hvalid : validateLocalCommand command = .ok ()) :
    Answered env u (.acceptLocalCommand requestId sessionId command contextVisible) outcome
      r.fingerprint := by
  constructor
  · intro hsame
    have hsame : Fingerprint.localCommand sessionId command contextVisible = r.fingerprint := hsame
    obtain ⟨rfl, rfl, rfl⟩ := Fingerprint.localCommand.inj (hvalues.trans hsame.symm)
    have hretry : findLocalCommandRetry u requestId
        (.localCommand r.sessionId r.commandText r.contextVisible) r.sessionId r.commandText
        r.contextVisible = .ok (some ⟨r.commandId, r.sessionId, r.commandText, r.contextVisible,
          false⟩) := by
      rw [findLocalCommandRetry, hfind, hknown]
      exact if_pos ⟨rfl, rfl, rfl, rfl⟩
    cases outcome with
    | command first =>
      obtain ⟨id, session, text, shown, newly⟩ := first
      obtain ⟨rfl, rfl, rfl, rfl⟩ := Receipt.command.inj hreceipt
      refine ⟨_, ?_, rfl⟩
      simp only [submit, acceptLocalCommand, hvalid, hretry]
      rfl
    | _ => cases hreceipt
  · intro hother
    have hother : ¬ Fingerprint.localCommand sessionId command contextVisible = r.fingerprint :=
      hother
    have hretry : findLocalCommandRetry u requestId
        (.localCommand sessionId command contextVisible) sessionId command contextVisible =
        .error .requestConflict := by
      rw [findLocalCommandRetry, hfind, hknown]
      refine if_neg fun h => ?_
      obtain ⟨rfl, rfl, rfl, -⟩ := h
      exact hother hvalues
    simp only [submit, acceptLocalCommand, hvalid, hretry]
    rfl

theorem cancelLocalCommand_known {r : LocalCommandCancellation}
    (hfind : Table.find LocalCommandCancellation.requestId requestId u.localCommandCancellations =
      some r)
    (hvalues : Fingerprint.cancelLocalCommand r.sessionId r.commandId = r.fingerprint)
    (hreceipt : r.claim.receipt = outcome.receipt) {commandId : LocalCommandId} :
    Answered env u (.cancelLocalCommand requestId sessionId commandId) outcome r.fingerprint := by
  constructor
  · intro hsame
    have hsame : Fingerprint.cancelLocalCommand sessionId commandId = r.fingerprint := hsame
    obtain ⟨rfl, rfl⟩ := Fingerprint.cancelLocalCommand.inj (hvalues.trans hsame.symm)
    cases outcome with
    | commandCancellation first =>
      obtain ⟨hcommand, happlied⟩ := Receipt.commandCancellation.inj hreceipt
      refine ⟨.commandCancellation ⟨first.commandId, r.intentApplied, false⟩, ?_, r.intentApplied,
        rfl, fun hrequested => happlied.trans hrequested⟩
      simp only [submit, cancelLocalCommand, hfind, require, and_self, and_true,
        if_pos hsame.symm, ← hcommand]
      rfl
    | _ => cases hreceipt
  · intro hother
    have hother : ¬ (r.fingerprint = .cancelLocalCommand sessionId commandId ∧
      r.sessionId = sessionId ∧ r.commandId = commandId) := fun h => hother h.1.symm
    simp only [submit, cancelLocalCommand, hfind, require, if_neg hother]
    rfl

theorem renameSession_known (hs : Sound u) (hl : Lodged u) {r : SessionRenameRequest}
    (hknown : loadMutationOperation u requestId = some .sessionRename)
    (hfind : Table.find SessionRenameRequest.requestId requestId u.sessionRenameRequests = some r)
    (hvalues : Fingerprint.renameSession r.sessionId r.displayName = r.fingerprint)
    (hreceipt : r.claim.receipt = outcome.receipt) {displayName : String} :
    Answered env u (.renameSession requestId sessionId displayName) outcome r.fingerprint := by
  constructor
  · intro hsame
    have hsame : Fingerprint.renameSession sessionId displayName = r.fingerprint := hsame
    obtain ⟨rfl, rfl⟩ := Fingerprint.renameSession.inj (hvalues.trans hsame.symm)
    obtain ⟨session, hsession⟩ := find_created hs (hl.renames r (Table.find_mem hfind))
    cases outcome with
    | rename first =>
      have hfirst : r.sessionId = first.id := Receipt.rename.inj hreceipt
      refine ⟨.rename session, ?_, session, hfirst ▸ hsession, rfl⟩
      simp only [submit, renameSession, hfind, hknown, require, and_self, and_true,
        if_pos hsame.symm, loadRequiredSession, hsession, demand]
      rfl
    | _ => cases hreceipt
  · intro hother
    have hother : ¬ (r.fingerprint = .renameSession sessionId displayName ∧
      r.sessionId = sessionId ∧ r.displayName = displayName) := fun h => hother h.1.symm
    simp only [submit, renameSession, hfind, hknown, require, if_neg hother]
    rfl

theorem prepareSessionArchive_known (hs : Sound u) (hl : Lodged u) {r : SessionArchiveRequest}
    (hknown : loadMutationOperation u requestId = some .sessionArchive)
    (hfind : loadArchiveRequest u requestId = some r)
    (hvalues : Fingerprint.archiveSession r.sessionId r.archived = r.fingerprint)
    (hreceipt : r.claim.receipt = outcome.receipt) {archived : Bool} :
    Answered env u (.prepareSessionArchive requestId sessionId archived) outcome
      r.fingerprint := by
  constructor
  · intro hsame
    have hsame : Fingerprint.archiveSession sessionId archived = r.fingerprint := hsame
    obtain ⟨rfl, rfl⟩ := Fingerprint.archiveSession.inj (hvalues.trans hsame.symm)
    obtain ⟨session, hsession⟩ := find_created hs (hl.archives r (Table.find_mem hfind))
    cases outcome with
    | archive first complete =>
      have hfirst : r.sessionId = first.id := Receipt.archive.inj hreceipt
      refine ⟨.archive session r.complete, ?_, session, r, hfirst ▸ hsession, hfind, rfl⟩
      simp only [submit, prepareSessionArchive, hfind, hknown, require, and_self, and_true,
        if_pos hsame.symm, loadRequiredSession, hsession, demand]
      rfl
    | _ => cases hreceipt
  · intro hother
    have hother : ¬ (r.fingerprint = .archiveSession sessionId archived ∧
      r.sessionId = sessionId ∧ r.archived = archived) := fun h => hother h.1.symm
    simp only [submit, prepareSessionArchive, hfind, hknown, require, if_neg hother]
    rfl

theorem prepareSessionDelete_known {r : SessionDeleteRequest}
    (hknown : loadMutationOperation u requestId = some .sessionDelete)
    (hfind : loadDeleteRequest u requestId = some r)
    (hvalues : Fingerprint.deleteSession r.sessionId = r.fingerprint)
    (hreceipt : r.claim.receipt = outcome.receipt) :
    Answered env u (.prepareSessionDelete requestId sessionId) outcome r.fingerprint := by
  constructor
  · intro hsame
    have hsame : Fingerprint.deleteSession sessionId = r.fingerprint := hsame
    obtain rfl := Fingerprint.deleteSession.inj (hvalues.trans hsame.symm)
    cases outcome with
    | deletion complete =>
      refine ⟨.deletion (r.state = .complete), ?_, r, hfind, rfl⟩
      simp only [submit, prepareSessionDelete, hfind, hknown, require, and_true,
        if_pos hsame.symm]
      rfl
    | _ => cases hreceipt
  · intro hother
    have hother : ¬ (r.fingerprint = .deleteSession sessionId ∧ r.sessionId = sessionId) :=
      fun h => hother h.1.symm
    simp only [submit, prepareSessionDelete, hfind, hknown, require, if_neg hother]
    rfl

theorem mutateSteering_known {mutation : SteeringMutation} {r : SteeringMutationRequest}
    (hvalid : mutation.requestId ≠ 0)
    (hknown : loadMutationOperation u mutation.requestId = some .steering)
    (hfind : loadSteeringRequest u mutation.requestId = some r)
    (hreceipt : r.claim.receipt = outcome.receipt) {skills : Option SteeringSkills} :
    Answered env u (.mutateSteering mutation skills) outcome r.fingerprint := by
  constructor
  · intro hsame
    have hsame : mutation.fingerprint = r.fingerprint := hsame
    cases outcome with
    | steering first =>
      obtain rfl : r.receipt = first := Receipt.steering.inj hreceipt
      refine ⟨_, ?_, rfl⟩
      simp only [submit, mutateSteering, lookupSteeringMutation, hfind, hknown, require,
        if_pos hvalid, if_pos hsame.symm]
      rfl
    | _ => cases hreceipt
  · intro hother
    have hother : ¬ r.fingerprint = mutation.fingerprint := Ne.symm hother
    simp only [submit, mutateSteering, lookupSteeringMutation, hfind, hknown, require,
      if_pos hvalid, if_neg hother]
    rfl

end Known

/-- An identifier that the operation knows is answered again. -/
theorem submit_known (hs : Sound u) (hl : Lodged u) (hc : c ∈ claimsOf u m.kind)
    (hid : c.requestId = m.requestId) (hcolumns : c.columns = c.fingerprint)
    (hreceipt : c.receipt = outcome.receipt) {sessionId : SessionId}
    (hbacked : outcome.Backed u sessionId) (hchecked : m.check env = .ok ()) :
    Answered env u m outcome c.fingerprint := by
  have hknown := (operation_of_claim hs.registered hc).1
  rw [hid] at hknown
  cases m with
  | acceptSessionInput =>
    obtain ⟨r, hfind, rfl⟩ := find_claim (fun _ => rfl) hs.registered.inputs.keyed hc hid
    exact acceptSessionInput_known hs hl hknown hfind hreceipt hbacked hchecked
  | cancelRun =>
    obtain ⟨r, hfind, rfl⟩ := find_claim (fun _ => rfl) hs.registered.cancellations.keyed hc hid
    exact cancelRun_known hknown hfind hreceipt
  | acceptLocalCommand =>
    obtain ⟨r, hfind, rfl⟩ := find_claim (fun _ => rfl) hs.registered.commands.keyed hc hid
    exact acceptLocalCommand_known hknown hfind hcolumns hreceipt hchecked
  | cancelLocalCommand =>
    obtain ⟨r, hfind, rfl⟩ := find_claim (fun _ => rfl) hs.registered.commandCancellations.keyed hc
      hid
    exact cancelLocalCommand_known hfind hcolumns hreceipt
  | renameSession =>
    obtain ⟨r, hfind, rfl⟩ := find_claim (fun _ => rfl) hs.registered.renames.keyed hc hid
    exact renameSession_known hs hl hknown hfind hcolumns hreceipt
  | prepareSessionArchive =>
    obtain ⟨r, hfind, rfl⟩ := find_claim (fun _ => rfl) hs.registered.archives.keyed hc hid
    exact prepareSessionArchive_known hs hl hknown hfind hcolumns hreceipt
  | prepareSessionDelete =>
    obtain ⟨r, hfind, rfl⟩ := find_claim (fun _ => rfl) hs.registered.deletes.keyed hc hid
    exact prepareSessionDelete_known hknown hfind hcolumns hreceipt
  | mutateSteering =>
    obtain ⟨r, hfind, rfl⟩ := find_claim (fun _ => rfl) hs.registered.steering.keyed hc hid
    exact mutateSteering_known ((require_ok ..).mp hchecked) hknown hfind hreceipt

/-- Arguments that the operation refuses on their own. -/
theorem submit_refused {e : PersistenceError} (h : m.check env = .error e) :
    submit env u m = .error e := by
  cases m with
  | acceptSessionInput requestId fingerprint sessionId text selection context =>
    simp only [Submission.check] at h
    simp only [submit, acceptSessionInput]
    cases htext : validateUserText text with
    | error e' =>
      rw [htext] at h
      cases h
      rfl
    | ok =>
      cases hselection : validateModelSelection selection with
      | error e' =>
        rw [htext, hselection] at h
        cases h
        rfl
      | ok =>
        cases hintegrity : env.contextIntegrity with
        | error e' =>
          rw [htext, hselection, hintegrity] at h
          cases h
          rfl
        | ok =>
          rw [htext, hselection, hintegrity] at h
          cases h
  | acceptLocalCommand requestId sessionId command contextVisible =>
    have hvalid : validateLocalCommand command = .error e := h
    simp only [submit, hvalid]
    rfl
  | mutateSteering mutation skills =>
    obtain ⟨hzero, rfl⟩ := (require_error ..).mp h
    simp only [submit, mutateSteering, lookupSteeringMutation, require, if_neg hzero]
    rfl
  | _ => cases h

/-- While the claim of a submission is there, its identifier is answered again. -/
theorem submit_again (hs : Sound u) (hl : Lodged u) (hc : m.claim outcome ∈ claimsOf u m.kind)
    (hbacked : outcome.Backed u m.sessionId) (hid : m'.requestId = m.requestId)
    (hchecked : m'.check env = .ok ()) :
    if m'.Repeats m then
      ∃ again, submit env u m' = .ok (again, u) ∧ outcome.Retold u m.requestId again
    else submit env u m' = .error .requestConflict := by
  by_cases hkind : m'.kind = m.kind
  · have hknown := submit_known (m := m') hs hl (hkind ▸ hc) hid.symm rfl rfl hbacked hchecked
    by_cases hsame : m'.fingerprint = m.fingerprint
    · have hrepeats : m'.Repeats m := ⟨hkind, hsame⟩
      rw [if_pos hrepeats, ← hid]
      exact hknown.same hsame
    · have hother : ¬ m'.Repeats m := fun h => hsame h.2
      rw [if_neg hother]
      exact hknown.other hsame
  · have hother : ¬ m'.Repeats m := fun h => hkind h.1
    have hoperation : loadMutationOperation u m.requestId = some m.kind :=
      (operation_of_claim hs.registered hc).1
    rw [if_neg hother]
    refine submit_foreign (k := m.kind) (hid ▸ hoperation) (fun c' hc' hsame => hkind ?_)
      hchecked
    have hoperation' := (operation_of_claim hs.registered hc').1
    have hsame : c'.requestId = m.requestId := hsame.trans hid
    rw [hsame, hoperation] at hoperation'
    exact (Option.some.inj hoperation').symm

/-- An identifier of a deleted session conflicts. -/
theorem submit_buried (hs : Sound u) (hburied : Buried u m.requestId)
    (hchecked : m.check env = .ok ()) : submit env u m = .error .requestConflict := by
  obtain ⟨op, hop⟩ : ∃ op, loadMutationOperation u m.requestId = some op := by
    refine Option.ne_none_iff_exists'.mp fun hnone => ?_
    obtain ⟨b, hb, hid⟩ := hburied
    exact (loadMutationOperation_none.mp hnone).2 b hb hid
  refine submit_foreign hop (fun c hc hid => ?_) hchecked
  exact (operation_of_claim hs.registered hc).2 (hid ▸ hburied)

/-! ## Runs -/

/-- Any number of operations. -/
theorem any_writes (hrun : Relation.ReflTransGen (Step Any) s t) : Writes .none s t := by
  induction hrun with
  | refl => exact .refl
  | tail _ hstep ih =>
    obtain ⟨env, op, -, hexecute⟩ := hstep
    exact ih.trans (execute_writes op.obeys_none hexecute)

theorem Reachable.run (h : Reachable Any s) (hrun : Relation.ReflTransGen (Step Any) s t) :
    Reachable Any t := by
  induction hrun with
  | refl => exact h
  | tail _ hstep ih => exact ih.next hstep

/-- A session that can be loaded was not cleaned. -/
theorem not_cleaned_of_found (hs : Sound s) (hl : Lodged s) {sessionId : SessionId}
    (hfound : (loadSession s sessionId).isSome) : sessionCleaned s sessionId = false := by
  obtain ⟨f, hf, hsession⟩ := hs.aligned.created_of_session hfound
  obtain ⟨c, hc, hcreation, -⟩ := hs.aligned.ready f hf
  refine List.any_eq_false.mpr fun r hr hcleaned => ?_
  simp only [Bool.and_eq_true, decide_eq_true_eq] at hcleaned
  exact hl.cleaned r hr hcleaned.2 c hc (hcreation.trans (hsession.trans hcleaned.1.symm))

/-- Where the claim of a submission is after any number of operations. -/
theorem claim_lasts (hs : Sound s) (hl : Lodged s) (ht : Sound t) (hclaimed : Claimed s t m outcome)
    (hrun : Relation.ReflTransGen (Step Any) t u) :
    if m.kind = .sessionDelete ∨ sessionCleaned u m.sessionId = false then
      m.claim outcome ∈ claimsOf u m.kind
    else Buried u m.requestId := by
  have hwrites := any_writes hrun
  by_cases hkind : m.kind = .sessionDelete
  · have hc := hclaimed.claim
    rw [hkind] at hc
    rw [if_pos (Or.inl hkind), hkind]
    exact hwrites.keepsDeletions ht hc
  · have hkept : sessionCleaned t m.sessionId = false := by
      have hbefore := not_cleaned_of_found hs hl hclaimed.found
      rw [sessionCleaned, hclaimed.deletes hkind]
      exact hbefore
    have hc : m.claim outcome ∈ sessionClaims t := sessionClaims_of_kind hclaimed.claim hkind
    rcases hwrites.outlives (Or.inl ⟨hkept, hc⟩) ht with ⟨hkept, hc⟩ | ⟨hcleaned, hburied⟩
    · have hkept : sessionCleaned u m.sessionId = false := hkept
      rw [if_pos (Or.inr hkept)]
      exact mem_claimsOf hc
    · rw [if_neg]
      · exact hburied
      · rintro (hdelete | hkept)
        · exact hkind hdelete
        · have hboth : true = false := hcleaned.symm.trans hkept
          contradiction

/-- The fact of an input lasts as long as its session. -/
theorem backed_lasts (ht : Sound t) (hclaimed : Claimed s t m outcome)
    (hrun : Relation.ReflTransGen (Step Any) t u)
    (hkept : m.kind = .sessionDelete ∨ sessionCleaned u m.sessionId = false) :
    outcome.Backed u m.sessionId := by
  have hbacked := hclaimed.backed
  rcases hkept with hkind | hkept
  · have hclaim := hclaimed.claim
    rw [hkind] at hclaim
    obtain ⟨r, -, hr⟩ := List.mem_map.mp hclaim
    have hreceipt : Receipt.deletion = outcome.receipt := congrArg Claim.receipt hr
    cases outcome with
    | input => cases hreceipt
    | _ => trivial
  · cases outcome with
    | input accepted =>
      obtain ⟨f, hf, hsession, hanswer⟩ := hbacked
      have hextends := (any_writes hrun).extends ht hkept
      have hlater := hextends.accepted.subset (List.mem_filter.mpr ⟨hf, decide_eq_true hsession⟩)
      exact ⟨f, List.mem_of_mem_filter hlater, hsession, hanswer⟩
    | _ => trivial

/-- **A mutation happens at most once.**  However the system went on after a
submission was accepted, a later one with its identifier changes nothing.  The
same submission is told the first answer again, with the state its session is
in by then, and any other one conflicts; once the session was cleaned only its
deletion is still answered. -/
theorem mutation_accepted_once {env' : Environment} (hreach : Reachable Any s)
    (hfresh : loadMutationOperation s m.requestId = none)
    (hfirst : submit env s m = .ok (outcome, t)) (hrun : Relation.ReflTransGen (Step Any) t u)
    (hid : m'.requestId = m.requestId) :
    outcome.Shows t ∧
    (∀ answer v, transact u (submit env' u m') = (answer, v) → v = u) ∧
    (∀ e, m'.check env' = .error e → submit env' u m' = .error e) ∧
    (m'.check env' = .ok () →
      if m'.Repeats m ∧ (m.kind = .sessionDelete ∨ sessionCleaned u m.sessionId = false) then
        ∃ again, submit env' u m' = .ok (again, u) ∧ outcome.Retold u m.requestId again
      else submit env' u m' = .error .requestConflict) := by
  have hreach' : Reachable Any t := hreach.next ⟨env, m.operation, trivial, submit_execute hfirst⟩
  have hreach'' := hreach'.run hrun
  have hclaimed := submit_claimed hreach.sound hreach'.sound hfresh hfirst
  have hlasts := claim_lasts hreach.sound hreach.lodged hreach'.sound hclaimed hrun
  have hanswer : m'.check env' = .ok () →
      if m'.Repeats m ∧ (m.kind = .sessionDelete ∨ sessionCleaned u m.sessionId = false) then
        ∃ again, submit env' u m' = .ok (again, u) ∧ outcome.Retold u m.requestId again
      else submit env' u m' = .error .requestConflict := by
    intro hchecked
    by_cases hkept : m.kind = .sessionDelete ∨ sessionCleaned u m.sessionId = false
    · rw [if_pos hkept] at hlasts
      simp only [hkept, and_true]
      exact submit_again hreach''.sound hreach''.lodged hlasts
        (backed_lasts hreach'.sound hclaimed hrun hkept) hid hchecked
    · rw [if_neg hkept] at hlasts
      rw [if_neg fun h => hkept h.2]
      exact submit_buried hreach''.sound (hid ▸ hlasts) hchecked
  refine ⟨hclaimed.shows, fun answer v h => ?_, fun e => submit_refused, hanswer⟩
  cases hchecked : m'.check env' with
  | error e =>
    rw [submit_refused hchecked] at h
    exact (Prod.mk.inj h).2.symm
  | ok =>
    have hsplit := hanswer hchecked
    split at hsplit
    · obtain ⟨again, hagain, -⟩ := hsplit
      rw [hagain] at h
      exact (Prod.mk.inj h).2.symm
    · rw [hsplit] at h
      exact (Prod.mk.inj h).2.symm

/-- A session that is created, renamed and archived, and its deletion, with the
cleanup of its rows and the end of the deletion. -/
def newSessionSteps : List (Environment × Operation) := createSession (.open 10) 1 "/work"

def renamingSteps : List (Environment × Operation) := [(.open 11, .renameSession 2 1 "first")]

def archivingSteps : List (Environment × Operation) :=
  [(.open 12, .prepareSessionArchive 3 1 true), (.open 12, .completeSessionArchive 3)]

def deletingSteps : List (Environment × Operation) := [(.open 13, .prepareSessionDelete 4 1)]

def cleaningSteps : List (Environment × Operation) := [(.open 14, .cleanSessionDatabase 4)]

def removingSteps : List (Environment × Operation) := [(.open 15, .completeSessionDelete 4)]

def newSession : Store := executed newSessionSteps

def renamedSession : Store := executed (newSessionSteps ++ renamingSteps)

def archivedSession : Store := executed (newSessionSteps ++ renamingSteps ++ archivingSteps)

def deletingSession : Store :=
  executed (newSessionSteps ++ renamingSteps ++ archivingSteps ++ deletingSteps)

def cleanedSession : Store :=
  executed (newSessionSteps ++ renamingSteps ++ archivingSteps ++ deletingSteps ++ cleaningSteps)

def removedSession : Store :=
  executed (newSessionSteps ++ renamingSteps ++ archivingSteps ++ deletingSteps ++ cleaningSteps ++
    removingSteps)

/-- The session as its rename leaves it. -/
def namedSession : Session := ⟨1, 2, some "first", some "/work", 1, 8, 10, false⟩

theorem submit_executed {steps : List (Environment × Operation)}
    (hall : (executeAll Store.empty (steps ++ [(env, m.operation)])).isOk = true)
    (hanswer : ((submit env (executed steps) m).map Prod.fst).toOption = some outcome) :
    submit env (executed steps) m = .ok (outcome, executed (steps ++ [(env, m.operation)])) := by
  cases hsubmit : submit env (executed steps) m with
  | error e =>
    rw [hsubmit] at hanswer
    cases hanswer
  | ok answered =>
    obtain ⟨answer, v⟩ := answered
    rw [hsubmit] at hanswer
    obtain rfl : answer = outcome := Option.some.inj hanswer
    obtain ⟨w, hw, hend⟩ := (sweep_cons_ok _ _ _ _ _).mp (executeAll_executed hall)
    have hexecute : execute env (executed steps) m.operation = .ok w := hw
    rw [submit_execute hsubmit, Except.ok.injEq] at hexecute
    rw [hexecute, Except.ok.inj hend]

theorem archivedSession_run : Relation.ReflTransGen (Step Any) renamedSession archivedSession :=
  run_executed (by decide +kernel)

theorem deletingSession_run : Relation.ReflTransGen (Step Any) archivedSession deletingSession :=
  run_executed (by decide +kernel)

theorem cleanedSession_run : Relation.ReflTransGen (Step Any) deletingSession cleanedSession :=
  run_executed (by decide +kernel)

theorem removedSession_run : Relation.ReflTransGen (Step Any) cleanedSession removedSession :=
  run_executed (by decide +kernel)

theorem newSession_renamed : submit (.open 11) newSession (.renameSession 2 1 "first") =
    .ok (.rename namedSession, renamedSession) :=
  submit_executed (by decide +kernel) (by decide +kernel)

/-- The rename is told with the session as it is until that is deleted, and
conflicts after. -/
theorem rename_answered_until_cleanup :
    submit (.open 20) archivedSession (.renameSession 2 1 "first") =
      .ok (.rename { namedSession with updatedSequence := 9, archived := true }, archivedSession) ∧
    submit (.open 20) cleanedSession (.renameSession 2 1 "first") = .error .requestConflict := by
  have hreach : Reachable Any newSession := reachable_executed_any (by decide +kernel)
  have hfresh : loadMutationOperation newSession
      (Submission.renameSession 2 1 "first").requestId = none := by
    decide +kernel
  have hchecked : (Submission.renameSession 2 1 "first").check (.open 20) = .ok () := rfl
  constructor
  · have hkept : sessionCleaned archivedSession 1 = false := by decide +kernel
    have hloaded : loadSession archivedSession 1 =
        some { namedSession with updatedSequence := 9, archived := true } := by
      decide +kernel
    obtain ⟨-, -, -, hanswer⟩ :=
      mutation_accepted_once hreach hfresh newSession_renamed archivedSession_run rfl
    obtain ⟨again, hagain, session, hsession, rfl⟩ :=
      (if_pos ⟨⟨rfl, rfl⟩, Or.inr hkept⟩).mp (hanswer hchecked)
    obtain rfl := Option.some.inj (hsession.symm.trans hloaded)
    exact hagain
  · have hrun := (archivedSession_run.trans deletingSession_run).trans cleanedSession_run
    have hcleaned : sessionCleaned cleanedSession 1 = true := by decide +kernel
    obtain ⟨-, -, -, hanswer⟩ :=
      mutation_accepted_once hreach hfresh newSession_renamed hrun rfl
    refine (if_neg ?_).mp (hanswer hchecked)
    rintro ⟨-, hdelete | hkept⟩
    · contradiction
    · exact absurd (hcleaned.symm.trans hkept) (by decide)

/-- A repetition whose claim is there leaves the store as it is. -/
theorem submit_repeated (hreach : Reachable Any u) (hclaim : m.claim outcome ∈ claimsOf u m.kind)
    (hbacked : outcome.Backed u m.sessionId) (hchecked : m.check env = .ok ()) {again : Outcome}
    (hanswer : ((submit env u m).map Prod.fst).toOption = some again) :
    submit env u m = .ok (again, u) := by
  obtain ⟨again', hagain, -⟩ := (if_pos ⟨rfl, rfl⟩).mp
    (submit_again hreach.sound hreach.lodged hclaim hbacked rfl hchecked)
  rw [hagain] at hanswer
  rw [hagain, ← Option.some.inj hanswer]

/-- A repeated rename and a repeated archive tell the session as it is by then,
not as the first answer did; the identifier of a deletion is answered, not
refused, once the session is cleaned; and other arguments can be refused
before the identifier is looked up. -/
theorem deletion_answered_after_cleanup :
    Reachable Any newSession ∧ loadMutationOperation newSession 2 = none ∧
    submit (.open 11) newSession (.renameSession 2 1 "first") =
      .ok (.rename namedSession, renamedSession) ∧
    Relation.ReflTransGen (Step Any) renamedSession archivedSession ∧
    submit (.open 20) archivedSession (.renameSession 2 1 "first") =
      .ok (.rename { namedSession with updatedSequence := 9, archived := true }, archivedSession) ∧
    loadMutationOperation renamedSession 3 = none ∧
    ((submit (.open 12) renamedSession (.prepareSessionArchive 3 1 true)).map
      Prod.fst).toOption = some (.archive namedSession false) ∧
    submit (.open 20) archivedSession (.prepareSessionArchive 3 1 true) =
      .ok (.archive { namedSession with updatedSequence := 9, archived := true } true,
        archivedSession) ∧
    loadMutationOperation archivedSession 4 = none ∧
    submit (.open 13) archivedSession (.prepareSessionDelete 4 1) =
      .ok (.deletion false, deletingSession) ∧
    Relation.ReflTransGen (Step Any) deletingSession removedSession ∧
    sessionCleaned removedSession 1 = true ∧
    submit (.open 20) removedSession (.prepareSessionDelete 4 1) =
      .ok (.deletion true, removedSession) ∧
    submit (.open 20) archivedSession (.acceptLocalCommand 2 1 "" true) =
      .error (.invalidInput "a local command must be nonempty and within the command limit") := by
  have harchived : Reachable Any archivedSession := reachable_executed_any (by decide +kernel)
  have hremoved : Reachable Any removedSession := reachable_executed_any (by decide +kernel)
  have hrename : (Submission.renameSession 2 1 "first").claim (.rename namedSession) ∈
      claimsOf archivedSession .sessionRename := by
    decide +kernel
  have harchive : (Submission.prepareSessionArchive 3 1 true).claim (.archive namedSession false) ∈
      claimsOf archivedSession .sessionArchive := by
    decide +kernel
  have hdelete : (Submission.prepareSessionDelete 4 1).claim (.deletion false) ∈
      claimsOf removedSession .sessionDelete := by
    decide +kernel
  exact ⟨reachable_executed_any (by decide +kernel), by decide +kernel, newSession_renamed,
    archivedSession_run, submit_repeated harchived hrename trivial rfl (by decide +kernel),
    by decide +kernel, by decide +kernel,
    submit_repeated harchived harchive trivial rfl (by decide +kernel), by decide +kernel,
    submit_executed (by decide +kernel) (by decide +kernel),
    cleanedSession_run.trans removedSession_run, by decide +kernel,
    submit_repeated hremoved hdelete trivial rfl (by decide +kernel), rfl⟩

end Morons
