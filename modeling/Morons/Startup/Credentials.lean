import Morons.Invariant.Credential

/-!
# Recovery of credential requests

Recovery finds at most one request without an outcome.  It completes the
request when the file carries its content, and else marks it as not applied;
either way the startup checks pass.
-/

namespace Morons

open Attempt

variable {r : CredentialMutationRequest} {rows : List CredentialMutationRequest}
  {kind : CredentialKind} {b t : Backend} {state : CredentialRequestState}
  {result : Option CredentialIdentityStatus} {factKind : CredentialFactKind}
  {auditKind : CredentialAuditKind}

/-! ## Recovery -/

/-- Rows with an outcome stay. -/
def Kept (b t : Backend) : Prop :=
  ∀ r ∈ b.credentialMutationRequests, r.state.isTerminal = true → r ∈ t.credentialMutationRequests

theorem Kept.refl (b : Backend) : Kept b b := fun _ hr _ => hr

theorem Kept.trans {u : Backend} (h : Kept b t) (k : Kept t u) : Kept b u :=
  fun r hr hterminal => k r (h r hr hterminal) hterminal

/-- What recovery leaves. -/
structure Recovered (b t : Backend) : Prop where
  durable : Durable t
  settled : Settled t
  files : t.files = b.files
  credentials : t.credentials = b.credentials
  kept : Kept b t

theorem kept_moved (hrows : b.credentialMutationRequests = r :: rows)
    (hopen : r.state.isTerminal = false) :
    Kept b (b.moved r rows state result factKind auditKind) := by
  intro x hx hterminal
  rw [hrows] at hx
  rcases List.mem_cons.mp hx with rfl | hx
  · rw [hopen] at hterminal
    cases hterminal
  · exact List.mem_cons_of_mem _ hx

/-- The newest request has got its outcome. -/
theorem Durable.recovered (h : Durable b) (hrows : b.credentialMutationRequests = r :: rows)
    (hopen : r.state.isTerminal = false) (hterminal : state.isTerminal = true)
    (hmoved : Durable (b.moved r rows state result factKind auditKind)) :
    Recovered b (b.moved r rows state result factKind auditKind) where
  durable := hmoved
  settled := by
    have hold := h.older
    rw [hrows] at hold
    intro x hx
    rcases List.mem_cons.mp hx with rfl | hx
    · exact hterminal
    · exact hold x hx
  files := rfl
  credentials := rfl
  kept := kept_moved hrows hopen

/-- A request that the file does not carry leaves its kind as it was. -/
theorem Durable.refuse_recovered (h : Durable b)
    (hrows : b.credentialMutationRequests = r :: rows) (hopen : r.state.isTerminal = false)
    (hwritten : Written b r.kind b.credentialMutationRequests) :
    Recovered b (b.moved r rows .notApplied none .notApplied .notApplied) := by
  have hmove : Moves r.state .notApplied .notApplied .notApplied := by
    cases hstate : r.state with
    | prepared => exact .refuse
    | dispatched => exact .revoke
    | completed | notApplied =>
      rw [hstate] at hopen
      cases hopen
  have hsame : ∀ kind, completedOf kind ({ r with state := .notApplied, result := none } :: rows) =
      completedOf kind (r :: rows) := by
    intro kind
    have hne : r.state ≠ .completed := by
      intro e
      rw [e] at hopen
      cases hopen
    rw [completedOf_cons_neg (by simp), completedOf_cons_neg (by simp [hne])]
  refine h.recovered hrows hopen rfl (h.moved hrows hmove rfl fun kind => Or.inl ?_)
  unfold Written
  rw [hsame, ← hrows]
  rcases h.written kind with hw | ⟨x, older, hx, -, hkind, -⟩
  · exact hw
  · have hhead : x = r := (List.cons.inj (hx.symm.trans hrows)).1
    subst hhead
    subst hkind
    exact hwritten

/-- The newest request is in the file already. -/
theorem Durable.complete_moved (h : Durable b) (hrows : b.credentialMutationRequests = r :: rows)
    (hstate : r.state = .dispatched)
    (hwritten : (b.files r.kind).map CredentialState.face =
      r.face :: (completedOf r.kind rows).map CredentialMutationRequest.face) :
    Recovered b (b.moved r rows .completed
      (some ⟨decide (r.operation = .set), r.expectedGeneration + 1⟩) .completed .completed) := by
  have hmove : Moves r.state .completed .completed .completed := hstate ▸ .complete
  have hopen : r.state.isTerminal = false := by rw [hstate]; rfl
  refine h.recovered hrows hopen rfl (h.moved hrows hmove (by simp) fun kind => Or.inl ?_)
  unfold Written
  by_cases hkind : r.kind = kind
  · subst hkind
    have hcons : completedOf r.kind ({ r with
        state := .completed
        result := some ⟨decide (r.operation = .set), r.expectedGeneration + 1⟩ } :: rows) =
        { r with
          state := .completed
          result := some ⟨decide (r.operation = .set), r.expectedGeneration + 1⟩ } ::
            completedOf r.kind rows := completedOf_cons_pos rfl rfl
    rw [hcons, List.map_cons]
    exact hwritten
  · rw [completedOf_cons_neg (by simp [hkind])]
    have hne : r.state ≠ .completed := by simp [hstate]
    rcases h.written kind with hw | ⟨x, older, hx, -, hk, -⟩
    · rw [Written, hrows, completedOf_cons_neg (by simp [hne])] at hw
      exact hw
    · have hhead : x = r := (List.cons.inj (hx.symm.trans hrows)).1
      exact absurd (hhead ▸ hk) hkind

/-- **One request is recovered by what the file says.** -/
theorem Durable.recover_request (h : Durable b) (hc : Current b)
    (hrows : b.credentialMutationRequests = r :: rows) (hopen : r.state.isTerminal = false) :
    ∃ t, b.recoverCredentialMutation r = .ok t ∧ Recovered b t := by
  unfold Backend.recoverCredentialMutation
  cases hstate : r.state with
  | prepared =>
    refine ⟨_, h.notApplied_ok hrows hopen, h.refuse_recovered hrows hopen ?_⟩
    rcases h.written r.kind with hw | ⟨x, older, hx, hdispatched, -, -⟩
    · exact hw
    · have hhead : x = r := (List.cons.inj (hx.symm.trans hrows)).1
      rw [← hhead, hdispatched] at hstate
      cases hstate
  | dispatched =>
    have hgeneration := h.generation_ok (r := r) (hrows ▸ List.mem_cons_self ..)
    have hidentity : b.credentialIdentity r.kind = (b.content r.kind).status := by
      rw [Backend.credentialIdentity, hc r.kind]
    rcases h.written r.kind with hw | ⟨x, older, hx, -, -, hw⟩
    · -- The file is at the generation the request expects.
      have hcontent := (hw.content h.chained).1
      have hexpected : (b.content r.kind).generation = r.expectedGeneration := by
        have hchain := h.chained
        rw [hrows] at hchain hcontent
        rw [hcontent, completedOf_cons_neg (by simp [hstate]), hchain.1]
      have hnot : b.installed r (r.expectedGeneration + 1) = false := by
        refine Bool.eq_false_iff.mpr fun hinstalled => ?_
        have hface := congrArg CredentialFace.generation (installed_iff.mp hinstalled)
        rw [hc r.kind] at hface
        have hgen : (b.content r.kind).generation = r.expectedGeneration + 1 := hface
        omega
      refine ⟨_, ?_, h.refuse_recovered hrows hopen hw⟩
      simp only [hgeneration, bind_ok, Except.ok.injEq, exists_eq_left', hnot, Bool.false_eq_true,
        if_false]
      rw [if_pos (by rw [hidentity]; exact hexpected)]
      exact h.notApplied_ok hrows hopen
    · -- The file carries the request's content.
      obtain ⟨rfl, rfl⟩ := List.cons.inj (hx.symm.trans hrows)
      have hface : (b.content x.kind).face = x.face := by
        cases hfiles : b.files x.kind with
        | nil =>
          rw [hfiles] at hw
          cases hw
        | cons c contents =>
          rw [hfiles] at hw
          have hcontent : b.content x.kind = c := by simp [Backend.content, Backend.file, hfiles]
          rw [hcontent]
          exact (List.cons.inj hw).1
      have hinstalled : b.installed x (x.expectedGeneration + 1) = true := by
        rw [installed_iff, hc x.kind]
        exact hface
      refine ⟨_, ?_, h.complete_moved hrows hstate hw⟩
      simp only [hgeneration, bind_ok, Except.ok.injEq, exists_eq_left', hinstalled, if_true,
        Prod.exists, pure_ok]
      exact ⟨_, _, h.complete_ok hrows (Same.refl x) hstate hinstalled, rfl⟩
  | completed | notApplied =>
    rw [hstate] at hopen
    cases hopen

/-- Only the newest request is ever open. -/
theorem Durable.incomplete (h : Durable b) :
    (Settled b ∧ b.loadIncompleteCredentialRequests = []) ∨
      ∃ r rows, b.credentialMutationRequests = r :: rows ∧ r.state.isTerminal = false ∧
        b.loadIncompleteCredentialRequests = [r] := by
  have hopen : ∀ r : CredentialMutationRequest,
      (decide (r.state = .prepared) || decide (r.state = .dispatched)) = !r.state.isTerminal := by
    intro r
    cases r.state <;> rfl
  have hold := h.older
  unfold Settled Backend.loadIncompleteCredentialRequests
  simp only [hopen]
  cases hrows : b.credentialMutationRequests with
  | nil => exact Or.inl ⟨by simp, by simp⟩
  | cons r rows =>
    rw [hrows] at hold
    have hrest : rows.filter (fun r => !r.state.isTerminal) = [] :=
      List.filter_eq_nil_iff.mpr fun x hx => by simp [hold x hx]
    cases hterminal : r.state.isTerminal with
    | true =>
      refine Or.inl ⟨?_, ?_⟩
      · intro x hx
        rcases List.mem_cons.mp hx with rfl | hx
        · exact hterminal
        · exact hold x hx
      · rw [List.filter_cons_of_neg (by simp [hterminal]), hrest]
        simp
    | false =>
      refine Or.inr ⟨r, rows, rfl, hterminal, ?_⟩
      rw [List.filter_cons_of_pos (by simp [hterminal]), hrest]
      simp

/-- **Recovery succeeds** in a process that has read the files. -/
theorem Durable.recover_ok (h : Durable b) (hc : Current b) :
    ∃ t, b.recoverCredentialMutations = (.ok (), t) ∧ Recovered b t ∧ (Settled b → t = b) := by
  have hchecked : (do
      b.ensureConsistent .openCode
      b.ensureConsistent .openAiChatGpt
      b.validateCredentialRequestRecords) = Except.ok () := by
    simp only [bind_ok]
    exact ⟨(), hc.ensure h .openCode, (), hc.ensure h .openAiChatGpt, h.records_valid⟩
  unfold Backend.recoverCredentialMutations
  simp only [hchecked]
  rcases h.incomplete with ⟨hs, hnone⟩ | ⟨r, rows, hrows, hopen, hone⟩
  · rw [hnone]
    refine ⟨b, ?_, ⟨h, hs, rfl, rfl, Kept.refl b⟩, fun _ => rfl⟩
    rw [Backend.recoverRequests, h.state_valid hs hc]
  · obtain ⟨t, ht, hrecovered⟩ := h.recover_request hc hrows hopen
    have hct : Current t := by
      intro kind
      rw [hrecovered.credentials, hc kind]
      simp only [Backend.content, Backend.file, hrecovered.files]
    refine ⟨t, ?_, hrecovered, fun hs => ?_⟩
    · rw [hone, Backend.recoverRequests, ht]
      simp only [Backend.recoverRequests, hrecovered.durable.state_valid hrecovered.settled hct]
    · have hterminal := hs r (hrows ▸ List.mem_cons_self ..)
      rw [hopen] at hterminal
      cases hterminal

theorem Durable.withCredentials (h : Durable b) (credentials : CredentialKind → CredentialStore) :
    Durable { b with credentials := credentials } :=
  { h with
    recorded := fun r hr =>
      { h.recorded r hr with } }

/-- **A restart succeeds** after whatever happened. -/
theorem Durable.restart_ok (h : Durable b) :
    ∃ t, b.restart = (.ok (), t) ∧ Durable t ∧ Settled t ∧ Current t ∧ t.files = b.files ∧
      Kept b t := by
  obtain ⟨t, ht, hrecovered, -⟩ := (h.withCredentials fun kind => ⟨b.content kind, true⟩).recover_ok
    fun _ => rfl
  refine ⟨t, ht, hrecovered.durable, hrecovered.settled, fun kind => ?_, hrecovered.files,
    hrecovered.kept⟩
  rw [hrecovered.credentials]
  simp only [Backend.content, Backend.file, hrecovered.files]

/-- A process that does not trust its memory does nothing. -/
theorem Durable.recover_spec (h : Durable b) (ht : Trusted b) :
    ∃ result t, b.recoverCredentialMutations = (result, t) ∧ Durable t ∧ Trusted t ∧ Kept b t ∧
      (result = .ok () → Settled t ∧ Current t) := by
  by_cases hc : ∀ kind, (b.credentials kind).consistent = true
  · have hcurrent : Current b := by
      intro kind
      have hstate := ht kind (hc kind)
      have hconsistent := hc kind
      rw [← hstate, ← hconsistent]
    obtain ⟨t, hrecover, hrecovered, -⟩ := h.recover_ok hcurrent
    have hct : Current t := by
      intro kind
      rw [hrecovered.credentials, hcurrent kind]
      simp only [Backend.content, Backend.file, hrecovered.files]
    refine ⟨_, t, hrecover, hrecovered.durable, fun kind _ => ?_, hrecovered.kept,
      fun _ => ⟨hrecovered.settled, hct⟩⟩
    rw [hct kind]
  · obtain ⟨kind, hflag⟩ := not_forall.mp hc
    have herror : ∃ e, (do
        b.ensureConsistent .openCode
        b.ensureConsistent .openAiChatGpt
        b.validateCredentialRequestRecords) = Except.error e := by
      cases hresult : (do
          b.ensureConsistent .openCode
          b.ensureConsistent .openAiChatGpt
          b.validateCredentialRequestRecords) with
      | error e => exact ⟨e, rfl⟩
      | ok u =>
        simp only [bind_ok, Backend.ensureConsistent, require_ok, exists_const] at hresult
        have hboth : b.credentialConsistent kind = true := by
          cases kind with
          | openCode => exact hresult.1
          | openAiChatGpt => exact hresult.2.1
        rw [h.consistent kind (ht kind)] at hboth
        exact absurd hboth hflag
    obtain ⟨e, he⟩ := herror
    refine ⟨.error e, b, ?_, h, ht, Kept.refl b, fun hok => by cases hok⟩
    simp only [Backend.recoverCredentialMutations, he]

end Morons
