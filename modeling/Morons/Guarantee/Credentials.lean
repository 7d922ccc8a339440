import Morons.Startup.Credentials

/-!
# Credential requests are crash consistent

A request may run to its end, fail, or die with its process at any point; the
database and the files stay `Durable`, and what a restart makes of them is
decided by the file alone.
-/

namespace Morons

open Attempt Backend

variable {r : CredentialMutationRequest} {rows : List CredentialMutationRequest}
  {kind : CredentialKind} {b t : Backend} {state : CredentialRequestState}
  {result : Option CredentialIdentityStatus} {factKind : CredentialFactKind}
  {auditKind : CredentialAuditKind}

/-! ## A request -/

/-- A fresh request expects the generation of its file. -/
theorem lookup_none {m : CredentialMutation} (h : b.lookupCredentialMutation m = .ok none) :
    loadMutationOperation b.store m.requestId = none ∧
      (b.credentialIdentity m.update.kind).generation = m.expectedGeneration := by
  unfold Backend.lookupCredentialMutation at h
  split at h
  · simp only [bind_ok, pure_ok, reduceCtorEq, and_false] at h
    obtain ⟨_, -, _, -, _, -, _, h⟩ := h
    exact h.elim
  · rename_i hfresh
    simp only [bind_ok, require_ok, pure_ok, exists_const] at h
    exact ⟨hfresh, h.1⟩

/-- The row of a fresh request. -/
def CredentialMutation.request (m : CredentialMutation) (sequence now : Nat) :
    CredentialMutationRequest :=
  ⟨m.requestId, m.update.kind, m.update.operation, m.expectedGeneration, sequence, now, .prepared,
    none⟩

theorem Durable.prepare (h : Durable b) (hs : Settled b) (hc : Current b)
    {env : CredentialEnvironment} {m : CredentialMutation} {request : CredentialMutationRequest}
    (hlookup : b.lookupCredentialMutation m = .ok none)
    (hprepare : b.prepareCredentialMutation env m.requestId m.update.kind m.update.operation
      m.expectedGeneration = .ok (request, t)) :
    request = m.request b.store.nextValue env.now ∧ Durable t ∧
      t.credentialMutationRequests = request :: b.credentialMutationRequests ∧
      t.files = b.files ∧ t.credentials = b.credentials := by
  obtain ⟨hfresh, hgeneration⟩ := lookup_none hlookup
  simp only [Backend.prepareCredentialMutation, bind_ok, require_ok, pure_ok, Prod.exists,
    nextSequence_ok, exists_const, Prod.mk.injEq] at hprepare
  obtain ⟨-, hfew, n, s₁, ⟨-, rfl, rfl⟩, k, s₂, ⟨-, rfl, rfl⟩, rfl, rfl⟩ := hprepare
  have hunregistered := (loadMutationOperation_none.mp hfresh).1
  have hnew : ∀ x ∈ b.credentialMutationRequests, x.requestId ≠ m.requestId := by
    intro x hx e
    obtain ⟨row, hrow, rfl⟩ := h.registered x hx
    exact hunregistered _ hrow e
  have hexpected : m.expectedGeneration =
      (completedOf m.update.kind b.credentialMutationRequests).length := by
    have hcontent := ((h.settled_written hs m.update.kind).content h.chained).1
    rw [← hgeneration, ← hcontent, Backend.credentialIdentity, hc m.update.kind]
    rfl
  have hroom := h.room
  refine ⟨rfl, ?_, rfl, rfl, rfl⟩
  exact
    { registry := List.nodup_cons.mpr ⟨fun hin => by
        obtain ⟨row, hrow, e⟩ := List.mem_map.mp hin
        exact hunregistered row hrow e, h.registry⟩
      keyed := List.nodup_cons.mpr ⟨fun hin => by
        obtain ⟨x, hx, e⟩ := List.mem_map.mp hin
        exact hnew x hx e, h.keyed⟩
      numbered := h.numbered.cons le_rfl (by
        show b.store.nextValue < b.store.nextValue + 2
        omega)
      registered := by
        intro x hx
        rcases List.mem_cons.mp hx with rfl | hx
        · exact ⟨_, List.mem_cons_self .., rfl⟩
        · obtain ⟨row, hrow, e⟩ := h.registered x hx
          exact ⟨row, List.mem_cons_of_mem _ hrow, e⟩
      backed := by
        intro row hrow hop
        rcases List.mem_cons.mp hrow with rfl | hrow
        · exact ⟨_, List.mem_cons_self .., rfl⟩
        · obtain ⟨x, hx, e⟩ := h.backed row hrow hop
          exact ⟨x, List.mem_cons_of_mem _ hx, e⟩
      few := by
        rw [List.length_cons]
        omega
      room := by
        have howed : CredentialRequestState.prepared.owed = 4 := rfl
        simp only [List.head?_cons, Option.map_some, Option.getD_some, List.length_cons,
          insertMutationRequest, howed]
        omega
      chained := ⟨hexpected, h.chained⟩
      recorded := by
        have haudits : ∀ id k, Backend.auditCount { b with
            credentialAuditFacts :=
              ⟨b.store.nextValue + 1, m.requestId, .accepted⟩ :: b.credentialAuditFacts } id k =
            b.auditCount id k + if m.requestId = id ∧ CredentialAuditKind.accepted = k then 1
              else 0 := by
          intro id k
          simp [Backend.auditCount, List.countP_cons]
        intro x hx
        rcases List.mem_cons.mp hx with rfl | hx
        · have hnofact : ∀ k, b.factCount m.requestId k = 0 := by
            intro k
            refine List.countP_eq_zero.mpr fun f hf hk => ?_
            simp only [Bool.and_eq_true, decide_eq_true_eq] at hk
            obtain ⟨x, hx, e⟩ := h.facts f hf
            exact hnew x hx (e.trans hk.1)
          have hnoaudit : ∀ k, b.auditCount m.requestId k = 0 := by
            intro k
            refine List.countP_eq_zero.mpr fun a ha hk => ?_
            simp only [Bool.and_eq_true, decide_eq_true_eq] at hk
            obtain ⟨x, hx, e⟩ := h.audits a ha
            exact hnew x hx (e.trans hk.1)
          refine ⟨by simp, fun f hf hid => ?_, ?_, ?_, by simp, fun _ => hnofact _, ?_, ?_, ?_, ?_⟩
          · obtain ⟨x, hx, e⟩ := h.facts f hf
            exact absurd (e.trans hid) (hnew x hx)
          · exact (haudits m.requestId .accepted).trans (by simp [hnoaudit])
          · exact (hnofact _).trans ((haudits m.requestId .dispatched).trans (by simp [hnoaudit])).symm
          · exact hnofact _
          · exact (haudits m.requestId .completed).trans (by simp [hnoaudit])
          · exact hnofact _
          · exact (haudits m.requestId .notApplied).trans (by simp [hnoaudit])
        · have hne : m.requestId ≠ x.requestId := fun e => hnew x hx e.symm
          have hsame : ∀ k, Backend.auditCount { b with
              credentialAuditFacts :=
                ⟨b.store.nextValue + 1, m.requestId, .accepted⟩ :: b.credentialAuditFacts }
                x.requestId k = b.auditCount x.requestId k := by
            intro k
            rw [haudits]
            simp [hne]
          have hold := h.recorded x hx
          exact
            { hold with
              accepted := (hsame _).trans hold.accepted
              dispatches := hold.dispatches.trans (hsame _).symm
              completedAudits := (hsame _).trans hold.completedAudits
              notAppliedAudits := (hsame _).trans hold.notAppliedAudits }
      results := by
        intro x hx hne
        rcases List.mem_cons.mp hx with rfl | hx
        · rfl
        · exact h.results x hx hne
      older := hs
      facts := fun f hf => by
        obtain ⟨x, hx, e⟩ := h.facts f hf
        exact ⟨x, List.mem_cons_of_mem _ hx, e⟩
      audits := by
        intro a ha
        rcases List.mem_cons.mp ha with rfl | ha
        · exact ⟨_, List.mem_cons_self .., rfl⟩
        · obtain ⟨x, hx, e⟩ := h.audits a ha
          exact ⟨x, List.mem_cons_of_mem _ hx, e⟩
      written := fun kind => Or.inl (by
        have hw := h.settled_written hs kind
        unfold Written at hw ⊢
        rw [completedOf_cons_neg (by simp)]
        exact hw) }

/-- The dispatched request of a fresh mutation, with all files as they were. -/
structure Dispatched (b : Backend) (m : CredentialMutation) (r : CredentialMutationRequest)
    (rows : List CredentialMutationRequest) : Prop where
  durable : Durable b
  current : Current b
  requests : b.credentialMutationRequests = r :: rows
  state : r.state = .dispatched
  requestId : r.requestId = m.requestId
  kind : r.kind = m.update.kind
  operation : r.operation = m.update.operation
  expectedGeneration : r.expectedGeneration = m.expectedGeneration
  written : ∀ kind, Written b kind (r :: rows)

/-- A prepared request can always be dispatched. -/
theorem Durable.dispatch (h : Durable b) (hs : Settled b) (hc : Current b)
    {env : CredentialEnvironment} {m : CredentialMutation} {request : CredentialMutationRequest}
    (hlookup : b.lookupCredentialMutation m = .ok none)
    (hprepare : b.prepareCredentialMutation env m.requestId m.update.kind m.update.operation
      m.expectedGeneration = .ok (request, t)) :
    ∃ u, t.dispatchCredentialMutation request = .ok u ∧
      Dispatched u m { request with state := .dispatched } b.credentialMutationRequests ∧
      Kept b u := by
  obtain ⟨hrequest, hdurable, hrows, hfiles, hcredentials⟩ := h.prepare hs hc hlookup hprepare
  have hstate : request.state = .prepared := by rw [hrequest]; rfl
  have hresult : request.result = none := by rw [hrequest]; rfl
  have hwritten : ∀ kind, Written t kind ({ request with state := .dispatched, result := none } ::
      b.credentialMutationRequests) := by
    intro kind
    have hw := h.settled_written hs kind
    unfold Written at hw ⊢
    rw [completedOf_cons_neg (by simp), hfiles]
    exact hw
  have hmoved : Durable (t.moved request b.credentialMutationRequests .dispatched none .dispatched
      .dispatched) :=
    hdurable.moved hrows (hstate ▸ Moves.dispatch) rfl fun kind => Or.inl (hwritten kind)
  refine ⟨_, hdurable.dispatch_ok hrows (Same.refl request) hstate, ?_, ?_⟩
  · have hsame : ({ request with state := .dispatched } : CredentialMutationRequest) =
        { request with state := .dispatched, result := none } := by rw [hresult]
    rw [hsame]
    exact
      { durable := hmoved
        current := fun kind => by
          show t.credentials kind = ⟨t.content kind, true⟩
          rw [hcredentials, hc kind]
          simp only [content, file, hfiles]
        requests := rfl
        state := rfl
        requestId := by rw [hrequest]; rfl
        kind := by rw [hrequest]; rfl
        operation := by rw [hrequest]; rfl
        expectedGeneration := by rw [hrequest]; rfl
        written := hwritten }
  · intro x hx _
    exact List.mem_cons_of_mem _ hx

namespace Dispatched

variable {m : CredentialMutation} {env : CredentialEnvironment} {next : CredentialState}

/-- The content of the request carries its marker. -/
theorem next_face (h : Dispatched b m r rows)
    (hnext : b.nextContent env m.update m.expectedGeneration m.requestId = .ok next) :
    next.face = r.face := by
  simp only [nextContent, bind_ok, require_ok, nextCredentialGeneration_ok, pure_ok,
    exists_const] at hnext
  obtain ⟨-, -, -, -, -, _, ⟨-, rfl⟩, rfl⟩ := hnext
  have hoperation : decide (m.update.operation = .set) = m.update.secret.isSome := by
    unfold CredentialUpdate.operation
    cases m.update.secret.isSome <;> rfl
  simp only [CredentialState.face, CredentialMutationRequest.face, h.requestId, h.operation,
    h.expectedGeneration, hoperation]

/-- The file may be replaced. -/
theorem replaced (h : Dispatched b m r rows) (hface : next.face = r.face) :
    Durable (b.replace m.update.kind next) :=
  { h.durable with
    recorded := fun x hx => { h.durable.recorded x hx with }
    written := by
      intro kind
      have hw := h.written kind
      unfold Written at hw ⊢
      by_cases hkind : kind = m.update.kind
      · subst hkind
        refine Or.inr ⟨r, rows, h.requests, h.state, h.kind, ?_⟩
        rw [completedOf_cons_neg (by simp [h.state])] at hw
        simp only [replace, if_true, List.map_cons, hface, hw]
      · refine Or.inl ?_
        simp only [replace, hkind, if_false]
        rw [hw]
        exact congrArg (fun l => (completedOf kind l).map CredentialMutationRequest.face) h.requests.symm }

theorem replaced_content : (b.replace kind next).content kind = next := by
  simp [replace, content, file]

theorem replaced_other {k : CredentialKind} (hk : k ≠ kind) :
    (b.replace kind next).content k = b.content k := by
  simp [replace, content, file, hk]

/-- With its content installed and read, the request completes. -/
theorem completes (h : Dispatched b m r rows) (hface : next.face = r.face)
    {request : CredentialMutationRequest} (hsame : Same r request) :
    ∃ status t, ((b.replace m.update.kind next).withStore m.update.kind
        ⟨next, true⟩).completeCredentialMutation request = .ok (status, t) ∧
      Durable t ∧ Trusted t ∧ Kept b t := by
  have hdurable : Durable ((b.replace m.update.kind next).withStore m.update.kind ⟨next, true⟩) :=
    (h.replaced hface).withCredentials _
  have hcurrent : Current ((b.replace m.update.kind next).withStore m.update.kind ⟨next, true⟩) := by
    intro k
    show (if k = m.update.kind then _ else b.credentials k) =
      ⟨(b.replace m.update.kind next).content k, true⟩
    by_cases hk : k = m.update.kind
    · subst hk
      rw [if_pos rfl, replaced_content]
    · rw [if_neg hk, replaced_other hk, h.current k]
  have hinstalled : ((b.replace m.update.kind next).withStore m.update.kind
      ⟨next, true⟩).installed request (r.expectedGeneration + 1) = true := by
    rw [installed_iff, ← hsame.kind, h.kind, hcurrent, ← hsame.requestId, ← hsame.operation]
    exact (congrArg CredentialState.face replaced_content).trans hface
  have hwritten : (((b.replace m.update.kind next).withStore m.update.kind
      ⟨next, true⟩).files r.kind).map CredentialState.face =
      r.face :: (completedOf r.kind rows).map CredentialMutationRequest.face := by
    have hw := h.written r.kind
    unfold Written at hw
    rw [completedOf_cons_neg (by simp [h.state]), h.kind] at hw
    rw [h.kind]
    simp only [withStore, replace, if_true, List.map_cons, hface, hw]
  have hrecovered := hdurable.complete_moved h.requests h.state hwritten
  refine ⟨_, _, hdurable.complete_ok h.requests hsame h.state hinstalled, hrecovered.durable, ?_,
    hrecovered.kept⟩
  intro k _
  rw [hrecovered.credentials, hcurrent k]
  simp only [content, file, hrecovered.files]

/-- Whatever happens to the file, the stores fit and memory is not trusted wrongly. -/
theorem applied (h : Dispatched b m r rows) {outcome : Except PersistenceError Unit}
    (happly : b.applyCredential env m.update m.expectedGeneration m.requestId = (outcome, t)) :
    (outcome = .ok () ∧ ∃ next, next.face = r.face ∧
      t = (b.replace m.update.kind next).withStore m.update.kind ⟨next, true⟩) ∨
    ((∃ e, outcome = .error e) ∧ Durable t ∧ Trusted t ∧ Kept b t) := by
  have htrusted : Trusted b := fun kind _ => by rw [h.current kind]
  unfold applyCredential at happly
  cases hnext : b.nextContent env m.update m.expectedGeneration m.requestId with
  | error e =>
    rw [hnext] at happly
    cases happly
    exact Or.inr ⟨⟨e, rfl⟩, h.durable, htrusted, Kept.refl b⟩
  | ok next =>
    rw [hnext] at happly
    have hface := h.next_face hnext
    cases hreplacement : env.replacement with
    | installed =>
      simp only [hreplacement, Prod.mk.injEq] at happly
      exact Or.inl ⟨happly.1.symm, next, hface, happly.2.symm⟩
    | failed installed reloaded =>
      simp only [hreplacement] at happly
      have hfile : Durable (if installed then b.replace m.update.kind next else b) := by
        cases installed with
        | true => exact h.replaced hface
        | false => exact h.durable
      have hrows : (if installed then b.replace m.update.kind next
          else b).credentialMutationRequests = b.credentialMutationRequests := by
        cases installed <;> rfl
      have hmemory : (if installed then b.replace m.update.kind next else b).credentials =
          b.credentials := by
        cases installed <;> rfl
      have hothers : ∀ k, k ≠ m.update.kind →
          (if installed then b.replace m.update.kind next else b).content k = b.content k := by
        intro k hk
        cases installed with
        | true => exact replaced_other hk
        | false => rfl
      have htrust : ∀ store : CredentialStore,
          (store.consistent = true → store.state =
            (if installed then b.replace m.update.kind next else b).content m.update.kind) →
          Trusted ((if installed then b.replace m.update.kind next else b).withStore m.update.kind
            store) := by
        intro store hstore k hk
        by_cases hkind : k = m.update.kind
        · subst hkind
          simp only [withStore, if_true] at hk ⊢
          exact hstore hk
        · simp only [withStore, hkind, if_false, hmemory]
          rw [h.current k]
          exact (hothers k hkind).symm
      have hkept : ∀ store, Kept b ((if installed then b.replace m.update.kind next
          else b).withStore m.update.kind store) := by
        intro store x hx _
        show x ∈ (if installed then b.replace m.update.kind next else b).credentialMutationRequests
        rw [hrows]
        exact hx
      refine Or.inr ?_
      cases hkind : m.update.kind with
      | openCode =>
        rw [hkind] at happly hfile htrust hkept
        obtain ⟨rfl, rfl⟩ := Prod.mk.inj happly
        refine ⟨⟨_, rfl⟩, hfile.withCredentials _, htrust _ ?_, hkept _⟩
        cases reloaded with
        | true => exact fun _ => rfl
        | false => exact fun e => by cases e
      | openAiChatGpt =>
        rw [hkind] at happly hfile htrust hkept
        obtain ⟨rfl, rfl⟩ := Prod.mk.inj happly
        exact ⟨⟨_, rfl⟩, hfile.withCredentials _, htrust _ (fun e => by cases e), hkept _⟩

end Dispatched

theorem Durable.recoverAfter (h : Durable b) (ht : Trusted b) {e : PersistenceError}
    {outcome : Except PersistenceError CredentialIdentityStatus}
    (hrecover : b.recoverAfter e = (outcome, t)) : Durable t ∧ Trusted t ∧ Kept b t := by
  obtain ⟨recovered, u, hu, hdurable, htrusted, hkept, -⟩ := h.recover_spec ht
  unfold Backend.recoverAfter at hrecover
  rw [hu] at hrecover
  cases recovered <;> (cases hrecover; exact ⟨hdurable, htrusted, hkept⟩)

/-- **A request that runs to its end** leaves the stores fitting. -/
theorem Durable.mutate (h : Durable b) (ht : Trusted b) {env : CredentialEnvironment}
    {m : CredentialMutation} {outcome : Except PersistenceError CredentialIdentityStatus}
    (hmutate : b.mutateCredential env m = (outcome, t)) : Durable t ∧ Trusted t ∧ Kept b t := by
  obtain ⟨recovered, u, hu, hdurable, htrusted, hkept, hok⟩ := h.recover_spec ht
  unfold mutateCredential at hmutate
  rw [hu] at hmutate
  cases recovered with
  | error e =>
    cases hmutate
    exact ⟨hdurable, htrusted, hkept⟩
  | ok done =>
    obtain ⟨hsettled, hcurrent⟩ := hok rfl
    simp only at hmutate
    split at hmutate
    · cases hmutate
      exact ⟨hdurable, htrusted, hkept⟩
    · cases hmutate
      exact ⟨hdurable, htrusted, hkept⟩
    · rename_i hlookup
      split at hmutate
      · cases hmutate
        exact ⟨hdurable, htrusted, hkept⟩
      · rename_i request v hprepare
        obtain ⟨w, hdispatch, hdispatched, hkeptw⟩ :=
          hdurable.dispatch hsettled hcurrent hlookup hprepare
        rw [hdispatch] at hmutate
        simp only at hmutate
        split at hmutate
        · rename_i e x happly
          rcases hdispatched.applied happly with ⟨hfalse, -⟩ | ⟨-, hdx, htx, hkx⟩
          · cases hfalse
          · split at hmutate
            · obtain ⟨hdt, htt, hkt⟩ := hdx.recoverAfter htx hmutate
              exact ⟨hdt, htt, hkept.trans (hkeptw.trans (hkx.trans hkt))⟩
            · cases hmutate
              exact ⟨hdx, htx, hkept.trans (hkeptw.trans hkx)⟩
        · rename_i x happly
          rcases hdispatched.applied happly with ⟨-, next, hface, rfl⟩ | ⟨⟨e, hfalse⟩, -⟩
          · have hsame : Same { request with state := .dispatched } request :=
              ⟨rfl, rfl, rfl, rfl, rfl, rfl⟩
            obtain ⟨status, y, hcomplete, hdy, hty, hky⟩ := hdispatched.completes hface hsame
            rw [hcomplete] at hmutate
            cases hmutate
            exact ⟨hdy, hty, hkept.trans (hkeptw.trans hky)⟩
          · cases hfalse

/-- **A request whose process dies** leaves the stores fitting. -/
theorem Durable.interrupt (h : Durable b) (ht : Trusted b) (env : CredentialEnvironment)
    (m : CredentialMutation) (cut : Cut) :
    Durable (b.interrupted env m cut) ∧ Kept b (b.interrupted env m cut) := by
  obtain ⟨recovered, u, hu, hdurable, htrusted, hkept, hok⟩ := h.recover_spec ht
  unfold interrupted
  rw [hu]
  cases recovered with
  | error e => exact ⟨hdurable, hkept⟩
  | ok done =>
    obtain ⟨hsettled, hcurrent⟩ := hok rfl
    simp only
    split
    · exact ⟨hdurable, hkept⟩
    · exact ⟨hdurable, hkept⟩
    · rename_i hlookup
      split
      · exact ⟨hdurable, hkept⟩
      · rename_i request v hprepare
        split
        · obtain ⟨-, hdv, hrows, -⟩ := hdurable.prepare hsettled hcurrent hlookup hprepare
          refine ⟨hdv, hkept.trans fun x hx _ => ?_⟩
          rw [hrows]
          exact List.mem_cons_of_mem _ hx
        · obtain ⟨w, hdispatch, hdispatched, hkeptw⟩ :=
            hdurable.dispatch hsettled hcurrent hlookup hprepare
          rw [hdispatch]
          simp only
          have hkeptw := hkept.trans hkeptw
          split
          · exact ⟨hdispatched.durable, hkeptw⟩
          · rename_i next hnext
            have hface := hdispatched.next_face hnext
            split
            · exact ⟨hdispatched.durable, hkeptw⟩
            · exact ⟨hdispatched.durable, hkeptw⟩
            · exact ⟨hdispatched.durable, hkeptw⟩
            · exact ⟨hdispatched.replaced hface, hkeptw⟩
            · have hsame : Same { request with state := .dispatched } request :=
                ⟨rfl, rfl, rfl, rfl, rfl, rfl⟩
              obtain ⟨status, y, hcomplete, hdy, -, hky⟩ := hdispatched.completes hface hsame
              rw [hcomplete]
              exact ⟨hdy, hkeptw.trans hky⟩

/-! ## Histories -/

theorem Durable.restart (h : Durable b) :
    Durable b.restart.2 ∧ Trusted b.restart.2 ∧ Kept b b.restart.2 := by
  obtain ⟨t, ht, hdurable, -, hcurrent, -, hkept⟩ := h.restart_ok
  rw [ht]
  exact ⟨hdurable, fun kind _ => by rw [hcurrent kind], hkept⟩

theorem Durable.event (h : Durable b) (ht : Trusted b) (event : CredentialEvent) :
    Durable (event.run b) ∧ Trusted (event.run b) ∧ Kept b (event.run b) := by
  cases event with
  | mutate env m => exact h.mutate ht (rfl : b.mutateCredential env m =
      ((b.mutateCredential env m).1, (b.mutateCredential env m).2))
  | interrupt env m cut =>
    obtain ⟨hdurable, hkept⟩ := h.interrupt ht env m cut
    obtain ⟨hd, htrusted, hk⟩ := hdurable.restart
    exact ⟨hd, htrusted, hkept.trans hk⟩
  | restart => exact h.restart

/-- **Every history** keeps the stores fitting, and the outcomes it has recorded. -/
theorem Durable.events (events : List CredentialEvent) :
    ∀ {b : Backend}, Durable b → Trusted b → Durable (runCredentialEvents b events) ∧
      Trusted (runCredentialEvents b events) ∧ Kept b (runCredentialEvents b events) := by
  induction events with
  | nil => exact fun h ht => ⟨h, ht, Kept.refl _⟩
  | cons event events ih =>
    intro b h ht
    obtain ⟨hd, htrusted, hk⟩ := h.event ht event
    obtain ⟨hd', ht', hk'⟩ := ih hd htrusted
    exact ⟨hd', ht', hk.trans hk'⟩

/-- A database without credential records, with room in the sequence, and no files. -/
structure Fresh (b : Backend) : Prop where
  requests : b.credentialMutationRequests = []
  facts : b.credentialOperationFacts = []
  audits : b.credentialAuditFacts = []
  files : ∀ kind, b.files kind = []
  credentials : ∀ kind, b.credentials kind = ⟨.unconfigured, true⟩
  registry : Table.Keyed MutationRequest.requestId b.store.mutationRequests
  others : ∀ m ∈ b.store.mutationRequests, m.operation ≠ .other 2 ∧ m.operation ≠ .other 3
  room : b.store.nextValue + 6 * maxCredentialMutations ≤ maxInteger

theorem Fresh.durable (h : Fresh b) : Durable b where
  registry := h.registry
  keyed := by
    rw [h.requests]
    exact List.nodup_nil
  numbered := by
    rw [h.requests]
    exact Ledger.below_nil
  registered := by simp [h.requests]
  backed m hm hop := by
    rcases hop with hop | hop
    · exact absurd hop (h.others m hm).1
    · exact absurd hop (h.others m hm).2
  few := by simp [h.requests]
  room := by
    have hroom := h.room
    simpa [h.requests] using hroom
  chained := by
    rw [h.requests]
    trivial
  recorded := by simp [h.requests]
  results := by simp [h.requests]
  older := by simp [h.requests]
  facts := by simp [h.facts]
  audits := by simp [h.audits]
  written kind := Or.inl (by simp [Written, h.files, h.requests, completedOf])

theorem Fresh.trusted (h : Fresh b) : Trusted b := by
  intro kind _
  rw [h.credentials kind]
  simp [content, file, h.files]

/-- The file has carried the request's marker, at the generation after the expected one. -/
def Carried (b : Backend) (r : CredentialMutationRequest) : Prop :=
  ∃ c ∈ b.files r.kind, c.mutationMarker = r.requestId ∧ c.generation = r.expectedGeneration + 1

/-- A settled request is completed just when its content was in the file. -/
theorem Durable.completed_iff (h : Durable b) (hs : Settled b)
    (hr : r ∈ b.credentialMutationRequests) : r.state = .completed ↔ Carried b r := by
  have hwritten := h.settled_written hs r.kind
  constructor
  · intro hstate
    have hin : r.face ∈ (b.files r.kind).map CredentialState.face := by
      rw [hwritten]
      exact List.mem_map_of_mem (List.mem_filter.mpr ⟨hr, by simp [hstate]⟩)
    obtain ⟨c, hc, hface⟩ := List.mem_map.mp hin
    exact ⟨c, hc, congrArg CredentialFace.marker hface, congrArg CredentialFace.generation hface⟩
  · rintro ⟨c, hc, hmarker, -⟩
    have hin : c.face ∈ (completedOf r.kind b.credentialMutationRequests).map
        CredentialMutationRequest.face := by
      rw [← hwritten]
      exact List.mem_map_of_mem hc
    obtain ⟨x, hx, hface⟩ := List.mem_map.mp hin
    obtain ⟨hx, hstate⟩ := List.mem_filter.mp hx
    have hid : x.requestId = r.requestId := (congrArg CredentialFace.marker hface).trans hmarker
    have hsame : x = r := Table.eq_of_key h.keyed hx hr hid
    subst hsame
    simp only [Bool.and_eq_true, decide_eq_true_eq] at hstate
    exact hstate.1

/-- What the request of an identifier asks for. -/
def Repeats (m : CredentialMutation) (r : CredentialMutationRequest) : Prop :=
  m.update.kind = r.kind ∧ m.update.operation = r.operation ∧
    m.expectedGeneration = r.expectedGeneration

instance (m : CredentialMutation) (r : CredentialMutationRequest) : Decidable (Repeats m r) :=
  inferInstanceAs (Decidable (_ ∧ _ ∧ _))

theorem CredentialOperation.mutation_injective {a c : CredentialOperation}
    (h : a.mutation = c.mutation) : a = c := by
  cases a <;> cases c <;> first | rfl | (simp [CredentialOperation.mutation] at h)

/-- The look-up of a known identifier compares everything but the secret. -/
theorem lookup_known {m : CredentialMutation}
    (hoperation : loadMutationOperation b.store m.requestId = some r.operation.mutation)
    (hload : b.loadCredentialRequest m.requestId = some r) :
    b.lookupCredentialMutation m = if Repeats m r then (completedRequestResult r).map some
      else .error .requestConflict := by
  simp only [lookupCredentialMutation, hoperation, hload]
  by_cases hop : m.update.operation = r.operation
  · have hsame : require (r.operation.mutation = m.update.operation.mutation)
        PersistenceError.requestConflict = .ok () := if_pos (by rw [hop])
    rw [hsame]
    by_cases hrepeat : Repeats m r
    · have hidentity : validateRequestIdentity r m.update.kind m.update.operation
          m.expectedGeneration = .ok () :=
        if_pos ⟨hrepeat.1.symm, hrepeat.2.1.symm, hrepeat.2.2.symm⟩
      rw [if_pos hrepeat]
      show (validateRequestIdentity r m.update.kind m.update.operation m.expectedGeneration >>=
        fun _ => completedRequestResult r >>= fun status => pure (some status)) = _
      rw [hidentity]
      cases completedRequestResult r <;> rfl
    · have hidentity : validateRequestIdentity r m.update.kind m.update.operation
          m.expectedGeneration = .error .requestConflict :=
        if_neg fun hsame => hrepeat ⟨hsame.1.symm, hsame.2.1.symm, hsame.2.2.symm⟩
      rw [if_neg hrepeat]
      show (validateRequestIdentity r m.update.kind m.update.operation m.expectedGeneration >>=
        fun _ => completedRequestResult r >>= fun status => pure (some status)) = _
      rw [hidentity]
      rfl
  · have hrepeat : ¬ Repeats m r := fun hrepeat => hop hrepeat.2.1
    have hconflict : require (r.operation.mutation = m.update.operation.mutation)
        PersistenceError.requestConflict = .error .requestConflict :=
      if_neg fun e => hop (CredentialOperation.mutation_injective e).symm
    rw [if_neg hrepeat, hconflict]
    rfl

/-- **A known identifier** is answered from its record. -/
theorem Durable.retry (h : Durable b) (ht : Trusted b)
    (hc : ∀ kind, (b.credentials kind).consistent = true) (hr : r ∈ b.credentialMutationRequests)
    (hterminal : r.state.isTerminal = true) (env : CredentialEnvironment) {m : CredentialMutation}
    (hid : m.requestId = r.requestId) :
    (b.mutateCredential env m).1 =
        (if Repeats m r then completedRequestResult r else .error .requestConflict) ∧
      (b.mutateCredential env m).2.files = b.files := by
  have hcurrent : Current b := by
    intro kind
    rw [← ht kind (hc kind), ← hc kind]
  obtain ⟨u, hu, hrecovered, -⟩ := h.recover_ok hcurrent
  have hru : r ∈ u.credentialMutationRequests := hrecovered.kept r hr hterminal
  have hload : u.loadCredentialRequest m.requestId = some r := by
    rw [hid]
    exact hrecovered.durable.request_of hru
  have hoperation : loadMutationOperation u.store m.requestId = some r.operation.mutation := by
    obtain ⟨row, hrow, rfl⟩ := hrecovered.durable.registered r hru
    have hfind := Table.find_of_mem hrecovered.durable.registry hrow
    simp only [loadMutationOperation, hid] at hfind ⊢
    rw [hfind]
    rfl
  have hlookup := lookup_known hoperation hload
  have hanswer : b.mutateCredential env m =
      (if Repeats m r then completedRequestResult r else .error .requestConflict, u) := by
    unfold mutateCredential
    rw [hu]
    simp only [hlookup]
    by_cases hrepeat : Repeats m r
    · simp only [if_pos hrepeat]
      cases completedRequestResult r <;> rfl
    · simp only [if_neg hrepeat]
  rw [hanswer]
  exact ⟨rfl, hrecovered.files⟩

/-- **Credential mutations are crash consistent.**  After any history of
requests, each run to its end or cut off at any point, a restart succeeds and
leaves what the startup checks accept.  A request is then completed just when
the file has carried its marker at the next generation; the generation of each
file counts the completed requests of its kind; and whatever happens later, a
known identifier is answered from its record without touching a file, as long
as the process has not lost track of one. -/
theorem credentials_crash_consistent {start : Backend} (hstart : Fresh start)
    (events : List CredentialEvent) :
    ∃ t, (runCredentialEvents start events).restart = (.ok (), t) ∧
      t.validateCredentialState = .ok () ∧ t.validateCredentialRequestRecords = .ok () ∧
      t.files = (runCredentialEvents start events).files ∧
      (∀ kind, (t.credentials kind).consistent = true) ∧
      (∀ r ∈ t.credentialMutationRequests, (r.state = .completed ↔ Carried t r) ∧
        (r.state = .notApplied ↔ ¬ Carried t r)) ∧
      (∀ kind, (t.content kind).generation =
        t.credentialMutationRequests.countP fun r => r.state = .completed && r.kind = kind) ∧
      ∀ later, ∀ r ∈ t.credentialMutationRequests,
        r ∈ (runCredentialEvents t later).credentialMutationRequests ∧
        ((∀ kind, ((runCredentialEvents t later).credentials kind).consistent = true) →
          ∀ env m, m.requestId = r.requestId →
            ((runCredentialEvents t later).mutateCredential env m).1 =
                (if Repeats m r then completedRequestResult r else .error .requestConflict) ∧
              ((runCredentialEvents t later).mutateCredential env m).2.files =
                (runCredentialEvents t later).files) := by
  obtain ⟨hdurable, -, -⟩ := Durable.events events hstart.durable hstart.trusted
  obtain ⟨t, ht, hd, hs, hc, hfiles, -⟩ := hdurable.restart_ok
  refine ⟨t, ht, hd.state_valid hs hc, hd.records_valid, hfiles, fun kind => by rw [hc kind],
    fun r hr => ?_, fun kind => ?_, fun later r hr => ?_⟩
  · have hcompleted := hd.completed_iff hs hr
    refine ⟨hcompleted, ?_⟩
    have hterminal := hs r hr
    rw [← hcompleted]
    cases hstate : r.state <;> simp_all [CredentialRequestState.isTerminal]
  · have hcontent := ((hd.settled_written hs kind).content hd.chained).1
    rw [hcontent, completedOf, ← List.countP_eq_length_filter]
  · obtain ⟨hdl, htl, hkl⟩ := Durable.events later hd fun kind _ => by rw [hc kind]
    have hin := hkl r hr (hs r hr)
    exact ⟨hin, fun hconsistent env m hid => hdl.retry htl hconsistent hin (hs r hr) env hid⟩

theorem fresh_empty : Fresh { store := Store.empty } where
  requests := rfl
  facts := rfl
  audits := rfl
  files _ := rfl
  credentials _ := rfl
  registry := List.nodup_nil
  others := by simp [Store.empty]
  room := by decide

/-- A request for a key that dies once its file is replaced. -/
theorem interrupted_set_crash_consistent :
    ∃ t, (runCredentialEvents { store := Store.empty }
        [.interrupt ⟨5, .installed⟩ ⟨7, 0, .openCode (some "key")⟩
          (.replacement true)]).restart = (.ok (), t) ∧
      (t.content .openCode).generation =
        t.credentialMutationRequests.countP fun r => r.state = .completed && r.kind = .openCode := by
  obtain ⟨t, ht, -, -, -, -, -, hgeneration, -⟩ := credentials_crash_consistent fresh_empty
    [.interrupt ⟨5, .installed⟩ ⟨7, 0, .openCode (some "key")⟩ (.replacement true)]
  exact ⟨t, ht, hgeneration .openCode⟩

/-- A key was set before the last start. -/
def keyedBackend : Backend :=
  (runCredentialEvents { store := Store.empty }
    [.mutate ⟨5, .installed⟩ ⟨7, 0, .openCode (some "key")⟩]).restart.2

/-- The identifier under which a key was set is answered when it comes with another key, and the
file keeps the first one: the secret is no part of what a request is known by. -/
theorem other_key_answered :
    ((runCredentialEvents { store := Store.empty }
      [.mutate ⟨5, .installed⟩ ⟨7, 0, .openCode (some "key")⟩]).restart.1.isOk) = true ∧
    (keyedBackend.credentialMutationRequests.map fun r => (r.requestId, r.state)) =
      [(7, .completed)] ∧
    (keyedBackend.mutateCredential ⟨5, .installed⟩
      ⟨7, 0, .openCode (some "other")⟩).1.toOption = some ⟨true, 1⟩ ∧
    ((keyedBackend.mutateCredential ⟨5, .installed⟩
      ⟨7, 0, .openCode (some "other")⟩).2.content .openCode).secret = some "key" := by
  decide +kernel

end Morons
