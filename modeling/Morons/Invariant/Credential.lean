import Morons.Credential.Mutation

/-!
# Credential histories

`Durable` holds of the database and the files at every moment, also between
two transactions: only the newest request may be without an outcome, and each
file has been written by the completed requests of its kind, in their order,
and perhaps by the newest request.  From this follows which side recovery
takes, and that the startup checks accept what it leaves.
-/

namespace Morons

open Attempt Ledger

namespace CredentialRequestState

def isTerminal : CredentialRequestState → Bool
  | prepared | dispatched => false
  | completed | notApplied => true

/-- The numbers that its remaining transactions draw. -/
def owed : CredentialRequestState → Nat
  | prepared => 4
  | dispatched => 2
  | completed | notApplied => 0

end CredentialRequestState

/-- What a file and the request that wrote it agree on. -/
structure CredentialFace where
  marker : MutationRequestId
  generation : Nat
  configured : Bool
  deriving DecidableEq

def CredentialState.face (c : CredentialState) : CredentialFace :=
  ⟨c.mutationMarker, c.generation, c.secret.isSome⟩

def CredentialMutationRequest.face (r : CredentialMutationRequest) : CredentialFace :=
  ⟨r.requestId, r.expectedGeneration + 1, decide (r.operation = .set)⟩

/-! ## The chain of generations -/

def completedOf (kind : CredentialKind) (requests : List CredentialMutationRequest) :
    List CredentialMutationRequest :=
  requests.filter fun r => r.state = .completed && r.kind = kind

/-- Every request expects the generation that the completed ones before it have made. -/
def Chained : List CredentialMutationRequest → Prop
  | [] => True
  | r :: requests =>
    r.expectedGeneration = (completedOf r.kind requests).length ∧ Chained requests

variable {r : CredentialMutationRequest} {rows : List CredentialMutationRequest}
  {kind : CredentialKind} {b t : Backend}

theorem completedOf_cons_pos (hstate : r.state = .completed) (hkind : r.kind = kind) :
    completedOf kind (r :: rows) = r :: completedOf kind rows := by
  simp [completedOf, hstate, hkind]

theorem completedOf_cons_neg (h : ¬ (r.state = .completed ∧ r.kind = kind)) :
    completedOf kind (r :: rows) = completedOf kind rows := by
  simp only [completedOf]
  exact List.filter_cons_of_neg (by simpa using h)

theorem Chained.tail (h : Chained (r :: rows)) : Chained rows := h.2

/-- Earlier requests expect no later generation. -/
theorem Chained.expected_lt (h : Chained rows) :
    ∀ x ∈ completedOf kind rows, x.expectedGeneration < (completedOf kind rows).length := by
  induction rows with
  | nil => simp [completedOf]
  | cons r rows ih =>
    by_cases hr : r.state = .completed ∧ r.kind = kind
    · rw [completedOf_cons_pos hr.1 hr.2]
      intro x hx
      rcases List.mem_cons.mp hx with rfl | hx
      · have hexpected := h.1
        rw [hr.2] at hexpected
        simp [hexpected]
      · have hlt := ih h.tail x hx
        rw [List.length_cons]
        omega
    · rw [completedOf_cons_neg hr]
      exact ih h.tail

/-- The newest completed request expects as many generations as there are before it. -/
theorem Chained.newest (h : Chained rows) {x : CredentialMutationRequest}
    {older : List CredentialMutationRequest} (hc : completedOf kind rows = x :: older) :
    x.expectedGeneration = older.length := by
  induction rows with
  | nil => cases hc
  | cons y rows ih =>
    by_cases hy : y.state = .completed ∧ y.kind = kind
    · rw [completedOf_cons_pos hy.1 hy.2] at hc
      obtain ⟨rfl, htail⟩ := List.cons.inj hc
      have hexpected := h.1
      rw [hy.2, htail] at hexpected
      exact hexpected
    · rw [completedOf_cons_neg hy] at hc
      exact ih h.tail hc

/-- Completed requests of one kind have decreasing generations, newest first. -/
theorem Chained.decreasing (h : Chained rows) :
    (completedOf kind rows).Pairwise fun newer older =>
      older.expectedGeneration < newer.expectedGeneration := by
  induction rows with
  | nil => exact List.Pairwise.nil
  | cons r rows ih =>
    by_cases hr : r.state = .completed ∧ r.kind = kind
    · rw [completedOf_cons_pos hr.1 hr.2]
      refine List.pairwise_cons.mpr ⟨fun x hx => ?_, ih h.tail⟩
      have hexpected := h.1
      rw [hr.2] at hexpected
      rw [hexpected]
      exact h.tail.expected_lt x hx
    · rw [completedOf_cons_neg hr]
      exact ih h.tail

/-- The window that the startup check counts is the one of the chain. -/
theorem Chained.prior (h : Chained rows) {bound : Nat}
    (hbelow : Below CredentialMutationRequest.acceptedSequence bound rows) :
    ∀ r ∈ rows, r.expectedGeneration = rows.countP fun x =>
      x.kind = r.kind && x.state = .completed && decide (x.acceptedSequence < r.acceptedSequence) := by
  induction rows with
  | nil => simp
  | cons y rows ih =>
    have hgt := hbelow.head_gt
    intro r hr
    rcases List.mem_cons.mp hr with rfl | hr
    · rw [h.1, List.countP_cons, if_neg (by simp), Nat.add_zero, completedOf,
        ← List.countP_eq_length_filter]
      refine List.countP_congr fun x hx => ?_
      have hlt := hgt x hx
      simp [hlt, and_comm]
    · have hlate : ¬ y.acceptedSequence < r.acceptedSequence := by
        have hlt := hgt r hr
        omega
      rw [List.countP_cons, if_neg (by simp [hlate]), Nat.add_zero]
      exact ih h.tail hbelow.tail r hr

/-! ## The invariant -/

/-- Each file was written by the completed requests, in their order. -/
def Written (b : Backend) (kind : CredentialKind)
    (requests : List CredentialMutationRequest) : Prop :=
  (b.files kind).map CredentialState.face =
    (completedOf kind requests).map CredentialMutationRequest.face

structure Durable (b : Backend) : Prop where
  registry : Table.Keyed MutationRequest.requestId b.store.mutationRequests
  keyed : Table.Keyed CredentialMutationRequest.requestId b.credentialMutationRequests
  numbered : Below CredentialMutationRequest.acceptedSequence b.store.nextValue
    b.credentialMutationRequests
  registered : ∀ r ∈ b.credentialMutationRequests, ∃ m ∈ b.store.mutationRequests,
    m = ⟨r.requestId, r.operation.mutation, r.acceptedSequence, r.acceptedAtMilliseconds⟩
  backed : ∀ m ∈ b.store.mutationRequests, m.operation = .other 2 ∨ m.operation = .other 3 →
    ∃ r ∈ b.credentialMutationRequests, r.requestId = m.requestId
  few : b.credentialMutationRequests.length ≤ maxCredentialMutations
  room : b.store.nextValue + 6 * (maxCredentialMutations - b.credentialMutationRequests.length) +
    (b.credentialMutationRequests.head?.map (·.state.owed)).getD 0 ≤ maxInteger
  chained : Chained b.credentialMutationRequests
  recorded : ∀ r ∈ b.credentialMutationRequests, Backend.Recorded b r
  results : ∀ r ∈ b.credentialMutationRequests, r.state ≠ .completed → r.result = none
  older : ∀ r ∈ b.credentialMutationRequests.tail, r.state.isTerminal = true
  facts : ∀ f ∈ b.credentialOperationFacts, ∃ r ∈ b.credentialMutationRequests,
    r.requestId = f.requestId
  audits : ∀ a ∈ b.credentialAuditFacts, ∃ r ∈ b.credentialMutationRequests,
    r.requestId = a.requestId
  written : ∀ kind, Written b kind b.credentialMutationRequests ∨
    ∃ r rows, b.credentialMutationRequests = r :: rows ∧ r.state = .dispatched ∧ r.kind = kind ∧
      (b.files kind).map CredentialState.face =
        r.face :: (completedOf kind rows).map CredentialMutationRequest.face

/-- No request is without an outcome. -/
def Settled (b : Backend) : Prop :=
  ∀ r ∈ b.credentialMutationRequests, r.state.isTerminal = true

/-- The process has read the files as they are. -/
def Current (b : Backend) : Prop := ∀ kind, b.credentials kind = ⟨b.content kind, true⟩

/-- Where the process trusts its memory, it is right. -/
def Trusted (b : Backend) : Prop :=
  ∀ kind, (b.credentials kind).consistent = true → (b.credentials kind).state = b.content kind

theorem Durable.settled_written (h : Durable b) (hs : Settled b) (kind : CredentialKind) :
    Written b kind b.credentialMutationRequests := by
  rcases h.written kind with hw | ⟨r, rows, hrows, hstate, -, -⟩
  · exact hw
  · have hterminal := hs r (hrows ▸ List.mem_cons_self ..)
    rw [hstate] at hterminal
    cases hterminal

/-- With the files of its requests, a kind is at the generation they count. -/
theorem Written.content (h : Written b kind rows) (hchain : Chained rows) :
    (b.content kind).generation = (completedOf kind rows).length ∧
      ((b.file kind).isNone ↔ completedOf kind rows = []) ∧
      ∀ r older, completedOf kind rows = r :: older → (b.content kind).face = r.face := by
  unfold Written at h
  cases hfiles : b.files kind with
  | nil =>
    rw [hfiles] at h
    have hnil : completedOf kind rows = [] := by
      cases hc : completedOf kind rows with
      | nil => rfl
      | cons x xs =>
        rw [hc] at h
        cases h
    simp [Backend.content, Backend.file, hfiles, hnil, CredentialState.unconfigured]
  | cons c contents =>
    rw [hfiles] at h
    cases hc : completedOf kind rows with
    | nil =>
      rw [hc] at h
      cases h
    | cons x older =>
      rw [hc, List.map_cons, List.map_cons] at h
      have hface : c.face = x.face := (List.cons.inj h).1
      have hcontent : b.content kind = c := by simp [Backend.content, Backend.file, hfiles]
      refine ⟨?_, ?_, ?_⟩
      · rw [hcontent, List.length_cons, ← hchain.newest hc]
        exact congrArg CredentialFace.generation hface
      · simp [Backend.file, hfiles]
      · rintro r' older' hr'
        rw [hcontent, hface]
        exact congrArg CredentialMutationRequest.face (List.cons.inj hr').1

/-! ## The startup checks -/

theorem Durable.request_of (h : Durable b) {r : CredentialMutationRequest}
    (hr : r ∈ b.credentialMutationRequests) : b.loadCredentialRequest r.requestId = some r :=
  Table.find_of_mem h.keyed hr

/-- The request records pass the startup check at every moment. -/
theorem Durable.records_valid (h : Durable b) : b.validateCredentialRequestRecords = .ok () := by
  simp only [Backend.validateCredentialRequestRecords, bind_ok, require_ok, exists_const]
  refine ⟨⟨h.few, h.chained.prior h.numbered⟩, fun r hr => ⟨?_, h.recorded r hr⟩, fun m hm hop => ?_⟩
  · obtain ⟨m, hm, rfl⟩ := h.registered r hr
    have hfind := Table.find_of_mem h.registry hm
    simp only [Backend.requestRegistered] at hfind ⊢
    rw [hfind]
    simp
  · obtain ⟨r, hr, hid⟩ := h.backed m hm hop
    rw [← hid, h.request_of hr]
    rfl

/-- A process that has read the files finds itself consistent. -/
theorem Durable.consistent (h : Durable b) (kind : CredentialKind)
    (hstore : (b.credentials kind).consistent = true →
      (b.credentials kind).state = b.content kind) :
    b.credentialConsistent kind = (b.credentials kind).consistent := by
  cases kind with
  | openCode => rfl
  | openAiChatGpt =>
    cases hflag : (b.credentials .openAiChatGpt).consistent with
    | false => simp [Backend.credentialConsistent, hflag]
    | true =>
      have hstate := hstore hflag
      have hpositive : ∀ c contents, b.files .openAiChatGpt = c :: contents → c.generation ≠ 0 := by
        intro c contents hfiles
        have hface : ∃ r : CredentialMutationRequest, c.face = r.face := by
          rcases h.written .openAiChatGpt with hw | ⟨r, rows, -, -, -, hw⟩
          · unfold Written at hw
            rw [hfiles] at hw
            cases hc : completedOf .openAiChatGpt b.credentialMutationRequests with
            | nil =>
              rw [hc] at hw
              cases hw
            | cons x older =>
              rw [hc] at hw
              exact ⟨x, (List.cons.inj hw).1⟩
          · rw [hfiles] at hw
            exact ⟨r, (List.cons.inj hw).1⟩
        obtain ⟨r, hface⟩ := hface
        have hgeneration : c.generation = r.expectedGeneration + 1 :=
          congrArg CredentialFace.generation hface
        omega
      cases hfiles : b.files .openAiChatGpt with
      | nil =>
        simp [Backend.credentialConsistent, hflag, hstate, Backend.content, Backend.file, hfiles,
          CredentialState.unconfigured]
      | cons c contents =>
        have hne := hpositive c contents hfiles
        simp [Backend.credentialConsistent, hflag, hstate, Backend.content, Backend.file, hfiles,
          hne]

theorem Current.ensure (h : Current b) (hb : Durable b) (kind : CredentialKind) :
    b.ensureConsistent kind = .ok () := by
  have hstore := h kind
  have hconsistent := hb.consistent kind (fun _ => by rw [hstore])
  rw [hstore] at hconsistent
  simp [Backend.ensureConsistent, hconsistent]

/-- A settled history fits the files. -/
theorem Durable.kind_valid (h : Durable b) (hs : Settled b) (hc : Current b)
    (kind : CredentialKind) : b.validateCredentialKind kind = .ok () := by
  have hwritten := h.settled_written hs kind
  obtain ⟨hgeneration, hnone, hface⟩ := hwritten.content h.chained
  have hidentity : b.credentialIdentity kind = (b.content kind).status := by
    rw [Backend.credentialIdentity, hc kind]
  have hmarker : b.credentialMarker kind = (b.content kind).mutationMarker := by
    rw [Backend.credentialMarker, hc kind]
  simp only [Backend.validateCredentialKind, bind_ok, require_ok, exists_const]
  refine ⟨?_, ?_⟩
  · rw [hidentity]
    show _ = (b.content kind).generation
    rw [hgeneration, completedOf, ← List.countP_eq_length_filter]
  · have hlatest : b.latestCompleted kind = (completedOf kind b.credentialMutationRequests).head? := by
      have hmem : ∀ x ∈ completedOf kind b.credentialMutationRequests,
          (x.result.map (·.generation)).getD 0 = x.expectedGeneration + 1 := by
        intro x hx
        obtain ⟨hx, hstate⟩ := List.mem_filter.mp hx
        simp only [Bool.and_eq_true, decide_eq_true_eq] at hstate
        rw [(h.recorded x hx).result hstate.1]
        rfl
      have hbelow : Below (fun r : CredentialMutationRequest =>
          (r.result.map (·.generation)).getD 0)
          ((completedOf kind b.credentialMutationRequests).length + 1)
          (completedOf kind b.credentialMutationRequests) := by
        refine ⟨?_, fun x hx => ?_⟩
        · refine h.chained.decreasing.imp_of_mem fun hx hy hlt => ?_
          rw [hmem _ hx, hmem _ hy]
          omega
        · have hlt := h.chained.expected_lt x hx
          rw [hmem x hx]
          omega
      exact hbelow.latest_head
    rw [Backend.latestAgrees, hlatest]
    cases hcompleted : completedOf kind b.credentialMutationRequests with
    | nil =>
      have hfile : b.file kind = none := Option.isNone_iff_eq_none.mp (hnone.mpr hcompleted)
      simp [hidentity, Backend.content, hfile, CredentialState.unconfigured, CredentialState.status]
    | cons x older =>
      have hx : x ∈ completedOf kind b.credentialMutationRequests := by
        rw [hcompleted]
        exact List.mem_cons_self ..
      obtain ⟨hx, hstate⟩ := List.mem_filter.mp hx
      simp only [Bool.and_eq_true, decide_eq_true_eq] at hstate
      have hsame := hface x older hcompleted
      simp only [CredentialState.face, CredentialMutationRequest.face, CredentialFace.mk.injEq] at hsame
      obtain ⟨hid, hgen, hconfigured⟩ := hsame
      simp only [List.head?_cons, (h.recorded x hx).result hstate.1, hidentity, hmarker,
        CredentialState.status, hid, hgen, hconfigured, decide_true, Bool.and_self]

theorem Durable.state_valid (h : Durable b) (hs : Settled b) (hc : Current b) :
    b.validateCredentialState = .ok () := by
  simp only [Backend.validateCredentialState, bind_ok]
  exact ⟨(), hc.ensure h .openCode, (), hc.ensure h .openAiChatGpt, (), h.records_valid, (),
    h.kind_valid hs hc .openCode, h.kind_valid hs hc .openAiChatGpt⟩

/-! ## One transaction of the newest request -/

/-- The newest request moves on, with a fact and an audit record. -/
def Backend.moved (b : Backend) (r : CredentialMutationRequest)
    (rows : List CredentialMutationRequest) (state : CredentialRequestState)
    (result : Option CredentialIdentityStatus) (factKind : CredentialFactKind)
    (auditKind : CredentialAuditKind) : Backend :=
  { b with
    store := { b.store with nextValue := b.store.nextValue + 2 }
    credentialMutationRequests := { r with state := state, result := result } :: rows
    credentialOperationFacts :=
      ⟨b.store.nextValue, r.requestId, factKind, r.expectedGeneration + 1⟩ ::
        b.credentialOperationFacts
    credentialAuditFacts :=
      ⟨b.store.nextValue + 1, r.requestId, auditKind⟩ :: b.credentialAuditFacts }

variable {state : CredentialRequestState} {result : Option CredentialIdentityStatus}
  {factKind : CredentialFactKind} {auditKind : CredentialAuditKind}

theorem moved_factCount (id : MutationRequestId) (k : CredentialFactKind) :
    (b.moved r rows state result factKind auditKind).factCount id k =
      b.factCount id k + if r.requestId = id ∧ factKind = k then 1 else 0 := by
  simp [Backend.factCount, Backend.moved, List.countP_cons]

theorem moved_auditCount (id : MutationRequestId) (k : CredentialAuditKind) :
    (b.moved r rows state result factKind auditKind).auditCount id k =
      b.auditCount id k + if r.requestId = id ∧ auditKind = k then 1 else 0 := by
  simp [Backend.auditCount, Backend.moved, List.countP_cons]

/-- Another request keeps its records. -/
theorem Durable.recorded_other (h : Durable b) {x : CredentialMutationRequest}
    (hx : x ∈ b.credentialMutationRequests) (hne : r.requestId ≠ x.requestId) :
    Backend.Recorded (b.moved r rows state result factKind auditKind) x := by
  have hold := h.recorded x hx
  constructor
  · exact hold.result
  · intro f hf hid
    rcases List.mem_cons.mp hf with rfl | hf
    · exact absurd hid hne
    · exact hold.generations f hf hid
  all_goals simp only [moved_factCount, moved_auditCount, hne, false_and, if_false, Nat.add_zero]
  · exact hold.accepted
  · exact hold.dispatches
  · exact hold.dispatched
  · exact hold.prepared
  · exact hold.completedFacts
  · exact hold.completedAudits
  · exact hold.notAppliedFacts
  · exact hold.notAppliedAudits

/-- Which records go with which step of a request. -/
inductive Moves : CredentialRequestState → CredentialRequestState → CredentialFactKind →
    CredentialAuditKind → Prop
  | dispatch : Moves .prepared .dispatched .dispatched .dispatched
  | complete : Moves .dispatched .completed .completed .completed
  | refuse : Moves .prepared .notApplied .notApplied .notApplied
  | revoke : Moves .dispatched .notApplied .notApplied .notApplied

/-- The newest request has the records of its next state. -/
theorem Durable.recorded_moved (h : Durable b) (hr : r ∈ b.credentialMutationRequests)
    (hmove : Moves r.state state factKind auditKind)
    (hresult : state = .completed →
      result = some ⟨decide (r.operation = .set), r.expectedGeneration + 1⟩) :
    Backend.Recorded (b.moved r rows state result factKind auditKind)
      { r with state := state, result := result } := by
  have hold := h.recorded r hr
  have hgenerations : ∀ f ∈ (b.moved r rows state result factKind auditKind).credentialOperationFacts,
      f.requestId = r.requestId → f.credentialGeneration = r.expectedGeneration + 1 := by
    intro f hf hid
    rcases List.mem_cons.mp hf with rfl | hf
    · rfl
    · exact hold.generations f hf hid
  have haccepted := hold.accepted
  have hdispatches := hold.dispatches
  have hdispatched := hold.dispatched
  have hprepared := hold.prepared
  have hcompletedFacts := hold.completedFacts
  have hcompletedAudits := hold.completedAudits
  have hnotAppliedFacts := hold.notAppliedFacts
  have hnotAppliedAudits := hold.notAppliedAudits
  generalize hfrom : r.state = before at *
  cases hmove <;> refine ⟨hresult, hgenerations, ?_, ?_, ?_, ?_, ?_, ?_, ?_, ?_⟩ <;>
    simp_all [moved_factCount, moved_auditCount]

/-- **The newest request takes a step.** -/
theorem Durable.moved (h : Durable b) (hrows : b.credentialMutationRequests = r :: rows)
    (hmove : Moves r.state state factKind auditKind)
    (hresult : result = if state = .completed then
      some ⟨decide (r.operation = .set), r.expectedGeneration + 1⟩ else none)
    (hwritten : ∀ kind, Written b kind ({ r with state := state, result := result } :: rows) ∨
      state = .dispatched ∧ r.kind = kind ∧ (b.files kind).map CredentialState.face =
        r.face :: (completedOf kind rows).map CredentialMutationRequest.face) :
    Durable (b.moved r rows state result factKind auditKind) := by
  have hr : r ∈ b.credentialMutationRequests := hrows ▸ List.mem_cons_self ..
  have hkeyed := h.keyed
  have hnumbered := h.numbered
  have hchained := h.chained
  have hroom := h.room
  have hfew := h.few
  rw [hrows] at hkeyed hnumbered hchained hroom hfew
  have howed : state.owed + 2 ≤ r.state.owed := by
    generalize r.state = before at hmove
    cases hmove <;> decide
  have hids : ∀ id, (∃ x ∈ b.credentialMutationRequests, x.requestId = id) →
      ∃ x ∈ ({ r with state := state, result := result } : CredentialMutationRequest) :: rows,
        x.requestId = id := by
    rintro id ⟨x, hx, hid⟩
    rw [hrows] at hx
    rcases List.mem_cons.mp hx with rfl | hx
    · exact ⟨_, List.mem_cons_self .., hid⟩
    · exact ⟨x, List.mem_cons_of_mem _ hx, hid⟩
  exact
    { registry := h.registry
      keyed := hkeyed
      numbered :=
        ⟨List.pairwise_cons.mpr ⟨hnumbered.head_gt, hnumbered.tail.decreasing⟩, fun x hx => by
          rcases List.mem_cons.mp hx with rfl | hx
          · exact Nat.lt_add_right 2 (hnumbered.bounded r (List.mem_cons_self ..))
          · exact Nat.lt_add_right 2 (hnumbered.bounded x (List.mem_cons_of_mem _ hx))⟩
      registered := by
        intro x hx
        rcases List.mem_cons.mp hx with rfl | hx
        · exact h.registered r hr
        · exact h.registered x (hrows ▸ List.mem_cons_of_mem _ hx)
      backed := fun m hm hop => hids _ (h.backed m hm hop)
      few := hfew
      room := by
        simp only [List.head?_cons, Option.map_some, Option.getD_some, List.length_cons] at hroom
        simp only [Backend.moved, List.head?_cons, Option.map_some, Option.getD_some,
          List.length_cons]
        omega
      chained := hchained
      recorded := by
        intro x hx
        rcases List.mem_cons.mp hx with rfl | hx
        · exact h.recorded_moved hr hmove fun e => by rw [hresult, if_pos e]
        · refine h.recorded_other (hrows ▸ List.mem_cons_of_mem _ hx) fun e => ?_
          exact (List.nodup_cons.mp hkeyed).1 (e ▸ List.mem_map_of_mem hx)
      results := by
        intro x hx hne
        rcases List.mem_cons.mp hx with rfl | hx
        · rw [hresult]
          exact if_neg hne
        · exact h.results x (hrows ▸ List.mem_cons_of_mem _ hx) hne
      older := by
        have hold := h.older
        rw [hrows] at hold
        exact hold
      facts := by
        intro f hf
        rcases List.mem_cons.mp hf with rfl | hf
        · exact ⟨_, List.mem_cons_self .., rfl⟩
        · exact hids _ (h.facts f hf)
      audits := by
        intro a ha
        rcases List.mem_cons.mp ha with rfl | ha
        · exact ⟨_, List.mem_cons_self .., rfl⟩
        · exact hids _ (h.audits a ha)
      written := by
        intro kind
        rcases hwritten kind with hw | ⟨hstate, hkind, hw⟩
        · exact Or.inl hw
        · exact Or.inr ⟨_, rows, rfl, hstate, hkind, hw⟩ }

/-! ## What the transactions do -/

theorem nextCredentialGeneration_ok {n m : Nat} :
    Backend.nextCredentialGeneration n = .ok m ↔ n + 1 ≤ maxInteger ∧ m = n + 1 := by
  simp only [Backend.nextCredentialGeneration, bind_ok, require_ok, pure_ok, exists_const]
  exact and_congr_right fun _ => eq_comm

/-- The newest request is the one of its identifier. -/
theorem Durable.newest (h : Durable b) (hrows : b.credentialMutationRequests = r :: rows) :
    b.loadCredentialRequest r.requestId = some r :=
  h.request_of (hrows ▸ List.mem_cons_self ..)

/-- The same request, apart from its state and result. -/
structure Same (r request : CredentialMutationRequest) : Prop where
  requestId : r.requestId = request.requestId
  kind : r.kind = request.kind
  operation : r.operation = request.operation
  expectedGeneration : r.expectedGeneration = request.expectedGeneration
  acceptedSequence : r.acceptedSequence = request.acceptedSequence
  acceptedAtMilliseconds : r.acceptedAtMilliseconds = request.acceptedAtMilliseconds

theorem Same.refl (r : CredentialMutationRequest) : Same r r := ⟨rfl, rfl, rfl, rfl, rfl, rfl⟩

theorem Durable.current_valid (h : Durable b) (hrows : b.credentialMutationRequests = r :: rows)
    {request : CredentialMutationRequest} (hsame : Same r request) :
    b.validateCurrentRequest request r.state = .ok () := by
  simp only [Backend.validateCurrentRequest, bind_ok, demand_ok, require_ok]
  refine ⟨r, ?_, hsame.kind, hsame.operation, hsame.expectedGeneration, hsame.acceptedSequence,
    hsame.acceptedAtMilliseconds, rfl⟩
  rw [← hsame.requestId]
  exact h.newest hrows

/-- A kind of fact that a request does not have. -/
theorem factCount_zero {id : MutationRequestId} {k : CredentialFactKind}
    (h : b.factCount id k = 0) :
    ∀ f ∈ b.credentialOperationFacts, f.requestId = id → f.factKind ≠ k := by
  intro f hf hid hkind
  have hnone := List.countP_eq_zero.mp h f hf
  simp [hid, hkind] at hnone

theorem auditCount_zero {id : MutationRequestId} {k : CredentialAuditKind}
    (h : b.auditCount id k = 0) :
    ∀ a ∈ b.credentialAuditFacts, a.requestId = id → a.auditKind ≠ k := by
  intro a ha hid hkind
  have hnone := List.countP_eq_zero.mp h a ha
  simp [hid, hkind] at hnone

/-- A step has no record yet. -/
theorem Durable.unrecorded (h : Durable b) (hrows : b.credentialMutationRequests = r :: rows)
    (hmove : Moves r.state state factKind auditKind) :
    b.factCount r.requestId factKind = 0 ∧ b.auditCount r.requestId auditKind = 0 := by
  have hold := h.recorded r (hrows ▸ List.mem_cons_self ..)
  have hdispatches := hold.dispatches
  have hprepared := hold.prepared
  have hcompletedFacts := hold.completedFacts
  have hcompletedAudits := hold.completedAudits
  have hnotAppliedFacts := hold.notAppliedFacts
  have hnotAppliedAudits := hold.notAppliedAudits
  generalize r.state = before at *
  cases hmove <;> simp_all

/-- A fact and the update of the row make one step. -/
theorem Durable.step_ok (h : Durable b) (hrows : b.credentialMutationRequests = r :: rows)
    (hmove : Moves r.state state factKind auditKind) (result : Option CredentialIdentityStatus)
    (changed : String) :
    (do
      let b ← b.insertCredentialFact r.requestId factKind auditKind (r.expectedGeneration + 1)
      b.updateCredentialRequest r.requestId r.state state result changed) =
      .ok (b.moved r rows state result factKind auditKind) := by
  obtain ⟨hfacts, haudits⟩ := h.unrecorded hrows hmove
  have hroom := h.room
  have hkeyed := h.keyed
  rw [hrows] at hroom hkeyed
  have howed : 2 ≤ r.state.owed := by
    generalize r.state = before at hmove
    cases hmove <;> decide
  simp only [List.head?_cons, Option.map_some, Option.getD_some] at hroom
  rw [bind_ok]
  refine ⟨{ b with
    store := { b.store with nextValue := b.store.nextValue + 2 }
    credentialOperationFacts :=
      ⟨b.store.nextValue, r.requestId, factKind, r.expectedGeneration + 1⟩ ::
        b.credentialOperationFacts
    credentialAuditFacts :=
      ⟨b.store.nextValue + 1, r.requestId, auditKind⟩ :: b.credentialAuditFacts }, ?_, ?_⟩
  · simp only [Backend.insertCredentialFact, bind_ok, require_ok, pure_ok, Prod.exists,
      nextSequence_ok, exists_const]
    exact ⟨_, _, ⟨by omega, rfl, rfl⟩, _, _, ⟨by
      show b.store.nextValue + 1 < maxInteger
      omega, rfl, rfl⟩, factCount_zero hfacts, auditCount_zero haudits, rfl⟩
  · simp only [Backend.updateCredentialRequest, bind_ok, require_ok, pure_ok, exists_const, hrows]
    refine ⟨by simp, ?_⟩
    have hrest : Table.modify CredentialMutationRequest.requestId r.requestId
        (fun x => if x.state = r.state then { x with state := state, result := result } else x)
        rows = rows :=
      Table.modify_absent fun x hx e =>
        (List.nodup_cons.mp hkeyed).1 (e ▸ List.mem_map_of_mem hx)
    have hmodify : Table.modify CredentialMutationRequest.requestId r.requestId
        (fun x => if x.state = r.state then { x with state := state, result := result } else x)
        (r :: rows) = { r with state := state, result := result } :: rows := by
      rw [Table.modify_eq_map] at hrest ⊢
      rw [List.map_cons, hrest, if_pos rfl, if_pos rfl]
    rw [hmodify]
    rfl

/-- There is a next generation: histories are short. -/
theorem Durable.generation_ok (h : Durable b) (hr : r ∈ b.credentialMutationRequests) :
    Backend.nextCredentialGeneration r.expectedGeneration = .ok (r.expectedGeneration + 1) := by
  have hprior := h.chained.prior h.numbered r hr
  have hcount : r.expectedGeneration ≤ b.credentialMutationRequests.length :=
    hprior ▸ List.countP_le_length
  have hfew := h.few
  have hlimit : maxCredentialMutations + 1 ≤ maxInteger := by decide
  exact nextCredentialGeneration_ok.mpr ⟨by omega, rfl⟩

theorem Durable.dispatch_ok (h : Durable b) (hrows : b.credentialMutationRequests = r :: rows)
    {request : CredentialMutationRequest} (hsame : Same r request) (hstate : r.state = .prepared) :
    b.dispatchCredentialMutation request =
      .ok (b.moved r rows .dispatched none .dispatched .dispatched) := by
  have hmove : Moves r.state .dispatched .dispatched .dispatched := hstate ▸ .dispatch
  have hvalid := h.current_valid hrows hsame
  have hstep := h.step_ok hrows hmove none "a credential mutation changed before dispatch"
  rw [hstate] at hvalid hstep
  unfold Backend.dispatchCredentialMutation
  rw [← hsame.expectedGeneration, h.generation_ok (hrows ▸ List.mem_cons_self ..), ← hsame.requestId]
  simp only [bind_ok, Except.ok.injEq, exists_eq_left']
  exact ⟨(), hvalid, (bind_ok _ _ _).mp hstep⟩

theorem Durable.notApplied_ok (h : Durable b) (hrows : b.credentialMutationRequests = r :: rows)
    (hopen : r.state.isTerminal = false) :
    b.markCredentialMutationNotApplied r =
      .ok (b.moved r rows .notApplied none .notApplied .notApplied) := by
  have hmove : Moves r.state .notApplied .notApplied .notApplied := by
    cases hstate : r.state with
    | prepared => exact .refuse
    | dispatched => exact .revoke
    | completed | notApplied =>
      rw [hstate] at hopen
      cases hopen
  have hvalid := h.current_valid hrows (Same.refl r)
  have hstep := h.step_ok hrows hmove none
    "a credential mutation changed before its outcome"
  unfold Backend.markCredentialMutationNotApplied
  rw [h.generation_ok (hrows ▸ List.mem_cons_self ..)]
  simp only [bind_ok, Except.ok.injEq, exists_eq_left']
  exact ⟨(), hvalid, (bind_ok _ _ _).mp hstep⟩

/-- The content that a request has written is installed for it. -/
theorem installed_iff {request : CredentialMutationRequest} {n : Nat} :
    b.installed request n = true ↔
      (b.credentials request.kind).state.face =
        ⟨request.requestId, n, decide (request.operation = .set)⟩ := by
  simp only [Backend.installed, Backend.credentialIdentity, Backend.credentialMarker,
    CredentialState.status, CredentialState.face, CredentialFace.mk.injEq, Bool.and_eq_true]
  constructor
  · rintro ⟨⟨h1, h2⟩, h3⟩
    exact ⟨of_decide_eq_true h3, of_decide_eq_true h1, of_decide_eq_true h2⟩
  · rintro ⟨h1, h2, h3⟩
    exact ⟨⟨decide_eq_true h2, decide_eq_true h3⟩, decide_eq_true h1⟩

/-- A request completes when the process sees its content in the file. -/
theorem Durable.complete_ok (h : Durable b) (hrows : b.credentialMutationRequests = r :: rows)
    {request : CredentialMutationRequest} (hsame : Same r request)
    (hstate : r.state = .dispatched)
    (hinstalled : b.installed request (r.expectedGeneration + 1) = true) :
    b.completeCredentialMutation request = .ok (⟨decide (r.operation = .set),
      r.expectedGeneration + 1⟩, b.moved r rows .completed
        (some ⟨decide (r.operation = .set), r.expectedGeneration + 1⟩) .completed .completed) := by
  have hr : r ∈ b.credentialMutationRequests := hrows ▸ List.mem_cons_self ..
  have hmove : Moves r.state .completed .completed .completed := hstate ▸ .complete
  have hvalid := h.current_valid hrows hsame
  have hstep := h.step_ok hrows hmove
    (some ⟨decide (r.operation = .set), r.expectedGeneration + 1⟩)
    "a credential mutation changed before its outcome"
  rw [hstate] at hvalid hstep
  have hidentity : b.credentialIdentity request.kind =
      ⟨decide (r.operation = .set), r.expectedGeneration + 1⟩ := by
    have hface := installed_iff.mp hinstalled
    simp only [CredentialState.face, CredentialFace.mk.injEq] at hface
    simp only [Backend.credentialIdentity, CredentialState.status, hface.2.1, hface.2.2,
      hsame.operation]
  have hgeneration := h.generation_ok hr
  -- No earlier request of the kind has made this generation.
  have hunique : ∀ x ∈ b.credentialMutationRequests, x.kind = request.kind →
      x.result.map (·.generation) ≠ some (r.expectedGeneration + 1) := by
    intro x hx hkind hgen
    by_cases hx' : x.state = .completed
    · have hresult := (h.recorded x hx).result hx'
      rw [hresult] at hgen
      have hsamegen : x.expectedGeneration + 1 = r.expectedGeneration + 1 := Option.some.inj hgen
      have hchain := h.chained
      rw [hrows] at hx hchain
      rcases List.mem_cons.mp hx with rfl | hx
      · rw [hstate] at hx'
        cases hx'
      · have hin : x ∈ completedOf r.kind rows :=
          List.mem_filter.mpr ⟨hx, by simp [hx', hkind, hsame.kind]⟩
        have hlt := hchain.tail.expected_lt x hin
        have hexpected := hchain.1
        omega
    · rw [h.results x hx hx'] at hgen
      cases hgen
  unfold Backend.completeCredentialMutation
  rw [hidentity, ← hsame.expectedGeneration, hgeneration, ← hsame.requestId]
  obtain ⟨u, hu, hstep⟩ := (bind_ok _ _ _).mp hstep
  have hrequests : u.credentialMutationRequests = b.credentialMutationRequests := by
    simp only [Backend.insertCredentialFact, bind_ok, require_ok, pure_ok, Prod.exists,
      nextSequence_ok, exists_const] at hu
    obtain ⟨_, _, ⟨-, rfl, rfl⟩, _, _, ⟨-, rfl, rfl⟩, -, -, rfl⟩ := hu
    rfl
  simp only [bind_ok, require_ok, pure_ok, Except.ok.injEq, exists_eq_left', exists_const]
  refine ⟨hinstalled, (), hvalid, u, hu, ?_, _, hstep, rfl⟩
  rw [hrequests]
  exact hunique

end Morons
