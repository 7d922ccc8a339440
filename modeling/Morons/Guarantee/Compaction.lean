import Mathlib.Order.WellFounded
import Morons.Invariant.Turn
import Morons.Run.Compaction

/-!
# Whole-turn cuts keep turns whole

`selectCompactionPrefixFitting` returns the smallest of the cuts it may choose.
A cut before the message of a user parts no call from its result or its batch,
because the turns of a session do not overlap.
-/

namespace Morons

open Attempt

variable {env : Environment} {s : Store} {sessionId : SessionId} {covered protectedFrom through : Nat}
  {acceptsTail : ContextBudget → Bool}

/-- One of the last two messages of users strictly between two places. -/
structure LatestUser (s : Store) (sessionId : SessionId) (covered protectedFrom n : Nat) : Prop where
  between : n ∈ userPlaces s sessionId covered protectedFrom
  latest : ((userPlaces s sessionId covered protectedFrom).filter (n < ·)).length < 2

/-- A cut that may be chosen. -/
structure EligibleCut (env : Environment) (s : Store) (sessionId : SessionId)
    (covered protectedFrom through : Nat) (acceptsTail : ContextBudget → Bool) (cut : Nat) :
    Prop where
  advances : covered < cut
  protects : cut < protectedFrom
  within : protectedFrom ≤ through
  boundary : cut + 1 = protectedFrom ∨ LatestUser s sessionId covered protectedFrom (cut + 1)
  accepted : acceptsTail (contextBudget env s sessionId cut through) = true

/-- The run is over and every call of it has its result. -/
structure RunSettled (s : Store) (run : Run) : Prop where
  terminal : run.state.isTerminal = true
  recorded : ∀ call ∈ s.toolCalls, call.runId = run.id → resultPlaces s call.callId ≠ []

/-! ## The choice -/

theorem mem_userPlaces {after before n : Nat} : n ∈ userPlaces s sessionId after before ↔
    ∃ e ∈ s.sessionEntries, e.sessionId = sessionId ∧ e.body.isUser = true ∧ after < n ∧
      n < before ∧ e.entrySequence = n := by
  simp only [userPlaces, List.mem_map, List.mem_filter, Bool.and_eq_true, decide_eq_true_eq]
  constructor
  · rintro ⟨e, ⟨he, ⟨⟨hsession, huser⟩, hafter⟩, hbefore⟩, rfl⟩
    exact ⟨e, he, hsession, huser, hafter, hbefore, rfl⟩
  · rintro ⟨e, he, hsession, huser, hafter, hbefore, rfl⟩
    exact ⟨e, ⟨he, ⟨⟨hsession, huser⟩, hafter⟩, hbefore⟩, rfl⟩

theorem entryPlaces_eq {entries : List SessionEntry} : entryPlaces sessionId entries =
    (entries.filter fun e => e.sessionId = sessionId).map (·.entrySequence) := by
  induction entries with
  | nil => rfl
  | cons e rest ih =>
    rw [entryPlaces] at ih ⊢
    by_cases h : e.sessionId = sessionId
    · simp [h, ih]
    · simp [h, ih]

/-- No two messages of a session have one place. -/
theorem Sound.userPlaces_nodup (h : Sound s) {after before : Nat} :
    (userPlaces s sessionId after before).Nodup := by
  by_cases hsome : ∃ r ∈ s.sessionRunStates, r.sessionId = sessionId
  · obtain ⟨r, hr, rfl⟩ := hsome
    have hplaces : (entryPlaces r.sessionId s.sessionEntries).Nodup :=
      (List.nodup_append.mp ((h.transcribed r hr).2.nodup_iff.mpr (List.nodup_range'))).1
    rw [entryPlaces_eq] at hplaces
    refine hplaces.sublist (List.Sublist.map _ (List.monotone_filter_right _ fun e he => ?_))
    simp only [Bool.and_eq_true] at he
    exact he.1.1.1
  · have hnone : userPlaces s sessionId after before = [] := by
      refine List.eq_nil_iff_forall_not_mem.mpr fun n hn => hsome ?_
      obtain ⟨e, he, hsession, -⟩ := mem_userPlaces.mp hn
      obtain ⟨f, hf, -, hfSession⟩ := h.scope.entries e he
      have hcreated := h.bound.sessions f hf
      rw [h.aligned.sessionIds, ← h.aligned.runStates] at hcreated
      obtain ⟨r, hr, hsame⟩ := List.mem_map.mp hcreated
      exact ⟨r, hr, hsame.trans (hfSession.trans hsession)⟩
    rw [hnone]
    exact List.nodup_nil

/-- The boundaries rise to the protected entry. -/
theorem boundaries_rising (h : Sound s) :
    ((Ledger.newest 2 (userPlaces s sessionId covered protectedFrom)).reverse ++
      [protectedFrom]).Pairwise (· < ·) := by
  have hnodup : (userPlaces s sessionId covered protectedFrom).Nodup := h.userPlaces_nodup
  have hdown := Ledger.newest_decreasing (n := 2) hnodup
  refine List.pairwise_append.mpr ⟨List.pairwise_reverse.mpr hdown, by simp, fun n hn m hm => ?_⟩
  obtain rfl := List.mem_singleton.mp hm
  have hmem := ((Ledger.mem_newest h.userPlaces_nodup).mp (List.mem_reverse.mp hn)).1
  obtain ⟨e, -, -, -, -, hbefore, -⟩ := mem_userPlaces.mp hmem
  exact hbefore

theorem boundary_iff (h : Sound s) (hwithin : protectedFrom ≤ through) {boundary : Nat}
    (hpositive : covered + 1 < protectedFrom) :
    (boundary ∈ (Ledger.newest 2 (userPlaces s sessionId covered protectedFrom)).reverse ++
        [protectedFrom] ∧
      boundaryAccepted env s sessionId covered through acceptsTail boundary = true) ↔
    0 < boundary ∧
      EligibleCut env s sessionId covered protectedFrom through acceptsTail (boundary - 1) := by
  simp only [List.mem_append, List.mem_reverse, List.mem_singleton, boundaryAccepted,
    Bool.and_eq_true, decide_eq_true_eq, Ledger.mem_newest h.userPlaces_nodup]
  constructor
  · rintro ⟨hboundary, hcovered, haccepted⟩
    have hpos : boundary - 1 + 1 = boundary := by omega
    refine ⟨by omega, hcovered, ?_, hwithin, ?_, haccepted⟩
    · rcases hboundary with ⟨hmem, -⟩ | rfl
      · obtain ⟨e, -, -, -, -, hbefore, -⟩ := mem_userPlaces.mp hmem
        omega
      · omega
    · rw [hpos]
      rcases hboundary with ⟨hmem, hlate⟩ | rfl
      · exact Or.inr ⟨hmem, hlate⟩
      · exact Or.inl rfl
  · rintro ⟨hpos, hcut⟩
    have hsame : boundary - 1 + 1 = boundary := by omega
    refine ⟨?_, hcut.advances, hcut.accepted⟩
    rcases hcut.boundary with hboundary | hboundary
    · exact Or.inr (hsame.symm.trans hboundary)
    · rw [hsame] at hboundary
      exact Or.inl ⟨hboundary.between, hboundary.latest⟩

/-- Outside these bounds there is no cut. -/
theorem EligibleCut.bounds {c : Nat}
    (h : EligibleCut env s sessionId covered protectedFrom through acceptsTail c) :
    covered + 1 < protectedFrom ∧ protectedFrom ≤ through := by
  have := h.advances
  have := h.protects
  exact ⟨by omega, h.within⟩

/-- **The choice.** -/
theorem selectCompactionPrefixFitting_ok (h : Sound s) {cut : Option Nat}
    (hselect : selectCompactionPrefixFitting env s sessionId covered protectedFrom through
      acceptsTail = .ok cut) (c : Nat) :
    cut = some c ↔ EligibleCut env s sessionId covered protectedFrom through acceptsTail c ∧
      ∀ c', EligibleCut env s sessionId covered protectedFrom through acceptsTail c' → c ≤ c' := by
  have hsaturated : saturatingAdd covered 1 ≤ covered + 1 := Nat.min_le_left ..
  unfold selectCompactionPrefixFitting at hselect
  split at hselect
  case isTrue hoff =>
    obtain rfl := Except.ok.inj hselect
    refine ⟨(nomatch ·), fun ⟨hcut, _⟩ => ?_⟩
    obtain ⟨hpositive, hwithin⟩ := hcut.bounds
    omega
  case isFalse hin =>
    simp only [bind_ok, sequenceToSql, require_ok] at hselect
    obtain ⟨-, hcovered, -, hprotected, hloop⟩ := hselect
    have hmax : maxInteger + 1 < 2 ^ 64 := by decide
    have hexact : saturatingAdd covered 1 = covered + 1 := Nat.min_eq_left (by omega)
    rw [selectBoundary_ok hloop, Option.map_eq_some_iff]
    have hpositive : covered + 1 < protectedFrom := by omega
    have hwithin : protectedFrom ≤ through := by omega
    simp only [Ledger.find?_rising (boundaries_rising h)]
    constructor
    · rintro ⟨boundary, ⟨hmem, haccepted, hleast⟩, rfl⟩
      refine ⟨((boundary_iff h hwithin hpositive).mp ⟨hmem, haccepted⟩).2, fun c' hc' => ?_⟩
      obtain ⟨hmem', haccepted'⟩ := (boundary_iff h hwithin hpositive).mpr ⟨Nat.succ_pos c', hc'⟩
      have := hleast (c' + 1) hmem' haccepted'
      omega
    · rintro ⟨hcut, hleast⟩
      obtain ⟨hmem, haccepted⟩ := (boundary_iff h hwithin hpositive).mpr ⟨Nat.succ_pos c, hcut⟩
      refine ⟨c + 1, ⟨hmem, haccepted, fun boundary hmem' haccepted' => ?_⟩, rfl⟩
      obtain ⟨hpos, hcut'⟩ := (boundary_iff h hwithin hpositive).mp ⟨hmem', haccepted'⟩
      have := hleast (boundary - 1) hcut'
      omega

/-- Places that SQLite can hold are searched without an error. -/
theorem selectCompactionPrefixFitting_total (hthrough : through ≤ maxInteger) :
    ∃ cut, selectCompactionPrefixFitting env s sessionId covered protectedFrom through
      acceptsTail = .ok cut := by
  unfold selectCompactionPrefixFitting
  split
  case isTrue => exact ⟨none, rfl⟩
  case isFalse hin =>
    have hmax : maxInteger + 1 < 2 ^ 64 := by decide
    have hcovered : covered < protectedFrom := by
      unfold saturatingAdd at hin
      omega
    have hboundaries : ∀ boundary ∈ (Ledger.newest 2
        (userPlaces s sessionId covered protectedFrom)).reverse ++ [protectedFrom],
        boundary ≤ through := by
      intro boundary hmem
      rcases List.mem_append.mp hmem with hmem | hmem
      · have hplace := (List.perm_insertionSort (· ≥ ·) _).mem_iff.mp
          (List.mem_of_mem_take (List.mem_reverse.mp hmem))
        obtain ⟨e, -, -, -, -, hbefore, -⟩ := mem_userPlaces.mp hplace
        omega
      · obtain rfl := List.mem_singleton.mp hmem
        omega
    have hconverted : ∀ n, n ≤ through → sequenceToSql n = .ok () :=
      fun n hn => (require_ok _ _ ()).mpr (hn.trans hthrough)
    rw [hconverted covered (by omega), hconverted protectedFrom (by omega)]
    exact selectBoundary_total hboundaries hthrough

/-! ## Whole turns -/

theorem mem_resultPlaces {callId : ToolCallId} {n : Nat} : n ∈ resultPlaces s callId ↔
    ∃ e ∈ s.sessionEntries, e.body.finishedTool = some callId ∧ e.entrySequence = n := by
  simp [resultPlaces, and_assoc]

/-- An entry of a call belongs to the call's run. -/
theorem Called.entry_run (h : Called s) (hid : Identified s) {call : ToolCall}
    (hcall : call ∈ s.toolCalls) {e : SessionEntry} (he : e ∈ s.sessionEntries)
    (htool : e.body.toolCallId = some call.callId) :
    e.runId = call.runId ∧ e.sessionId = call.sessionId := by
  obtain ⟨c, hfound, hplace⟩ := h.call_of_entry hid he htool
  have hsame : c = call := hid.toolCalls.eq_of_seq (Table.find_mem hfound) hcall
    (Table.find_key hfound)
  rw [hsame] at hplace
  exact ⟨(congrArg CallPlace.runId hplace).symm, (congrArg CallPlace.sessionId hplace).symm⟩

theorem calledTool_toolCallId {body : EntryBody} {callId : ToolCallId}
    (h : body.calledTool = some callId) : body.toolCallId = some callId := by
  cases body <;> first | exact h | cases h

theorem finishedTool_toolCallId {body : EntryBody} {callId : ToolCallId}
    (h : body.finishedTool = some callId) : body.toolCallId = some callId := by
  cases body <;> first | exact h | cases h

/-- Below the message of one run, the calls of another are finished when those of the earlier runs
are. -/
theorem resultAbove_false (hs : Sound s) (ht : Turned s) {f own : RunAcceptedFact}
    (hf : f ∈ s.runAcceptedFacts) (hown : own ∈ s.runAcceptedFacts)
    (hearlier : own.place < f.place) (hsession : f.sessionId = own.sessionId) {call : ToolCall}
    (hcall : call ∈ s.toolCalls) (hrun : call.runId = own.runId)
    (hrecorded : resultPlaces s call.callId ≠ []) {cut : Nat} (hcut : cut + 1 = f.place) :
    resultAbove s call.callId cut = false := by
  rw [resultAbove, Bool.or_eq_false_iff]
  refine ⟨by simpa using hrecorded, List.any_eq_false.mpr fun n hn => ?_⟩
  obtain ⟨e, he, htool, rfl⟩ := mem_resultPlaces.mp hn
  obtain ⟨hsame, -⟩ := hs.called.entry_run hs.identified hcall he (finishedTool_toolCallId htool)
  have hscope : e.sessionId = own.sessionId := by
    obtain ⟨g, hg, hgRun, hgSession⟩ := hs.scope.entries e he
    have heq : g = own := hs.identified.acceptedFacts.eq_of_seq hg hown
      (hgRun.trans (hsame.trans hrun))
    rw [← hgSession, heq]
  have hnever : ¬ f.place ≤ e.entrySequence := fun hle =>
    absurd (ht.apart e he own hown (hrun.symm.trans hsame.symm) f hf
      (hsession.trans hscope.symm) hle) (by omega)
  simp only [decide_eq_true_eq]
  omega

/-- A cut before the message of a run keeps the turns of the session whole, when the calls of the
runs before that message are finished. -/
theorem completeCut_of_place (hs : Sound s) (ht : Turned s) (hb : Batched s) {f : RunAcceptedFact}
    (hf : f ∈ s.runAcceptedFacts) (hsession : f.sessionId = sessionId) {cut : Nat}
    (hcut : cut + 1 = f.place)
    (hearlier : ∀ run ∈ s.runs, run.sessionId = sessionId → run.place < f.place → RunSettled s run)
    {run : Run} (hrun : run ∈ s.runs) (hscope : run.sessionId = sessionId) :
    completeCut s run.id cut = true := by
  obtain ⟨own, hown, horigin⟩ := hs.bound.fact hrun
  have hownRun : own.runId = run.id := congrArg RunOrigin.id horigin
  have hownSession : own.sessionId = run.sessionId := congrArg RunOrigin.sessionId horigin
  have hownPlace : own.place = run.place :=
    congrArg (fun o : RunOrigin => o.binding.sourceEntryHighWater) horigin
  -- An entry of the run below the cut puts the run before the message.
  have hbefore : ∀ call ∈ s.toolCalls, call.runId = run.id → ∀ e ∈ s.sessionEntries,
      e.body.toolCallId = some call.callId → e.entrySequence ≤ cut → own.place < f.place := by
    intro call hcall hcallRun e he htool hle
    obtain ⟨hsame, -⟩ := hs.called.entry_run hs.identified hcall he htool
    have hbegun := (ht.begun e he own hown (hownRun.trans (hcallRun.symm.trans hsame.symm))).1
    omega
  have habove : ∀ call ∈ s.toolCalls, call.runId = run.id → own.place < f.place →
      resultAbove s call.callId cut = false := by
    intro call hcall hcallRun hplace
    have hsettled := hearlier run hrun hscope (hownPlace ▸ hplace)
    exact resultAbove_false hs ht hf hown hplace (hsession.trans (hscope.symm.trans hownSession.symm))
      hcall (hcallRun.trans hownRun.symm) (hsettled.recorded call hcall hcallRun) hcut
  rw [completeCut, Bool.and_eq_true, Bool.not_eq_true', Bool.not_eq_true', List.any_eq_false,
    List.any_eq_false]
  constructor
  · intro call hcall hparted
    simp only [Bool.and_eq_true, decide_eq_true_eq, List.any_eq_true] at hparted
    obtain ⟨⟨hcallRun, e, he, htool, hle⟩, hlate⟩ := hparted
    rw [habove call hcall hcallRun
      (hbefore call hcall hcallRun e he (calledTool_toolCallId htool) hle)] at hlate
    cases hlate
  · intro a ha hparted
    simp only [Bool.and_eq_true, decide_eq_true_eq, List.any_eq_true] at hparted
    obtain ⟨⟨haRun, n, hn, hle⟩, b, hcallB, hbatch, hlate⟩ := hparted
    obtain ⟨e, he, htool, rfl⟩ := mem_resultPlaces.mp hn
    have hplace := hbefore a ha haRun e he (finishedTool_toolCallId htool) hle
    rw [habove b hcallB ((hb.shared ha hcallB hbatch).trans haRun) hplace] at hlate
    cases hlate

/-- A cut that may be chosen ends before the message of a run. -/
theorem EligibleCut.before_message (hs : Sound s) (ht : Turned s) {c : Nat} {own : Run}
    (h : EligibleCut env s sessionId covered own.place through acceptsTail c) (hown : own ∈ s.runs)
    (hscope : own.sessionId = sessionId) :
    ∃ f ∈ s.runAcceptedFacts, f.sessionId = sessionId ∧ c + 1 = f.place ∧ f.place ≤ own.place := by
  rcases h.boundary with hprotected | huser
  · obtain ⟨f, hf, horigin⟩ := hs.bound.fact hown
    have hplace : f.place = own.place :=
      congrArg (fun o : RunOrigin => o.binding.sourceEntryHighWater) horigin
    exact ⟨f, hf, (congrArg RunOrigin.sessionId horigin).trans hscope, hprotected.trans hplace.symm,
      hplace.le⟩
  · obtain ⟨e, he, hsession, hbody, -, hbefore, hsequence⟩ := mem_userPlaces.mp huser.between
    obtain ⟨f, hf, hfRun, hfSession⟩ := hs.scope.entries e he
    have hplace := (ht.begun e he f hf hfRun).2 hbody
    exact ⟨f, hf, hfSession.trans hsession, by omega, by omega⟩

/-! ## After the summary -/

/-- A checkpoint above all others is the newest. -/
theorem newestCheckpoint_insert {checkpoint : ContextCheckpoint} {highWater : Nat}
    (hsession : checkpoint.sessionId = sessionId) (hle : checkpoint.sourceEntryHighWater ≤ highWater)
    (hnewest : ∀ c, newestCheckpoint s sessionId highWater = some c →
      c.sourceEntryHighWater < checkpoint.sourceEntryHighWater) :
    newestCheckpoint (insertContextCheckpoint s checkpoint) sessionId highWater =
      some checkpoint := by
  rw [newestCheckpoint, insertContextCheckpoint, List.filter_cons_of_pos (by simp [hsession, hle])]
  exact Ledger.latest_cons_of_lt hnewest

/-- **Whole-turn cuts.** -/
theorem wholeTurn_cut (h : Reachable Any s) (env : Environment) (sessionId : SessionId)
    (covered protectedFrom through : Nat) :
    -- The choice is the smallest of the cuts that may be chosen.
    (∀ acceptsTail cut, selectCompactionPrefixFitting env s sessionId covered protectedFrom through
        acceptsTail = .ok cut →
      (∀ c, cut = some c ↔
        EligibleCut env s sessionId covered protectedFrom through acceptsTail c ∧
          ∀ c', EligibleCut env s sessionId covered protectedFrom through acceptsTail c' → c ≤ c') ∧
      (cut = none ↔
        ∀ c, ¬ EligibleCut env s sessionId covered protectedFrom through acceptsTail c)) ∧
    (through ≤ maxInteger → ∀ acceptsTail, ∃ cut,
      selectCompactionPrefixFitting env s sessionId covered protectedFrom through acceptsTail =
        .ok cut) ∧
    -- It parts no call from its result or its batch.
    (∀ own ∈ s.runs, own.sessionId = sessionId → own.place = protectedFrom →
      (∀ run ∈ s.runs, run.sessionId = sessionId → run.place < protectedFrom → RunSettled s run) →
      ∀ acceptsTail c, selectCompactionPrefixFitting env s sessionId covered protectedFrom through
          acceptsTail = .ok (some c) →
        ∀ run ∈ s.runs, run.sessionId = sessionId → completeCut s run.id c = true) ∧
    -- What remains above a summary fits.
    (∀ maximumInputTokens instructionBytes c, selectCompactionPrefix env s sessionId covered
        protectedFrom through maximumInputTokens instructionBytes = .ok (some c) →
      ∀ checkpoint : ContextCheckpoint, checkpoint.sessionId = sessionId →
        checkpoint.sourceEntryHighWater = c →
        checkpoint.summary.utf8ByteSize ≤ maxCompactionSummaryBytes →
        (contextBudget env (insertContextCheckpoint s checkpoint) sessionId
          checkpoint.sourceEntryHighWater through).fits maximumInputTokens
            (instructionBytes + checkpoint.summary.utf8ByteSize) = true ∧
        ((∀ newest, newestCheckpoint s sessionId through = some newest →
            newest.sourceEntryHighWater ≤ covered) →
          newestCheckpoint (insertContextCheckpoint s checkpoint) sessionId through =
            some checkpoint)) := by
  have hs := h.sound
  obtain ⟨ht, hb⟩ := h.turned
  have hchoice : ∀ acceptsTail cut, selectCompactionPrefixFitting env s sessionId covered
      protectedFrom through acceptsTail = .ok cut → ∀ c, cut = some c ↔
        EligibleCut env s sessionId covered protectedFrom through acceptsTail c ∧
          ∀ c', EligibleCut env s sessionId covered protectedFrom through acceptsTail c' → c ≤ c' :=
    fun _ _ hselect => selectCompactionPrefixFitting_ok hs hselect
  refine ⟨fun acceptsTail cut hselect => ⟨hchoice acceptsTail cut hselect, ?_⟩,
    fun hthrough _ => selectCompactionPrefixFitting_total hthrough, ?_, ?_⟩
  · constructor
    · rintro rfl c hcut
      -- Of cuts that may be chosen one is the smallest.
      obtain ⟨least, hleast, hsmallest⟩ := wellFounded_lt.has_min
        {c | EligibleCut env s sessionId covered protectedFrom through acceptsTail c} ⟨c, hcut⟩
      cases (hchoice acceptsTail none hselect least).mpr
        ⟨hleast, fun c' hc' => Nat.le_of_not_lt (hsmallest c' hc')⟩
    · intro hnone
      cases cut with
      | none => rfl
      | some c => exact absurd ((hchoice acceptsTail _ hselect c).mp rfl).1 (hnone c)
  · rintro own hown hscope rfl hsettled acceptsTail c hselect run hrun hrunScope
    have hcut := ((hchoice acceptsTail _ hselect c).mp rfl).1
    obtain ⟨f, hf, hfSession, hplace, hle⟩ := hcut.before_message hs ht hown hscope
    exact completeCut_of_place hs ht hb hf hfSession hplace
      (fun r hr hrSession hbefore => hsettled r hr hrSession (hbefore.trans_le hle)) hrun hrunScope
  · rintro maximumInputTokens instructionBytes c hselect checkpoint hcheckpoint rfl hsummary
    have hcut := ((hchoice _ _ hselect checkpoint.sourceEntryHighWater).mp rfl).1
    refine ⟨ContextBudget.fits_mono (Nat.add_le_add_left hsummary _) hcut.accepted, fun hcovered => ?_⟩
    have hprotects := hcut.protects
    have hwithin := hcut.within
    exact newestCheckpoint_insert hcheckpoint (by omega) fun newest hnewest =>
      lt_of_le_of_lt (hcovered newest hnewest) hcut.advances

/-- A run with one call succeeds, and its user goes on. -/
def followedRun : Store := executed <|
  createSession (.open 10) 1 "/work" ++
    [submitInput (.open 10) 2 1 "go", (.open 10, .activateRun 4)] ++
    toolTurn (.open 10) 4 9 1 [bashCall "a" "ls"] ++
    executeTool (.open 10) 4 10 11 (.ok (.bash (some 0) none "done" "")) ++
    [(.open 10, .prepareProviderOperation 4 3 100), (.open 10, .markProviderDispatched 4 17),
      (.open 10, .completeRunSuccess 4 17 ⟨"done", false, "resp_1", ⟨1, 0, 0, 1, 0, 2⟩⟩),
      submitInput (.open 10) 3 1 "on"]

theorem followedRun_reachable : Reachable Any followedRun :=
  reachable_executed_any (by decide +kernel)

theorem followedRun_settled : ∀ run ∈ followedRun.runs, run.place < 5 →
    RunSettled followedRun run := by
  have hdone : ∀ run ∈ followedRun.runs, run.place < 5 → run.state.isTerminal = true ∧
      ∀ call ∈ followedRun.toolCalls, call.runId = run.id →
        resultPlaces followedRun call.callId ≠ [] := by
    decide +kernel
  exact fun run hrun hplace => ⟨(hdone run hrun hplace).1, (hdone run hrun hplace).2⟩

/-- The cut before its second message keeps its first turn whole and leaves room for a summary. -/
theorem followedRun_cut :
    selectCompactionPrefix (.open 10) followedRun 1 0 5 5 96000 0 = .ok (some 4) ∧
    (∀ run ∈ followedRun.runs, run.sessionId = 1 → completeCut followedRun run.id 4 = true) ∧
    (contextBudget (.open 10) (insertContextCheckpoint followedRun
      ⟨30, 1, none, 4, 0, "A summary.", 20, 40, 10⟩) 1 4 5).fits 96000 10 = true := by
  have hselect : selectCompactionPrefix (.open 10) followedRun 1 0 5 5 96000 0 = .ok (some 4) := by
    decide +kernel
  obtain ⟨-, -, hwhole, hroom⟩ := wholeTurn_cut followedRun_reachable (.open 10) 1 0 5 5
  obtain ⟨own, hown, hscope, hplace⟩ : ∃ own ∈ followedRun.runs, own.sessionId = 1 ∧
      own.place = 5 := by
    decide +kernel
  refine ⟨hselect, ?_, ?_⟩
  · exact hwhole own hown hscope hplace (fun run hrun _ => followedRun_settled run hrun) _ 4 hselect
  · exact (hroom 96000 0 4 hselect _ rfl rfl (by decide +kernel)).1

/-- Protected from the answer of its call on, the same run is cut between the two, though no run
has anything left to do: only the message of a run opens a turn. -/
theorem protected_answer_parts_call :
    Reachable Any followedRun ∧
    (∀ run ∈ followedRun.runs, run.place < 5 → RunSettled followedRun run) ∧
    selectCompactionPrefix (.open 10) followedRun 1 0 3 5 96000 0 = .ok (some 2) ∧
    ∃ run ∈ followedRun.runs, run.sessionId = 1 ∧ run.place < 3 ∧
      completeCut followedRun run.id 2 = false := by
  refine ⟨followedRun_reachable, followedRun_settled, ?_⟩
  decide +kernel

end Morons
