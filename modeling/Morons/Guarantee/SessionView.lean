import Morons.Cli.SessionView

/-!
# An honest session view

The window of the open session keeps its limits and its ids apart, the active
run is one that goes on, and the preview shows deltas of that run without a gap
or says that it is cut.
-/

namespace Morons.OpenSession

open Attempt Events Cli

/-! ## What was received -/

/-- What a view has received of a run: deltas, and messages that end an answer. -/
inductive Received
  | delta (runId : RunId) (sequence : Nat) (text : String)
  | message (runId : RunId)
  deriving DecidableEq

def Received.runId : Received → RunId
  | delta runId .. | message runId => runId

/-- What an event brings.  An entry the view has already is no other message. -/
def SessionView.received (v : SessionView) : ViewEvent → List Received
  | .assistantDelta runId sequence delta _ => [.delta runId sequence delta]
  | .transcriptEntryCommitted entry =>
    if v.entries.any fun existing => existing.id = entry.id then []
    else entry.answeredRun.toList.map .message
  | _ => []

/-- A view and what it has received since it was opened. -/
inductive Opened (p : Presenter) (window : TranscriptWindowData) :
    List Received → SessionView → Prop
  | start {v : SessionView} (h : SessionView.new p window = .ok v) : Opened p window [] v
  | event {log : List Received} {v w : SessionView} (before : Opened p window log v)
      (event : ViewEvent) (h : v.applyEvent p event = .ok w) :
      Opened p window (log ++ v.received event) w

/-- What was received of one run. -/
def ofRun (runId : RunId) (log : List Received) : List Received :=
  log.filter fun item => item.runId = runId

/-- Deltas with consecutive numbers. -/
def numbered (runId : RunId) : Nat → List String → List Received
  | _, [] => []
  | sequence, delta :: rest => .delta runId sequence delta :: numbered runId (sequence + 1) rest

/-- The text of a preview is that of the last deltas of its run, from delta 1 or
from the first one after a message on, without a gap. -/
def Shows (log : List Received) (transient : TransientAssistant) (first : Nat)
    (deltas : List String) : Prop :=
  deltas ≠ [] ∧ transient.text = String.join deltas ∧ ∃ before,
    ofRun transient.runId log = before ++ numbered transient.runId first deltas ∧
      (first = 1 ∨ before.getLast? = some (.message transient.runId))

/-! ## What every event keeps -/

/-- The window. -/
structure WindowSound (p : Presenter) (v : SessionView) : Prop where
  ids : (v.entries.map (·.id)).Nodup
  presented : ∀ entry ∈ v.entries, p.entry entry.source = .ok entry
  count : v.entries.length ≤ maxClientTranscriptEntries
  bytes : v.sourceBytes =
    (v.entries.map fun entry => (entrySourceBytes entry.source).getD 0).sum
  bounded : v.sourceBytes ≤ maxSourceBytes
  runs : (v.runs.map RunSummary.id).Nodup
  active : ∀ runId, v.activeRunId = some runId →
    ∃ run ∈ v.runs, run.id = runId ∧ run.state.isTerminal = false
  preview : ∀ transient, v.transient = some transient → v.activeRunId = some transient.runId

/-- The preview and the number of the last delta. -/
structure PreviewSound (log : List Received) (v : SessionView) : Prop where
  sequence : ∀ transient, v.transient = some transient → ∀ runId sequence,
    v.deltaSequence = some (runId, sequence) → runId = transient.runId
  shows : ∀ transient, v.transient = some transient → transient.truncated = false →
    ∃ first deltas, Shows log transient first deltas ∧
      v.deltaSequence = some (transient.runId, first + deltas.length - 1)
  /-- Without a preview, the deltas so far are part of a message. -/
  ended : v.transient = none → ∀ runId sequence, v.deltaSequence = some (runId, sequence) →
    (ofRun runId log).getLast? = some (.message runId)

variable {p : Presenter} {v w : SessionView} {window : TranscriptWindowData}
  {log : List Received} {entry : TranscriptEntry} {run : RunSummary} {runId : RunId}
  {sequence first : Nat} {deltas : List String} {delta : String} {refusal : Bool}
  {transient transient' : TransientAssistant}

/-! ## Opening -/

theorem entry_ok {presented : PresentedTranscriptEntry} (h : p.entry entry = .ok presented) :
    presented.source = entry ∧ presented.id = entry.id := by
  simp only [Presenter.entry, bind_ok, pure_ok] at h
  obtain ⟨bytes, -, text, -, rfl⟩ := h
  exact ⟨rfl, rfl⟩

theorem windowSourceBytes_from {entries : List TranscriptEntry} {total bytes : Nat}
    (htotal : total ≤ maxSourceBytes)
    (h : entries.foldlM (fun total entry => do
      let bytes ← Provider.checkedAdd total (← entrySourceBytes entry)
      if bytes ≤ maxSourceBytes then some bytes else none) total = some bytes) :
    bytes ≤ maxSourceBytes ∧
      bytes = total + (entries.map fun entry => (entrySourceBytes entry).getD 0).sum := by
  induction entries generalizing total with
  | nil =>
    obtain rfl := Option.some.inj h
    exact ⟨htotal, rfl⟩
  | cons entry entries ih =>
    simp only [List.foldlM_cons, Option.bind_eq_bind, Option.bind_eq_some_iff] at h
    obtain ⟨next, ⟨size, hsize, sum, hsum, hnext⟩, hrest⟩ := h
    obtain ⟨-, rfl⟩ : _ ∧ total + size = sum := by simpa [Provider.checkedAdd] using hsum
    split at hnext
    case isFalse => cases hnext
    case isTrue hfits =>
      obtain rfl := Option.some.inj hnext
      obtain ⟨hbytes, rfl⟩ := ih hfits hrest
      refine ⟨hbytes, ?_⟩
      rw [List.map_cons, List.sum_cons, hsize, Option.getD_some, Nat.add_assoc]

/-- The entries of an opened window are those that were sent. -/
theorem mapM_entry {entries : List TranscriptEntry} {presented : List PresentedTranscriptEntry}
    (h : entries.mapM p.entry = .ok presented) :
    presented.map (·.source) = entries ∧ presented.map (·.id) = entries.map TranscriptEntry.id ∧
      ∀ entry ∈ presented, p.entry entry.source = .ok entry := by
  induction entries generalizing presented with
  | nil =>
    obtain rfl := (pure_ok _ _).mp h
    exact ⟨rfl, rfl, by simp⟩
  | cons entry entries ih =>
    simp only [List.mapM_cons, bind_ok, pure_ok] at h
    obtain ⟨shown, hshown, rest, hrest, rfl⟩ := h
    obtain ⟨hsource, hid⟩ := entry_ok hshown
    obtain ⟨hsources, hids, hpresented⟩ := ih hrest
    refine ⟨by rw [List.map_cons, hsource, hsources], by rw [List.map_cons, List.map_cons, hid, hids],
      ?_⟩
    intro entry hentry
    rcases List.mem_cons.mp hentry with rfl | hentry
    · rwa [hsource]
    · exact hpresented entry hentry

theorem WindowSound.new (hids : (window.entries.map TranscriptEntry.id).Nodup)
    (hruns : (window.runs.map RunSummary.id).Nodup) (h : SessionView.new p window = .ok v) :
    WindowSound p v ∧ PreviewSound [] v := by
  simp only [SessionView.new, bind_ok, require_ok, demand_ok, exists_const, pure_ok] at h
  obtain ⟨⟨hcount, -⟩, hscope, bytes, hbytes, entries, hentries, rfl⟩ := h
  obtain ⟨hsources, hpresentedIds, hpresented⟩ := mapM_entry hentries
  obtain ⟨hbounded, hsum⟩ := windowSourceBytes_from (Nat.zero_le _) hbytes
  refine ⟨⟨?_, hpresented, ?_, ?_, hbounded, hruns, ?_, ?_⟩, ⟨?_, ?_, ?_⟩⟩
  · rwa [hpresentedIds]
  · rwa [← hsources, List.length_map] at hcount
  · rw [hsum, Nat.zero_add, ← hsources, List.map_map]
    rfl
  · intro runId hactive
    simp only [Bool.or_eq_true, not_or] at hscope
    have hrun := hscope.1.2
    simp only at hactive
    rw [hactive] at hrun
    simpa using hrun
  · simp
  · simp
  · simp
  · simp

/-! ## One event -/

theorem isHistoricalWindow_false : v.isHistoricalWindow = false ↔
    v.newerCursor = none ∧ v.deferredNewerOutput = false := by
  simp [SessionView.isHistoricalWindow]

/-- Only the preview and the active command are settled, and the preview is one
of the run the entry answers. -/
theorem settle_transient (h : (v.settle entry).transient = some transient) :
    v.transient = some transient ∧ entry.answeredRun ≠ some transient.runId := by
  simp only [SessionView.settle] at h
  split at h
  case isTrue => cases h
  case isFalse hother =>
    refine ⟨h, ?_⟩
    intro hanswered
    rw [h, hanswered] at hother
    exact hother ⟨rfl, rfl⟩

theorem WindowSound.settle (hv : WindowSound p v) : WindowSound p (v.settle entry) :=
  ⟨hv.ids, hv.presented, hv.count, hv.bytes, hv.bounded, hv.runs, hv.active,
    fun transient htransient => hv.preview transient (settle_transient htransient).1⟩

theorem WindowSound.deferTranscriptEntry (hv : WindowSound p v) :
    WindowSound p (v.deferTranscriptEntry entry) := by
  have hsettled : WindowSound p (v.settle entry) := hv.settle
  exact ⟨hsettled.ids, hsettled.presented, hsettled.count, hsettled.bytes, hsettled.bounded,
    hsettled.runs, hsettled.active, hsettled.preview⟩

/-- What an appended entry does to the view. -/
theorem appendTranscriptEntry_ok {known : Bool}
    (h : v.appendTranscriptEntry p entry = .ok (known, w)) :
    ((v.entries.any fun existing => existing.id = entry.id) = true ∧ w = v) ∨
    ((v.entries.any fun existing => existing.id = entry.id) = false ∧
      w = { v.deferTranscriptEntry entry with tailRefreshRequired := true }) ∨
    ((v.entries.any fun existing => existing.id = entry.id) = false ∧
      ∃ bytes presented, entrySourceBytes entry = some bytes ∧ p.entry entry = .ok presented ∧
        v.entries.length < maxClientTranscriptEntries ∧ v.sourceBytes + bytes ≤ maxSourceBytes ∧
        w = { v.settle entry with
          entries := v.entries ++ [presented], sourceBytes := v.sourceBytes + bytes }) := by
  simp only [SessionView.appendTranscriptEntry, bind_ok, demand_ok] at h
  obtain ⟨bytes, hbytes, h⟩ := h
  split at h
  case isTrue hknown =>
    obtain ⟨-, rfl⟩ := Prod.mk.inj ((pure_ok _ _).mp h)
    exact .inl ⟨hknown, rfl⟩
  case isFalse hnew =>
    have hnew := Bool.eq_false_iff.mpr hnew
    simp only [bind_ok, demand_ok] at h
    obtain ⟨nextBytes, hnext, h⟩ := h
    obtain ⟨-, rfl⟩ : _ ∧ v.sourceBytes + bytes = nextBytes := by
      simpa [Provider.checkedAdd] using hnext
    split at h
    case isTrue =>
      obtain ⟨-, rfl⟩ := Prod.mk.inj ((pure_ok _ _).mp h)
      exact .inr (.inl ⟨hnew, rfl⟩)
    case isFalse hroom =>
      simp only [bind_ok, pure_ok, Prod.mk.injEq] at h
      obtain ⟨presented, hpresented, -, rfl⟩ := h
      obtain ⟨hcount, hfits⟩ := not_or.mp hroom
      exact .inr (.inr ⟨hnew, bytes, presented, hbytes, hpresented, Nat.lt_of_not_le hcount,
        Nat.le_of_not_lt hfits, rfl⟩)

theorem WindowSound.appendTranscriptEntry {known : Bool} (hv : WindowSound p v)
    (h : v.appendTranscriptEntry p entry = .ok (known, w)) : WindowSound p w := by
  obtain ⟨-, rfl⟩ | ⟨-, rfl⟩ | ⟨hnew, bytes, presented, hbytes, hpresented, hcount, hfits, rfl⟩ :=
    appendTranscriptEntry_ok h
  · exact hv
  · have hdeferred : WindowSound p (v.deferTranscriptEntry entry) := hv.deferTranscriptEntry
    exact ⟨hdeferred.ids, hdeferred.presented, hdeferred.count, hdeferred.bytes, hdeferred.bounded,
      hdeferred.runs, hdeferred.active, hdeferred.preview⟩
  · obtain ⟨hsource, hid⟩ := entry_ok hpresented
    have hsettled : WindowSound p (v.settle entry) := hv.settle
    refine ⟨?_, ?_, ?_, ?_, hfits, hsettled.runs, hsettled.active, hsettled.preview⟩
    · rw [List.map_append, List.map_singleton, List.nodup_append]
      refine ⟨hv.ids, List.nodup_singleton _, ?_⟩
      intro existing hexisting new hnewId hequal
      obtain ⟨shown, hshown, rfl⟩ := List.mem_map.mp hexisting
      obtain rfl := List.mem_singleton.mp hnewId
      have hdistinct := List.any_eq_false.mp hnew shown hshown
      rw [hequal, hid] at hdistinct
      simp at hdistinct
    · intro shown hshown
      rcases List.mem_append.mp hshown with hold | hlast
      · exact hv.presented shown hold
      · obtain rfl := List.mem_singleton.mp hlast
        rwa [hsource]
    · rw [List.length_append, List.length_singleton]
      exact hcount
    · rw [hv.bytes, List.map_append, List.sum_append, List.map_singleton, List.sum_singleton,
        hsource, hbytes, Option.getD_some]

/-! ### Runs -/

theorem placeRun_ok (h : v.placeRun run = .ok w) : ∃ runs, w = { v with runs } ∧
    ((v.runs.map RunSummary.id).Nodup → (runs.map RunSummary.id).Nodup) ∧ run ∈ runs ∧
    ∀ other ∈ v.runs, other.id ≠ run.id → other ∈ runs := by
  unfold SessionView.placeRun at h
  split at h
  case h_1 existing hfind =>
    simp only [bind_ok, require_ok, exists_const, pure_ok] at h
    obtain ⟨-, rfl⟩ := h
    obtain ⟨hmem, hid⟩ := And.intro (List.mem_of_find?_eq_some hfind)
      (show existing.id = run.id by simpa using List.find?_some hfind)
    refine ⟨_, rfl, ?_, ?_, ?_⟩
    · intro hruns
      rwa [Table.modify_keys_at fun _ _ => rfl]
    · exact Table.mem_modify.mpr ⟨existing, hmem, if_pos hid⟩
    · intro other hother hne
      exact Table.mem_modify.mpr ⟨other, hother, if_neg hne⟩
  case h_2 hfind =>
    simp only [bind_ok, require_ok, exists_const, pure_ok] at h
    obtain ⟨-, rfl⟩ := h
    refine ⟨_, rfl, ?_, by simp, fun other hother _ => List.mem_append_left _ hother⟩
    intro hruns
    rw [List.map_append, List.map_singleton, List.nodup_append]
    refine ⟨hruns, List.nodup_singleton _, ?_⟩
    intro id hid new hnew hequal
    obtain ⟨other, hother, rfl⟩ := List.mem_map.mp hid
    obtain rfl := List.mem_singleton.mp hnew
    simpa [hequal] using List.find?_eq_none.mp hfind other hother

/-- What the news of a run does to the view. -/
theorem applyRun_ok (h : v.applyRun run = .ok w) : ∃ runs,
    ((v.runs.map RunSummary.id).Nodup → (runs.map RunSummary.id).Nodup) ∧
    (∀ other ∈ v.runs, other.id ≠ run.id → other ∈ runs) ∧
    ((run.state.isTerminal = true ∧ w = { v with
        runs
        deltaSequence := v.deltaSequence.filter fun (runId, _) => runId ≠ run.id
        activeRunId := v.activeRunId.filter fun runId => runId ≠ run.id
        transient := v.transient.filter fun transient => transient.runId ≠ run.id }) ∨
      (run.state.isTerminal = false ∧ run ∈ runs ∧
        (∀ runId, v.activeRunId = some runId → runId = run.id) ∧
        w = { v with runs, activeRunId := some run.id })) := by
  simp only [SessionView.applyRun, bind_ok, require_ok, exists_const] at h
  obtain ⟨-, u, hplaced, h⟩ := h
  obtain ⟨runs, rfl, hruns, hrun, hothers⟩ := placeRun_ok hplaced
  split at h
  case isTrue hterminal =>
    obtain rfl := (pure_ok _ _).mp h
    by_cases hgone : (SessionView.isHistoricalWindow { v with runs } &&
        !v.entries.any fun entry => entry.runId = some run.id) = true
    · refine ⟨runs.filter fun existing => existing.id ≠ run.id, ?_, ?_, .inl ⟨hterminal, ?_⟩⟩
      · exact fun hnodup => (hruns hnodup).sublist (List.filter_sublist.map _)
      · exact fun other hother hne =>
          List.mem_filter.mpr ⟨hothers other hother hne, decide_eq_true hne⟩
      · simp only [hgone, if_true]
    · refine ⟨runs, hruns, hothers, .inl ⟨hterminal, ?_⟩⟩
      simp only [hgone, if_false, Bool.false_eq_true]
  case isFalse hopen =>
    simp only [bind_ok, require_ok, exists_const, pure_ok] at h
    obtain ⟨honly, rfl⟩ := h
    refine ⟨runs, hruns, hothers, .inr ⟨Bool.eq_false_iff.mpr hopen, hrun, ?_, rfl⟩⟩
    intro runId hactive
    simpa [hactive] using honly

theorem WindowSound.applyRun (hv : WindowSound p v) (h : v.applyRun run = .ok w) :
    WindowSound p w := by
  obtain ⟨runs, hruns, hothers, ⟨-, rfl⟩ | ⟨hopen, hrun, honly, rfl⟩⟩ := applyRun_ok h
  · refine ⟨hv.ids, hv.presented, hv.count, hv.bytes, hv.bounded, hruns hv.runs, ?_, ?_⟩
    · intro runId hactive
      obtain ⟨hactive, hother⟩ := Option.filter_eq_some_iff.mp hactive
      obtain ⟨active, hmem, rfl, hstate⟩ := hv.active runId hactive
      exact ⟨active, hothers active hmem (of_decide_eq_true hother), rfl, hstate⟩
    · intro transient htransient
      obtain ⟨htransient, hother⟩ := Option.filter_eq_some_iff.mp htransient
      exact Option.filter_eq_some_iff.mpr ⟨hv.preview transient htransient, hother⟩
  · refine ⟨hv.ids, hv.presented, hv.count, hv.bytes, hv.bounded, hruns hv.runs, ?_, ?_⟩
    · intro runId hactive
      exact ⟨run, hrun, Option.some.inj hactive, hopen⟩
    · intro transient htransient
      exact congrArg some (honly _ (hv.preview transient htransient)).symm

/-! ### The preview -/

theorem numbered_append {first : Nat} (deltas : List String) (delta : String) :
    numbered runId first (deltas ++ [delta]) =
      numbered runId first deltas ++ [.delta runId (first + deltas.length) delta] := by
  induction deltas generalizing first with
  | nil => rfl
  | cons head deltas ih =>
    rw [List.cons_append, numbered, ih, numbered, List.length_cons, List.cons_append,
      Nat.add_right_comm, Nat.add_assoc]

theorem ofRun_append (runId : RunId) (log later : List Received) :
    ofRun runId (log ++ later) = ofRun runId log ++ ofRun runId later :=
  List.filter_append ..

theorem ofRun_delta : ofRun runId [.delta runId sequence delta] = [.delta runId sequence delta] :=
  List.filter_cons_of_pos (by simp [Received.runId])

/-- News of other runs says nothing about a preview. -/
theorem Shows.mono {later : List Received} (h : Shows log transient first deltas)
    (hother : ofRun transient.runId later = []) : Shows (log ++ later) transient first deltas := by
  obtain ⟨hnonempty, htext, before, hlog, hstart⟩ := h
  refine ⟨hnonempty, htext, before, ?_, hstart⟩
  rw [ofRun_append, hother, List.append_nil, hlog]

theorem PreviewSound.keep {later : List Received} (hv : PreviewSound log v)
    (htransient : w.transient = v.transient) (hsequence : w.deltaSequence = v.deltaSequence)
    (hother : ∀ runId, ofRun runId later = []) : PreviewSound (log ++ later) w := by
  refine ⟨?_, ?_, ?_⟩
  · intro transient hshown runId sequence hlast
    exact hv.sequence transient (htransient ▸ hshown) runId sequence (hsequence ▸ hlast)
  · intro transient hshown hwhole
    obtain ⟨first, deltas, hshows, hlast⟩ := hv.shows transient (htransient ▸ hshown) hwhole
    exact ⟨first, deltas, hshows.mono (hother _), hsequence ▸ hlast⟩
  · intro hnone runId sequence hlast
    rw [ofRun_append, hother, List.append_nil]
    exact hv.ended (htransient ▸ hnone) runId sequence (hsequence ▸ hlast)

theorem PreviewSound.pausePreview : PreviewSound log v.pausePreview := by
  refine ⟨?_, ?_, ?_⟩
  · intro transient _ runId sequence hlast
    cases hlast
  · intro transient hshown hwhole
    obtain ⟨old, -, rfl⟩ := Option.map_eq_some_iff.mp hshown
    cases hwhole
  · intro _ runId sequence hlast
    cases hlast

theorem PreviewSound.applyRun (hv : PreviewSound log v) (h : v.applyRun run = .ok w) :
    PreviewSound log w := by
  obtain ⟨runs, -, -, ⟨-, rfl⟩ | ⟨-, -, -, rfl⟩⟩ := applyRun_ok h
  · refine ⟨?_, ?_, ?_⟩
    · intro transient hshown runId sequence hlast
      exact hv.sequence transient (Option.filter_eq_some_iff.mp hshown).1 runId sequence
        (Option.filter_eq_some_iff.mp hlast).1
    · intro transient hshown hwhole
      obtain ⟨hshown, hother⟩ := Option.filter_eq_some_iff.mp hshown
      obtain ⟨first, deltas, hshows, hlast⟩ := hv.shows transient hshown hwhole
      exact ⟨first, deltas, hshows, Option.filter_eq_some_iff.mpr ⟨hlast, hother⟩⟩
    · intro hnone runId sequence hlast
      obtain ⟨hlast, hother⟩ := Option.filter_eq_some_iff.mp hlast
      refine hv.ended ?_ runId sequence hlast
      cases hshown : v.transient with
      | none => rfl
      | some transient =>
        -- The preview that went was one of the run that ended, and so was the last delta.
        have hrun := hv.sequence transient hshown runId sequence hlast
        have hgone := Option.filter_eq_none_iff.mp hnone transient hshown
        subst hrun
        exact absurd hother hgone
  · exact ⟨hv.sequence, hv.shows, hv.ended⟩

/-- A new entry ends the preview of the run it answers, and no other. -/
theorem PreviewSound.settle (hv : PreviewSound log v)
    (hsettled : w.transient = (v.settle entry).transient)
    (hsequence : w.deltaSequence = v.deltaSequence) :
    PreviewSound (log ++ entry.answeredRun.toList.map .message) w := by
  have hof : ∀ runId, entry.answeredRun ≠ some runId →
      ofRun runId (entry.answeredRun.toList.map .message) = [] := by
    intro runId hne
    cases hanswered : entry.answeredRun with
    | none => rfl
    | some answered =>
      have hdistinct : answered ≠ runId := fun h => hne (h ▸ hanswered)
      simp [ofRun, Received.runId, hdistinct]
  refine ⟨?_, ?_, ?_⟩
  · intro transient hshown runId sequence hlast
    obtain ⟨hshown, -⟩ := settle_transient (hsettled ▸ hshown)
    exact hv.sequence transient hshown runId sequence (hsequence ▸ hlast)
  · intro transient hshown hwhole
    obtain ⟨hshown, hother⟩ := settle_transient (hsettled ▸ hshown)
    obtain ⟨first, deltas, hshows, hlast⟩ := hv.shows transient hshown hwhole
    exact ⟨first, deltas, hshows.mono (hof _ hother), hsequence ▸ hlast⟩
  · intro hnone runId sequence hlast
    rw [hsequence] at hlast
    rw [ofRun_append]
    by_cases hanswered : entry.answeredRun = some runId
    · simp [hanswered, ofRun, Received.runId]
    · rw [hof runId hanswered, List.append_nil]
      refine hv.ended ?_ runId sequence hlast
      cases hshown : v.transient with
      | none => rfl
      | some transient =>
        have hrun := hv.sequence transient hshown runId sequence hlast
        rw [hsettled, SessionView.settle, hshown, Option.map_some, ← hrun] at hnone
        simp [Ne.symm hanswered] at hnone

theorem extendTransient_ok (h : SessionView.extendTransient p transient delta = .ok transient') :
    transient'.runId = transient.runId ∧ (transient'.truncated = false →
      transient.truncated = false ∧ transient'.text = transient.text ++ delta) := by
  unfold SessionView.extendTransient at h
  split at h
  case isTrue hcut =>
    obtain rfl := (pure_ok _ _).mp h
    exact ⟨rfl, fun hwhole => by simp [hcut] at hwhole⟩
  case isFalse hwhole =>
    have hwhole := Bool.eq_false_iff.mpr hwhole
    split at h
    case h_1 =>
      obtain rfl := (pure_ok _ _).mp h
      exact ⟨rfl, fun hcut => by cases hcut⟩
    case h_2 =>
      split at h
      case isTrue =>
        obtain rfl := (pure_ok _ _).mp h
        exact ⟨rfl, fun hcut => by cases hcut⟩
      case isFalse =>
        simp only [bind_ok, pure_ok] at h
        obtain ⟨presented, -, rfl⟩ := h
        exact ⟨rfl, fun _ => ⟨hwhole, rfl⟩⟩

/-- What a delta does to the view. -/
theorem appendDelta_ok (h : v.appendDelta p runId sequence delta refusal = .ok w) :
    v.activeRunId = some runId ∧ ∃ transient transient',
      v.transient.getD { runId, refusal } = transient ∧ transient.runId = runId ∧
      transient'.runId = runId ∧ (transient'.truncated = false →
        transient.truncated = false ∧ transient'.text = transient.text ++ delta ∧
        ((v.deltaSequence.filter fun (id, _) => id = runId).map (·.2)).getD 0 + 1 = sequence) ∧
      w = { v with deltaSequence := some (runId, sequence), transient := some transient' } := by
  simp only [SessionView.appendDelta, bind_ok, require_ok, exists_const, pure_ok] at h
  obtain ⟨hactive, -, ⟨hrun, -⟩, transient', hextended, rfl⟩ := h
  obtain ⟨hkept, hwhole⟩ := extendTransient_ok hextended
  refine ⟨hactive, _, transient', rfl, hrun, hkept.trans hrun, ?_, rfl⟩
  intro huncut
  obtain ⟨hcut, htext⟩ := hwhole huncut
  obtain ⟨hcut, hnext⟩ := Bool.or_eq_false_iff.mp hcut
  refine ⟨hcut, htext, ?_⟩
  have hnext := of_decide_eq_true ((Bool.not_eq_eq_eq_not ..).mp hnext)
  simp only [Provider.checkedAdd] at hnext
  split at hnext
  case isTrue => exact Option.some.inj hnext
  case isFalse => cases hnext

theorem PreviewSound.appendDelta (hv : PreviewSound log v)
    (h : v.appendDelta p runId sequence delta refusal = .ok w) :
    PreviewSound (log ++ [.delta runId sequence delta]) w := by
  obtain ⟨-, transient, transient', hfrom, hrun, hrun', hwhole, rfl⟩ := appendDelta_ok h
  refine ⟨?_, ?_, ?_⟩
  · intro shown hshown id last hlast
    obtain rfl := Option.some.inj hshown
    obtain ⟨rfl, rfl⟩ := Prod.mk.inj (Option.some.inj hlast)
    exact hrun'.symm
  · intro shown hshown huncut
    obtain rfl := Option.some.inj hshown
    obtain ⟨hcut, htext, hnext⟩ := hwhole huncut
    cases hold : v.transient with
    | some old =>
      -- The preview goes on: the delta has the next number.
      obtain rfl : old = transient := by rwa [hold] at hfrom
      obtain ⟨first, deltas, ⟨hnonempty, hshowed, before, hlog, hstart⟩, hlast⟩ :=
        hv.shows old hold hcut
      have hlength : 1 ≤ deltas.length := List.length_pos_iff.mpr hnonempty
      obtain rfl : first + deltas.length = sequence := by
        rw [hlast, hrun] at hnext
        simp only [Option.filter, decide_true, if_true, Option.map_some, Option.getD_some] at hnext
        omega
      refine ⟨first, deltas ++ [delta], ⟨by simp, ?_, before, ?_, ?_⟩, ?_⟩
      · rw [htext, hshowed, String.join_append]
        simp [String.join]
      · rw [hrun', ofRun_append, ofRun_delta, numbered_append, ← List.append_assoc, ← hrun, hlog]
      · rwa [hrun', ← hrun]
      · rw [hrun', List.length_append, List.length_singleton]
        rfl
    | none =>
      rw [hold, Option.getD_none] at hfrom
      subst hfrom
      refine ⟨sequence, [delta], ⟨by simp, ?_, ofRun runId log, ?_, ?_⟩, ?_⟩
      · rw [htext]
        simp [String.join]
      · rw [hrun', ofRun_append, ofRun_delta]
        rfl
      · rw [hrun']
        cases hlast : v.deltaSequence with
        | none =>
          rw [hlast] at hnext
          exact .inl hnext.symm
        | some last =>
          obtain ⟨id, number⟩ := last
          by_cases hid : id = runId
          · -- The deltas before belong to the message that ended the preview.
            subst hid
            exact .inr (hv.ended hold id number hlast)
          · rw [hlast] at hnext
            simp only [Option.filter, hid, decide_false, Bool.false_eq_true, if_false] at hnext
            exact .inl hnext.symm
      · rw [hrun']
        rfl
  · intro hnone
    cases hnone

/-! ## Every run -/

theorem WindowSound.appendDelta (hv : WindowSound p v)
    (h : v.appendDelta p runId sequence delta refusal = .ok w) : WindowSound p w := by
  obtain ⟨hactive, _, transient', -, -, hrun', -, rfl⟩ := appendDelta_ok h
  refine ⟨hv.ids, hv.presented, hv.count, hv.bytes, hv.bounded, hv.runs, hv.active, ?_⟩
  intro shown hshown
  obtain rfl := Option.some.inj hshown
  rwa [hrun']

theorem WindowSound.pausePreview (hv : WindowSound p v) : WindowSound p v.pausePreview := by
  refine ⟨hv.ids, hv.presented, hv.count, hv.bytes, hv.bounded, hv.runs, hv.active, ?_⟩
  intro transient hshown
  obtain ⟨old, hold, rfl⟩ := Option.map_eq_some_iff.mp hshown
  exact hv.preview old hold

theorem WindowSound.applyEvent {event : ViewEvent} (hv : WindowSound p v)
    (h : v.applyEvent p event = .ok w) : WindowSound p w := by
  cases event with
  | transcriptEntryCommitted entry =>
    simp only [SessionView.applyEvent, bind_ok, demand_ok] at h
    obtain ⟨bytes, -, h⟩ := h
    split at h
    case isTrue =>
      obtain rfl := (pure_ok _ _).mp h
      exact hv.deferTranscriptEntry
    case isFalse =>
      simp only [bind_ok, pure_ok] at h
      obtain ⟨⟨known, u⟩, happended, rfl⟩ := h
      exact hv.appendTranscriptEntry happended
  | runChanged run =>
    simp only [SessionView.applyEvent, bind_ok, pure_ok] at h
    obtain ⟨u, happlied, rfl⟩ := h
    have hu := hv.applyRun happlied
    split
    · exact ⟨hu.ids, hu.presented, hu.count, hu.bytes, hu.bounded, hu.runs, hu.active, hu.preview⟩
    · exact ⟨hu.ids, hu.presented, hu.count, hu.bytes, hu.bounded, hu.runs, hu.active, hu.preview⟩
  | localCommandChanged commandId active =>
    obtain rfl := (pure_ok _ _).mp h
    exact ⟨hv.ids, hv.presented, hv.count, hv.bytes, hv.bounded, hv.runs, hv.active, hv.preview⟩
  | compactionActivity runId active =>
    obtain rfl := (pure_ok _ _).mp h
    exact ⟨hv.ids, hv.presented, hv.count, hv.bytes, hv.bounded, hv.runs, hv.active, hv.preview⟩
  | assistantDelta runId sequence delta refusal =>
    simp only [SessionView.applyEvent] at h
    split at h
    case isTrue =>
      obtain rfl := (pure_ok _ _).mp h
      exact ⟨hv.ids, hv.presented, hv.count, hv.bytes, hv.bounded, hv.runs, hv.active, hv.preview⟩
    case isFalse => exact hv.appendDelta h
  | connectionLost =>
    obtain rfl := (pure_ok _ _).mp h
    exact hv.pausePreview

/-- A window that left the newest entries does not come back to them. -/
theorem isHistoricalWindow_next {event : ViewEvent} (h : v.applyEvent p event = .ok w)
    (hlatest : w.isHistoricalWindow = false) : v.isHistoricalWindow = false := by
  obtain ⟨hcursor, hdeferred⟩ := isHistoricalWindow_false.mp hlatest
  rw [isHistoricalWindow_false]
  cases event with
  | transcriptEntryCommitted entry =>
    simp only [SessionView.applyEvent, bind_ok, demand_ok] at h
    obtain ⟨bytes, -, h⟩ := h
    split at h
    case isTrue =>
      obtain rfl := (pure_ok _ _).mp h
      cases hdeferred
    case isFalse hopen => exact isHistoricalWindow_false.mp (Bool.eq_false_iff.mpr hopen)
  | runChanged run =>
    simp only [SessionView.applyEvent, bind_ok, pure_ok] at h
    obtain ⟨u, -, rfl⟩ := h
    split at hdeferred
    case isTrue => cases hdeferred
    case isFalse hopen => exact isHistoricalWindow_false.mp (Bool.eq_false_iff.mpr hopen)
  | localCommandChanged commandId active =>
    obtain rfl := (pure_ok _ _).mp h
    exact ⟨hcursor, hdeferred⟩
  | compactionActivity runId active =>
    obtain rfl := (pure_ok _ _).mp h
    exact ⟨hcursor, hdeferred⟩
  | assistantDelta runId sequence delta refusal =>
    simp only [SessionView.applyEvent] at h
    split at h
    case isTrue =>
      obtain rfl := (pure_ok _ _).mp h
      cases hdeferred
    case isFalse hopen => exact isHistoricalWindow_false.mp (Bool.eq_false_iff.mpr hopen)
  | connectionLost =>
    obtain rfl := (pure_ok _ _).mp h
    exact ⟨hcursor, hdeferred⟩

theorem PreviewSound.appendTranscriptEntry {known : Bool} (hv : PreviewSound log v)
    (h : v.appendTranscriptEntry p entry = .ok (known, w))
    (hlatest : w.isHistoricalWindow = false) :
    PreviewSound (log ++ v.received (.transcriptEntryCommitted entry)) w := by
  obtain ⟨hknown, rfl⟩ | ⟨-, rfl⟩ | ⟨hnew, bytes, presented, -, -, -, -, rfl⟩ :=
    appendTranscriptEntry_ok h
  · simp only [SessionView.received, hknown, if_true, List.append_nil]
    exact hv
  · cases (isHistoricalWindow_false.mp hlatest).2
  · simp only [SessionView.received, hnew, Bool.false_eq_true, if_false]
    exact hv.settle rfl rfl

theorem PreviewSound.applyEvent {event : ViewEvent} (hv : PreviewSound log v)
    (h : v.applyEvent p event = .ok w) (hlatest : w.isHistoricalWindow = false) :
    PreviewSound (log ++ v.received event) w := by
  have hbefore := isHistoricalWindow_next h hlatest
  cases event with
  | transcriptEntryCommitted entry =>
    simp only [SessionView.applyEvent, hbefore, Bool.false_eq_true, if_false, bind_ok, demand_ok,
      pure_ok] at h
    obtain ⟨bytes, -, ⟨known, u⟩, happended, rfl⟩ := h
    exact hv.appendTranscriptEntry happended hlatest
  | runChanged run =>
    simp only [SessionView.applyEvent, hbefore, Bool.false_eq_true, if_false, bind_ok,
      pure_ok] at h
    obtain ⟨u, happlied, rfl⟩ := h
    exact (hv.applyRun happlied).keep rfl rfl fun _ => rfl
  | localCommandChanged commandId active =>
    obtain rfl := (pure_ok _ _).mp h
    exact hv.keep rfl rfl fun _ => rfl
  | compactionActivity runId active =>
    obtain rfl := (pure_ok _ _).mp h
    exact hv.keep rfl rfl fun _ => rfl
  | assistantDelta runId sequence delta refusal =>
    simp only [SessionView.applyEvent, hbefore, Bool.false_eq_true, if_false] at h
    exact hv.appendDelta h
  | connectionLost =>
    obtain rfl := (pure_ok _ _).mp h
    have hpaused : PreviewSound log v.pausePreview := PreviewSound.pausePreview
    exact hpaused.keep rfl rfl fun _ => rfl

theorem Opened.sound (hids : (window.entries.map TranscriptEntry.id).Nodup)
    (hruns : (window.runs.map RunSummary.id).Nodup) (h : Opened p window log v) :
    WindowSound p v ∧ (v.isHistoricalWindow = false → PreviewSound log v) := by
  induction h with
  | start h =>
    obtain ⟨hwindow, hpreview⟩ := WindowSound.new hids hruns h
    exact ⟨hwindow, fun _ => hpreview⟩
  | event before event h ih =>
    obtain ⟨hwindow, hpreview⟩ := ih
    refine ⟨hwindow.applyEvent h, ?_⟩
    intro hlatest
    exact (hpreview (isHistoricalWindow_next h hlatest)).applyEvent h hlatest

/-- Whatever events reach an opened session, its window keeps its limits and its
ids apart, the active run goes on and is the one previewed, and a preview that is
not cut shows all deltas of its run since its start or since its last message. -/
theorem sessionView_honest (hids : (window.entries.map TranscriptEntry.id).Nodup)
    (hruns : (window.runs.map RunSummary.id).Nodup) (h : Opened p window log v) :
    (v.entries.map (·.id)).Nodup ∧ v.entries.length ≤ maxClientTranscriptEntries ∧
    (∀ entry ∈ v.entries, p.entry entry.source = .ok entry) ∧
    v.sourceBytes = (v.entries.map fun entry => (entrySourceBytes entry.source).getD 0).sum ∧
    v.sourceBytes ≤ maxSourceBytes ∧ (v.runs.map RunSummary.id).Nodup ∧
    (∀ runId, v.activeRunId = some runId →
      ∃ run ∈ v.runs, run.id = runId ∧ run.state.isTerminal = false) ∧
    (∀ transient, v.transient = some transient → v.activeRunId = some transient.runId) ∧
    (v.isHistoricalWindow = false → ∀ transient, v.transient = some transient →
      transient.truncated = false → ∃ first deltas, Shows log transient first deltas) := by
  obtain ⟨hwindow, hpreview⟩ := h.sound hids hruns
  refine ⟨hwindow.ids, hwindow.count, hwindow.presented, hwindow.bytes, hwindow.bounded,
    hwindow.runs, hwindow.active, hwindow.preview, ?_⟩
  intro hlatest transient hshown hwhole
  obtain ⟨first, deltas, hshows, -⟩ := (hpreview hlatest).shows transient hshown hwhole
  exact ⟨first, deltas, hshows⟩

/-- Short plain text is shown as it is. -/
def plainText : Presenter where
  entryText _ := .ok ⟨['a'], [(0, 1)], false⟩
  fromMarkdown text := .ok ⟨text.toList, [(0, text.utf8ByteSize)], false⟩

def oneRun : TranscriptWindowData where
  sessionId := 7
  entries := []
  runs := [⟨1, 7, .active, .openAiChatGpt, none⟩]
  activeRunId := some 1
  activeCommandId := none
  olderCursor := none
  newerCursor := none

def answered : TranscriptEntry := .assistantMessage 5 1 "a" false

/-- One delta, the message it belongs to, and the first delta of the next one. -/
theorem sessionView_honest_oneRun : ∃ log v, Opened plainText oneRun log v ∧
    v.isHistoricalWindow = false ∧ v.transient.map (·.text) = some "b" ∧
    (∀ transient, v.transient = some transient → transient.truncated = false →
      ∃ first deltas, Shows log transient first deltas) := by
  have hnew : SessionView.new plainText oneRun = .ok ⟨7, [], 0, none, oneRun.runs, none, some 1, none,
      none, none, false, false, none⟩ := rfl
  have hstart := Opened.start hnew
  have hdelta := hstart.event (.assistantDelta 1 1 "a" false) rfl
  have hmessage := hdelta.event (.transcriptEntryCommitted answered) rfl
  have hnext := hmessage.event (.assistantDelta 1 2 "b" false) rfl
  obtain ⟨-, -, -, -, -, -, -, -, hhonest⟩ :=
    sessionView_honest (by decide) (by decide) hnext
  exact ⟨_, _, hnext, by decide, by decide, hhonest (by decide)⟩

end Morons.OpenSession
