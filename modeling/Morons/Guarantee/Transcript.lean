import Morons.Guarantee.Snapshots
import Morons.Session.Transcript

/-!
# Windows of a transcript, listed again

A window that a cursor names is the same window later on: its snapshot keeps out
what operations add to the session, and the rest of the record stays as it is.
-/

namespace Morons.SessionEvents

open Attempt Ledger ContextHistory

variable {s t : Store} {w : WorkspaceTables} {sessionId : SessionId}
  {snapshot : TranscriptSnapshot} {boundary limit n : Nat} {direction : TranscriptPageDirection}

theorem mem_arrange {Row : Type} {place : Row → Nat} {rows : List Row} {r : Row} :
    r ∈ direction.arrange place rows ↔ r ∈ rows := by
  cases direction with
  | older =>
    rw [TranscriptPageDirection.arrange, List.mem_reverse, ordered,
      (List.mergeSort_perm ..).mem_iff]
  | newer => rw [TranscriptPageDirection.arrange, ordered, (List.mergeSort_perm ..).mem_iff]

theorem mem_restore {Row : Type} {rows : List Row} {r : Row} :
    r ∈ direction.restore rows ↔ r ∈ rows := by
  cases direction with
  | older => exact List.mem_reverse
  | newer => exact Iff.rfl

theorem arrange_length {Row : Type} {place : Row → Nat} {rows : List Row} :
    (direction.arrange place rows).length = rows.length := by
  cases direction with
  | older =>
    rw [TranscriptPageDirection.arrange, List.length_reverse, ordered, List.length_mergeSort]
  | newer => rw [TranscriptPageDirection.arrange, ordered, List.length_mergeSort]

theorem restore_length {Row : Type} {rows : List Row} :
    (direction.restore rows).length = rows.length := by
  cases direction with
  | older => exact List.length_reverse
  | newer => rfl

/-! ## The rows of a snapshot -/

namespace Continues

variable (h : Continues sessionId s t)
include h

/-- Entries of the session with old numbers. -/
theorem entries_filter {p : SessionEntry → Bool}
    (hsession : ∀ e, p e = true → e.sessionId = sessionId)
    (hold : ∀ e, p e = true → e.factSequence < s.nextValue) :
    t.sessionEntries.filter p = s.sessionEntries.filter p := by
  have hmine : ∀ e, p e = true → decide (e.sessionId = sessionId) = true :=
    fun e he => decide_eq_true (hsession e he)
  rw [← Table.filter_kept fun e _ => hmine e, h.record.entries.filter_old hold,
    Table.filter_kept fun e _ => hmine e]

/-- Finished commands of the session with old numbers. -/
theorem commands_filter {p : LocalCommand → Bool}
    (hchosen : ∀ c, p c = true → c.sessionId = sessionId ∧ c.state.isTerminal = true ∧
      c.updatedSequence < s.nextValue) :
    t.localCommands.filter p = s.localCommands.filter p := by
  refine (h.after.sound.numbered.commands.filter p).eq_of_mem
    (h.before.sound.numbered.commands.filter p) fun c => ?_
  simp only [List.mem_filter]
  constructor
  · rintro ⟨hc, hp⟩
    obtain ⟨hsession, hterminal, hold⟩ := hchosen c hp
    exact ⟨h.record.old c hc hsession hterminal hold, hp⟩
  · rintro ⟨hc, hp⟩
    obtain ⟨hsession, hterminal, -⟩ := hchosen c hp
    exact ⟨h.record.ended c hc hsession hterminal, hp⟩

theorem snapshotEntryRows_kept (hold : snapshot.eventSequence < s.nextValue) :
    snapshotEntryRows t sessionId snapshot boundary direction =
      snapshotEntryRows s sessionId snapshot boundary direction := by
  refine h.entries_filter (fun e he => ?_) fun e he => ?_ <;>
    simp only [Bool.and_eq_true, decide_eq_true_eq] at he
  · exact he.1.1.1
  · exact lt_of_le_of_lt he.2 hold

theorem snapshotCommandRows_kept (hold : snapshot.eventSequence < s.nextValue) :
    snapshotCommandRows t sessionId snapshot boundary direction =
      snapshotCommandRows s sessionId snapshot boundary direction := by
  refine h.commands_filter fun c hc => ?_
  simp only [Bool.and_eq_true, decide_eq_true_eq] at hc
  exact ⟨hc.1.1.1, hc.2, lt_of_le_of_lt hc.1.2 hold⟩

theorem snapshotEntryHighWater_kept (hn : n < s.nextValue) :
    snapshotEntryHighWater t sessionId n = snapshotEntryHighWater s sessionId n := by
  unfold snapshotEntryHighWater
  rw [h.entries_filter, h.commands_filter]
  · intro c hc
    simp only [Bool.and_eq_true, decide_eq_true_eq] at hc
    exact ⟨hc.1.1, hc.2, lt_of_le_of_lt hc.1.2 hn⟩
  · intro e he
    simp only [Bool.and_eq_true, decide_eq_true_eq] at he
    exact he.1
  · intro e he
    simp only [Bool.and_eq_true, decide_eq_true_eq] at he
    exact lt_of_le_of_lt he.2 hn

theorem windowRows_kept (hold : snapshot.eventSequence < s.nextValue) :
    windowRows t sessionId snapshot boundary direction limit =
      windowRows s sessionId snapshot boundary direction limit := by
  have hentries : ((direction.arrange SessionEntry.entrySequence
      (snapshotEntryRows s sessionId snapshot boundary direction)).take (limit + 1)).mapM
        (transcriptEntryFromRow t) =
      ((direction.arrange SessionEntry.entrySequence
        (snapshotEntryRows s sessionId snapshot boundary direction)).take (limit + 1)).mapM
          (transcriptEntryFromRow s) := by
    refine mapM_congr fun e he => ?_
    obtain ⟨hmem, hchosen⟩ := List.mem_filter.mp (mem_arrange.mp (List.mem_of_mem_take he))
    simp only [Bool.and_eq_true, decide_eq_true_eq] at hchosen
    rw [transcriptEntryFromRow, transcriptEntryFromRow,
      transcriptBody_kept h.before.sound h.after.sound h.record hmem hchosen.1.1.1]
  rw [windowRows, windowRows, listLocalCommandEntriesWindow, listLocalCommandEntriesWindow,
    h.snapshotEntryRows_kept hold, h.snapshotCommandRows_kept hold, hentries]

end Continues

/-! ## The entries of a window -/

/-- Where an entry of a window comes from: a finished command or a row of the session. -/
inductive Traced (s : Store) (sessionId : SessionId) (snapshot : TranscriptSnapshot)
    (entry : TranscriptEntry) : Prop
  | command (c : LocalCommand) (mem : c ∈ s.localCommands)
      (place : entry.entrySequence ≤ snapshot.entrySequence)
      (read : localCommandEntryFromRow c = .ok entry)
  | row (e : SessionEntry) (mem : e ∈ s.sessionEntries) (session : e.sessionId = sessionId)
      (place : e.entrySequence ≤ snapshot.entrySequence)
      (read : transcriptEntryFromRow s e = .ok entry)

theorem runIdOf_command {c : LocalCommand} {entry : TranscriptEntry}
    (h : localCommandEntryFromRow c = .ok entry) :
    c.entrySequence = some entry.entrySequence ∧ runIdOf entry = none := by
  simp only [localCommandEntryFromRow, bind_ok, demand_ok, pure_ok] at h
  obtain ⟨_, _, _, _, _, hplace, _, _, rfl⟩ := h
  exact ⟨hplace, rfl⟩

theorem runIdOf_row {e : SessionEntry} {entry : TranscriptEntry}
    (h : transcriptEntryFromRow s e = .ok entry) :
    entry.entrySequence = e.entrySequence ∧ entry.id = e.messageId ∧
      runIdOf entry = some e.runId := by
  simp only [transcriptEntryFromRow, bind_ok, pure_ok] at h
  obtain ⟨body, hbody, rfl⟩ := h
  refine ⟨rfl, rfl, ?_⟩
  cases hkind : e.body <;> rw [hkind] at hbody <;>
    simp only [transcriptBodyFromRow, bind_ok, pure_ok] at hbody
  · rw [← hbody]
    rfl
  · rw [← hbody]
    rfl
  · obtain ⟨_, _, rfl⟩ := hbody
    rfl
  · obtain ⟨_, _, _, _, rfl⟩ := hbody
    rfl

theorem windowRows_traced {found : List TranscriptEntry}
    (hfound : windowRows s sessionId snapshot boundary direction limit = .ok found) :
    ∀ entry ∈ found, Traced s sessionId snapshot entry := by
  simp only [windowRows, listLocalCommandEntriesWindow, bind_ok, pure_ok] at hfound
  obtain ⟨_, _, _, _, _, _, entries, hentries, commands, hcommands, rfl⟩ := hfound
  intro entry hentry
  rcases List.mem_append.mp (mem_arrange.mp (List.mem_of_mem_take hentry)) with hentry | hentry
  · obtain ⟨e, he, hread⟩ := mapM_mem hentries hentry
    obtain ⟨hmem, hchosen⟩ := List.mem_filter.mp (mem_arrange.mp (List.mem_of_mem_take he))
    simp only [Bool.and_eq_true, decide_eq_true_eq] at hchosen
    exact .row e hmem hchosen.1.1.1 hchosen.1.2 hread
  · obtain ⟨c, hc, hread⟩ := mapM_mem hcommands hentry
    obtain ⟨hmem, hchosen⟩ := List.mem_filter.mp (mem_arrange.mp (List.mem_of_mem_take hc))
    simp only [(runIdOf_command hread).1, Option.any_some, Bool.and_eq_true, decide_eq_true_eq]
      at hchosen
    exact .command c hmem hchosen.1.1.2.2 hread

/-- Every entry of a window is of its snapshot. -/
theorem Traced.place_le {entry : TranscriptEntry} (h : Traced s sessionId snapshot entry) :
    entry.entrySequence ≤ snapshot.entrySequence := by
  cases h with
  | command c mem place read => exact place
  | row e mem session place read => exact (runIdOf_row read).1.trans_le place

/-- Images do not change what an entry is of. -/
theorem attachImageMetadata_runId {entry shown : TranscriptEntry}
    (h : attachImageMetadata s sessionId entry = .ok shown) :
    shown.entrySequence = entry.entrySequence ∧ runIdOf shown = runIdOf entry := by
  unfold attachImageMetadata at h
  split at h
  · rename_i runId text attachments hbody
    simp only [bind_ok, pure_ok] at h
    obtain ⟨_, _, rfl⟩ := h
    refine ⟨rfl, ?_⟩
    rw [runIdOf, runIdOf, hbody]
  · rw [(pure_ok _ _).mp h]
    exact ⟨rfl, rfl⟩

/-- The runs that a window shows. -/
theorem windowRunIds_accepted (h : Readable s sessionId) (hsuccessive : Successive s)
    (hold : snapshot.eventSequence ≤ s.nextValue) {found entries : List TranscriptEntry}
    {active : Option RunId} (htraced : ∀ entry ∈ found, Traced s sessionId snapshot entry)
    (hshown : found.mapM (attachImageMetadata s sessionId) = .ok entries)
    (hactive : activeRunIdAtSequence s sessionId snapshot.eventSequence = .ok active) {runId : RunId}
    (hrunId : runId ∈ windowRunIds entries active) :
    ∃ f ∈ s.runAcceptedFacts, f.runId = runId ∧ f.sessionId = sessionId ∧
      (cutsRunAcceptance s sessionId snapshot = false → f.factSequence ≤ snapshot.eventSequence) := by
  rcases List.mem_append.mp hrunId with hrunId | hrunId
  · obtain ⟨shown, hmem, hid⟩ := List.mem_filterMap.mp hrunId
    obtain ⟨entry, hentry, hattached⟩ := mapM_mem hshown hmem
    rw [(attachImageMetadata_runId hattached).2] at hid
    cases htraced entry hentry with
    | command c mem place read =>
      rw [(runIdOf_command read).2] at hid
      cases hid
    | row e mem session place read =>
      rw [(runIdOf_row read).2.2] at hid
      obtain rfl := Option.some.inj hid
      obtain ⟨f, hf, hfrun, hfsession⟩ := h.sound.scope.entries e mem
      refine ⟨f, hf, hfrun, hfsession.trans session, fun hcuts => ?_⟩
      by_contra hlate
      refine List.any_eq_false.mp hcuts e mem ?_
      simp only [Bool.and_eq_true, decide_eq_true_eq, List.any_eq_true]
      exact ⟨⟨session, place⟩, f, hf, hfrun, Nat.not_le.mp hlate⟩
  · obtain ⟨hsome, -⟩ := Option.filter_eq_some_iff.mp (Option.mem_toList.mp hrunId)
    rcases activeRun_cases sessionId h.sound hsuccessive (hold.trans h.stored) with
      ⟨hnone, -⟩ | ⟨a, ha, hgoing⟩
    · rw [hnone] at hactive
      rw [← Except.ok.inj hactive] at hsome
      cases hsome
    · rw [ha] at hactive
      rw [← Except.ok.inj hactive] at hsome
      exact ⟨a, hgoing.mem, Option.some.inj hsome, hgoing.session, fun _ => hgoing.accepted⟩

/-! ## Windows -/

namespace Continues

variable (h : Continues sessionId s t)
include h

theorem attachImageMetadata_kept {entry : TranscriptEntry}
    (hentry : Traced s sessionId snapshot entry) :
    attachImageMetadata t sessionId entry = attachImageMetadata s sessionId entry := by
  unfold attachImageMetadata
  split
  · rename_i runId text attachments hbody
    cases hentry with
    | command c mem place read =>
      have hnone := (runIdOf_command read).2
      rw [runIdOf, hbody] at hnone
      cases hnone
    | row e mem session place read =>
      have hold := h.before.illustrated.messages.bounded e mem
      rw [← (runIdOf_row read).2.1] at hold
      rw [images_kept h.record hold]
  · rfl

/-- A run is shown at an old event as it was, or refused as it was. -/
theorem run_kept {f : RunAcceptedFact} (hf : f ∈ s.runAcceptedFacts)
    (hsession : f.sessionId = sessionId)
    (hn : n < s.nextValue) : loadRunAtSequence t f.runId n = loadRunAtSequence s f.runId n := by
  have hs := h.before.sound
  have ht := h.after.sound
  have hstored : n ≤ maxInteger := hn.le.trans h.before.stored
  by_cases hfn : f.factSequence ≤ n
  · exact loadRunAtSequence_kept hs ht h.record hf hsession hfn hn hstored
  · have hin : f ∈ t.runAcceptedFacts := List.mem_of_mem_filter
      (h.record.accepted.subset (List.mem_filter.mpr ⟨hf, decide_eq_true hsession⟩))
    have hnone : ∀ {u : Store}, Sound u → f ∈ u.runAcceptedFacts →
        (u.runAcceptedFacts.find? fun r => r.runId = f.runId && decide (r.factSequence ≤ n)) =
          none := by
      intro u hu hfu
      refine List.find?_eq_none.mpr fun r hr hchosen => hfn ?_
      simp only [Bool.and_eq_true, decide_eq_true_eq] at hchosen
      rw [← hu.identified.acceptedFacts.eq_of_seq hr hfu hchosen.1]
      exact hchosen.2
    simp only [loadRunAtSequence, hnone hs hf, hnone ht hin, demand, bind, Except.bind]

/-- **The window of an old snapshot stays as it is.** -/
theorem transcriptWindow_kept (hsuccessive : Successive s) (hsuccessive' : Successive t)
    (hold : snapshot.eventSequence < s.nextValue) (continued : Bool) :
    transcriptWindow w t sessionId snapshot boundary continued direction limit =
      transcriptWindow w s sessionId snapshot boundary continued direction limit := by
  have hs := h.before.sound
  unfold transcriptWindow
  rw [h.windowRows_kept hold]
  cases hfound : windowRows s sessionId snapshot boundary direction limit with
  | error e => rfl
  | ok found =>
    have htraced : ∀ entry ∈ direction.restore (found.take limit), Traced s sessionId snapshot entry :=
      fun entry hentry => windowRows_traced hfound entry (List.mem_of_mem_take (mem_restore.mp hentry))
    simp only [bind, Except.bind]
    rw [mapM_congr fun entry hentry => h.attachImageMetadata_kept (htraced entry hentry),
      h.activeRun_kept hsuccessive hsuccessive' hold,
      workspaceSummary_kept hs h.after.sound h.record hold (hold.le.trans h.before.stored)]
    cases hshown : (direction.restore (found.take limit)).mapM (attachImageMetadata s sessionId) with
    | error e => rfl
    | ok entries =>
      cases hactive : activeRunIdAtSequence s sessionId snapshot.eventSequence with
      | error e => rfl
      | ok active =>
        have hruns : ∀ runId ∈ windowRunIds entries active,
            loadRunAtSequence t runId snapshot.eventSequence =
              loadRunAtSequence s runId snapshot.eventSequence := by
          intro runId hrunId
          obtain ⟨f, hf, rfl, hsession, -⟩ :=
            windowRunIds_accepted h.before hsuccessive hold.le htraced hshown hactive hrunId
          exact h.run_kept hf hsession hold
        simp only [mapM_congr hruns]

end Continues

/-! ## Places -/

theorem mem_entryPlaces {entries : List SessionEntry} :
    n ∈ entryPlaces sessionId entries ↔
      ∃ e ∈ entries, e.sessionId = sessionId ∧ e.entrySequence = n := by
  simp only [entryPlaces, List.mem_filterMap, Option.ite_none_right_eq_some, Option.some_inj]

theorem mem_commandPlaces {commands : List LocalCommand} :
    n ∈ commandPlaces sessionId commands ↔
      ∃ c ∈ commands, c.sessionId = sessionId ∧ c.entrySequence = some n := by
  simp only [commandPlaces, List.mem_filterMap, Option.ite_none_right_eq_some]

namespace Readable

variable (h : Readable s sessionId)
include h

theorem places {state : SessionRunState} (hstate : loadSessionRunState s sessionId = some state) :
    (entryPlaces sessionId s.sessionEntries ++ commandPlaces sessionId s.localCommands).Perm
      (List.range' 1 state.entryHighWater) := by
  have hplaces := (h.sound.transcribed state (Table.find_mem hstate)).2
  have hkey : state.sessionId = sessionId := Table.find_key hstate
  rwa [hkey] at hplaces

/-- A place is that of an entry or of a finished command. -/
theorem place_held {state : SessionRunState} (hstate : loadSessionRunState s sessionId = some state) :
    (1 ≤ n ∧ n ≤ state.entryHighWater) ↔
      (∃ e ∈ s.sessionEntries, e.sessionId = sessionId ∧ e.entrySequence = n) ∨
        ∃ c ∈ s.localCommands, c.sessionId = sessionId ∧ c.entrySequence = some n ∧
          c.state.isTerminal = true := by
  have hplaces := h.places hstate
  have hmem : n ∈ entryPlaces sessionId s.sessionEntries ++ commandPlaces sessionId s.localCommands ↔
      1 ≤ n ∧ n ≤ state.entryHighWater := by
    rw [hplaces.mem_iff, List.mem_range'_1]
    omega
  rw [← hmem, List.mem_append, mem_entryPlaces, mem_commandPlaces]
  refine or_congr_right (exists_congr fun c => and_congr_right fun hc => and_congr_right fun _ => ?_)
  refine (and_iff_left_of_imp fun hplace => Bool.eq_true_of_not_eq_false fun hgoing => ?_).symm
  rw [(h.sound.commanded.formed c hc).unplaced hgoing] at hplace
  cases hplace

/-- No entry has the place of another row. -/
theorem place_entry {state : SessionRunState} (hstate : loadSessionRunState s sessionId = some state)
    {e : SessionEntry} (he : e ∈ s.sessionEntries) (hsession : e.sessionId = sessionId) :
    (∀ e' ∈ s.sessionEntries, e'.sessionId = sessionId → e'.entrySequence = e.entrySequence →
      e' = e) ∧
    ∀ c ∈ s.localCommands, c.sessionId = sessionId → c.entrySequence ≠ some e.entrySequence := by
  have hnodup := (h.places hstate).nodup_iff.mpr List.nodup_range'
  obtain ⟨hcolumn, -, hapart⟩ := List.nodup_append.mp hnodup
  constructor
  · intro e' he' hsession' hplace
    exact Table.eq_of_column hcolumn he' he (if_pos hsession') (by rw [if_pos hsession, hplace])
  · intro c hc hcsession hplace
    exact hapart _ (mem_entryPlaces.mpr ⟨e, he, hsession, rfl⟩) _
      (mem_commandPlaces.mpr ⟨c, hc, hcsession, hplace⟩) rfl

end Readable

namespace Continues

variable (h : Continues sessionId s t)
include h

theorem entry_kept {e : SessionEntry} (he : e ∈ s.sessionEntries)
    (hsession : e.sessionId = sessionId) : e ∈ t.sessionEntries :=
  List.mem_of_mem_filter
    (h.record.entries.subset (List.mem_filter.mpr ⟨he, decide_eq_true hsession⟩))

/-- The high water of a transcript does not fall. -/
theorem entryHighWater_le {state state' : SessionRunState}
    (hstate : loadSessionRunState s sessionId = some state)
    (hstate' : loadSessionRunState t sessionId = some state') :
    state.entryHighWater ≤ state'.entryHighWater := by
  rcases Nat.eq_zero_or_pos state.entryHighWater with hzero | hpos
  · rw [hzero]
    exact Nat.zero_le _
  · refine ((h.after.place_held hstate').mpr ?_).2
    rcases (h.before.place_held hstate).mp ⟨hpos, le_rfl⟩ with
      ⟨e, he, hsession, hplace⟩ | ⟨c, hc, hsession, hplace, hterminal⟩
    · exact .inl ⟨e, h.entry_kept he hsession, hsession, hplace⟩
    · exact .inr ⟨c, h.record.ended c hc hsession hterminal, hsession, hplace, hterminal⟩

/-- An entry that has a place of the earlier transcript was in it. -/
theorem entry_old {state state' : SessionRunState}
    (hstate : loadSessionRunState s sessionId = some state)
    (hstate' : loadSessionRunState t sessionId = some state') {e : SessionEntry}
    (he : e ∈ t.sessionEntries) (hsession : e.sessionId = sessionId)
    (hplace : e.entrySequence ≤ state.entryHighWater) : e ∈ s.sessionEntries := by
  obtain ⟨hone, hapart⟩ := h.after.place_entry hstate' he hsession
  have hlow := ((h.after.place_held hstate').mpr (.inl ⟨e, he, hsession, rfl⟩)).1
  rcases (h.before.place_held hstate).mp ⟨hlow, hplace⟩ with
    ⟨e', hold, hsession', hsame⟩ | ⟨c, hc, hcsession, hcplace, hterminal⟩
  · rwa [← hone e' (h.entry_kept hold hsession') hsession' hsame]
  · exact absurd hcplace (hapart c (h.record.ended c hc hcsession hterminal) hcsession)

/-- No entry of a later run comes into an old snapshot. -/
theorem cutsRunAcceptance_kept {state state' : SessionRunState}
    (hstate : loadSessionRunState s sessionId = some state)
    (hstate' : loadSessionRunState t sessionId = some state')
    (hplace : snapshot.entrySequence ≤ state.entryHighWater)
    (hcuts : cutsRunAcceptance s sessionId snapshot = false) :
    cutsRunAcceptance t sessionId snapshot = false := by
  refine List.any_eq_false.mpr fun e he hcut => ?_
  simp only [Bool.and_eq_true, decide_eq_true_eq, List.any_eq_true] at hcut
  obtain ⟨⟨hsession, hle⟩, f, hf, hfrun, hlate⟩ := hcut
  have hold := h.entry_old hstate hstate' he hsession (hle.trans hplace)
  obtain ⟨a, ha, harun, hasession⟩ := h.before.sound.scope.entries e hold
  have hin : a ∈ t.runAcceptedFacts := List.mem_of_mem_filter (h.record.accepted.subset
    (List.mem_filter.mpr ⟨ha, decide_eq_true (hasession.trans hsession)⟩))
  have hsame := h.after.sound.identified.acceptedFacts.eq_of_seq hf hin (hfrun.trans harun.symm)
  refine List.any_eq_false.mp hcuts e hold ?_
  simp only [Bool.and_eq_true, decide_eq_true_eq, List.any_eq_true]
  exact ⟨⟨hsession, hle⟩, a, ha, harun, hsame ▸ hlate⟩

end Continues

/-! ## What a page is listed from -/

/-- What the checks of a listing let through. -/
structure Cut (s : Store) (sessionId : SessionId) (entryHighWater : Nat)
    (snapshot : TranscriptSnapshot) (boundary : Nat) : Prop where
  place : snapshot.entrySequence ≤ entryHighWater
  event : snapshot.eventSequence ≤ sessionEventHighWater s sessionId
  boundary : boundary ≤ snapshot.entrySequence + 1
  stored : snapshot.eventSequence ≤ maxInteger
  consistent : snapshotEntryHighWater s sessionId snapshot.eventSequence = snapshot.entrySequence
  entriesStored : snapshot.entrySequence ≤ maxInteger
  whole : cutsRunAcceptance s sessionId snapshot = false

/-- Every page, and what it is listed from. -/
theorem listSessionTranscriptWindow_ok {cursor : Option TranscriptCursor}
    {page : TranscriptWindowPage} :
    listSessionTranscriptWindow w s sessionId cursor direction limit = .ok page ↔
      ∃ session state snapshot boundary window,
        loadSession s sessionId = some session ∧ loadSessionRunState s sessionId = some state ∧
        (∀ c ∈ cursor, c.sessionId = sessionId) ∧
        windowPlace state.entryHighWater (sessionEventHighWater s sessionId) direction cursor =
          (snapshot, boundary) ∧
        Cut s sessionId state.entryHighWater snapshot boundary ∧
        transcriptWindow w s sessionId snapshot boundary cursor.isSome direction limit = .ok window ∧
        page = ⟨session, window, activeLocalCommand s sessionId,
          ⟨sessionId, snapshot.eventSequence⟩⟩ := by
  simp only [listSessionTranscriptWindow, bind_ok, demand_ok, pure_ok]
  constructor
  · rintro ⟨session, hsession, state, hstate, _, hscope, hrest⟩
    cases hplace : windowPlace state.entryHighWater (sessionEventHighWater s sessionId) direction
      cursor with
    | mk snapshot boundary =>
      rw [hplace] at hrest
      obtain ⟨_, hrange, _, hstored, _, hconsistent, _, hentries, _, hwhole, window, hwindow, hpage⟩ :=
        hrest
      obtain ⟨hentry, hevent, hboundary⟩ := (require_ok ..).mp hrange
      exact ⟨session, state, snapshot, boundary, window, hsession, hstate, (require_ok ..).mp hscope,
        hplace, ⟨hentry, hevent, hboundary, (require_ok ..).mp hstored,
          (require_ok ..).mp hconsistent, (require_ok ..).mp hentries, (require_ok ..).mp hwhole⟩,
        hwindow, hpage.symm⟩
  · rintro ⟨session, state, snapshot, boundary, window, hsession, hstate, hscope, hplace, hcut,
      hwindow, rfl⟩
    refine ⟨session, hsession, state, hstate, (), (require_ok ..).mpr hscope, ?_⟩
    rw [hplace]
    exact ⟨(), (require_ok ..).mpr ⟨hcut.place, hcut.event, hcut.boundary⟩,
      (), (require_ok ..).mpr hcut.stored, (), (require_ok ..).mpr hcut.consistent,
      (), (require_ok ..).mpr hcut.entriesStored, (), (require_ok ..).mpr hcut.whole,
      window, hwindow, rfl⟩

/-- What was cut from a session once can be cut from it later on. -/
theorem Continues.cut_kept (h : Continues sessionId s t) {state state' : SessionRunState}
    (hstate : loadSessionRunState s sessionId = some state)
    (hstate' : loadSessionRunState t sessionId = some state')
    (hold : snapshot.eventSequence < s.nextValue)
    (hcut : Cut s sessionId state.entryHighWater snapshot boundary) :
    Cut t sessionId state'.entryHighWater snapshot boundary where
  place := hcut.place.trans (h.entryHighWater_le hstate hstate')
  event := hcut.event.trans h.highWater_le
  boundary := hcut.boundary
  stored := hcut.stored
  consistent := (h.snapshotEntryHighWater_kept hold).trans hcut.consistent
  entriesStored := hcut.entriesStored
  whole := h.cutsRunAcceptance_kept hstate hstate' hcut.place hcut.whole

/-! ## Every window can be listed -/

theorem windowRows_ok (hs : Sound s) (hboundary : boundary ≤ maxInteger)
    (hentry : snapshot.entrySequence ≤ maxInteger) (hevent : snapshot.eventSequence ≤ maxInteger) :
    ∃ found, windowRows s sessionId snapshot boundary direction limit = .ok found := by
  have hentries : ∃ entries, ((direction.arrange SessionEntry.entrySequence
      (snapshotEntryRows s sessionId snapshot boundary direction)).take (limit + 1)).mapM
        (transcriptEntryFromRow s) = .ok entries := by
    refine mapM_succeeds fun e he => ?_
    have hmem := List.mem_of_mem_filter (mem_arrange.mp (List.mem_of_mem_take he))
    obtain ⟨body, hbody, -⟩ := transcriptBody_ok hs hmem
    exact ⟨_, (bind_ok ..).mpr ⟨body, hbody, rfl⟩⟩
  have hcommands : ∃ commands, listLocalCommandEntriesWindow s sessionId snapshot boundary direction
      (min (limit + 1) (2 ^ 16 - 1)) = .ok commands := by
    refine mapM_succeeds fun c hc => ?_
    obtain ⟨hmem, hchosen⟩ := List.mem_filter.mp (mem_arrange.mp (List.mem_of_mem_take hc))
    exact localCommandEntry_ok hs hmem (Bool.and_eq_true_iff.mp hchosen).2
  obtain ⟨entries, hentries⟩ := hentries
  obtain ⟨commands, hcommands⟩ := hcommands
  refine (bind_succeeds ..).mpr ⟨(), (require_ok ..).mpr hboundary, (bind_succeeds ..).mpr
    ⟨(), (require_ok ..).mpr hentry, (bind_succeeds ..).mpr ⟨(), (require_ok ..).mpr hevent, ?_⟩⟩⟩
  exact (bind_succeeds ..).mpr
    ⟨entries, hentries, (bind_succeeds ..).mpr ⟨commands, hcommands, _, rfl⟩⟩

theorem attachImageMetadata_ok (hi : Illustrated s) {entry : TranscriptEntry}
    (hentry : Traced s sessionId snapshot entry) :
    ∃ shown, attachImageMetadata s sessionId entry = .ok shown := by
  unfold attachImageMetadata
  split
  · rename_i runId text attachments hbody
    cases hentry with
    | command c mem place read =>
      have hnone := (runIdOf_command read).2
      rw [runIdOf, hbody] at hnone
      cases hnone
    | row e mem session place read =>
      simp only [transcriptEntryFromRow, bind_ok, pure_ok] at read
      obtain ⟨body, hread, rfl⟩ := read
      obtain rfl : body = _ := hbody
      have htext : e.body = .user text := by
        cases hkind : e.body <;> rw [hkind] at hread <;>
          simp only [transcriptBodyFromRow, bind_ok, pure_ok] at hread
        · rw [(TranscriptBody.userMessage.inj hread).2.1]
        · cases hread
        · obtain ⟨_, _, hread⟩ := hread
          cases hread
        · obtain ⟨_, _, _, _, hread⟩ := hread
          cases hread
      have hvalid := hi.valid e mem text htext
      rw [session] at hvalid
      exact (bind_succeeds ..).mpr ⟨(), (require_ok ..).mpr hvalid, _, rfl⟩
  · exact ⟨_, rfl⟩

theorem transcriptWindow_ok (h : Readable s sessionId) (hsuccessive : Successive s)
    (hboundary : boundary ≤ maxInteger) (hentry : snapshot.entrySequence ≤ maxInteger)
    (hevent : snapshot.eventSequence ≤ s.nextValue)
    (hcuts : cutsRunAcceptance s sessionId snapshot = false) (continued : Bool) :
    ∃ window, transcriptWindow w s sessionId snapshot boundary continued direction limit =
      .ok window := by
  have hstored : snapshot.eventSequence ≤ maxInteger := hevent.trans h.stored
  have hlisted : ∃ found, windowRows s sessionId snapshot boundary direction limit = .ok found :=
    windowRows_ok h.sound hboundary hentry hstored
  obtain ⟨found, hfound⟩ := hlisted
  have htraced : ∀ entry ∈ direction.restore (found.take limit), Traced s sessionId snapshot entry :=
    fun entry hmem => windowRows_traced hfound entry (List.mem_of_mem_take (mem_restore.mp hmem))
  obtain ⟨entries, hshown⟩ := mapM_succeeds (f := attachImageMetadata s sessionId) fun entry hmem =>
    attachImageMetadata_ok h.illustrated (htraced entry hmem)
  have hactive : ∃ active, activeRunIdAtSequence s sessionId snapshot.eventSequence = .ok active := by
    rcases activeRun_cases sessionId h.sound hsuccessive hstored with ⟨hnone, -⟩ | ⟨a, ha, -⟩
    · exact ⟨_, hnone⟩
    · exact ⟨_, ha⟩
  obtain ⟨active, hactive⟩ := hactive
  have hruns : ∃ runs, (windowRunIds entries active).mapM (fun runId =>
      loadRunAtSequence s runId snapshot.eventSequence) = .ok runs := by
    refine mapM_succeeds fun runId hrunId => ?_
    obtain ⟨f, hf, rfl, -, hearly⟩ :=
      windowRunIds_accepted h hsuccessive hevent htraced hshown hactive hrunId
    exact ⟨_, loadRunAtSequence_ok h.sound hf (hearly hcuts) hstored⟩
  obtain ⟨runs, hruns⟩ := hruns
  obtain ⟨workspace, hworkspace⟩ := workspaceSummaryAtSequence_ok w s sessionId hstored
  exact (bind_succeeds ..).mpr ⟨found, hfound, (bind_succeeds ..).mpr ⟨entries, hshown,
    (bind_succeeds ..).mpr ⟨active, hactive, (bind_succeeds ..).mpr ⟨runs, hruns,
      (bind_succeeds ..).mpr ⟨workspace, hworkspace, _, rfl⟩⟩⟩⟩⟩

/-! ### The newest window -/

theorem entry_le_highWater (hd : Delivered s) {e : SessionEntry} (he : e ∈ s.sessionEntries) :
    e.factSequence ≤ sessionEventHighWater s e.sessionId := by
  refine row_le_highWater hd (r := ⟨some e.deliveryEventId, e.factSequence, e.sessionId,
    some e.body.eventKind, e.createdAtMilliseconds⟩) ((selected s).entries.subset ?_)
  exact List.mem_map_of_mem he

theorem command_le_highWater (hd : Delivered s) {c : LocalCommand} (hc : c ∈ s.localCommands)
    (hterminal : c.state.isTerminal = true) :
    c.updatedSequence ≤ sessionEventHighWater s c.sessionId := by
  refine row_le_highWater hd (r := ⟨c.deliveryEventId, c.updatedSequence, c.sessionId,
    some .localCommandEntry, c.updatedAtMilliseconds⟩) ((selected s).commandEntries.subset ?_)
  have hrecord : 3 ≤ c.state.toRecord ∧ c.state.toRecord ≤ 5 := by
    refine ⟨(LocalCommandState.isTerminal_iff_record _).mp hterminal, ?_⟩
    cases c.state <;> decide
  exact List.mem_filterMap.mpr ⟨c, hc, if_pos hrecord⟩

/-- At the newest event the transcript goes up to the high water of the run state. -/
theorem snapshotEntryHighWater_current (h : Readable s sessionId) {state : SessionRunState}
    (hstate : loadSessionRunState s sessionId = some state) :
    snapshotEntryHighWater s sessionId (sessionEventHighWater s sessionId) =
      state.entryHighWater := by
  refine le_antisymm (max_le (greatest_le fun e he => ?_) (greatest_le fun c hc => ?_)) ?_
  · obtain ⟨hmem, hchosen⟩ := List.mem_filter.mp he
    simp only [Bool.and_eq_true, decide_eq_true_eq] at hchosen
    exact ((h.place_held hstate).mpr (.inl ⟨e, hmem, hchosen.1, rfl⟩)).2
  · obtain ⟨hmem, hchosen⟩ := List.mem_filter.mp hc
    simp only [Bool.and_eq_true, decide_eq_true_eq] at hchosen
    cases hplace : c.entrySequence with
    | none => exact Nat.zero_le _
    | some place =>
      exact ((h.place_held hstate).mpr (.inr ⟨c, hmem, hchosen.1.1, hplace, hchosen.2⟩)).2
  · rcases Nat.eq_zero_or_pos state.entryHighWater with hzero | hpos
    · rw [hzero]
      exact Nat.zero_le _
    -- the last place is that of an entry or of a finished command
    rcases (h.place_held hstate).mp ⟨hpos, le_rfl⟩ with
      ⟨e, he, hsession, hplace⟩ | ⟨c, hc, hsession, hplace, hterminal⟩
    · have hchosen : e ∈ s.sessionEntries.filter fun e => e.sessionId = sessionId &&
          decide (e.factSequence ≤ sessionEventHighWater s sessionId) := by
        refine List.mem_filter.mpr ⟨he, ?_⟩
        simp only [Bool.and_eq_true, decide_eq_true_eq]
        exact ⟨hsession, hsession ▸ entry_le_highWater h.delivered he⟩
      rw [← hplace]
      exact (le_greatest hchosen).trans (le_max_left ..)
    · have hchosen : c ∈ s.localCommands.filter fun c => c.sessionId = sessionId &&
          decide (c.updatedSequence ≤ sessionEventHighWater s sessionId) && c.state.isTerminal := by
        refine List.mem_filter.mpr ⟨hc, ?_⟩
        simp only [Bool.and_eq_true, decide_eq_true_eq]
        exact ⟨⟨hsession, hsession ▸ command_le_highWater h.delivered hc hterminal⟩, hterminal⟩
      have hle := @le_greatest _ (fun c : LocalCommand => c.entrySequence.getD 0) _ _ hchosen
      simp only [hplace, Option.getD_some] at hle
      exact hle.trans (le_max_right ..)

/-- No run of the session is accepted after its newest event. -/
theorem cutsRunAcceptance_current (h : Readable s sessionId) (place : Nat) :
    cutsRunAcceptance s sessionId ⟨place, sessionEventHighWater s sessionId⟩ = false := by
  refine List.any_eq_false.mpr fun e he hcut => ?_
  simp only [Bool.and_eq_true, decide_eq_true_eq, List.any_eq_true] at hcut
  obtain ⟨⟨hsession, -⟩, f, hf, hfrun, hlate⟩ := hcut
  obtain ⟨a, ha, harun, hasession⟩ := h.sound.scope.entries e he
  have hsame := h.sound.identified.acceptedFacts.eq_of_seq hf ha (hfrun.trans harun.symm)
  have hfsession : f.sessionId = sessionId := hsame ▸ hasession.trans hsession
  have hearly := accepted_le_highWater h.delivered hf
  rw [hfsession] at hearly
  exact absurd hlate (Nat.not_lt.mpr hearly)

/-- The newest snapshot of a session can be cut from it. -/
theorem cut_current (h : Readable s sessionId) {state : SessionRunState}
    (hstate : loadSessionRunState s sessionId = some state)
    (hboundary : boundary ≤ state.entryHighWater + 1) :
    Cut s sessionId state.entryHighWater
      ⟨state.entryHighWater, sessionEventHighWater s sessionId⟩ boundary where
  place := le_rfl
  event := le_rfl
  boundary := hboundary
  stored := highWater_stored h.sound.numbered h.stored sessionId
  consistent := snapshotEntryHighWater_current h hstate
  entriesStored := (h.sound.transcribed state (Table.find_mem hstate)).1.trans (by decide)
  whole := cutsRunAcceptance_current h _

/-- Behind a snapshot that can be cut there is a window. -/
theorem Cut.window (h : Readable s sessionId) (hsuccessive : Successive s) {state : SessionRunState}
    (hstate : loadSessionRunState s sessionId = some state)
    (hcut : Cut s sessionId state.entryHighWater snapshot boundary) (continued : Bool) :
    ∃ window, transcriptWindow w s sessionId snapshot boundary continued direction limit =
      .ok window := by
  have hmost := (h.sound.transcribed state (Table.find_mem hstate)).1
  have hplace := hcut.place
  have hboundary := hcut.boundary
  have hroom : maxTranscriptEntries + 1 ≤ maxInteger := by decide
  refine transcriptWindow_ok h hsuccessive (by omega) hcut.entriesStored ?_ hcut.whole continued
  exact hcut.event.trans (greatest_le fun e he =>
    (h.sound.numbered.events e (List.mem_of_mem_filter he)).le)

/-- **The newest window of a session is never refused.** -/
theorem transcriptWindow_newest (h : Reachable Any s) (hfound : (loadSession s sessionId).isSome)
    (hstored : s.nextValue ≤ maxInteger) :
    ∃ page, listSessionTranscriptWindow w s sessionId none direction limit = .ok page := by
  have hr := readable h hfound hstored
  obtain ⟨session, hsession⟩ := Option.isSome_iff_exists.mp hfound
  obtain ⟨state, hstate⟩ := Option.isSome_iff_exists.mp
    (h.sound.aligned.runState_isSome.mpr hfound)
  have hcut : Cut s sessionId state.entryHighWater
      ⟨state.entryHighWater, sessionEventHighWater s sessionId⟩
      (windowPlace state.entryHighWater (sessionEventHighWater s sessionId) direction none).2 := by
    refine cut_current hr hstate ?_
    cases direction with
    | older => exact le_rfl
    | newer => exact Nat.zero_le _
  have hlisted : ∃ window, transcriptWindow w s sessionId _ _ false direction limit = .ok window :=
    hcut.window hr h.successive hstate false
  obtain ⟨window, hwindow⟩ := hlisted
  exact ⟨_, listSessionTranscriptWindow_ok.mpr ⟨session, state, _, _, window, hsession, hstate,
    (fun c hc => by cases hc), rfl, hcut, hwindow, rfl⟩⟩

theorem callingRun_newest : ∃ page,
    listSessionTranscriptWindow {} callingRun 1 none .older 1 = .ok page :=
  transcriptWindow_newest callingRun_reachable (by decide +kernel) (by decide +kernel)

/-! ### Pages of one snapshot -/

/-- **A window that was listed from a cursor is listed again.**  Whatever operations come between,
the same cursor gives the same entries, runs, active run, workspace and cursors; only the
session and its active command are those of the time. -/
theorem transcriptWindow_repeats (h : Reachable Any s)
    (hrun : Relation.ReflTransGen (Step Any) s t) (hafter : (loadSession t sessionId).isSome)
    (hstored : t.nextValue ≤ maxInteger) {cursor : TranscriptCursor} {page : TranscriptWindowPage}
    (hpage : listSessionTranscriptWindow w s sessionId (some cursor) direction limit = .ok page) :
    ∃ later, listSessionTranscriptWindow w t sessionId (some cursor) direction limit = .ok later ∧
      later.window = page.window ∧ later.eventCursor = page.eventCursor := by
  obtain ⟨session, state, snapshot, boundary, window, hsession, hstate, hscope, hplace, hcut, hwindow,
    rfl⟩ := listSessionTranscriptWindow_ok.mp hpage
  have hbefore : (loadSession s sessionId).isSome := Option.isSome_of_eq_some hsession
  have hcontinues := continues h hrun hbefore hafter hstored
  have hold : snapshot.eventSequence < s.nextValue :=
    lt_of_le_of_lt hcut.event (highWater_lt h sessionId)
  obtain ⟨session', hsession'⟩ := Option.isSome_iff_exists.mp hafter
  obtain ⟨state', hstate'⟩ := Option.isSome_iff_exists.mp
    (hcontinues.after.sound.aligned.runState_isSome.mpr hafter)
  refine ⟨⟨session', window, activeLocalCommand t sessionId, ⟨sessionId, snapshot.eventSequence⟩⟩,
    ?_, rfl, rfl⟩
  refine listSessionTranscriptWindow_ok.mpr ⟨session', state', snapshot, boundary, window, hsession',
    hstate', hscope, hplace, hcontinues.cut_kept hstate hstate' hold hcut, ?_, rfl⟩
  rw [hcontinues.transcriptWindow_kept h.successive (h.run hrun).successive hold]
  exact hwindow

/-- The window behind the last place while the tool is called. -/
theorem uncertainRun_repeats : ∃ cursor page,
    listSessionTranscriptWindow {} callingRun 1 (some cursor) .older 8 = .ok page ∧
    ∃ later, listSessionTranscriptWindow {} uncertainRun 1 (some cursor) .older 8 = .ok later ∧
      later.window = page.window ∧ later.eventCursor = page.eventCursor := by
  have hfound : (loadSession callingRun 1).isSome := by decide +kernel
  have hreadable := readable callingRun_reachable hfound (by decide +kernel)
  obtain ⟨session, hsession⟩ := Option.isSome_iff_exists.mp hfound
  obtain ⟨state, hstate⟩ := Option.isSome_iff_exists.mp
    (hreadable.sound.aligned.runState_isSome.mpr hfound)
  have hcut := cut_current hreadable hstate (Nat.le_succ state.entryHighWater)
  have hlisted : ∃ window, transcriptWindow {} callingRun 1 _ _ true .older 8 = .ok window :=
    hcut.window hreadable callingRun_reachable.successive hstate true
  obtain ⟨window, hwindow⟩ := hlisted
  have hpage : listSessionTranscriptWindow {} callingRun 1 (some ⟨1, state.entryHighWater,
      sessionEventHighWater callingRun 1, state.entryHighWater⟩) .older 8 = .ok _ :=
    listSessionTranscriptWindow_ok.mpr ⟨session, state, _, _, window, hsession, hstate,
      (fun c hc => by rw [← Option.some.inj hc]), rfl, hcut, hwindow, rfl⟩
  exact ⟨_, _, hpage, transcriptWindow_repeats callingRun_reachable uncertainRun_later
    (by decide +kernel) (by decide +kernel) hpage⟩

/-! ### The cursors of a page -/

/-- A cursor of a window names its snapshot and one of its places. -/
theorem transcriptWindow_cursor {continued : Bool} {window : TranscriptWindow}
    (hwindow :
      transcriptWindow w s sessionId snapshot boundary continued direction limit = .ok window)
    {c : TranscriptCursor} (hc : c ∈ window.olderCursor ∨ c ∈ window.newerCursor) :
    c.sessionId = sessionId ∧ c.snapshotEntrySequence = snapshot.entrySequence ∧
      c.snapshotEventSequence = snapshot.eventSequence ∧
      c.afterEntrySequence ≤ snapshot.entrySequence := by
  simp only [transcriptWindow, bind_ok, pure_ok] at hwindow
  obtain ⟨found, hfound, entries, hshown, active, hactive, runs, hruns, workspace, hworkspace, rfl⟩ :=
    hwindow
  have hat : ∀ {available : Bool} {entry : Option TranscriptEntry},
      (∀ e ∈ entry, e ∈ entries) → c ∈ cursorAt sessionId snapshot available entry →
      ∃ e ∈ entries,
        c = ⟨sessionId, snapshot.entrySequence, snapshot.eventSequence, e.entrySequence⟩ := by
    intro available entry hentry hc
    unfold cursorAt at hc
    split at hc
    · obtain ⟨e, he, rfl⟩ := Option.map_eq_some_iff.mp hc
      exact ⟨e, hentry e he, rfl⟩
    · cases hc
  have hnamed : ∃ e ∈ entries,
      c = ⟨sessionId, snapshot.entrySequence, snapshot.eventSequence, e.entrySequence⟩ := by
    rcases hc with hc | hc
    · exact hat (fun e he => List.mem_of_mem_head? he) hc
    · exact hat (fun e he => List.mem_of_mem_getLast? he) hc
  obtain ⟨e, he, rfl⟩ := hnamed
  refine ⟨rfl, rfl, rfl, ?_⟩
  obtain ⟨entry, hentry, hattached⟩ := mapM_mem hshown he
  have htraced := windowRows_traced hfound entry (List.mem_of_mem_take (mem_restore.mp hentry))
  exact (attachImageMetadata_runId hattached).1.trans_le htraced.place_le

/-- A window that leaves out entries offers a cursor to go on in its direction. -/
theorem transcriptWindow_more {continued : Bool} {window : TranscriptWindow} (hlimit : 0 < limit)
    (hmore : limit < (snapshotEntryRows s sessionId snapshot boundary direction).length)
    (hwindow :
      transcriptWindow w s sessionId snapshot boundary continued direction limit = .ok window) :
    (match direction with | .older => window.olderCursor | .newer => window.newerCursor).isSome := by
  simp only [transcriptWindow, bind_ok, pure_ok] at hwindow
  obtain ⟨found, hfound, entries, hshown, active, hactive, runs, hruns, workspace, hworkspace, rfl⟩ :=
    hwindow
  simp only [windowRows, bind_ok, pure_ok] at hfound
  obtain ⟨_, _, _, _, _, _, rows, hrows, commands, hcommands, rfl⟩ := hfound
  have hlength := (mapM_ok_iff.mp hrows).length_eq
  have hall : (direction.arrange TranscriptEntry.entrySequence (rows ++ commands)).length =
      rows.length + commands.length := arrange_length.trans List.length_append
  rw [List.length_take, arrange_length] at hlength
  have hcut : limit < ((direction.arrange TranscriptEntry.entrySequence
      (rows ++ commands)).take (limit + 1)).length := by
    rw [List.length_take, hall]
    omega
  have hnonempty : entries ≠ [] := by
    intro hempty
    have hentries := (mapM_ok_iff.mp hshown).length_eq
    rw [hempty, restore_length, List.length_take] at hentries
    have hzero : ([] : List TranscriptEntry).length = 0 := rfl
    omega
  cases direction with
  | older =>
    simp only [cursorAt, decide_eq_true hcut, if_true, Option.isSome_map]
    exact List.isSome_head?.mpr hnonempty
  | newer =>
    simp only [cursorAt, decide_eq_true hcut, if_true, Option.isSome_map]
    exact List.getLast?_isSome.mpr hnonempty

/-- **A cursor that a page offers is never refused**: after any operations on a session that is
still there it can be used in both directions and with any limit, and the page is of the same
snapshot. -/
theorem transcriptCursor_lists (h : Reachable Any s) (hrun : Relation.ReflTransGen (Step Any) s t)
    (hafter : (loadSession t sessionId).isSome) (hstored : t.nextValue ≤ maxInteger)
    {cursor : Option TranscriptCursor} {page : TranscriptWindowPage}
    (hpage : listSessionTranscriptWindow w s sessionId cursor direction limit = .ok page)
    {c : TranscriptCursor} (hc : c ∈ page.window.olderCursor ∨ c ∈ page.window.newerCursor)
    (way : TranscriptPageDirection) (size : Nat) :
    ∃ later, listSessionTranscriptWindow w t sessionId (some c) way size = .ok later ∧
      later.eventCursor = page.eventCursor := by
  obtain ⟨session, state, snapshot, boundary, window, hsession, hstate, -, -, hcut, hwindow, rfl⟩ :=
    listSessionTranscriptWindow_ok.mp hpage
  obtain ⟨hcsession, hcentry, hcevent, hcafter⟩ := transcriptWindow_cursor hwindow hc
  have hcontinues := continues h hrun (Option.isSome_of_eq_some hsession) hafter hstored
  have hold : snapshot.eventSequence < s.nextValue :=
    lt_of_le_of_lt hcut.event (highWater_lt h sessionId)
  obtain ⟨session', hsession'⟩ := Option.isSome_iff_exists.mp hafter
  obtain ⟨state', hstate'⟩ := Option.isSome_iff_exists.mp
    (hcontinues.after.sound.aligned.runState_isSome.mpr hafter)
  have hlater : Cut t sessionId state'.entryHighWater snapshot c.afterEntrySequence :=
    { hcontinues.cut_kept hstate hstate' hold hcut with boundary := Nat.le_succ_of_le hcafter }
  have hlisted : ∃ window', transcriptWindow w t sessionId snapshot c.afterEntrySequence true way
      size = .ok window' := hlater.window hcontinues.after (h.run hrun).successive hstate' true
  obtain ⟨window', hwindow'⟩ := hlisted
  refine ⟨⟨session', window', activeLocalCommand t sessionId, ⟨sessionId, snapshot.eventSequence⟩⟩,
    ?_, rfl⟩
  refine listSessionTranscriptWindow_ok.mpr ⟨session', state', snapshot, c.afterEntrySequence, window',
    hsession', hstate', ?_, ?_, hlater, hwindow', rfl⟩
  · intro d hd
    rw [← Option.some.inj hd]
    exact hcsession
  · rw [windowPlace, hcentry, hcevent]

/-- While the tool is called a cursor is offered, and it is good when the run is over. -/
theorem uncertainRun_cursor : ∃ page, listSessionTranscriptWindow {} callingRun 1 none .older 1 =
    .ok page ∧ ∃ c ∈ page.window.olderCursor,
      ∃ later, listSessionTranscriptWindow {} uncertainRun 1 (some c) .newer 8 = .ok later ∧
        later.eventCursor = page.eventCursor := by
  have hfound : (loadSession callingRun 1).isSome := by decide +kernel
  have hlisted : ∃ page, listSessionTranscriptWindow {} callingRun 1 none .older 1 = .ok page :=
    transcriptWindow_newest callingRun_reachable hfound (by decide +kernel)
  obtain ⟨page, hpage⟩ := hlisted
  have hplace : (loadSessionRunState callingRun 1).map (·.entryHighWater) = some 2 := by
    decide +kernel
  have hrows : 1 < (snapshotEntryRows callingRun 1 ⟨2, sessionEventHighWater callingRun 1⟩ 3
      .older).length := by decide +kernel
  obtain ⟨_, state, snapshot, boundary, window, -, hstate, -, hnewest, -, hwindow, hshown⟩ :=
    listSessionTranscriptWindow_ok.mp hpage
  rw [hstate, Option.map_some, Option.some_inj] at hplace
  rw [windowPlace, hplace] at hnewest
  obtain ⟨rfl, rfl⟩ := Prod.mk.inj hnewest
  have hoffered : page.window.olderCursor.isSome := by
    rw [hshown]
    exact transcriptWindow_more Nat.one_pos hrows hwindow
  obtain ⟨c, hc⟩ := Option.isSome_iff_exists.mp hoffered
  exact ⟨page, hpage, c, hc, transcriptCursor_lists callingRun_reachable uncertainRun_later
    (by decide +kernel) (by decide +kernel) hpage (.inl hc) .newer 8⟩

end Morons.SessionEvents
