import Morons.Invariant.Transcript
import Morons.Startup.Commands

/-!
# Local commands

A command is unfinished and without a result, or it has a canonical result,
the state that goes with it and a place in the transcript.
-/

namespace Morons

variable {d : Discipline} {s t : Store}

/-- The row of a command, by the stage it is in. -/
structure WellFormed (c : LocalCommand) : Prop where
  text : validateLocalCommand c.commandText = .ok ()
  canonical : c.fingerprint = .localCommand c.sessionId c.commandText c.contextVisible
  stage :
    (c.state.isTerminal = false ∧ c.result = none ∧ c.entrySequence = none ∧ c.messageId = none ∧
      c.deliveryEventId = none) ∨
    ∃ result, c.result = some result ∧ c.state = terminalCommandState result ∧
      validateCanonicalBashResult result = true ∧ c.entrySequence.isSome ∧ c.messageId.isSome ∧
      c.deliveryEventId.isSome
  forward : c.acceptedSequence ≤ c.updatedSequence
  clock : c.acceptedAtMilliseconds ≤ c.updatedAtMilliseconds

theorem WellFormed.unplaced {c : LocalCommand} (h : WellFormed c)
    (hrunning : c.state.isTerminal = false) : c.entrySequence = none := by
  rcases h.stage with ⟨-, -, hplace, -⟩ | ⟨result, -, hstate, -⟩
  · exact hplace
  · rw [hstate, terminalCommandState_isTerminal] at hrunning
    cases hrunning

structure Commanded (s : Store) : Prop where
  formed : ∀ c ∈ s.localCommands, WellFormed c
  backed : Backed LocalCommand.stamp .localCommand s.mutationRequests s.localCommands
  cancellations : ∀ k ∈ s.localCommandCancellations,
    k.fingerprint = .cancelLocalCommand k.sessionId k.commandId
  backedCancellations : Backed LocalCommandCancellation.stamp .localCommandCancel
    s.mutationRequests s.localCommandCancellations

theorem commanded_empty : Commanded Store.empty := by
  constructor <;> simp [Backed, Store.empty]

namespace Commanded

/-- A request of another operation. -/
theorem request (h : Commanded s) (requestId : MutationRequestId) (operation : MutationOperation)
    (n now : Nat) (hcommand : operation ≠ .localCommand)
    (hcancel : operation ≠ .localCommandCancel) :
    Commanded (insertMutationRequest s requestId operation n now) :=
  { h with
    backed := h.backed.other hcommand
    backedCancellations := h.backedCancellations.other hcancel }

theorem paused (h : Commanded s) (p : Paused s t) : Commanded t := by
  rw [p.frame]
  exact { h with }

theorem formed_modify {commandId : LocalCommandId} {f : LocalCommand → LocalCommand}
    {rows : List LocalCommand} (h : ∀ c ∈ rows, WellFormed c)
    (hf : ∀ c ∈ rows, c.commandId = commandId → WellFormed (f c)) :
    ∀ c ∈ Table.modify LocalCommand.commandId commandId f rows, WellFormed c := by
  intro c' hc'
  obtain ⟨c, hc, rfl⟩ := Table.mem_modify.mp hc'
  by_cases e : c.commandId = commandId
  · rw [if_pos e]
    exact hf c hc e
  · rw [if_neg e]
    exact h c hc

theorem cleanup (h : Commanded s) (hreg : Registered s) (request : SessionDeleteRequest) :
    Commanded (writeCleanup s request) where
  formed c hc := h.formed c (List.mem_of_mem_filter hc)
  backed := by
    rw [hreg.cleanup_requests]
    refine h.backed.filter fun c hc m hm hp hkey => decide_eq_true fun hsession => ?_
    exact of_decide_eq_true hp (mem_sessionMutations.mpr
      (Or.inr (Or.inr (Or.inr (Or.inl ⟨c, hc, hsession, hkey⟩)))))
  cancellations k hk := h.cancellations k (List.mem_of_mem_filter hk)
  backedCancellations := by
    rw [hreg.cleanup_requests]
    refine h.backedCancellations.filter fun k hk m hm hp hkey => decide_eq_true fun hsession => ?_
    exact of_decide_eq_true hp (mem_sessionMutations.mpr
      (Or.inr (Or.inr (Or.inr (Or.inr (Or.inl ⟨k, hk, hsession, hkey⟩))))))

theorem write (h : Commanded s) (hreg : Registered s) (hid : Identified s) (hn : Numbered s)
    (w : Write d s t) :
    Commanded t := by
  cases w with
  | recovery u now paused => exact h.paused (pause_paused paused)
  | steering mutation u item now fresh text admitted applied =>
    rw [(steering_frame applied).2]
    exact { h.request mutation.requestId .steering s.nextValue now (by simp) (by simp) with }
  | creationRequest requestId fingerprint displayName workingDirectory now =>
    exact { h.request requestId .sessionCreate s.nextValue now (by simp) (by simp) with }
  | rename requestId fingerprint sessionId displayName now =>
    exact { h.request requestId .sessionRename s.nextValue now (by simp) (by simp) with }
  | archiveRequest requestId fingerprint sessionId archived now u fresh found paused =>
    refine Commanded.paused ?_ (requestArchive_paused paused)
    exact { h.request requestId .sessionArchive s.nextValue now (by simp) (by simp) with }
  | deleteRequest requestId fingerprint sessionId session now =>
    exact { h.request requestId .sessionDelete s.nextValue now (by simp) (by simp) with }
  | cleanup request => exact h.cleanup hreg request
  | acceptance requestId fingerprint sessionId session state binding checkpoint text context now =>
    exact { h.request requestId .runInput (s.nextValue + 1) now (by simp) (by simp) with }
  | cancellation requestId fingerprint run now fresh foundSession found room recordable canonical u
      paused =>
    refine Commanded.paused ?_ (cancelled_paused paused)
    exact { h.request requestId .runCancel s.nextValue now (by simp) (by simp) with }
  | commandAcceptance requestId fingerprint sessionId command contextVisible session state now fresh
      foundSession foundState idle free canonical text =>
    exact { h with
      formed := by
        intro c hc
        rcases List.mem_cons.mp hc with rfl | hc
        · exact ⟨text, canonical, Or.inl ⟨rfl, rfl, rfl, rfl, rfl⟩, le_rfl, le_rfl⟩
        · exact h.formed c hc
      backed := h.backed.add rfl
      backedCancellations := h.backedCancellations.other (by simp) }
  | commandActivation row now found accepted kept clock =>
    exact { h with
      formed := by
        refine formed_modify h.formed fun c hc e => ?_
        have hsame : c = row := Table.eq_of_key hid.commands.nodup hc (Table.find_mem found) e
        subst hsame
        obtain ⟨text, canonical, stage, -, -⟩ := h.formed c hc
        refine ⟨text, canonical, Or.inl ?_, (hn.commands.bounded c hc).le, clock⟩
        rcases stage with ⟨-, hrest⟩ | ⟨result, -, hstate, -⟩
        · exact ⟨rfl, hrest⟩
        · have hterminal := terminalCommandState_isTerminal result
          rw [← hstate, accepted] at hterminal
          cases hterminal
      backed := h.backed.modify fun _ => rfl }
  | commandResult row state result now found running canonical payload foundState room clock =>
    exact { h with
      formed := by
        refine formed_modify h.formed fun c hc e => ?_
        have hsame : c = row := Table.eq_of_key hid.commands.nodup hc (Table.find_mem found) e
        subst hsame
        obtain ⟨text, hfingerprint, -, -, -⟩ := h.formed c hc
        exact ⟨text, hfingerprint, Or.inr ⟨result, rfl, rfl, canonical, rfl, rfl, rfl⟩,
          (hn.commands.bounded c hc).le, clock⟩
      backed := h.backed.modify fun _ => rfl }
  | commandCancellation requestId fingerprint row now fresh found canonical clock =>
    exact
      { formed := by
          simp only [writeCommandCancellation]
          split
          · rename_i happlied
            simp only [Bool.and_eq_true, Bool.not_eq_true'] at happlied
            refine formed_modify h.formed fun c hc e => ?_
            have hsame : c = row := Table.eq_of_key hid.commands.nodup hc (Table.find_mem found) e
            subst hsame
            obtain ⟨text, hfingerprint, stage, -, -⟩ := h.formed c hc
            exact ⟨text, hfingerprint, stage, (hn.commands.bounded c hc).le,
              clock happlied.1 happlied.2⟩
          · exact h.formed
        backed := by
          simp only [writeCommandCancellation]
          split
          · refine Backed.other (Backed.modify h.backed ?_) ?_
            · exact fun _ => rfl
            · simp
          · refine Backed.other h.backed ?_
            simp
        cancellations := by
          intro k hk
          rcases List.mem_cons.mp hk with rfl | hk
          · exact canonical
          · exact h.cancellations k hk
        backedCancellations := h.backedCancellations.add rfl }
  | finish run outcome => cases outcome <;> exact { h with }
  | _ => exact { h with }

end Commanded

end Morons
