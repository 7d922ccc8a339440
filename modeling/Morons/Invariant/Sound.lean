import Morons.Invariant.Call
import Morons.Invariant.Command
import Morons.Write.Tool

/-!
# Sound stores

All that holds of every store which operations reach.  Each group of facts is
kept by a write, given the others before it.
-/

namespace Morons

variable {d : Discipline} {s t : Store}

structure Sound (s : Store) : Prop where
  numbered : Numbered s
  identified : Identified s
  registered : Registered s
  aligned : Aligned s
  bound : Bound s
  scope : Scoped s
  projected : Projected s
  chronicled : Chronicled s
  closed : Closed s
  cancellations : Cancellations s
  occupied : Occupied s
  commanded : Commanded s
  transcribed : Transcribed s.sessionRunStates s.sessionEntries s.localCommands
  called : Called s
  prompted : Prompted s

theorem sound_empty : Sound Store.empty where
  numbered := numbered_empty
  identified := identified_empty
  registered := registered_empty
  aligned := aligned_empty
  bound := bound_empty
  scope := scoped_empty
  projected := projected_empty
  chronicled := chronicled_empty
  closed := closed_empty
  cancellations := cancellations_empty
  occupied := occupied_empty
  commanded := commanded_empty
  transcribed := by simp [Transcribed, Store.empty]
  called := called_empty
  prompted := prompted_empty

/-- **Every write keeps a store sound.** -/
theorem Sound.write (h : Sound s) (w : Write d s t) : Sound t where
  numbered := h.numbered.write w
  identified := h.identified.write w
  registered := h.registered.write w
  aligned := h.aligned.write h.identified h.registered w
  bound := h.bound.write w
  scope := h.scope.write h.bound h.numbered w
  projected := h.projected.write h.bound h.scope h.identified w
  chronicled := h.chronicled.write h.projected h.bound h.identified w
  closed := h.closed.write h.chronicled h.projected h.bound h.scope h.identified h.numbered w
  cancellations := h.cancellations.write h.projected w
  occupied := h.occupied.write h.aligned h.bound h.identified w
  commanded := h.commanded.write h.registered h.identified h.numbered w
  transcribed := h.transcribed.write h.aligned h.identified h.bound h.scope h.occupied
    (fun c hc => (h.commanded.formed c hc).unplaced) w
  called := h.called.write w
  prompted := h.prompted.write h.identified h.scope w

/-- **What operations reach is sound.** -/
theorem Reachable.sound {allowed : Environment → Store → Operation → Prop}
    (h : Reachable allowed s) : Sound s :=
  h.obeying_none.writes.invariant (fun _ e => e ▸ sound_empty) fun _ _ hs w => hs.write w

end Morons
