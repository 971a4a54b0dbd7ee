import SimCore.Protocol.Stages

/-!
# The books of the instances

The books of the resource manager stay coherent through every turn.

## Main results

* `Reached.coherent`: the books are coherent in every reached protocol state
-/

namespace SimCore.Protocol

open Simd Resource

variable {env : Env} {f f' : Flow} {L : Ledger}

/-! ### Coherence -/

theorem coherent_released (hL : L.Coherent) (j : Job) : (j.released L).Coherent := by
  unfold Job.released
  split
  · exact hL
  · rename_i id _
    have hl : (if j.allocatedCPUMs.isSome then L.modify id Account.leave else L).Coherent := by
      split
      · exact hL.leave id
      · exact hL
    simp only
    split
    · exact hl.give id _
    · exact hl

theorem coherent_arrived (hL : L.Coherent) (k : EventKind) : (k.arrived L).Coherent := by
  cases k
  case callerOverheadEnd o => exact hL.leave o.instanceID
  all_goals exact hL

theorem Turn.coherent (h : Turn env f f') (hL : f.ledger.Coherent) : f'.ledger.Coherent := by
  rcases h with h | h <;> cases h
  case startRun =>
    exact hL.modify fun _ => ⟨⟨rfl, rfl, rfl, rfl⟩, rfl⟩
  case overheadBegin o _ _ => exact hL.enter o.instanceID
  case complete r _ _ _ | completeAck r _ _ _ _ _ _ | completeLate r _ _ =>
    simpa using coherent_released hL (f.job r)
  case spawnStart k _ _ _ _ _ | spawnFail k _ _ _ | spawnLost k _ _ _ _ _ | spawnNone k _ _ _ _ _
    | spawnPublish k _ _ _ _ _ _ _ =>
    simpa using coherent_arrived hL k
  case overheadCall o _ _ _ _ _ _ => exact hL.leave o.instanceID
  case drain hd | sweep hd => exact hd.coherent
  case scale hL' _ _ => exact hL'
  all_goals simpa using hL

theorem Reached.coherent (h : Reached env f) : f.ledger.Coherent := by
  induction h with
  | start h => exact h.ledger
  | turn _ h ih => exact h.coherent ih

end SimCore.Protocol
