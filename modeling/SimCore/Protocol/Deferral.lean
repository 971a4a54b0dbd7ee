import SimCore.Protocol.Clock
import SimCore.Protocol.Trace

/-!
# Deferred finalisation

A request that publishes is finalised when its publishes are acknowledged.

## Main results

* `Reached.promised`: publish acknowledgements are promised to requests with finished local work
-/

namespace SimCore.Protocol

open Simd Resource

variable {env : Env} {f f' : Flow}

theorem Reached.promised (h : Reached env f) {r : ReqId} {t : Time}
    (ho : .publishAck r t ∈ f.trace) : (f.job r).stage = .worked := by
  induction h with
  | start h => simp [h.trace] at ho
  | turn hf h ih =>
    refine h.worked_mono hf.shape hf.stages ?_
    rcases h.noted ho with ho | ho
    · exact ih ho
    · cases ho with
      | publishAck _ _ _ hh =>
        have hha := hf.stages.hand
        rw [hh] at hha
        exact hha.1
      | missed _ _ _ _ _ _ _ _ _ _ ho => simp at ho

end SimCore.Protocol
