import SimCore.Config.Scenario

/-!
# Scaling policies

Which changes an optimizer may make to a service. Without a policy every service but a database may
be scaled in all dimensions.

## Main definitions

* `BatchScalingAction`: the changes that optimizers make
* `serviceAllowsBatchScalingAction`: the changes that a service allows
-/

namespace SimCore.Config

/-- The changes that optimizers make. -/
inductive BatchScalingAction where
  | unspecified
  | serviceScaleOut
  | serviceScaleIn
  | serviceScaleUpCPU
  | serviceScaleDownCPU
  | serviceScaleUpMemory
  | serviceScaleDownMemory
  | hostScaleOut
  | hostScaleIn
  | hostScaleUpCPU
  | hostScaleDownCPU
  | hostScaleUpMemory
  | hostScaleDownMemory
  | queueScaleUpConcurrency
  | queueScaleDownConcurrency
  | topicSubscriberScaleUpConcurrency
  | topicSubscriberScaleDownConcurrency
deriving DecidableEq

/-- Whether kind and policy of a service allow a change. -/
def serviceAllowsBatchScalingAction (svc : Service) (act : BatchScalingAction) : Bool :=
  match svc.scaling with
  | none => !equalFold (trimSpace svc.kind) "database"
  | some p =>
    match act with
    | .serviceScaleOut | .serviceScaleIn => p.horizontal
    | .serviceScaleUpCPU | .serviceScaleDownCPU => p.verticalCPU
    | .serviceScaleUpMemory | .serviceScaleDownMemory => p.verticalMemory
    | _ => true

end SimCore.Config
