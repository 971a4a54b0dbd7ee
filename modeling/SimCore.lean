import SimCore.Results.Attempts
import SimCore.Results.Starts
import SimCore.Results.Placement
import SimCore.Results.Routing
import SimCore.Results.Memory
import SimCore.Results.Clock
import SimCore.Results.Updates
import SimCore.Results.UniformCount
import SimCore.Results.Reproducibility
import SimCore.Results.Candidates
import SimCore.Results.StatusPath
import SimCore.Results.Orphans
import SimCore.Results.Completion
import SimCore.Results.Guardrails
import SimCore.Results.OnlineCap
import SimCore.Results.Targets
import SimCore.Results.Preflight
import SimCore.Results.HostOrder
import SimCore.Results.Capacity
import SimCore.Results.Feasibility
import SimCore.Results.Moves
import SimCore.Results.Runnable
import SimCore.Results.HillClimbing
import SimCore.Results.Shards
import SimCore.Results.Wheel
import SimCore.Results.Schedules
import SimCore.Results.EventOrder
import SimCore.Policy.RateLimiting
import SimCore.Results.Records
import SimCore.Improvement.Selection
import SimCore.Improvement.Trend
import SimCore.Metrics.Collector
import SimCore.Metrics.Percentile
