/-!
# Health reports

A health report gathers named checks, each healthy, degraded or unhealthy, and is as bad as its
worst check: losing the distributed tier degrades the service but never makes it unhealthy,
since the memory tier keeps serving.
-/

namespace TierCache

/-- How well one part of the service is doing. -/
inductive HealthStatus where
  | healthy
  /-- Serving, with the cache less effective. -/
  | degraded
  | unhealthy
  deriving Repr, DecidableEq, Inhabited

namespace HealthStatus

/-- The names of the statuses, best first. -/
def names : List String := ["Healthy", "Degraded", "Unhealthy"]

/-- The status of a name. -/
def ofName? : String → Option HealthStatus
  | "Healthy" => some .healthy
  | "Degraded" => some .degraded
  | "Unhealthy" => some .unhealthy
  | _ => none

def name : HealthStatus → String
  | .healthy => "Healthy"
  | .degraded => "Degraded"
  | .unhealthy => "Unhealthy"

/-- How bad a status is: the worse, the larger. -/
def severity : HealthStatus → Nat
  | .healthy => 0
  | .degraded => 1
  | .unhealthy => 2

/-- Healthy or degraded: the service answers. -/
def isOperational (s : HealthStatus) : Bool := s != .unhealthy

def isHealthy (s : HealthStatus) : Bool := s == .healthy

/-- The worse of two statuses. -/
def worse (a b : HealthStatus) : HealthStatus := if b.severity ≥ a.severity then b else a

end HealthStatus

/-- The outcome of one check. -/
structure HealthCheck where
  name : String
  status : HealthStatus
  message : Option String := none
  deriving Repr, Inhabited

/-- The service's version as reports give it. -/
def serviceVersion : String := "0.1.0"

/-- The body of a health answer: the worst status, the checks, the version and the uptime. -/
structure HealthReport where
  status : HealthStatus
  checks : List HealthCheck
  version : String := serviceVersion
  uptimeSeconds : Nat
  deriving Repr, Inhabited

namespace HealthReport

/-- The report of `checks`; with no check at all the service is healthy. -/
def ofChecks (checks : List HealthCheck) (uptimeSeconds : Nat) : HealthReport :=
  { status := checks.foldl (fun s c => s.worse c.status) .healthy, checks, uptimeSeconds }

end HealthReport

/-- A check that passes when `flag` is set: liveness and readiness are such checks. -/
def HealthCheck.ofFlag (name : String) (flag : Bool) (failure : String) : HealthCheck :=
  if flag then { name, status := .healthy } else { name, status := .unhealthy, message := some failure }

end TierCache
