import TierCache.Time.Span
/-!
What can go wrong in the cache and its warming engine, as causes; the wording of each is in
`CacheError.message`.
-/

namespace TierCache

/-- A failure of the cache, its tiers, its codec or its warming engine. -/
inductive CacheError where
  | config (detail : String)
  | io (detail : String)
  | serialization (detail : String)
  | yaml (detail : String)
  | compressionFailed (algorithm reason : String)
  | decompressionFailed (algorithm reason : String)
  | invalidFrame (detail : String)
  | backend (detail : String)
  | redis (detail : String)
  | timeout (operation : String) (limit : Span)
  | circuitOpen
  | warming (pattern reason : String)
  | dataSource (detail : String)
  | training (detail : String)
  | metrics (detail : String)
  | internal (detail : String)
  deriving Repr, Inhabited

namespace CacheError

/-- The text of an error. -/
def message : CacheError → String
  | config d => "Configuration error: " ++ d
  | io d => "I/O error: " ++ d
  | serialization d => "Serialization error: " ++ d
  | yaml d => "YAML parse error: " ++ d
  | compressionFailed a r => "Compression with " ++ a ++ " failed: " ++ r
  | decompressionFailed a r => "Decompression with " ++ a ++ " failed: " ++ r
  | invalidFrame d => "Invalid cache frame: " ++ d
  | backend d => "Distributed backend error: " ++ d
  | redis d => "Redis error: " ++ d
  | timeout op limit => "Distributed operation '" ++ op ++ "' timed out after " ++ limit.debug
  | circuitOpen => "Circuit breaker is open"
  | warming p r => "Warming rule '" ++ p ++ "' failed: " ++ r
  | dataSource d => "Data source error: " ++ d
  | training d => "Predictor training failed: " ++ d
  | metrics d => "Metrics error: " ++ d
  | internal d => "Internal error: " ++ d

/-- Whether the error means the distributed tier was unreachable or unhealthy; only these count
against the circuit breaker. -/
def isTransient : CacheError → Bool
  | backend _ | timeout _ _ | io _ => true
  | _ => false

end CacheError
end TierCache
