import TierCache.Error
/-!
How a write travels between the memory tier and the distributed tier.
-/

namespace TierCache

/-- The order in which a write reaches the two tiers. -/
inductive WriteStrategy where
  /-- Memory first, then the distributed tier; reports whether the distributed write worked. -/
  | cacheAside
  /-- The distributed tier first, then memory whatever happened. -/
  | writeThrough
  /-- Memory now, the distributed tier in the background. -/
  | writeBehind
  deriving Repr, DecidableEq, Inhabited

namespace WriteStrategy

/-- The stable name, also the text form. -/
def name : WriteStrategy → String
  | cacheAside => "cache_aside"
  | writeThrough => "write_through"
  | writeBehind => "write_behind"

/-- Reads a strategy name: ASCII letters in any case, `-` for `_`. -/
def parse (s : String) : Except CacheError WriteStrategy :=
  let norm := String.ofList (s.toList.map fun c => if c == '-' then '_' else c.toLower)
  match norm with
  | "cache_aside" => .ok cacheAside
  | "write_through" => .ok writeThrough
  | "write_behind" => .ok writeBehind
  | other => .error (.config ("unknown write strategy '" ++ other ++ "'"))

end WriteStrategy
end TierCache
