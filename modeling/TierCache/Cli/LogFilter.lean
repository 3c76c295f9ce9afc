/-!
# Which log lines are written

Every log line has a level, a target (the part of the program that writes it) and fields. A
filter is a list of directives, each naming an optional target, optional field names and the
most verbose level it lets through; `off` lets nothing through. The directive that decides for
a line is the most specific one that applies to it: a directive applies when its target starts
the line's target and the line has all its field names, and one directive is more specific than
another when its target is longer (having one at all beats having none), then when it names more
fields.

The filter starts with the directives of `RUST_LOG`, comma-separated: a bare level (`info`,
`WARN`, `3`), `target=level`, `target` alone for every level, or a span part in brackets. A
directive that cannot be read is skipped with a warning on standard error. Directives with a span
name, or with field values, only act inside spans and never decide a line written outside one.
Then the level of `--log-level` (case-insensitive; anything unknown is `info`) replaces any bare
level, and `hyper=warn` and `redis=info` are added. A directive for a target and fields already
present replaces it.
-/

namespace TierCache

/-- The level of a log line, from the most to the least severe. -/
inductive Level where
  | error
  | warn
  | info
  | debug
  | trace
  deriving Repr, DecidableEq, Inhabited

namespace Level

/-- The place of a level, one for the most severe; a filter lets a line through when its own
number is at least the line's. -/
def rank : Level → Nat
  | error => 1
  | warn => 2
  | info => 3
  | debug => 4
  | trace => 5

/-- The name of a level in capitals. -/
def name : Level → String
  | error => "ERROR"
  | warn => "WARN"
  | info => "INFO"
  | debug => "DEBUG"
  | trace => "TRACE"

/-- The level `--log-level` names, ignoring case; `info` for anything else. -/
def ofOption (s : String) : Level :=
  match s.toLower with
  | "trace" => trace
  | "debug" => debug
  | "warn" => warn
  | "error" => error
  | _ => info

end Level

/-- A directive that decides for lines outside spans. -/
structure Directive where
  target : Option String
  fields : List String
  /-- The most verbose level let through: 0 for none, else a level's rank. -/
  limit : Nat
  deriving Repr, DecidableEq, Inhabited

namespace Directive

/-- Whether a directive applies to a line with a target and field names. -/
def applies (d : Directive) (target : String) (fields : List String) : Bool :=
  (d.target.map (target.startsWith ·)).getD true && d.fields.all (fields.contains ·)

/-- Whether `a` is strictly more specific than `b`. -/
def moreSpecific (a b : Directive) : Bool :=
  let len := fun (d : Directive) => d.target.map (·.length + 1) |>.getD 0
  len a > len b || (len a == len b && a.fields.length > b.fields.length)

end Directive

/-- The number of a level filter written as a name, ignoring case, or as a digit from 0 to 5. -/
def levelFilter? (s : String) : Option Nat :=
  match s.toLower with
  | "off" => some 0
  | "error" => some 1
  | "warn" => some 2
  | "info" => some 3
  | "debug" => some 4
  | "trace" => some 5
  | t =>
    match t.toList with
    | [c] => if '0' ≤ c && c ≤ '5' then some (c.toNat - '0'.toNat) else none
    | _ => none

/-- The number of a level filter written as a target would be: also any run of digits whose value
is at most 5. -/
def targetLevel? (s : String) : Option Nat :=
  match levelFilter? s with
  | some n => some n
  | none =>
    if !s.isEmpty && s.all Char.isDigit && s.toNat! ≤ 5 then some s.toNat! else none

/-- A character of a target: a letter, digit or underscore (any character past ASCII counting as
a letter), `:` or `-`. -/
def isTargetChar (c : Char) : Bool :=
  c.isAlphanum || c == '_' || c == ':' || c == '-' || c.toNat > 127

/-- What one directive of `RUST_LOG` says: `none` when it cannot be read; otherwise the directive
that decides lines outside spans, if it is one. -/
def readDirective (s : String) : Option (Option Directive) :=
  match levelFilter? s with
  | some n => some (some { target := none, fields := [], limit := n })
  | none =>
    -- up to two parts, each a target or a bracketed span, then optionally `=` and a level
    let part := fun (cs : List Char) =>
      match cs with
      | '[' :: rest =>
        match rest.span (· != ']') with
        | (inner, _ :: after) => some (Sum.inr (String.ofList inner), after)
        | _ => none
      | _ =>
        let (t, after) := cs.span isTargetChar
        if t.isEmpty then none else some (Sum.inl (String.ofList t), after)
    let cs := s.toList
    match part cs with
    | none => none
    | some (p1, after1) =>
      let (parts, rest) := match part after1 with
        | some (p2, after2) => ([p1, p2], after2)
        | none => ([p1], after1)
      let limit : Option Nat := match rest with
        | [] => some 5
        | ['='] => some 5
        | '=' :: lv => levelFilter? (String.ofList lv)
        | _ => none
      match limit with
      | none => none
      | some limit =>
        let target := parts.foldl (fun t p => match p with | .inl x => some x | .inr _ => t) none
        let target := target.bind fun t => if (targetLevel? t).isSome then none else some t
        let span := parts.foldl (fun t p => match p with | .inl _ => t | .inr x => some x) none
        match span with
        | none => some (some { target, fields := [], limit })
        | some inner =>
          let inner := String.ofList ((inner.toList.dropWhile (· == '[')).reverse.dropWhile (· == ']')).reverse
          let name := inner.toList.takeWhile fun c => c != ']' && c != '{'
          let fields := match inner.toList.drop name.length with
            | '{' :: more =>
              if more.contains '}' then String.ofList (more.takeWhile (· != '}')) else ""
            | _ => ""
          let names := (fields.splitOn ",").filter (· != "")
          let valued := names.any (·.contains '=')
          if !name.isEmpty || valued then some none
          else some (some { target, fields := names, limit })

/-- Adds a directive, replacing one for the same target and fields. -/
def addDirective (ds : List Directive) (d : Directive) : List Directive :=
  if ds.any fun e => e.target == d.target && e.fields == d.fields then
    ds.map fun e => if e.target == d.target && e.fields == d.fields then d else e
  else ds ++ [d]

/-- A filter, and the warnings reading it gave. -/
structure LogFilter where
  directives : List Directive
  warnings : List String
  deriving Repr, Inhabited

namespace LogFilter

/-- The filter of `--log-level` and `RUST_LOG`. -/
def create (level : String) (rustLog : Option String) : LogFilter :=
  let items := ((rustLog.getD "").splitOn ",").filter (· != "")
  let (ds, warnings) := items.foldl (fun (ds, ws) item =>
      match readDirective item with
      | none => (ds, ws ++ ["ignoring `" ++ item ++ "`: invalid filter directive"])
      | some none => (ds, ws)
      | some (some d) => (addDirective ds d, ws)) ([], [])
  let ds := addDirective ds { target := none, fields := [], limit := (Level.ofOption level).rank }
  let ds := addDirective ds { target := some "hyper", fields := [], limit := 2 }
  let ds := addDirective ds { target := some "redis", fields := [], limit := 3 }
  { directives := ds, warnings }

/-- Whether a line of a level, target and field names is written. -/
def allows (f : LogFilter) (level : Level) (target : String) (fields : List String) : Bool :=
  let best := f.directives.foldl (fun (best : Option Directive) d =>
      if !d.applies target fields then best
      else match best with
        | some b => if d.moreSpecific b then some d else best
        | none => some d) none
  match best with
  | some d => d.limit ≥ level.rank
  | none => false

end LogFilter

end TierCache
