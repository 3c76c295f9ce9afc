/-!
JSON values as the cache stores them. A number is an unsigned integer below `2^64`, a negative
integer not below `-2^63`, or a finite double; object members are kept sorted by key, one member
per key, so that every object has one written form.
-/

namespace TierCache

/-- A JSON number in one of its three kinds. -/
inductive JsonNumber where
  /-- An integer in `[0, 2^64)`. -/
  | nat (n : Nat)
  /-- An integer in `[-2^63, 0)`. -/
  | neg (n : Int)
  /-- A finite double. -/
  | float (f : Float)
  deriving Inhabited

/-- A JSON value. -/
inductive Json where
  | null
  | bool (b : Bool)
  | num (n : JsonNumber)
  | str (s : String)
  | arr (items : List Json)
  /-- Members sorted by key, at most one per key. -/
  | obj (members : List (String × Json))
  deriving Inhabited

namespace Json

/-- Puts `key ↦ v` into sorted members, replacing an earlier value of the key. -/
def insertMember (key : String) (v : Json) : List (String × Json) → List (String × Json)
  | [] => [(key, v)]
  | (k, w) :: rest =>
    if key < k then (key, v) :: (k, w) :: rest
    else if key == k then (key, v) :: rest
    else (k, w) :: insertMember key v rest

/-- An object from members in any order; a later member wins over an earlier one of its key. -/
def ofMembers (ms : List (String × Json)) : Json :=
  .obj (ms.foldl (fun acc (k, v) => insertMember k v acc) [])

/-- The value of a member. -/
def field? : Json → String → Option Json
  | .obj ms, k => ms.lookup k
  | _, _ => none

/-- The value of a member, with `null` read as absent. -/
def get? (j : Json) (k : String) : Option Json :=
  match j.field? k with
  | some .null => none
  | other => other

/-- A natural number below `2^64`. -/
def ofNat (n : Nat) : Json := .num (.nat n)

/-- An integer; negative ones are the signed kind. -/
def ofInt (n : Int) : Json := if n < 0 then .num (.neg n) else .num (.nat n.toNat)

/-- A double; JSON holds no NaN or infinity, which become `null`. -/
def ofFloat (f : Float) : Json := if f.isFinite then .num (.float f) else .null

/-- A string or `null`. -/
def ofOption (o : Option String) : Json := match o with
  | some s => .str s
  | none => .null

end Json
end TierCache
