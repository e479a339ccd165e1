/-!
JSON values.

An integer that fits in 64 bits, signed or unsigned, stays an integer; every other number is a
floating-point number. The members of an object keep their order, and a name may occur twice.
-/

namespace SnippetAudit

/-- JSON values. -/
inductive Json where
  | null
  | bool (b : Bool)
  | int (n : Int)
  | float (x : Float)
  | string (s : String)
  | array (items : List Json)
  | object (members : List (String × Json))
  deriving Inhabited

namespace Json

/-- The last of the members with a given name. -/
def lastOf (name : String) : List (String × Json) → Option Json
  | [] => none
  | (n, v) :: rest => (lastOf name rest).or (if n == name then some v else none)

/-- The value of a member of an object; the last one of that name counts. -/
def member? (name : String) : Json → Option Json
  | object members => lastOf name members
  | _ => none

/-- Members of which no later one has the same name. -/
def withoutEarlier : List (String × Json) → List (String × Json)
  | [] => []
  | (n, v) :: rest =>
    if rest.any (·.1 == n) then withoutEarlier rest else (n, v) :: withoutEarlier rest

mutual

/-- The same value with one member for each name of an object, the last one. -/
def settled : Json → Json
  | array items => array (settledItems items)
  | object members => object (withoutEarlier (settledMembers members))
  | other => other

/-- Items, each settled. -/
def settledItems : List Json → List Json
  | [] => []
  | j :: rest => settled j :: settledItems rest

/-- Members, each settled. -/
def settledMembers : List (String × Json) → List (String × Json)
  | [] => []
  | (n, v) :: rest => (n, settled v) :: settledMembers rest

end

end Json

end SnippetAudit
