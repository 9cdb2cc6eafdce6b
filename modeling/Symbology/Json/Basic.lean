/-!
JSON values. Whole numbers of up to 64 bits keep their exact value and every other number is a
double. Objects are read with their members sorted by key.
-/

namespace Symbology

inductive Json.Number where
  | int (n : Int)
  | double (x : Float)
  deriving DecidableEq, Repr

inductive Json where
  | null
  | bool (b : Bool)
  | num (n : Json.Number)
  | str (s : String)
  | arr (items : List Json)
  | obj (members : List (String × Json))
  deriving Repr, Inhabited

namespace Json

def Number.toDouble : Number → Float
  | .int n => Float.ofInt n
  | .double x => x

/-- A whole number and a double are never the same, even when they are equal as doubles. -/
def Number.same : Number → Number → Bool
  | .int m, .int n => m = n
  | .double x, .double y => x == y
  | _, _ => false

def asDouble? : Json → Option Float
  | .num n => some n.toDouble
  | _ => none

def asText? : Json → Option String
  | .str s => some s
  | _ => none

mutual

def same : Json → Json → Bool
  | .null, .null => true
  | .bool a, .bool b => a = b
  | .num a, .num b => a.same b
  | .str a, .str b => a = b
  | .arr a, .arr b => sameItems a b
  | .obj a, .obj b => sameMembers a b
  | _, _ => false

def sameItems : List Json → List Json → Bool
  | [], [] => true
  | a :: as, b :: bs => same a b && sameItems as bs
  | _, _ => false

def sameMembers : List (String × Json) → List (String × Json) → Bool
  | [], [] => true
  | (k, a) :: as, (l, b) :: bs => k = l && same a b && sameMembers as bs
  | _, _ => false

end

def insertMember (key : String) (value : Json) : List (String × Json) → List (String × Json)
  | [] => [(key, value)]
  | (k, v) :: rest =>
      if key = k then (key, value) :: rest
      else if key < k then (key, value) :: (k, v) :: rest
      else (k, v) :: insertMember key value rest

end Json
end Symbology
