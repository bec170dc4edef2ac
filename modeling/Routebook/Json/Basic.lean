/-!
# Json

A value of the data format. An object is the list of its fields as they are written, repeated names
included; **what a repeated name means is decided by whoever reads the object.** A number is its
text, because nothing here calculates with it.
-/

namespace Routebook

inductive Json where
  | null
  | bool (value : Bool)
  | number (text : String)
  | string (value : String)
  | array (items : List Json)
  | object (fields : List (String × Json))
  deriving Inhabited

namespace Json

def string? : Json → Option String
  | string s => some s
  | _ => none

def bool? : Json → Option Bool
  | bool b => some b
  | _ => none

def items? : Json → Option (List Json)
  | array xs => some xs
  | _ => none

def fields? : Json → Option (List (String × Json))
  | object fs => some fs
  | _ => none

/-- The last field of a name. -/
def field? (j : Json) (name : String) : Option Json :=
  match j with
  | object fs => fs.reverse.lookup name
  | _ => none

mutual
def depth : Json → Nat
  | array xs => depthOfItems xs + 1
  | object fs => depthOfFields fs + 1
  | _ => 0
def depthOfItems : List Json → Nat
  | [] => 0
  | x :: xs => max (depth x) (depthOfItems xs)
def depthOfFields : List (String × Json) → Nat
  | [] => 0
  | (_, x) :: fs => max (depth x) (depthOfFields fs)
end

end Json

end Routebook
