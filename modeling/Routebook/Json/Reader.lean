import Routebook.Json.Token

/-!
# Reading Json

A text is read as tokens, and the tokens as one value that leaves none over. **Arrays and objects
nest at most 127 deep;** a text that nests deeper is refused like any other that is malformed.
-/

namespace Routebook.Json

/-- The deepest nesting that is read. -/
def depthLimit : Nat := 127

mutual
/-- A value at the start of some tokens. Every call uses up a token or enters a list whose opening
mark was one, so twice the number of tokens is fuel enough. -/
def readValue? : Nat → List Token → Option (Json × List Token)
  | 0, _ => none
  | _, [] => none
  | n + 1, t :: ts =>
    match t with
    | .null => some (.null, ts)
    | .bool b => some (.bool b, ts)
    | .number x => some (.number x, ts)
    | .string s => some (.string s, ts)
    | .openArray =>
      match ts with
      | .closeArray :: rest => some (.array [], rest)
      | _ => (readItems? n ts).map fun (xs, rest) => (.array xs, rest)
    | .openObject =>
      match ts with
      | .closeObject :: rest => some (.object [], rest)
      | _ => (readFields? n ts).map fun (fs, rest) => (.object fs, rest)
    | _ => none
/-- The items of an array, at least one, up to its closing mark. -/
def readItems? : Nat → List Token → Option (List Json × List Token)
  | 0, _ => none
  | n + 1, ts =>
    match readValue? n ts with
    | none => none
    | some (x, .closeArray :: rest) => some ([x], rest)
    | some (x, .comma :: rest) => (readItems? n rest).map fun (xs, r) => (x :: xs, r)
    | some _ => none
/-- The fields of an object, at least one, up to its closing mark. -/
def readFields? : Nat → List Token → Option (List (String × Json) × List Token)
  | 0, _ => none
  | n + 1, ts =>
    match ts with
    | .string k :: .colon :: rest =>
      match readValue? n rest with
      | none => none
      | some (x, .closeObject :: rest) => some ([(k, x)], rest)
      | some (x, .comma :: rest) => (readFields? n rest).map fun (fs, r) => ((k, x) :: fs, r)
      | some _ => none
    | _ => none
end

def ofTokens? (ts : List Token) : Option Json :=
  match readValue? (2 * ts.length + 1) ts with
  | some (j, []) => if j.depth ≤ depthLimit then some j else none
  | _ => none

def read? (text : String) : Option Json := do
  ofTokens? (← readTokens? text.toList)

end Routebook.Json
