/-!
# Methods

The seven methods a route can answer. Route tables and path items write them in lower case,
summaries in upper case.
-/

namespace Routebook

inductive Method where
  | get | post | put | delete | patch | options | head
  deriving Repr, DecidableEq, Inhabited

namespace Method

/-- All methods, in the order of a path item's fields. -/
def all : List Method := [get, post, put, delete, patch, options, head]

theorem mem_all (m : Method) : m ∈ all := by cases m <;> decide

/-- The name in lower case, which is also the field of a path item. -/
def lower : Method → String
  | get => "get"
  | post => "post"
  | put => "put"
  | delete => "delete"
  | patch => "patch"
  | options => "options"
  | head => "head"

def upper : Method → String
  | get => "GET"
  | post => "POST"
  | put => "PUT"
  | delete => "DELETE"
  | patch => "PATCH"
  | options => "OPTIONS"
  | head => "HEAD"

/-- The method of exactly this lower-case name. -/
def ofLower? (name : String) : Option Method := all.find? fun m => m.lower == name

/-- The method of a name in any case. -/
def ofName? (name : String) : Option Method :=
  ofLower? (String.ofList (name.toList.map Char.toLower))

/-- The method of a key of a route table: `$` and a name. -/
def ofVerbKey? (key : String) : Option Method :=
  match key.toList with
  | '$' :: cs => ofName? (String.ofList cs)
  | _ => none

theorem ofLower?_lower (m : Method) : ofLower? m.lower = some m := by cases m <;> decide

theorem lower_inj {a b : Method} (h : a.lower = b.lower) : a = b := by
  have := congrArg ofLower? h
  simpa [ofLower?_lower] using this

end Method

end Routebook
