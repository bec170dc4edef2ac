import Routebook.Yaml.Token

/-!
# Reading Yaml

A text holds one document, and the document one node: a scalar, a sequence or a mapping, with its
tag if it has one. A key can be any node. **An alias is the node that its anchor was put on,** so it
can only stand after it.
-/

namespace Routebook.Yaml

inductive Node where
  | scalar (tag : Option String) (plain : Bool) (text : String)
  | sequence (tag : Option String) (items : List Node)
  | mapping (tag : Option String) (fields : List (Node × Node))
  deriving Inhabited

namespace Node

/-- What stands where nothing is written. -/
def empty : Node := scalar none true ""

structure ReadState where
  rest : List Token
  anchors : List (String × Node)
  /-- What the handles of tags mean. -/
  handles : List (String × String)

abbrev Read := StateT ReadState Option

def refuse {α : Type} : Read α := fun _ => none

def peek : Read (Option Token) := return (← get).rest.head?

def advance : Read Unit := modify fun s => { s with rest := s.rest.tail }

def eat (t : Token) : Read Bool := do
  if (← peek) == some t then advance; return true
  else return false

/-- Whether the next token is one of these, or there is none. -/
def isAt (ts : List Token) : Read Bool := return (← peek).all ts.contains

/-- The anchor and the tag before a node, in either order. -/
def properties : Nat → Option String → Option String → Read (Option String × Option String)
  | 0, anchor, tag => return (anchor, tag)
  | n + 1, anchor, tag => do
    match ← peek with
    | some (.anchor name) =>
      if anchor.isSome then return (anchor, tag)
      advance
      properties n (some name) tag
    | some (.tag handle rest) =>
      if tag.isSome then return (anchor, tag)
      advance
      if handle == "" then properties n anchor (some rest)
      else match (← get).handles.lookup handle with
        | some meaning => properties n anchor (some (meaning ++ rest))
        | none => refuse
    | _ => return (anchor, tag)

/-- Whether a node stands where one can be left out: before one of these tokens it has been. -/
def orEmpty (ends : List Token) (node : Read Node) : Read Node := do
  if ← isAt ends then return empty else node

mutual
/-- A node. Outside of brackets it can be a block; a list that is a field's value need not be
deeper than the field. Every call reads a token or is made by one that did. -/
def node : Nat → (block shallow : Bool) → Read Node
  | 0, _, _ => refuse
  | n + 1, block, shallow => do
    match ← peek with
    | some (.alias name) =>
      advance
      match (← get).anchors.lookup name with
      | some x => return x
      | none => refuse
    | _ =>
      let (anchor, tag) ← properties 2 none none
      let x ← content n block shallow (anchor.isSome || tag.isSome) tag
      match anchor with
      | some name => modify fun s => { s with anchors := (name, x) :: s.anchors }
      | none => pure ()
      return x
def content : Nat → (block shallow named : Bool) → Option String → Read Node
  | 0, _, _, _, _ => refuse
  | n + 1, block, shallow, named, tag => do
    match ← peek with
    | some (.scalar plain text) => advance; return .scalar tag plain text
    | some .openFlowList => advance; return .sequence tag (← flowItems n true)
    | some .openFlowFields => advance; return .mapping tag (← flowFields n true)
    | some .item => if shallow then return .sequence tag (← shallowItems n) else missing named tag
    | some .openList =>
      if block then advance; return .sequence tag (← blockItems n) else missing named tag
    | some .openFields =>
      if block then advance; return .mapping tag (← blockFields n) else missing named tag
    | _ => missing named tag
/-- A node of which only the anchor or the tag is written. -/
def missing (named : Bool) (tag : Option String) : Read Node :=
  if named then return .scalar tag true "" else refuse
def blockItems : Nat → Read (List Node)
  | 0 => refuse
  | n + 1 => do
    if ← eat .item then
      let x ← orEmpty [.item, .closeBlock] (node n true false)
      return x :: (← blockItems n)
    else if ← eat .closeBlock then return []
    else refuse
/-- Items that are not deeper than what holds them. -/
def shallowItems : Nat → Read (List Node)
  | 0 => refuse
  | n + 1 => do
    if ← eat .item then
      let x ← orEmpty [.item, .key, .value, .closeBlock] (node n true false)
      return x :: (← shallowItems n)
    else return []
def blockFields : Nat → Read (List (Node × Node))
  | 0 => refuse
  | n + 1 => do
    if ← eat .key then
      let k ← orEmpty [.key, .value, .closeBlock] (node n true true)
      let x ← if ← eat .value then orEmpty [.key, .value, .closeBlock] (node n true true)
        else pure empty
      return (k, x) :: (← blockFields n)
    else if ← eat .closeBlock then return []
    else refuse
/-- Items between brackets. An item can be a single field. -/
def flowItems : Nat → Bool → Read (List Node)
  | 0, _ => refuse
  | n + 1, first => do
    if ← eat .closeFlowList then return []
    if !first then
      if !(← eat .comma) then refuse
    if ← eat .closeFlowList then return []
    let x ← if ← eat .key then
        let k ← orEmpty [.value, .comma, .closeFlowList] (node n false false)
        let v ← if ← eat .value then orEmpty [.comma, .closeFlowList] (node n false false)
          else pure empty
        pure (.mapping none [(k, v)])
      else node n false false
    return x :: (← flowItems n false)
def flowFields : Nat → Bool → Read (List (Node × Node))
  | 0, _ => refuse
  | n + 1, first => do
    if ← eat .closeFlowFields then return []
    if !first then
      if !(← eat .comma) then refuse
    if ← eat .closeFlowFields then return []
    if ← eat .key then
      let k ← orEmpty [.value, .comma, .closeFlowFields] (node n false false)
      let x ← if ← eat .value then orEmpty [.comma, .closeFlowFields] (node n false false)
        else pure empty
      return (k, x) :: (← flowFields n false)
    else
      let k ← node n false false
      return (k, empty) :: (← flowFields n false)
end

/-! ## Documents -/

/-- What the handles of tags mean if nothing else is said. -/
def defaultHandles : List (String × String) := [("!", "!"), ("!!", "tag:yaml.org,2002:")]

/-- The directives before a document: the version once, and each handle once. -/
def directives : Nat → Bool → List (String × String) → Read Bool
  | 0, _, _ => refuse
  | n + 1, versioned, handles => do
    match ← peek with
    | some (.version known) =>
      if versioned || !known then refuse
      advance
      directives n true handles
    | some (.tagHandle handle meaning) =>
      if (handles.lookup handle).isSome then refuse
      advance
      directives n versioned ((handle, meaning) :: handles)
    | _ =>
      modify fun s => { s with handles := handles ++ defaultHandles }
      return versioned || !handles.isEmpty

/-- The only document of a text. Nothing but marks of its end may follow it. -/
def document (fuel : Nat) : Read Node := do
  if (← peek).isNone then refuse
  let directed ← directives fuel false []
  let marked ← eat .documentStart
  if directed && !marked then refuse
  let root ← if marked then orEmpty [.documentStart, .documentEnd] (node fuel true false)
    else node fuel true false
  if (← get).rest.all (· == .documentEnd) then return root else refuse

/-- The node that a text holds. A byte order mark may stand before it. -/
def read? (text : String) : Option Node := do
  let mark := Char.ofNat 0xFEFF
  let unmarked (cs : List Char) : List Char := if cs.head? == some mark then cs.tail else cs
  let cs := unmarked (unmarked text.toList)
  if !cs.all isAllowed then none
  else
    let ts ← readTokens? cs
    let (root, _) ← (document (3 * ts.length + 3)).run ⟨ts, [], []⟩
    return root

end Node

end Routebook.Yaml
