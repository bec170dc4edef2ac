import Routebook.TypeExpr.Basic

/-!
# The syntax tree of a source file

The tree keeps what can be asked of a file and no more. Expressions keep calls, member accesses,
literals and object literals; **every other form keeps only its parts, in the order they are
written** (`Expr.other`), so that no call is lost. Statements keep what they declare, import and
export, next to the expressions they hold.

Parentheses, casts and assertions do not change what an expression is for a reader of routes:
`Expr.inner` sees through them.
-/

namespace Routebook.Source

/-- A property of an object literal: its name when the text fixes it, the expression in brackets
that computes it, and its value. A spread has no name. -/
structure Property (ε : Type) where
  name : Option String
  computed : List ε
  value : ε

structure Argument (ε : Type) where
  start : Nat
  spread : Bool
  value : ε

inductive Expr where
  | name (text : String)
  | string (value : String)
  | number (value : Number)
  | boolean (value : Bool)
  /-- The pieces of text, and between them the substitutions with their source text. -/
  | template (quasis : List String) (substitutions : List (String × Expr))
  | array (elements : List Expr)
  | object (properties : List (Property Expr))
  | member (object : Expr) (property : String)
  /-- What a computed key or a private name picks out of an object. -/
  | element (object : Expr) (key : List Expr)
  | call (callee : Expr) (args : List (Argument Expr))
  | construct (callee : Expr) (args : List (Argument Expr))
  /-- An expression in parentheses, a cast or an assertion, or with type arguments; before and after
  it stands what the types there compute. -/
  | wrapped (before : List Expr) (inner : Expr) (after : List Expr)
  | other (parts : List Expr)
  deriving Inhabited

namespace Expr

/-- The expression inside parentheses, casts and assertions. -/
def inner : Expr → Expr
  | wrapped _ e _ => inner e
  | e => e

/-- The dotted name of an identifier or of a chain of member accesses. -/
def dottedName? : Expr → Option String
  | name n => some n
  | wrapped _ e _ => dottedName? e
  | member e p => (dottedName? e).map fun n => n ++ "." ++ p
  | _ => none

/-- The text of a string, or of a template without substitutions. -/
def text? : Expr → Option String
  | string s => some s
  | template [s] [] => some s
  | wrapped _ e _ => text? e
  | _ => none

end Expr

structure Call where
  callee : Expr
  args : List (Argument Expr)

mutual
/-- The calls in an expression, an outer call before the calls in its callee and arguments. -/
def Expr.calls : Expr → List Call
  | .name _ | .string _ | .number _ | .boolean _ => []
  | .template _ ss => substitutionCalls ss
  | .array es => callsOfAll es
  | .object ps => propertyCalls ps
  | .member e _ => e.calls
  | .element e key => e.calls ++ callsOfAll key
  | .call f as => ⟨f, as⟩ :: (f.calls ++ argumentCalls as)
  | .construct f as => f.calls ++ argumentCalls as
  | .wrapped before e after => callsOfAll before ++ e.calls ++ callsOfAll after
  | .other es => callsOfAll es
def callsOfAll : List Expr → List Call
  | [] => []
  | e :: es => e.calls ++ callsOfAll es
def substitutionCalls : List (String × Expr) → List Call
  | [] => []
  | (_, e) :: ss => e.calls ++ substitutionCalls ss
def propertyCalls : List (Property Expr) → List Call
  | [] => []
  | ⟨_, computed, value⟩ :: ps => callsOfAll computed ++ value.calls ++ propertyCalls ps
def argumentCalls : List (Argument Expr) → List Call
  | [] => []
  | ⟨_, _, value⟩ :: as => value.calls ++ argumentCalls as
end

/-- One variable of a declaration. A pattern in place of a name declares no single variable. -/
structure Declarator where
  name : Option String
  declaredType : Option (TypeExpr Unit)
  value : Option Expr

/-- What a declaration says of the name it declares. -/
inductive Declared where
  | typeAlias (name : String) (params : List (TypeParameter Unit)) (body : TypeExpr Unit)
  | interface (name : String) (params : List (TypeParameter Unit)) (parents : List (TypeExpr Unit))
      (members : List (Member (TypeExpr Unit)))
  | classType (name : String)
  /-- The members of an enumeration, each with the literal it is set to, if it is one. -/
  | enumeration (name : String) (values : List (Option Literal))
  | variables (declarators : List Declarator)

/-- What a statement means to the other statements and to other files. -/
inductive Meaning where
  | declares (exported : Bool) (declared : Declared)
  /-- Local names with the name each is imported by; a whole namespace has none. -/
  | imports (specifier : String) (names : List (String × Option String))
  /-- Local names with the name each is exported by, from another file where one is given. -/
  | exports (specifier : Option String) (names : List (String × String))
  | nothing

structure Statement where
  meaning : Meaning
  parts : List Expr

structure Program where
  statements : List Statement
  /-- Whether the file only declares what is defined elsewhere. -/
  definition : Bool

def Program.calls (p : Program) : List Call :=
  p.statements.flatMap fun s => callsOfAll s.parts

end Routebook.Source
