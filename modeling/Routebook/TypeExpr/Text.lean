import Routebook.Number.Text
import Routebook.Text.Quoted
import Routebook.TypeExpr.Basic

/-!
# The text of a type

One line that reads as the type it shows. Only an array of a union or an intersection needs
parentheses; strings and property names are always quoted.
-/

namespace Routebook

def Keyword.text : Keyword → String
  | .any => "any"
  | .unknown => "unknown"
  | .never => "never"
  | .void => "void"
  | .null => "null"
  | .undefined => "undefined"
  | .string => "string"
  | .number => "number"
  | .boolean => "boolean"
  | .bigint => "bigint"
  | .symbol => "symbol"
  | .object => "object"

def Literal.text : Literal → String
  | .string s => Text.quote s
  | .number n => n.plain
  | .boolean true => "true"
  | .boolean false => "false"

namespace TypeExpr

variable {σ : Type}

/-- Arguments in angle brackets, or nothing. -/
def argsText : List String → String
  | [] => ""
  | as => "<" ++ ", ".intercalate as ++ ">"

def needsParens : TypeExpr σ → Bool
  | union _ | intersection _ => true
  | _ => false

mutual
def text : TypeExpr σ → String
  | keyword k => k.text
  | literal l => l.text
  | array t => if needsParens t then "(" ++ text t ++ ")[]" else text t ++ "[]"
  | tuple ts => "[" ++ ", ".intercalate (texts ts) ++ "]"
  | object [] => "\x7b\x7d"
  | object (m :: ms) => "\x7b " ++ String.join (memberTexts (m :: ms)) ++ "\x7d"
  | union ts => " | ".intercalate (texts ts)
  | intersection ts => " & ".intercalate (texts ts)
  | reference n as _ => n ++ argsText (texts as)
  | imported sp none as _ => "import(" ++ Text.quote sp ++ ")" ++ argsText (texts as)
  | imported sp (some q) as _ => "import(" ++ Text.quote sp ++ ")." ++ q ++ argsText (texts as)
  | query n _ => "typeof " ++ n
  | other s => s
def texts : List (TypeExpr σ) → List String
  | [] => []
  | t :: ts => text t :: texts ts
def memberTexts : List (Member (TypeExpr σ)) → List String
  | [] => []
  | ⟨n, o, t⟩ :: ms =>
    (Text.quote n ++ (if o then "?: " else ": ") ++ text t ++ "; ") :: memberTexts ms
end

end TypeExpr

end Routebook
