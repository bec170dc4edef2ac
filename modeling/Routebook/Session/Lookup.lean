import Routebook.Session.Basic

/-!
# What a name stands for

A name is looked up in the module that uses it: among its declarations, then among the names it
exports under another name, then among its imports, which are followed into the files they come
from. A dotted name begins with a namespace that was imported whole. Imports are followed for a
limited number of steps.

A specifier names a file relative to the module's own, or through the session's aliases. It leaves
out extensions, so several files are tried; packages are never files.
-/

namespace Routebook

open Disk

/-! ## Aliases -/

def afterStart? : List Char → List Char → Option (List Char)
  | [], cs => some cs
  | p :: ps, c :: cs => if p = c then afterStart? ps cs else none
  | _ :: _, [] => none

def beforeEnd? (ending cs : List Char) : Option (List Char) :=
  (afterStart? ending.reverse cs.reverse).map List.reverse

/-- The text before and after the first occurrence of a character. -/
def splitAt? (c : Char) (cs : List Char) : Option (List Char × List Char) :=
  match cs.dropWhile (· != c) with
  | [] => none
  | _ :: after => some (cs.takeWhile (· != c), after)

/-- What the star of a pattern stands for in a specifier; nothing when it has no star. -/
def captured? (pattern specifier : String) : Option (List Char) :=
  match splitAt? '*' pattern.toList with
  | some (before, after) => (afterStart? before specifier.toList).bind (beforeEnd? after)
  | none => if pattern = specifier then some [] else none

/-- A target with its first star replaced. -/
def fillStar (capture : List Char) (target : String) : String :=
  match splitAt? '*' target.toList with
  | some (before, after) => String.ofList (before ++ capture ++ after)
  | none => target

/-- The paths that an aliased specifier can stand for, in order. -/
def PathAliases.expand (a : PathAliases) (specifier : String) : List Path :=
  a.patterns.flatMap fun (pattern, targets) =>
    match captured? pattern specifier with
    | some capture => targets.map fun t => a.base.join (fillStar capture t)
    | none => []

/-! ## Files of specifiers -/

/-- What is tried at the end of a path, in order. -/
def sourceSuffixes : List String := [".d.ts", ".ts", ".tsx", "/index.d.ts", "/index.ts"]

/-- A path without the extension that the compiled file would have. -/
def withoutCompiledExtension (text : List Char) : List Char :=
  ((beforeEnd? ".js".toList text).or (beforeEnd? ".mjs".toList text)).getD text

def endsWith (text : List Char) (s : String) : Bool := (beforeEnd? s.toList text).isSome

/-- The files that a path without extension can mean, the first to be tried first. -/
def candidates (base : Path) : List Path :=
  let text := base.text.toList
  let stem := String.ofList (withoutCompiledExtension text)
  let written := if endsWith text ".ts" || endsWith text ".tsx" then [base] else []
  written ++ sourceSuffixes.map fun s => ⟨stem ++ s⟩

/-- The paths, still without extensions, that a specifier in a file can stand for. One that begins
with a dot is relative to the file. -/
def specifierBases (aliases : PathAliases) (file : Path) (specifier : String) : List Path :=
  if specifier.toList.head? == some '.' then [(file.parent?.getD ⟨"."⟩).join specifier]
  else aliases.expand specifier

namespace Session

/-- The file that a specifier means in a module. -/
def specifierFile? (fs : Files) (s : Session) (m : ModuleId) (specifier : String) :
    Option Path := do
  let x ← s.modules[m]?
  ((specifierBases s.aliases x.path specifier).flatMap candidates).find? fs.isFile

/-- Load the module that a specifier means in a module. -/
def loadSpecifier (m : ModuleId) (specifier : String) : Analysis (Option ModuleId) := do
  match specifierFile? (← read) (← get) m specifier with
  | none => return none
  | some p =>
    match ← addFile p with
    | .ok id => return some id
    | .error _ => return none

/-! ## Names -/

/-- Where a module sends a name in one step: to a declaration of its own, to another of its names,
or to a name of the file that a specifier means. -/
inductive Lead where
  | declared (d : Declaration)
  | renamed (name : String)
  | imported (specifier name : String)

end Session

def Module.lead? (x : Module) (name : String) : Option Session.Lead :=
  match splitAt? '.' name.toList with
  | some (namespaceName, rest) =>
    match x.imports.get? (String.ofList namespaceName) with
    | some ⟨specifier, none⟩ => some (.imported specifier (String.ofList rest))
    | _ => none
  | none =>
    match x.declarations.get? name with
    | some d => some (.declared d)
    | none =>
      match x.renames.get? name with
      | some other => some (.renamed other)
      | none =>
        match x.imports.get? name with
        | some ⟨specifier, some imported⟩ => some (.imported specifier imported)
        | _ => none

namespace Session

def importLimit : Nat := 32

/-- Follow a name from a module to its declaration and the module that has it. -/
def lookupWithin : Nat → ModuleId → String → Analysis (Option (ModuleId × Declaration))
  | 0, _, _ => return none
  | n + 1, m, name => do
    let some x := (← get).modules[m]? | return none
    match x.lead? name with
    | none => return none
    | some (.declared d) => return some (m, d)
    | some (.renamed other) => lookupWithin n m other
    | some (.imported specifier rest) =>
      let some target ← loadSpecifier m specifier | return none
      lookupWithin n target rest

def lookup (m : ModuleId) (name : String) : Analysis (Option (ModuleId × Declaration)) :=
  lookupWithin (importLimit + 1) m name

def lastName (name : String) : String :=
  String.ofList (name.toList.reverse.takeWhile (· != '.')).reverse

/-- The name a type was declared under, seen through the renaming of its import. What a framework's
types are called can be told without loading the framework. -/
def canonicalName? (s : Session) : TypeExpr ModuleId → Option String
  | .reference n _ m =>
    let imported := do
      let x ← s.modules[m]?
      (← x.imports.get? n).name
    some (lastName (imported.getD n))
  | .imported _ (some q) _ _ => some (lastName q)
  | _ => none

end Session

end Routebook
