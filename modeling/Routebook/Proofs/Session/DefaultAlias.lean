import Routebook.Proofs.Session.AliasExports
import Routebook.Proofs.Session.Exports

/-!
# Which alias a module answers with

Asked for its application's type without a name, a module answers with the alias that it exports as
`AppType`, or else with the first that it exports. It lists its exported aliases as it reads the
file, and an alias that is declared further on is not one yet. **So it knows the aliases that are
exported behind their declarations, and only these** (`exportedAliases_ofStatements`,
`appType_of_aliasExports`).
-/

namespace Routebook

/-! ## What modules keep of it -/

/-- The body of a type alias. -/
def Declaration.aliasBody? : Declaration → Option (TypeExpr ModuleId)
  | .typeAlias _ body => some body
  | _ => none

namespace Module

open Source

variable {x : Module} {m : ModuleId} {ss : List Statement} {name : String}

/-- The body of the alias that a module declares under a name. -/
def aliasBody? (x : Module) (name : String) : Option (TypeExpr ModuleId) :=
  (x.declarations.get? name).bind Declaration.aliasBody?

theorem isAlias_eq (x : Module) (name : String) : x.isAlias name = (x.aliasBody? name).isSome := by
  unfold isAlias aliasBody?
  cases x.declarations.get? name with
  | none => rfl
  | some d => cases d <;> rfl

theorem aliasBody?_declare (x : Module) (name : String) (d : Declaration) :
    (x.declare name d).aliasBody? name = d.aliasBody? := by
  rw [aliasBody?, declare, Table.get?_insert, if_pos rfl]
  rfl

/-- Variables are declared, and nothing else. -/
theorem declareVariables_eq (ds : List Declarator) (x : Module) :
    ∃ declarations, ds.foldl (declareVariable m) x = { x with declarations := declarations } := by
  induction ds generalizing x with
  | nil => exact ⟨_, rfl⟩
  | cons d ds ih =>
    obtain ⟨_, hds⟩ := ih (declareVariable m x d)
    rw [List.foldl_cons, hds, declareVariable]
    split
    · exact ⟨_, rfl⟩
    · exact ⟨_, rfl⟩

/-- Of variables of one name the last is declared. -/
theorem aliasBody?_declareVariables {ds : List Declarator}
    (h : ds.any (·.name == some name) = true) :
    (ds.foldl (declareVariable m) x).aliasBody? name = none := by
  induction ds generalizing x with
  | nil => exact absurd h (by simp)
  | cons d ds ih =>
    rw [List.foldl_cons]
    cases hlater : ds.any (·.name == some name) with
    | true => exact ih hlater
    | false =>
      rw [List.any_cons, hlater, Bool.or_false, beq_iff_eq] at h
      rw [aliasBody?, get?_foldl_declareVariable hlater]
      unfold declareVariable
      rw [h]
      exact aliasBody?_declare x name _

/-- What a statement declares a name as is what the module has of it then. -/
theorem aliasBody?_addStatement {st : Statement} (h : st.declares name = true) :
    (x.addStatement m st).aliasBody? name = (st.aliasBody? name).map (·.inModule m) := by
  obtain ⟨meaning, parts⟩ := st
  cases meaning with
  | declares exported d =>
    match d with
    | .typeAlias n ps body =>
      obtain rfl := eq_of_beq (show (n == name) = true from h)
      have hbody : (Statement.aliasBody? n ⟨.declares exported (.typeAlias n ps body), parts⟩) =
          some body := if_pos rfl
      rw [hbody]
      cases exported <;> exact aliasBody?_declare _ n _
    | .interface n ps parents ms =>
      obtain rfl := eq_of_beq (show (n == name) = true from h)
      obtain ⟨_, _, _, hx⟩ := declareInterface_eq_declare x n (ps.map (·.inModule m))
        (parents.map (·.inModule m)) (ms.map (·.inModule m))
      show (x.declareInterface n _ _ _).aliasBody? n = _
      rw [hx]
      exact aliasBody?_declare x n _
    | .classType n =>
      obtain rfl := eq_of_beq (show (n == name) = true from h)
      exact aliasBody?_declare x n _
    | .enumeration n values =>
      obtain rfl := eq_of_beq (show (n == name) = true from h)
      exact aliasBody?_declare x n _
    | .variables ds => exact aliasBody?_declareVariables h
  | _ => exact absurd h (by simp [Statement.declares])

/-- **A module has the aliases of its file.** -/
theorem aliasBody?_ofStatements (ss : List Statement) (path : Disk.Path) (name : String) :
    (ss.foldl (addStatement m) (empty path)).aliasBody? name =
      (aliasIn? ss name).map (·.inModule m) := by
  induction ss using List.reverseRecOn with
  | nil => rfl
  | append_singleton ss st ih =>
    rw [List.foldl_append, List.foldl_cons, List.foldl_nil, aliasIn?_concat]
    cases h : st.declares name with
    | true => exact aliasBody?_addStatement h
    | false =>
      rw [aliasBody?, get?_addStatement h]
      exact ih

/-! ### Export clauses -/

theorem exportedAliases_addExport (x : Module) (file : Option String) (n : String × String) :
    (x.addExport file n).exportedAliases =
      x.exportedAliases ++ if x.isAlias n.1 then [n.2] else [] := by
  obtain ⟨localName, exported⟩ := n
  unfold addExport
  dsimp only
  cases file with
  | some f =>
    -- The import declares nothing, and neither does the renaming.
    have hsame : isAlias { x with imports := x.imports.insert exported ⟨f, some localName⟩ }
        localName = x.isAlias localName := rfl
    dsimp only
    rw [hsame]
    cases x.isAlias localName <;> simp
  | none =>
    have hsame : isAlias { x with renames := x.renames.insert exported localName } localName =
        x.isAlias localName := rfl
    dsimp only
    split
    · cases x.isAlias localName <;> simp
    · rw [hsame]
      cases x.isAlias localName <;> simp

theorem exportedAliases_addExports (x : Module) (file : Option String)
    (names : List (String × String)) :
    (names.foldl (addExport file) x).exportedAliases =
      x.exportedAliases ++ (names.filter fun n => x.isAlias n.1).map (·.2) := by
  induction names generalizing x with
  | nil => simp
  | cons n names ih =>
    have hsame : ∀ name, (x.addExport file n).isAlias name = x.isAlias name := by
      intro name
      rw [isAlias, isAlias, (addExport_eq x file n).1]
    rw [List.foldl_cons, ih, exportedAliases_addExport, List.filter_cons]
    simp only [hsame]
    cases x.isAlias n.1 <;> simp

theorem exportedAliases_addStatement {st : Statement}
    (hx : ∀ name, x.isAlias name = (aliasIn? ss name).isSome) :
    (x.addStatement m st).exportedAliases =
      x.exportedAliases ++ (st.aliasExports ss).map (·.2) := by
  obtain ⟨meaning, parts⟩ := st
  cases meaning with
  | declares exported d =>
    match d with
    | .typeAlias n ps body =>
      cases exported <;> simp [addStatement, addDeclared, declare, Statement.aliasExports]
    | .interface n ps parents ms =>
      obtain ⟨_, _, _, hi⟩ := declareInterface_eq_declare x n (ps.map (·.inModule m))
        (parents.map (·.inModule m)) (ms.map (·.inModule m))
      show (x.declareInterface n _ _ _).exportedAliases = _
      rw [hi]
      cases exported <;> simp [declare, Statement.aliasExports]
    | .classType n =>
      cases exported <;> simp [addStatement, addDeclared, declare, Statement.aliasExports]
    | .enumeration n values =>
      cases exported <;> simp [addStatement, addDeclared, declare, Statement.aliasExports]
    | .variables ds =>
      obtain ⟨_, hvariables⟩ := declareVariables_eq (m := m) ds x
      show (ds.foldl (declareVariable m) x).exportedAliases = _
      rw [hvariables]
      cases exported <;> simp [Statement.aliasExports]
  | imports file names => simp [addStatement, Statement.aliasExports]
  | exports file names =>
    show (names.foldl (addExport file) x).exportedAliases = _
    rw [exportedAliases_addExports]
    simp [Statement.aliasExports, hx]
  | nothing => simp [addStatement, Statement.aliasExports]

/-- **A module lists the aliases that its file is taken to export.** -/
theorem exportedAliases_ofStatements (ss : List Statement) (path : Disk.Path) :
    (ss.foldl (addStatement m) (empty path)).exportedAliases = (aliasExports ss).map (·.2) := by
  induction ss using List.reverseRecOn with
  | nil => rfl
  | append_singleton ss st ih =>
    have halias : ∀ name, (ss.foldl (addStatement m) (empty path)).isAlias name =
        (aliasIn? ss name).isSome := by
      intro name
      rw [isAlias_eq, aliasBody?_ofStatements, Option.isSome_map]
    rw [List.foldl_append, List.foldl_cons, List.foldl_nil, exportedAliases_addStatement halias,
      ih, aliasExports_concat, List.map_append]

/-! ### Names of exported declarations -/

/-- Of the renamings to one name the last is kept. -/
theorem renames_addExports (names : List (String × String)) (x : Module) (e : String) :
    (names.foldl (addExport none) x).renames.get? e =
      ((names.reverse.find? fun n => n.1 != n.2 && n.2 == e).map (·.1)).or (x.renames.get? e) := by
  induction names generalizing x with
  | nil => rfl
  | cons n names ih =>
    have hn : (addExport none x n).renames.get? e =
        (([n].find? fun n => n.1 != n.2 && n.2 == e).map (·.1)).or (x.renames.get? e) := by
      rw [(addExport_eq x none n).2.2]
      dsimp only
      split
      · next hsame => simp [hsame]
      · next hne =>
        rw [Table.get?_insert]
        by_cases he : e = n.2
        · simp [he, hne]
        · simp [he, Ne.symm he]
    rw [List.foldl_cons, ih, List.reverse_cons, List.find?_append, Option.map_or, Option.or_assoc,
      hn]

theorem renames_addForeignExports (file : String) (names : List (String × String)) (x : Module) :
    (names.foldl (addExport (some file)) x).renames = x.renames := by
  induction names generalizing x with
  | nil => rfl
  | cons n names ih => rw [List.foldl_cons, ih, (addExport_eq x (some file) n).2.2]

theorem renames_addDeclared (exported : Bool) (d : Declared) (x : Module) :
    (x.addDeclared m exported d).renames = x.renames := by
  match d with
  | .typeAlias n ps body => cases exported <;> rfl
  | .interface n ps parents ms =>
    obtain ⟨_, _, _, hi⟩ := declareInterface_eq_declare x n (ps.map (·.inModule m))
      (parents.map (·.inModule m)) (ms.map (·.inModule m))
    rw [addDeclared, hi]
    rfl
  | .classType n => rfl
  | .enumeration n values => rfl
  | .variables ds =>
    obtain ⟨_, hvariables⟩ := declareVariables_eq (m := m) ds x
    rw [addDeclared, hvariables]

theorem fst_eq_snd_of_declares {exported : Bool} {d : Declared} {parts : List Expr}
    {n : String × String} (h : n ∈ Statement.localExports ⟨.declares exported d, parts⟩) :
    n.1 = n.2 := by
  unfold Statement.localExports at h
  split at h
  · rw [List.mem_singleton.mp h]
  · next hmeaning => exact absurd hmeaning (by simp)
  · exact absurd h List.not_mem_nil

theorem renames_ofStatements (ss : List Statement) (path : Disk.Path) (e : String) :
    (ss.foldl (addStatement m) (empty path)).renames.get? e =
      ((ss.flatMap (·.localExports)).reverse.find? fun n =>
        n.1 != n.2 && n.2 == e).map (·.1) := by
  induction ss using List.reverseRecOn with
  | nil => rfl
  | append_singleton ss st ih =>
    rw [List.foldl_append, List.foldl_cons, List.foldl_nil, List.flatMap_append,
      List.flatMap_singleton, List.reverse_append, List.find?_append, Option.map_or, ← ih]
    obtain ⟨meaning, parts⟩ := st
    cases meaning with
    | declares exported d =>
      rw [addStatement, renames_addDeclared]
      -- An alias that is exported where it is declared keeps its name.
      have hnone : (Statement.localExports ⟨.declares exported d, parts⟩).reverse.find?
          (fun n => n.1 != n.2 && n.2 == e) = none := by
        rw [List.find?_eq_none]
        intro n hn
        simp [fst_eq_snd_of_declares (List.mem_reverse.mp hn)]
      rw [hnone]
      rfl
    | imports file names => rfl
    | exports file names =>
      cases file with
      | some f =>
        rw [addStatement, renames_addForeignExports]
        rfl
      | none => exact renames_addExports names _ e
    | nothing => rfl

/-- **What a file exports by a name the module finds by it.** -/
theorem localName_ofStatements (ss : List Statement) (path : Disk.Path) (e : String) :
    (ss.foldl (addStatement m) (empty path)).localName e = localOf ss e := by
  rw [localName, renames_ofStatements, localOf]

end Module

namespace Session

open Source

variable {s : Session} {m : ModuleId} {x : Module} {e : String} {body : TypeExpr ModuleId}

/-! ## Answers -/

/-- The name that is asked for if none is given. -/
def preferred (names : List String) : Option String :=
  if names.contains "AppType" then some "AppType" else names.head?

theorem appType_none (hx : s.modules[m]? = some x) : s.appType m none =
    match preferred x.exportedAliases with
    | none => .error (.missingAppType x.path "<exported type alias>")
    | some e => s.appType m (some e) := by
  unfold appType
  rw [hx]
  dsimp only [Option.none_or]
  rw [← preferred]
  cases preferred x.exportedAliases <;> rfl

theorem appType_eq_ok_iff (hx : s.modules[m]? = some x) :
    s.appType m (some e) = .ok body ↔ x.aliasBody? (x.localName e) = some body := by
  unfold appType Module.aliasBody? Module.localName
  rw [hx]
  dsimp only [Option.some_or]
  cases x.declarations.get? ((x.renames.get? e).getD e) with
  | none => simp
  | some d => cases d <;> simp [Declaration.aliasBody?]

/-! ## Files -/

section File

variable {ss : List Statement} {definition : Bool} {path : Disk.Path} {l : String}
  (hx : s.modules[m]? = some (.ofProgram m path ⟨ss, definition⟩))

include hx

theorem appType_eq_ok_iff_file :
    s.appType m (some e) = .ok body ↔
      ∃ b, aliasIn? ss (localOf ss e) = some b ∧ body = b.inModule m := by
  rw [appType_eq_ok_iff hx, Module.ofProgram, Module.localName_ofStatements,
    Module.aliasBody?_ofStatements, Option.map_eq_some_iff]
  exact exists_congr fun b => and_congr_right fun _ => eq_comm

theorem appType_none_eq_ok_iff :
    s.appType m none = .ok body ↔
      ∃ e b, preferred ((aliasExports ss).map (·.2)) = some e ∧
        aliasIn? ss (localOf ss e) = some b ∧ body = b.inModule m := by
  rw [appType_none hx, Module.ofProgram, Module.exportedAliases_ofStatements]
  cases preferred ((aliasExports ss).map (·.2)) with
  | none => simp
  | some e => simp [appType_eq_ok_iff_file hx]

/-- In an orderly file the local alias that is exported by the name has the answer. -/
theorem appType_of_preferred (h : Orderly ss) (hmem : (l, e) ∈ aliasExports ss)
    (he : preferred ((aliasExports ss).map (·.2)) = some e) :
    ∃ b, aliasIn? ss l = some b ∧ s.appType m none = .ok (b.inModule m) := by
  obtain ⟨hlocal, halias⟩ := h.mem_aliasExports hmem
  obtain ⟨b, hb⟩ := Option.isSome_iff_exists.mp halias
  refine ⟨b, hb, (appType_none_eq_ok_iff hx).mpr ⟨e, b, he, ?_, rfl⟩⟩
  rw [h.localOf_eq hlocal]
  exact hb

theorem exists_appType_iff (h : Orderly ss) :
    (∃ body, s.appType m none = .ok body) ↔ aliasExports ss ≠ [] := by
  constructor
  · rintro ⟨body, happ⟩ hnil
    obtain ⟨e, b, he, -⟩ := (appType_none_eq_ok_iff hx).mp happ
    rw [hnil] at he
    exact absurd he (by simp [preferred])
  · intro hne
    -- Whatever name is preferred, some alias is exported by it.
    obtain ⟨e, he, hnames⟩ : ∃ e, preferred ((aliasExports ss).map (·.2)) = some e ∧
        e ∈ (aliasExports ss).map (·.2) := by
      unfold preferred
      split
      · next hcontains => exact ⟨_, rfl, List.contains_iff_mem.mp hcontains⟩
      · obtain ⟨x, rest, hhead⟩ := List.exists_cons_of_ne_nil hne
        exact ⟨x.2, by simp [hhead], by simp [hhead]⟩
    obtain ⟨⟨l, e⟩, hmem, rfl⟩ := List.mem_map.mp hnames
    obtain ⟨b, -, happ⟩ := appType_of_preferred hx h hmem he
    exact ⟨_, happ⟩

/-- **A module answers with the alias that its file is taken to export as `AppType`, or else with
the first.** In a file in which no name is used for two things, these are the exported aliases that
are declared before they are exported: there is an answer exactly if there is one of them. An export
clause that is moved behind what it names adds to them the aliases that it had been in front of. -/
theorem appType_of_aliasExports :
    (∀ body, s.appType m none = .ok body ↔
      ∃ e b, preferred ((aliasExports ss).map (·.2)) = some e ∧
        aliasIn? ss (localOf ss e) = some b ∧ body = b.inModule m) ∧
    (Orderly ss →
      ((∃ body, s.appType m none = .ok body) ↔ aliasExports ss ≠ []) ∧
      (∀ l, (l, "AppType") ∈ aliasExports ss →
        ∃ b, aliasIn? ss l = some b ∧ s.appType m none = .ok (b.inModule m)) ∧
      (∀ l e rest, (∀ l, (l, "AppType") ∉ aliasExports ss) → aliasExports ss = (l, e) :: rest →
        ∃ b, aliasIn? ss l = some b ∧ s.appType m none = .ok (b.inModule m)) ∧
      (∀ x ∈ aliasExports ss, x ∈ ss.flatMap (·.localExports)) ∧
      ∀ before clause middle after names, ss = before ++ clause :: (middle ++ after) →
        clause.meaning = .exports none names →
        (∀ n ∈ names, ∀ st ∈ after, st.declares n.1 = false) →
        Orderly (before ++ (middle ++ clause :: after)) ∧
          ∀ x, x ∈ aliasExports (before ++ (middle ++ clause :: after)) ↔
            x ∈ aliasExports ss ∨ x ∈ names ∧ (aliasIn? ss x.1).isSome = true) := by
  refine ⟨fun body => appType_none_eq_ok_iff hx, ?_⟩
  intro h
  refine ⟨exists_appType_iff hx h, ?_, ?_, fun x hmem => (h.mem_aliasExports hmem).1, ?_⟩
  · intro l hmem
    apply appType_of_preferred hx h hmem
    have hcontains : ((aliasExports ss).map (·.2)).contains "AppType" = true :=
      List.contains_iff_mem.mpr (List.mem_map.mpr ⟨_, hmem, rfl⟩)
    rw [preferred, if_pos hcontains]
  · intro l e rest hnone hhead
    refine appType_of_preferred hx h (e := e) (by simp [hhead]) ?_
    have hcontains : ((aliasExports ss).map (·.2)).contains "AppType" = false := by
      rw [Bool.eq_false_iff, ne_eq, List.contains_iff_mem, List.mem_map]
      rintro ⟨x, hmem, hname⟩
      exact hnone x.1 (hname ▸ hmem)
    rw [preferred, hcontains, hhead]
    rfl
  · rintro before clause middle after names rfl hclause hbehind
    exact ⟨h.moved (declares_of_exports hclause), mem_aliasExports_moved h hclause hbehind⟩

end File

/-! ### A clause in front of the alias that it names, and behind it -/

section Routes

def routesClause : Statement := ⟨.exports none [("Routes", "AppType")], []⟩

def routesAlias : Statement := ⟨.declares false (.typeAlias "Routes" [] (.keyword .string)), []⟩

def usersAlias : Statement := ⟨.declares true (.typeAlias "Users" [] (.keyword .number)), []⟩

def routesSession (ss : List Statement) : Session := .ofFile ⟨"routes.ts"⟩ ⟨ss, false⟩

/-- Only behind it does the clause make the alias the one that is preferred. -/
theorem appType_of_aliasExports_routes :
    (routesSession [routesClause, routesAlias, usersAlias]).appType 0 none =
      .ok (.keyword .number) ∧
    (routesSession [routesAlias, routesClause, usersAlias]).appType 0 none =
      .ok (.keyword .string) := by
  have hfront : Orderly [routesClause, routesAlias, usersAlias] := by decide +kernel
  have hx : (routesSession [routesClause, routesAlias, usersAlias]).modules[0]? =
      some (.ofProgram 0 ⟨"routes.ts"⟩ ⟨[routesClause, routesAlias, usersAlias], false⟩) := rfl
  have hx' : (routesSession [routesAlias, routesClause, usersAlias]).modules[0]? =
      some (.ofProgram 0 ⟨"routes.ts"⟩ ⟨[routesAlias, routesClause, usersAlias], false⟩) := rfl
  have honly : aliasExports [routesClause, routesAlias, usersAlias] = [("Users", "Users")] := rfl
  obtain ⟨-, -, hfirst, -, hmoved⟩ := (appType_of_aliasExports hx).2 hfront
  obtain ⟨hback, hexports⟩ := hmoved [] routesClause [routesAlias] [usersAlias] _ rfl rfl
    (by decide +kernel)
  constructor
  · obtain ⟨b, hb, happ⟩ := hfirst "Users" "Users" [] (by simp [honly]) honly
    obtain rfl := Option.some.inj hb
    exact happ
  · have hmem : ("Routes", "AppType") ∈ aliasExports [routesAlias, routesClause, usersAlias] :=
      (hexports _).mpr (.inr ⟨.head _, rfl⟩)
    obtain ⟨b, hb, happ⟩ := ((appType_of_aliasExports hx').2 hback).2.1 "Routes" hmem
    obtain rfl := Option.some.inj hb
    exact happ

end Routes

end Session
end Routebook
