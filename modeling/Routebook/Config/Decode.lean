import Routebook.Config.Basic
import Routebook.Config.Setting

/-!
# Configurations from settings

The fields of a configuration, of its groups and of what they hold. Fields of other names are
passed over.
-/

namespace Routebook

open Setting

def pathSetting? (s : Setting) : Option Disk.Path := s.text?.map fun t => ⟨t⟩

def Info.ofSetting? (s : Setting) : Option Info := do
  let fs ← s.fields? ["title", "version", "description"]
  return ⟨← fs.required? "title" text?, ← fs.required? "version" text?,
    ← fs.optional? "description" text?⟩

def Server.ofSetting? (s : Setting) : Option Server := do
  let fs ← s.fields? ["url", "description"]
  return ⟨← fs.required? "url" text?, ← fs.optional? "description" text?⟩

def ManualEntry.ofSetting? (s : Setting) : Option ManualEntry := do
  let fs ← s.fields? ["path", "method", "summary", "description", "tags"]
  return ⟨← fs.required? "path" text?, ← fs.required? "method" text?,
    ← fs.optional? "summary" text?, ← fs.optional? "description" text?,
    ← fs.optional? "tags" texts?⟩

/-- A text is a path; a record holds a pattern. Both have to be texts on their own account. -/
def Exclusion.ofSetting? : Setting → Option Exclusion
  | .record fs =>
    if fs.all fun f => f.1.ownText?.isSome then do
      let fs ← (Setting.record fs).fields? ["pattern"]
      return .pattern (← fs.required? "pattern" ownText?)
    else none
  | s => s.ownText?.map .literal

def groupFields : List String :=
  ["name", "appTypePath", "appTypeName", "routesPath", "docPaths", "api", "excludePaths",
    "apiPrefix"]

def Group.ofSetting? (s : Setting) : Option Group := do
  let fs ← s.fields? groupFields
  return {
    name := ← fs.required? "name" text?
    appTypePath := ← fs.required? "appTypePath" pathSetting?
    appTypeName := ← fs.optional? "appTypeName" text?
    routesPath := ← fs.optional? "routesPath" pathSetting?
    docPaths := ← fs.withDefault? "docPaths" (listOf? pathSetting?) []
    manual := ← fs.withDefault? "api" (listOf? ManualEntry.ofSetting?) []
    exclusions := ← fs.withDefault? "excludePaths" (listOf? Exclusion.ofSetting?) []
    mount := ← fs.optional? "apiPrefix" text? }

def configFields : List String :=
  ["tsConfig", "openapi", "info", "servers", "output", "tempDir", "docMarker", "apis"]

def Config.ofSetting? (s : Setting) : Option Config := do
  let fs ← s.fields? configFields
  return {
    tsConfig := ← fs.optional? "tsConfig" pathSetting?
    openapi := ← fs.withDefault? "openapi" text? defaultOpenapi
    info := ← fs.required? "info" Info.ofSetting?
    servers := ← fs.optional? "servers" (listOf? Server.ofSetting?)
    output := ← fs.required? "output" pathSetting?
    tempDirectory := ← fs.optional? "tempDir" pathSetting?
    docMarker := ← fs.withDefault? "docMarker" text? defaultDocMarker
    groups := ← fs.required? "apis" (listOf? Group.ofSetting?) }

end Routebook
