import AnnotatedApi.Data.Tree
import AnnotatedApi.Toml.Reader

/-!
# Settings of a run

What the surroundings of an application say about its document: names, defaults
and the security definitions.  They are read as one record, every member of which
may be missing.
-/

set_option autoImplicit false

namespace AnnotatedApi

structure Settings where
  /-- What stands in front of a model name that has no namespace of its own. -/
  modelsNamespace : String := ""
  documentVersion : String := "2.0"
  supportedMethods : List String :=
    ["get", "post", "put", "delete", "patch", "head", "options"]
  securityDefinitions : KeyMap Json.Value := []
  controller : String := ""
  host : String := "localhost"
  basePath : String := "/"

namespace Settings

def supports (settings : Settings) (method : String) : Bool :=
  settings.supportedMethods.contains method

/-! ## Reading -/

open Data

def memberNames : List (List String) :=
  [["models_namespace"], ["swagger_version"], ["supported_methods"], ["security_definitions"],
    ["controller"], ["host"], ["base_path"]]

def freeMap? (tree : Tree) : Option (KeyMap Json.Value) := tree.freeMembers?.map KeyMap.ofList

def ofTree? (tree : Tree) : Option Settings := do
  let initial : Settings := {}
  match ← recordMembers? .ignored memberNames tree with
  | [modelsNamespace, documentVersion, supportedMethods, securityDefinitions, controller, host,
      basePath] =>
    some
      { modelsNamespace := ← optionalMember initial.modelsNamespace Tree.string? modelsNamespace
        documentVersion := ← optionalMember initial.documentVersion Tree.string? documentVersion
        supportedMethods :=
          ← optionalMember initial.supportedMethods (Tree.list? Tree.string?) supportedMethods
        securityDefinitions :=
          ← optionalMember initial.securityDefinitions freeMap? securityDefinitions
        controller := ← optionalMember initial.controller Tree.string? controller
        host := ← optionalMember initial.host Tree.string? host
        basePath := ← optionalMember initial.basePath Tree.string? basePath }
  | _ => none

def ofText? (text : String) : Option Settings := (Toml.read? text).bind ofTree?

end Settings
end AnnotatedApi
