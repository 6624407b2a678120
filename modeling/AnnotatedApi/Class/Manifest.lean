import AnnotatedApi.Class.Catalogue
import AnnotatedApi.Data.Tree
import AnnotatedApi.FileTree.Path
import AnnotatedApi.Json.Reader
import AnnotatedApi.Toml.Reader

/-!
# Manifests

A manifest is a text that lists classes, in one of two notations.  Its path
tells the notation and is not opened here.
-/

set_option autoImplicit false

namespace AnnotatedApi

open Data

/-! ## Records of a manifest -/

def readField (surplus : Surplus) (tree : Tree) : Option ModelField := do
  match ← recordMembers? surplus [["name"], ["comment"], ["default"]] tree with
  | [name, comment, default] =>
    some
      { name := ← requiredMember Tree.string? name
        comment := ← optionalMember "" Tree.string? comment
        default := ← optionalMember .null Tree.toValue? default }
  | _ => none

def readProcedure (surplus : Surplus) (tree : Tree) : Option Procedure := do
  match ← recordMembers? surplus [["name"], ["declaring_class"], ["parameters"], ["comment"]] tree with
  | [name, declaringClass, parameters, comment] =>
    some
      { name := ← requiredMember Tree.string? name
        declaringClass := ← optionalMember "" Tree.string? declaringClass
        parameters := ← optionalMember [] (Tree.list? Tree.string?) parameters
        comment := ← optionalMember "" Tree.string? comment }
  | _ => none

def readClass (surplus : Surplus) (tree : Tree) : Option AnnotatedClass := do
  match ← recordMembers? surplus
      [["name"], ["comment"], ["model"], ["procedure", "procedures"], ["field", "fields"]] tree with
  | [name, comment, model, procedures, fields] =>
    some
      { name := ← requiredMember Tree.string? name
        comment := ← optionalMember "" Tree.string? comment
        model := ← optionalMember false Tree.bool? model
        procedures := ← optionalMember [] (Tree.list? (readProcedure surplus)) procedures
        fields := ← optionalMember [] (Tree.list? (readField surplus)) fields }
  | _ => none

def readClasses (surplus : Surplus) (tree : Tree) : Option (List AnnotatedClass) := do
  match ← recordMembers? surplus [["class", "classes"]] tree with
  | [classes] => optionalMember [] (Tree.list? (readClass surplus)) classes
  | _ => none

/-! ## Notations -/

inductive Notation where
  | toml
  | json
deriving DecidableEq, Repr

inductive ManifestError where
  | malformed (written : Notation)
  | unsupported (path : String)
  | duplicate (clash : DuplicateClass)
deriving DecidableEq, Repr

def ManifestError.message : ManifestError → String
  | .malformed .toml => "failed to parse TOML manifest"
  | .malformed .json => "failed to parse JSON manifest"
  | .unsupported path => "unsupported manifest type: " ++ path
  | .duplicate clash => clash.message

def Notation.classes? (written : Notation) (text : String) : Option (List AnnotatedClass) :=
  match written with
  | .toml => (Toml.read? text).bind (readClasses .ignored)
  | .json => (Json.read? text).bind (readClasses .refused)

def Notation.ofExtension? (extension : String) : Option Notation :=
  if extension = "toml" then some .toml
  else if extension = "json" then some .json
  else none

def Catalogue.ofText (written : Notation) (text : String) : Except ManifestError Catalogue :=
  match written.classes? text with
  | none => .error (.malformed written)
  | some classes =>
    match Catalogue.ofClasses classes with
    | .ok catalogue => .ok catalogue
    | .error clash => .error (.duplicate clash)

/-- The catalogue that the text of a file lists; the path tells the notation. -/
def Catalogue.ofFile (path text : String) : Except ManifestError Catalogue :=
  match (Path.extension? path).bind Notation.ofExtension? with
  | some written => Catalogue.ofText written text
  | none => .error (.unsupported path)

end AnnotatedApi
