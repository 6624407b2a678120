import AnnotatedApi.Class.Manifest
import AnnotatedApi.Compilation.Basic
import AnnotatedApi.FileTree.Pattern

/-!
# Finding and loading manifests, and why a run fails

An argument for manifests is a file, a directory whose manifests are taken, or
a pattern.  The paths that all arguments lead to are put in the order of their
components, and a path that is there already is not taken again, so neither the
order nor the repetition of arguments matters.
-/

set_option autoImplicit false

namespace AnnotatedApi.CommandLine

/-! ## Failures, in the order of the stages -/

inductive RunError where
  | settingsUnread (path : String) (cause : FileError)
  | settingsMalformed (path : String)
  | noController
  | unknownFormat (format : UnknownFormat)
  | directoryUnread (path : String) (cause : FileError)
  | badPattern (pattern : String) (cause : PatternError)
  | manifestUnread (path : String) (cause : FileError)
  | manifestRejected (path : String) (cause : ManifestError)
  | duplicate (clash : DuplicateClass)
  | compilation (cause : CompileError)
  | directoryUnmade (path : String) (cause : FileError)
  | outputUnwritten (path : String) (cause : FileError)
deriving DecidableEq, Repr

def RunError.message : RunError → String
  | .settingsUnread path cause => "failed to read config: " ++ path ++ ": " ++ cause.message
  | .settingsMalformed path => "failed to parse config: " ++ path
  | .noController =>
    "no controller given: set `controller` in the config or pass --controller"
  | .unknownFormat format => format.message
  | .directoryUnread path cause => "failed to read directory: " ++ path ++ ": " ++ cause.message
  | .badPattern pattern cause => "invalid glob pattern: " ++ pattern ++ ": " ++ cause.message
  | .manifestUnread path cause => "failed to read " ++ path ++ ": " ++ cause.message
  | .manifestRejected path cause => "in manifest " ++ path ++ ": " ++ cause.message
  | .duplicate clash => clash.message
  | .compilation cause => cause.message ++ " (status " ++ toString cause.status ++ ")"
  | .directoryUnmade path cause =>
    "failed to create output directory: " ++ path ++ ": " ++ cause.message
  | .outputUnwritten path cause => "failed to write " ++ path ++ ": " ++ cause.message

/-! ## Paths of manifests -/

/-- The paths with one more, in the order of their components; of two paths with
the same components the first one is kept. -/
def insertPath (path : String) : List String → List String
  | [] => [path]
  | other :: rest =>
    let first := Path.components path
    let second := Path.components other
    if first = second then other :: rest
    else if Path.componentsBefore first second then path :: other :: rest
    else other :: insertPath path rest

def isManifest (path : String) : Bool :=
  ((Path.extension? path).bind Notation.ofExtension?).isSome

variable {m : Type → Type} [Monad m]

def pathsOf (files : Files m) (argument : String) : m (Except RunError (List String)) := do
  match ← files.kind argument with
  | .file => pure (.ok [argument])
  | .directory =>
    match ← files.entries argument with
    | .error cause => pure (.error (.directoryUnread argument cause))
    | .ok names =>
      let inside := names.filterMap fun (name, kind) =>
        let path := Path.join argument name
        if kind == .file && isManifest path then some path else none
      pure (.ok inside)
  | .missing =>
    match PathPattern.parse argument with
    | .error cause => pure (.error (.badPattern argument cause))
    | .ok pattern =>
      let found ← pattern.matchingFiles files
      pure (.ok found)

/-- The paths that the arguments lead to, added to those that were found before. -/
def collectPaths (files : Files m) (found : List String) : List String → m (Except RunError (List String))
  | [] => pure (.ok found)
  | argument :: rest => do
    match ← pathsOf files argument with
    | .error cause => pure (.error cause)
    | .ok paths =>
      collectPaths files (paths.foldl (fun found path => insertPath path found) found) rest

def manifestPaths (files : Files m) (arguments : List String) :
    m (Except RunError (List String)) := collectPaths files [] arguments

/-! ## Merging -/

def readCatalogue (files : Files m) (path : String) : m (Except RunError Catalogue) := do
  match ← files.text path with
  | .error cause => pure (.error (.manifestUnread path cause))
  | .ok text =>
    match Catalogue.ofFile path text with
    | .error cause => pure (.error (.manifestRejected path cause))
    | .ok catalogue => pure (.ok catalogue)

def mergeFiles (files : Files m) (catalogue : Catalogue) : List String → m (Except RunError Catalogue)
  | [] => pure (.ok catalogue)
  | path :: rest => do
    match ← readCatalogue files path with
    | .error cause => pure (.error cause)
    | .ok other =>
      match catalogue.merge other with
      | (larger, none) => mergeFiles files larger rest
      | (_, some clash) => pure (.error (.duplicate clash))

end AnnotatedApi.CommandLine
