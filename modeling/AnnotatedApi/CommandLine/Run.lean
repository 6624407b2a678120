import AnnotatedApi.CommandLine.Arguments
import AnnotatedApi.CommandLine.Manifests
import AnnotatedApi.Compilation.Basic
import AnnotatedApi.FileTree.Basic
import AnnotatedApi.Settings

/-!
# One run of the program

A run first prepares its output, which only looks at files, and then delivers
it.  So a run that fails before its output is ready has changed nothing.
-/

set_option autoImplicit false

namespace AnnotatedApi.CommandLine

variable {m : Type → Type} [Monad m]

/-! ## Settings -/

/-- The settings file that is read without being asked for, if it is there. -/
def defaultSettingsPath : String := "swagdoc.toml"

def settingsFrom (files : Files m) (path : String) : m (Except RunError Settings) := do
  match ← files.text path with
  | .error cause => pure (.error (.settingsUnread path cause))
  | .ok text =>
    match Settings.ofText? text with
    | some settings => pure (.ok settings)
    | none => pure (.error (.settingsMalformed path))

def fileSettings (files : Files m) (options : Options) : m (Except RunError Settings) := do
  match options.config with
  | some path => settingsFrom files path
  | none =>
    if (← files.kind defaultSettingsPath) == .file then settingsFrom files defaultSettingsPath
    else pure (.ok {})

def Options.override (options : Options) (settings : Settings) : Settings :=
  { settings with
    controller := options.controller.getD settings.controller
    modelsNamespace := options.modelsNamespace.getD settings.modelsNamespace
    host := options.host.getD settings.host
    basePath := options.basePath.getD settings.basePath }

def runSettings (files : Files m) (options : Options) : m (Except RunError Settings) := do
  match ← fileSettings files options with
  | .error cause => pure (.error cause)
  | .ok settings =>
    let settings := options.override settings
    if settings.controller.isEmpty then pure (.error .noController) else pure (.ok settings)

/-! ## Preparing the output -/

structure Prepared where
  text : String
  extension : String
deriving DecidableEq, Repr

def rendered (settings : Settings) (format : Format) (catalogue : Catalogue) :
    Except RunError Prepared :=
  match Document.compile catalogue.find? settings with
  | .error cause => .error (.compilation cause)
  | .ok document => .ok ⟨format.render document, format.extension⟩

/-- The output of a run, or the first failure in the order of the stages. -/
def prepare (files : Files m) (options : Options) : m (Except RunError Prepared) := do
  match ← runSettings files options with
  | .error cause => pure (.error cause)
  | .ok settings =>
    match Format.ofName options.formatName with
    | .error unknown => pure (.error (.unknownFormat unknown))
    | .ok format =>
      match ← manifestPaths files options.manifests with
      | .error cause => pure (.error cause)
      | .ok paths =>
        match ← mergeFiles files Catalogue.empty paths with
        | .error cause => pure (.error cause)
        | .ok catalogue => pure (rendered settings format catalogue)

/-! ## Delivering the output -/

def outputStem : String := "swagger"

/-- The file for a target: a directory that is there, and a path that ends in a
separator, get a file of the default name. -/
def outputFile (target : String) (isDirectory : Bool) (extension : String) : String :=
  if isDirectory || target.toList.getLast? == some '/' then
    Path.join target (outputStem ++ "." ++ extension)
  else target

/-- A directory that could not be made is no failure if it is there. -/
def acceptExisting (store : Store m) (path : String) (made : Except FileError Unit) :
    m (Except FileError Unit) := do
  match made with
  | .ok () => pure (.ok ())
  | .error cause =>
    if (← store.kind path) == .directory then pure (.ok ()) else pure (.error cause)

/-- Makes the first of the directories, and before it those of the others that
are missing; every one stands in the one after it. -/
def makeDirectories (store : Store m) : List String → m (Except FileError Unit)
  | [] => pure (.error .notFound)
  | path :: above => do
    if path.isEmpty then pure (.ok ())
    else
      match ← store.makeDirectory path with
      | .error .notFound =>
        match ← makeDirectories store above with
        | .error cause => pure (.error cause)
        | .ok () => acceptExisting store path (← store.makeDirectory path)
      | made => acceptExisting store path made

def makeParent (store : Store m) (path : String) : m (Except RunError Unit) := do
  match Path.parent? path with
  | none => pure (.ok ())
  | some parent =>
    if parent.isEmpty then pure (.ok ())
    else
      match ← makeDirectories store (Path.ancestors (parent.length + 1) parent) with
      | .ok () => pure (.ok ())
      | .error cause => pure (.error (.directoryUnmade parent cause))

/-- Writes the output to its target, or gives it back to be printed if there is none. -/
def deliver (store : Store m) (target : Option String) (output : Prepared) :
    m (Except RunError String) := do
  match target with
  | none => pure (.ok output.text)
  | some target =>
    let isDirectory := (← store.kind target) == .directory
    let path := outputFile target isDirectory output.extension
    match ← makeParent store path with
    | .error cause => pure (.error cause)
    | .ok () =>
      match ← store.write path output.text with
      | .ok () => pure (.ok "")
      | .error cause => pure (.error (.outputUnwritten path cause))

/-! ## Outcomes -/

structure Outcome where
  exitCode : Nat
  printed : String
  errorLine : Option String
deriving DecidableEq, Repr

def versionText : String := "swagdoc 0.1.0\n"

def helpText : String :=
  String.intercalate "\n" [
    "Compile a Swagger 2.0 document from @tag annotated controller and model classes",
    "",
    "Usage: swagdoc [OPTIONS] --manifest <MANIFESTS>",
    "",
    "Options:",
    "  -m, --manifest <MANIFESTS>                 Class manifests (files, directories or glob patterns)",
    "  -c, --config <CONFIG>                      Compiler configuration file",
    "      --controller <CONTROLLER>              Controller class to compile",
    "      --models-namespace <MODELS_NAMESPACE>  Namespace for unqualified model names",
    "      --host <HOST>                          Default host when the controller has no @host",
    "      --base-path <BASE_PATH>                Default basePath when the controller has no @basePath",
    "  -o, --output <OUTPUT>                      Output file, or a directory to receive swagger.<ext>",
    "  -f, --format <FORMAT>                      Output format: json (default), json-compact",
    "  -v, --verbose...                           Increase log verbosity",
    "  -h, --help                                 Print help",
    "  -V, --version                              Print version",
    ""]

def Outcome.failed (cause : RunError) : Outcome := ⟨1, "", some ("error: " ++ cause.message)⟩

def Outcome.ofResult : Except RunError String → Outcome
  | .ok printed => ⟨0, printed, none⟩
  | .error cause => .failed cause

/-- What is shown at once, or the options of a compilation. -/
def Request.decide : Request → Outcome ⊕ Options
  | .version => .inl ⟨0, versionText, none⟩
  | .help => .inl ⟨0, helpText, none⟩
  | .misuse => .inl ⟨2, "", none⟩
  | .compile options => .inr options

/-- A run over a tree of files: what it shows, and the tree afterwards. -/
def run (tree : FileTree) (arguments : List String) : Outcome × FileTree :=
  match (Request.ofArguments arguments).decide with
  | .inl outcome => (outcome, tree)
  | .inr options =>
    match (prepare tree.files options : Id _) with
    | .error cause => (.failed cause, tree)
    | .ok output =>
      let (result, changed) := (deliver FileTree.store options.output output).run tree
      (.ofResult result, changed)

end AnnotatedApi.CommandLine
