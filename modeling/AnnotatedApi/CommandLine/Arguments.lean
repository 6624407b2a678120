import AnnotatedApi.Text.Basic

/-!
# Arguments of a command line

Arguments are read from left to right.  An option takes its value from the same
argument or from the next one; a next argument that looks like an option is no
value.  Only the manifests may be given several times.  Asking for the version
or for help ends the reading.
-/

set_option autoImplicit false

namespace AnnotatedApi.CommandLine

open Text

inductive Setting where
  | manifest
  | config
  | controller
  | modelsNamespace
  | host
  | basePath
  | output
  | format
deriving DecidableEq, Repr

inductive Wish where
  | value (setting : Setting)
  | verbose
  | version
  | help
deriving DecidableEq, Repr

def Wish.ofLong? (name : String) : Option Wish :=
  match name with
  | "manifest" => some (.value .manifest)
  | "config" => some (.value .config)
  | "controller" => some (.value .controller)
  | "models-namespace" => some (.value .modelsNamespace)
  | "host" => some (.value .host)
  | "base-path" => some (.value .basePath)
  | "output" => some (.value .output)
  | "format" => some (.value .format)
  | "verbose" => some .verbose
  | "version" => some .version
  | "help" => some .help
  | _ => none

def Wish.ofShort? (letter : Char) : Option Wish :=
  match letter with
  | 'm' => some (.value .manifest)
  | 'c' => some (.value .config)
  | 'o' => some (.value .output)
  | 'f' => some (.value .format)
  | 'v' => some .verbose
  | 'V' => some .version
  | 'h' => some .help
  | _ => none

structure Options where
  manifests : List String := []
  config : Option String := none
  controller : Option String := none
  modelsNamespace : Option String := none
  host : Option String := none
  basePath : Option String := none
  output : Option String := none
  format : Option String := none
deriving DecidableEq, Repr

def Options.formatName (options : Options) : String := options.format.getD "json"

inductive Request where
  | compile (options : Options)
  | version
  | help
  | misuse
deriving DecidableEq, Repr

def setOnce (old : Option String) (value : String) : Option (Option String) :=
  match old with
  | none => some (some value)
  | some _ => none

/-- A path that is given may not be empty. -/
def setPathOnce (old : Option String) (value : String) : Option (Option String) :=
  if value.isEmpty then none else setOnce old value

def Options.with? (options : Options) (setting : Setting) (value : String) : Option Options :=
  match setting with
  | .manifest => some { options with manifests := options.manifests ++ [value] }
  | .config => (setPathOnce options.config value).map ({ options with config := · })
  | .controller => (setOnce options.controller value).map ({ options with controller := · })
  | .modelsNamespace =>
    (setOnce options.modelsNamespace value).map ({ options with modelsNamespace := · })
  | .host => (setOnce options.host value).map ({ options with host := · })
  | .basePath => (setOnce options.basePath value).map ({ options with basePath := · })
  | .output => (setPathOnce options.output value).map ({ options with output := · })
  | .format => (setOnce options.format value).map ({ options with format := · })

/-- An argument that is no value of the option before it. -/
def looksLikeOption (argument : List Char) : Bool :=
  match argument with
  | '-' :: _ :: _ => true
  | _ => false

inductive Effect where
  | proceed (options : Options)
  /-- The next argument is the value of an option. -/
  | await (setting : Setting) (options : Options)
  | finish (request : Request)

def attach (options : Options) (setting : Setting) (value : List Char) : Effect :=
  match options.with? setting (String.ofList value) with
  | some options => .proceed options
  | none => .finish .misuse

def longEffect (options : Options) (argument : List Char) : Effect :=
  let name := String.ofList (argument.takeWhile (· != '='))
  match Wish.ofLong? name, argument.dropWhile (· != '=') with
  | some (.value setting), [] => .await setting options
  | some (.value setting), _ :: value => attach options setting value
  | some .verbose, [] => .proceed options
  | some .version, [] => .finish .version
  | some .help, [] => .finish .help
  | _, _ => .finish .misuse

/-- An argument with one dash in front, without it: letters without values, and
at their end a letter with a value, which an equals sign may precede. -/
def shortEffect (options : Options) : List Char → Effect
  | [] => .proceed options
  | letter :: rest =>
    match Wish.ofShort? letter with
    | some (.value setting) =>
      match rest with
      | [] => .await setting options
      | '=' :: value => attach options setting value
      | value => attach options setting value
    | some .verbose => shortEffect options rest
    | some .version => .finish .version
    | some .help => .finish .help
    | none => .finish .misuse

/-- What the options ask for when all arguments are read; there have to be manifests. -/
def conclude (options : Options) : Request :=
  if options.manifests.isEmpty then .misuse else .compile options

def readFrom (options : Options) (waiting : Option Setting) : List String → Request
  | [] => if waiting.isSome then .misuse else conclude options
  | argument :: rest =>
    match waiting with
    | some setting =>
      if looksLikeOption argument.toList then .misuse
      else match options.with? setting argument with
        | some options => readFrom options none rest
        | none => .misuse
    | none =>
      let effect := match argument.toList with
        | ['-', '-'] => Effect.finish (if rest.isEmpty then conclude options else .misuse)
        | '-' :: '-' :: long => longEffect options long
        | '-' :: c :: short => shortEffect options (c :: short)
        | _ => .finish .misuse
      match effect with
      | .proceed options => readFrom options none rest
      | .await setting options => readFrom options (some setting) rest
      | .finish request => request

def Request.ofArguments (arguments : List String) : Request := readFrom {} none arguments

end AnnotatedApi.CommandLine
