import AnnotatedApi.CommandLine.Run

/-!
# The program

The command line over the files of the machine.
-/

set_option autoImplicit false

namespace AnnotatedApi

open CommandLine

/-- The number of a failure; the machine may give it with its sign turned. -/
def failureNumber (code : UInt32) : Nat :=
  if code.toNat < 2147483648 then code.toNat else 4294967296 - code.toNat

def failureOf (error : IO.Error) : FileError :=
  match error with
  | .noFileOrDirectory _ _ _ => .notFound
  | .alreadyExists _ _ _ => .exists
  | .inappropriateType _ code details =>
    match failureNumber code with
    | 20 => .notDirectory
    | 21 => .isDirectory
    | number => .other details number
  | .permissionDenied _ code details => .other details (failureNumber code)
  | other => .other (toString other) 5

def machineKind (path : String) : IO Kind := do
  if path.isEmpty then return .missing
  try
    match (← ((← IO.currentDir) / path).metadata).type with
    | .dir => pure .directory
    | .file => pure .file
    | _ => pure .missing
  catch _ => pure .missing

def machineEntries (path : String) : IO (Except FileError (List (String × Kind))) := do
  try
    let listed ← ((← IO.currentDir) / path).readDir
    let names := (listed.toList.map (·.fileName)).foldr (FileTree.insertByName (· < ·)) []
    .ok <$> names.mapM fun name => do pure (name, ← machineKind (Path.join path name))
  catch error => pure (.error (failureOf error))

partial def machineBelow (path : String) : IO (List (List String × Kind)) := do
  match ← machineEntries path with
  | .error _ => pure []
  | .ok names =>
    let parts ← names.mapM fun (name, kind) => do
      let inside ← if kind == .directory then machineBelow (Path.join path name) else pure []
      pure (([name], kind) :: inside.map fun (rest, kind) => (name :: rest, kind))
    pure parts.flatten

def machineText (path : String) : IO (Except FileError String) := do
  if (← machineKind path) == .directory then pure (.error .isDirectory)
  else
    try
      let bytes ← IO.FS.readBinFile path
      match String.fromUTF8? bytes with
      | some text => pure (.ok text)
      | none => pure (.error .notText)
    catch error => pure (.error (failureOf error))

def machineFiles : Files IO where
  kind := machineKind
  entries := machineEntries
  below := machineBelow
  text := machineText

def attempt (action : IO Unit) : IO (Except FileError Unit) := do
  try
    action
    pure (.ok ())
  catch error => pure (.error (failureOf error))

def machineStore : Store IO where
  kind := machineKind
  makeDirectory path := attempt (IO.FS.createDir path)
  write path text := attempt (IO.FS.writeFile path text)

def present (outcome : Outcome) : IO UInt32 := do
  (← IO.getStdout).putStr outcome.printed
  match outcome.errorLine with
  | some line => (← IO.getStderr).putStrLn line
  | none => pure ()
  pure (UInt32.ofNat outcome.exitCode)

end AnnotatedApi

open AnnotatedApi CommandLine in
def main (arguments : List String) : IO UInt32 := do
  match (Request.ofArguments arguments).decide with
  | .inl outcome => present outcome
  | .inr options =>
    match ← prepare machineFiles options with
    | .error cause => present (.failed cause)
    | .ok output => present (.ofResult (← deliver machineStore options.output output))
