import AnnotatedApi.Annotation.Parameter
import AnnotatedApi.Comment.Basic
import AnnotatedApi.Document.Operation
import AnnotatedApi.Settings
import AnnotatedApi.Text.Lowercase

/-!
# Operations from annotations

A procedure with a path becomes an operation: its identifier comes from the
procedure's name, everything else from the tags of its comment.  These may describe a
default response, the response of success with its headers, and a response for every
error.  The annotation of an error has a status code somewhere, a run of digits with
white space after it; what follows is the description.  An annotation of security names
a scheme and perhaps a permission; the annotations of one scheme make one requirement,
at the place of the first.
-/

set_option autoImplicit false

namespace AnnotatedApi

open Text

/-! ## Responses -/

/-- A code and a description at the very start of a text: digits, white space,
and the rest of the text, which has no line feed. -/
def statusHere? (text : List Char) : Option (List Char × List Char) :=
  let code := text.takeWhile isDecimalDigit
  let after := text.dropWhile isDecimalDigit
  let gap := after.takeWhile isSpace
  let description := after.dropWhile isSpace
  if code.isEmpty || gap.isEmpty || description.contains '\n' then none
  else some (code, description)

def status? : List Char → Option (List Char × List Char)
  | [] => none
  | c :: rest =>
    match statusHere? (c :: rest) with
    | some found => some found
    | none => status? rest

def errorResponse? (value : String) : Option (String × Response) :=
  (status? value.toList).map fun (code, description) =>
    (String.ofList code, Response.ofDescription (String.ofList description))

def emittedHeader (value : String) : String × Header :=
  let (type, name, description) := threeTokens value
  let primitive := PrimitiveType.ofToken type
  (name, ⟨primitive.type, primitive.format, description⟩)

def successResponse (tags : Tags) (known : KnownModels) (value : String) : Response :=
  let (type, description) := twoTokens value
  { description := nonEmpty? description
    schema := some (known.typeOf type).schema
    headers := (tags.values? "emitsHeader").map fun values =>
      KeyMap.ofList (values.map emittedHeader) }

def writtenResponses (tags : Tags) (known : KnownModels) : List (String × Response) :=
  ((tags.first? "default").map fun text => ("default", Response.ofDescription text)).toList ++
  ((tags.first? "return").map fun value => ("200", successResponse tags known value)).toList ++
  (tags.values "errors").filterMap errorResponse?

/-- The responses by code; of two under one code the later one counts. -/
def responses (tags : Tags) (known : KnownModels) : KeyMap Response :=
  KeyMap.ofList (writtenResponses tags known)

/-! ## Security requirements -/

/-- The requirements with one more annotation: its permission goes to the
requirement of its scheme, which is new if there is none. -/
def addRequirement (requirements : List SecurityRequirement) (scheme permission : String) :
    List SecurityRequirement :=
  let permissions := (nonEmpty? permission).toList
  match requirements with
  | [] => [⟨scheme, permissions⟩]
  | requirement :: rest =>
    if requirement.scheme = scheme then ⟨scheme, requirement.permissions ++ permissions⟩ :: rest
    else requirement :: addRequirement rest scheme permission

def securityRequirements (values : List String) : List SecurityRequirement :=
  (values.map twoTokens).foldl
    (fun requirements pair => addRequirement requirements pair.1 pair.2) []

/-! ## Operations -/

/-- How many characters a procedure's name has in front of the operation's. -/
def actionLength : Nat := 6

def operationName (procedure : String) : String :=
  match procedure.toList.drop actionLength with
  | [] => ""
  | first :: rest => String.ofList (lowerCase first ++ rest)

namespace Comment

def path (comment : Comment) : String := (comment.tags.first? "path").getD ""

/-- The method of an operation, the first that its comment gives; empty without one. -/
def method (comment : Comment) : String := (comment.tags.first? "method").getD ""

end Comment

structure PlacedOperation where
  path : String
  method : String
  operation : Operation

structure ControllerContext where
  known : KnownModels
  settings : Settings
  /-- What the controller produces, for an operation that does not say it. -/
  produces : List String

namespace ControllerContext

/-- What an operation produces: its own list if it has one, or else the controller's. -/
def produced? (context : ControllerContext) (tags : Tags) : Option (List String) :=
  match tags.values? "produces" with
  | some values => some values
  | none => if context.produces.isEmpty then none else some context.produces

def operation (context : ControllerContext) (procedure : Procedure) (comment : Comment)
    (path method : String) : Operation :=
  let tags := comment.tags
  { tags := tags.values? "tag"
    summary := comment.summary
    description := comment.detail
    operationId := operationName procedure.name
    consumes := tags.values? "consumes"
    produces := context.produced? tags
    parameters := ParameterContext.parameters ⟨procedure, tags, path, method, context.known⟩
    responses := responses tags context.known
    security := (tags.values? "security").map securityRequirements }

def place (context : ControllerContext) (procedure : Procedure) (comment : Comment) :
    PlacedOperation :=
  ⟨comment.path, comment.method,
    context.operation procedure comment comment.path comment.method⟩

end ControllerContext
end AnnotatedApi
