import AnnotatedApi.KeyMap
import AnnotatedApi.Number.Binary64

/-!
# JSON values

An object is the list of its members in the order in which they are written.
Objects without an order of their own have their keys ascending; `sortKeys`
puts a whole value into that form.
-/

set_option autoImplicit false

namespace AnnotatedApi.Json

/-- A number is a whole number or a finite binary64 number; the two are written differently. -/
inductive Number where
  | integer (value : Int)
  | binary (value : Binary64)
deriving DecidableEq, Repr

inductive Value where
  | null
  | bool (value : Bool)
  | number (value : Number)
  | string (text : String)
  | array (items : List Value)
  | object (members : List (String × Value))

instance : Inhabited Value := ⟨.null⟩

namespace Value

def isNull : Value → Bool
  | .null => true
  | _ => false

mutual

/-- The value with the keys of every object ascending; of two members with one
key the later one is kept. -/
def sortKeys : Value → Value
  | .array items => .array (sortItems items)
  | .object members => .object (KeyMap.ofList (sortMembers members))
  | value => value

def sortItems : List Value → List Value
  | [] => []
  | item :: rest => item.sortKeys :: sortItems rest

def sortMembers : List (String × Value) → List (String × Value)
  | [] => []
  | (key, value) :: rest => (key, value.sortKeys) :: sortMembers rest

end

def strings (texts : List String) : Value := .array (texts.map .string)

def member? (key : String) (value : Option Value) : List (String × Value) :=
  match value with
  | some value => [(key, value)]
  | none => []

def ofString? : Option String → Value
  | some text => .string text
  | none => .null

end Value
end AnnotatedApi.Json
