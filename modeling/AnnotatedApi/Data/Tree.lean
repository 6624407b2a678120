import AnnotatedApi.Json.Value

/-!
# Trees and records read from a file

What a manifest or a settings file says before its meaning is known.  A table
keeps its members as they were read, repeated keys included, because a record
refuses a repeated key while a free value keeps the last one.  A record has named
members in a fixed order; a member may have several names.  It is read from a table
that has no other names and none of them twice, or from an array with the members in
their order, from which the last ones may be missing.
-/

set_option autoImplicit false

namespace AnnotatedApi.Data

/-! ## Trees -/

inductive Tree where
  | null
  | bool (value : Bool)
  | integer (value : Int)
  | binary (value : Binary64)
  | nonFinite
  | string (text : String)
  | array (items : List Tree)
  | table (members : List (String × Tree))

instance : Inhabited Tree := ⟨.null⟩

namespace Tree

/-- Whole numbers of a free value lie in the union of the signed and the
unsigned range of sixty-four bits, from `-2 ^ 63` to below `2 ^ 64`. -/
def fitsWord (value : Int) : Bool :=
  -9223372036854775808 ≤ value && value < 18446744073709551616

mutual

/-- The free JSON value of a tree.  Numbers that are not finite have no JSON
form and become null; whole numbers past sixty-four bits have no value. -/
def toValue? : Tree → Option Json.Value
  | .null | .nonFinite => some .null
  | .bool value => some (.bool value)
  | .integer value => if fitsWord value then some (.number (.integer value)) else none
  | .binary value => some (.number (.binary value))
  | .string text => some (.string text)
  | .array items => (itemValues? items).map .array
  | .table members => (memberValues? members).map fun values => .object (KeyMap.ofList values)

def itemValues? : List Tree → Option (List Json.Value)
  | [] => some []
  | item :: rest => do
    let value ← item.toValue?
    let values ← itemValues? rest
    some (value :: values)

def memberValues? : List (String × Tree) → Option (List (String × Json.Value))
  | [] => some []
  | (key, item) :: rest => do
    let value ← item.toValue?
    let values ← memberValues? rest
    some ((key, value) :: values)

end

end Tree

/-! ## Records -/

/-- What becomes of the items of an array past the last member. -/
inductive Surplus where
  | refused
  | ignored
deriving DecidableEq, Repr

def underNames (names : List String) (members : List (String × Tree)) : List Tree :=
  (members.filter fun pair => names.contains pair.1).map Prod.snd

def atMostOne : List Tree → Option (Option Tree)
  | [] => some none
  | [tree] => some (some tree)
  | _ => none

/-- The members of a record, in the order of their names. -/
def recordMembers? (surplus : Surplus) (names : List (List String)) :
    Tree → Option (List (Option Tree))
  | .table members =>
    if members.all fun pair => names.any (·.contains pair.1) then
      names.mapM fun member => atMostOne (underNames member members)
    else none
  | .array items =>
    if surplus = .refused ∧ names.length < items.length then none
    else some ((List.range names.length).map fun place => items[place]?)
  | _ => none

namespace Tree

def string? : Tree → Option String
  | .string text => some text
  | _ => none

def bool? : Tree → Option Bool
  | .bool value => some value
  | _ => none

def list? {α : Type} (read : Tree → Option α) : Tree → Option (List α)
  | .array items => items.mapM read
  | _ => none

def freeMembers? : Tree → Option (List (String × Json.Value))
  | .table members => memberValues? members
  | _ => none

end Tree

def optionalMember {α : Type} (missing : α) (read : Tree → Option α) : Option Tree → Option α
  | none => some missing
  | some tree => read tree

def requiredMember {α : Type} (read : Tree → Option α) : Option Tree → Option α
  | none => none
  | some tree => read tree

end AnnotatedApi.Data
