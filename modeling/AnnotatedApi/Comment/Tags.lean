import AnnotatedApi.KeyMap

/-!
# The tags of a comment

A tag may occur several times.  The map from tag names to values keeps every
occurrence in its order, and tells a tag that occurred once from one that was
repeated.
-/

set_option autoImplicit false

namespace AnnotatedApi

/-- What a comment says under one tag name: a single value, or all of several. -/
inductive Occurrences where
  | single (value : String)
  | multiple (values : List String)
deriving DecidableEq, Repr

namespace Occurrences

def toList : Occurrences → List String
  | .single value => [value]
  | .multiple values => values

def head : Occurrences → String
  | .single value => value
  | .multiple values => values.headD ""

def append (earlier : Occurrences) (value : String) : Occurrences := .multiple (earlier.toList ++ [value])

@[simp] theorem toList_append (earlier : Occurrences) (value : String) :
    (earlier.append value).toList = earlier.toList ++ [value] := rfl

end Occurrences

abbrev Tags := KeyMap Occurrences

namespace Tags

def add (tags : Tags) (name value : String) : Tags :=
  match KeyMap.get? tags name with
  | some earlier => KeyMap.insert tags name (earlier.append value)
  | none => KeyMap.insert tags name (.single value)

def ofList (occurrences : List (String × String)) : Tags :=
  occurrences.foldl (fun tags pair => Tags.add tags pair.1 pair.2) []

def find? (tags : Tags) (name : String) : Option Occurrences := KeyMap.get? tags name

def contains (tags : Tags) (name : String) : Bool := KeyMap.contains tags name

def first? (tags : Tags) (name : String) : Option String := (Tags.find? tags name).map Occurrences.head

def values (tags : Tags) (name : String) : List String :=
  match Tags.find? tags name with
  | some value => value.toList
  | none => []

def values? (tags : Tags) (name : String) : Option (List String) :=
  (Tags.find? tags name).map Occurrences.toList

theorem values?_eq (tags : Tags) (name : String) :
    Tags.values? tags name =
      if Tags.contains tags name = true then some (Tags.values tags name) else none := by
  rw [Tags.values?, Tags.contains, KeyMap.contains, Tags.values, Tags.find?]
  cases KeyMap.get? tags name <;> rfl

theorem first?_getD (tags : Tags) (name : String) :
    (Tags.first? tags name).getD "" = (Tags.values tags name).headD "" := by
  rw [Tags.first?, Tags.values]
  cases Tags.find? tags name with
  | none => rfl
  | some found => cases found <;> rfl

theorem values_nil (name : String) : Tags.values [] name = [] := rfl

theorem values_add (tags : Tags) (name value other : String) :
    Tags.values (Tags.add tags name value) other =
      if other = name then Tags.values tags other ++ [value] else Tags.values tags other := by
  by_cases same : other = name
  · subst same
    simp only [Tags.values, Tags.find?, Tags.add]
    cases found : KeyMap.get? tags other with
    | none => simp [KeyMap.get?_insert_self, Occurrences.toList]
    | some earlier => simp [KeyMap.get?_insert_self]
  · simp only [Tags.values, Tags.find?, Tags.add]
    cases found : KeyMap.get? tags name <;> simp [KeyMap.get?_insert_of_ne _ _ same, same]

theorem values_foldl_add (occurrences : List (String × String)) (tags : Tags) (name : String) :
    Tags.values (occurrences.foldl (fun tags pair => Tags.add tags pair.1 pair.2) tags) name =
      Tags.values tags name ++ (occurrences.filter (·.1 = name)).map Prod.snd := by
  induction occurrences generalizing tags with
  | nil => simp
  | cons pair rest ih =>
    rw [List.foldl_cons, ih, values_add, List.filter_cons]
    by_cases same : name = pair.1
    · simp [same]
    · simp [same, Ne.symm same]

theorem values_ofList (occurrences : List (String × String)) (name : String) :
    Tags.values (Tags.ofList occurrences) name =
      (occurrences.filter (·.1 = name)).map Prod.snd := by
  rw [Tags.ofList, values_foldl_add, values_nil, List.nil_append]

end Tags
end AnnotatedApi
