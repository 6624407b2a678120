import AnnotatedApi.Json.Value

/-!
# Classes and catalogues of them

What is known of an application: classes with their comments, the procedures of
a controller and the fields of a model.  A catalogue holds classes under distinct
names, in the order in which they were added, and an index from their names to their
positions.  The two are in step in every catalogue there is.  Merging adds the classes
of another catalogue one by one; it stops at the first name that is taken, and what was
added before stays.
-/

set_option autoImplicit false

namespace AnnotatedApi

/-! ## Classes -/

structure Procedure where
  name : String
  /-- The class that declares the procedure; empty for the class that lists it. -/
  declaringClass : String
  parameters : List String
  comment : String

def Procedure.takes (procedure : Procedure) (name : String) : Bool :=
  procedure.parameters.contains name

/-- A field of a model; its default is null if none is declared. -/
structure ModelField where
  name : String
  comment : String
  default : Json.Value

structure AnnotatedClass where
  name : String
  comment : String
  /-- Whether the class may stand behind a definition. -/
  model : Bool
  procedures : List Procedure
  fields : List ModelField

instance : Inhabited AnnotatedClass := ⟨⟨"", "", false, [], []⟩⟩

def Procedure.declaredIn (owner : String) (procedure : Procedure) : Procedure :=
  if procedure.declaringClass.isEmpty then { procedure with declaringClass := owner } else procedure

def AnnotatedClass.completed (cls : AnnotatedClass) : AnnotatedClass :=
  { cls with procedures := cls.procedures.map (·.declaredIn cls.name) }

/-! ## The index -/

/-- The index leads from a name to a position exactly if the class there has the name. -/
def Indexes (index : KeyMap Nat) (classes : List AnnotatedClass) : Prop :=
  ∀ name position, KeyMap.get? index name = some position ↔
    classes[position]?.map (·.name) = some name

theorem indexes_nil : Indexes [] [] := by
  intro name position
  simp

theorem Indexes.append {index : KeyMap Nat} {classes : List AnnotatedClass}
    (indexes : Indexes index classes) (cls : AnnotatedClass)
    (free : KeyMap.get? index cls.name = none) :
    Indexes (KeyMap.insert index cls.name classes.length) (classes ++ [cls]) := by
  intro name position
  by_cases same : name = cls.name
  · subst same
    rw [KeyMap.get?_insert_self, Option.some.injEq]
    constructor
    · intro last
      subst last
      simp
    · intro named
      -- In front of the new class the name would be in the index already.
      rcases Nat.lt_trichotomy position classes.length with inside | last | beyond
      · rw [List.getElem?_append_left inside, ← indexes, free] at named
        cases named
      · exact last.symm
      · have none : (classes ++ [cls])[position]? = none :=
          List.getElem?_eq_none (by rw [List.length_append, List.length_singleton]; omega)
        rw [none] at named
        cases named
  · rw [KeyMap.get?_insert_of_ne _ _ same, indexes]
    by_cases inside : position < classes.length
    · rw [List.getElem?_append_left inside]
    · rw [List.getElem?_eq_none (by omega), List.getElem?_append_right (by omega)]
      cases position - classes.length <;> simp [Ne.symm same]

/-! ## Catalogues -/

structure DuplicateClass where
  name : String
deriving DecidableEq, Repr

def DuplicateClass.message (clash : DuplicateClass) : String :=
  "duplicate class in manifest: " ++ clash.name

structure Catalogue where
  classes : List AnnotatedClass
  index : KeyMap Nat
  ascending : KeyMap.Ascending index
  indexes : Indexes index classes

namespace Catalogue

def empty : Catalogue := ⟨[], [], List.Pairwise.nil, indexes_nil⟩

def find? (catalogue : Catalogue) (name : String) : Option AnnotatedClass :=
  (KeyMap.get? catalogue.index name).bind fun position => catalogue.classes[position]?

def size (catalogue : Catalogue) : Nat := catalogue.classes.length

/-- The catalogue with one more class, its procedures' declaring classes filled in. -/
def add (catalogue : Catalogue) (cls : AnnotatedClass) : Except DuplicateClass Catalogue :=
  if taken : KeyMap.contains catalogue.index cls.name = true then .error ⟨cls.name⟩
  else .ok
    { classes := catalogue.classes ++ [cls.completed]
      index := KeyMap.insert catalogue.index cls.name catalogue.classes.length
      ascending := KeyMap.ascending_insert catalogue.ascending _ _
      indexes := catalogue.indexes.append cls.completed (Option.not_isSome_iff_eq_none.1 taken) }

def addAll (catalogue : Catalogue) : List AnnotatedClass → Catalogue × Option DuplicateClass
  | [] => (catalogue, none)
  | cls :: rest =>
    match catalogue.add cls with
    | .ok larger => larger.addAll rest
    | .error clash => (catalogue, some clash)

def ofClasses (classes : List AnnotatedClass) : Except DuplicateClass Catalogue :=
  match empty.addAll classes with
  | (catalogue, none) => .ok catalogue
  | (_, some clash) => .error clash

/-- The catalogue with as many classes of the other one as could be added, and
the clash that stopped it. -/
def merge (catalogue other : Catalogue) : Catalogue × Option DuplicateClass :=
  catalogue.addAll other.classes

end Catalogue
end AnnotatedApi
