import AnnotatedApi.Proofs.WrittenParameters

/-!
# The keys of a written parameter

Entries that are set one after the other have their keys in the order of the first
setting.  So the object of a parameter begins with the name and the location, goes on with
the constraints, and ends with the members that no constraint has put there before; as
every key stands once, the length that is declared for the object is the one it has.
-/

set_option autoImplicit false

namespace AnnotatedApi

/-! ## Keys in the order of their first setting -/

theorem eraseDups_of_nodup {keys : List String} (distinct : keys.Nodup) : keys.eraseDups = keys := by
  induction keys with
  | nil => rfl
  | cons key rest ih =>
    rw [List.nodup_cons] at distinct
    have kept : rest.filter (fun other => !other == key) = rest := by
      apply List.filter_eq_self.2
      intro other among
      simpa using ne_of_mem_of_not_mem among distinct.1
    rw [List.eraseDups_cons, kept, ih distinct.2]

namespace Entries
variable {α : Type}

theorem setAll_append (entries : Entries α) (front back : List (String × α)) :
    Entries.setAll entries (front ++ back) =
      Entries.setAll (Entries.setAll entries front) back := by
  rw [Entries.setAll, List.foldl_append]
  rfl

theorem keys_setAll (entries : Entries α) (pairs : List (String × α)) :
    (Entries.setAll entries pairs).map Prod.fst =
      entries.map Prod.fst ++
        ((pairs.map Prod.fst).filter (· ∉ entries.map Prod.fst)).eraseDups := by
  induction pairs generalizing entries with
  | nil => simp [Entries.setAll]
  | cons pair rest ih =>
    have step : Entries.setAll entries (pair :: rest) =
        Entries.setAll (Entries.set entries pair.1 pair.2) rest := rfl
    rw [step, ih, keys_set, List.map_cons]
    by_cases present : pair.1 ∈ entries.map Prod.fst
    · have old : ¬ decide (pair.1 ∉ entries.map Prod.fst) = true := by simpa using present
      rw [if_pos present, List.filter_cons, if_neg old]
    · have new : decide (pair.1 ∉ entries.map Prod.fst) = true := by simpa using present
      -- The keys behind it lose the new key as well as the old ones.
      have behind : (rest.map Prod.fst).filter (· ∉ entries.map Prod.fst ++ [pair.1]) =
          ((rest.map Prod.fst).filter (· ∉ entries.map Prod.fst)).filter (fun key => !key == pair.1) := by
        rw [List.filter_filter]
        congr 1
        funext key
        rw [Bool.eq_iff_iff]
        simp only [decide_eq_true_eq, Bool.and_eq_true, Bool.not_eq_true', beq_eq_false_iff_ne,
          List.mem_append, List.mem_singleton, not_or, ne_eq]
        exact and_comm
      rw [if_neg present, List.filter_cons, if_pos new, List.eraseDups_cons, behind,
        List.append_assoc, List.singleton_append]

theorem keys_setAll_nil (pairs : List (String × α)) :
    (Entries.setAll [] pairs).map Prod.fst = (pairs.map Prod.fst).eraseDups := by
  rw [keys_setAll]
  simp

theorem keys_setAll_of_nodup (entries : Entries α) {pairs : List (String × α)}
    (distinct : (pairs.map Prod.fst).Nodup) :
    (Entries.setAll entries pairs).map Prod.fst =
      entries.map Prod.fst ++ (pairs.map Prod.fst).filter (· ∉ entries.map Prod.fst) := by
  rw [keys_setAll, eraseDups_of_nodup (distinct.filter _)]

theorem eq_filterMap_keys {entries : Entries α} (distinct : (entries.map Prod.fst).Nodup) :
    entries = (entries.map Prod.fst).filterMap fun key =>
      (lastValue? entries key).map (key, ·) := by
  induction entries with
  | nil => rfl
  | cons pair rest ih =>
    rw [List.map_cons, List.nodup_cons] at distinct
    have here : lastValue? (pair :: rest) pair.1 = some pair.2 := by
      rw [lastValue?_cons, (lastValue?_eq_none_iff rest pair.1).2 distinct.1, if_pos rfl]
      rfl
    have behind : ∀ key ∈ rest.map Prod.fst,
        (lastValue? (pair :: rest) key).map (key, ·) = (lastValue? rest key).map (key, ·) := by
      intro key among
      have other : pair.1 ≠ key := Ne.symm (ne_of_mem_of_not_mem among distinct.1)
      rw [lastValue?_cons, if_neg other, Option.or_none]
    rw [List.map_cons, List.filterMap_cons, here, List.filterMap_congr behind, ← ih distinct.2]
    rfl

/-- What is set one after the other has its keys in the order of their first setting, each
with its last value. -/
theorem setAll_nil_eq (pairs : List (String × α)) :
    Entries.setAll [] pairs = (pairs.map Prod.fst).eraseDups.filterMap fun key =>
      (lastValue? pairs key).map (key, ·) := by
  have distinct : ((Entries.setAll ([] : Entries α) pairs).map Prod.fst).Nodup :=
    nodup_keys_setAll pairs List.nodup_nil
  rw [eq_filterMap_keys distinct, keys_setAll_nil]
  simp only [lastValue?_setAll_nil]

end Entries

/-! ## The members of a parameter -/

namespace Parameter

open Json Entries

def backKeys : List String :=
  ["description", "required", "type", "format", "items", "collectionFormat", "schema"]

theorem keys_member? (key : String) (value : Option Value) :
    (Value.member? key value).map Prod.fst = bif value.isSome then [key] else [] := by
  cases value <;> rfl

theorem keys_trailingMembers (parameter : Parameter) :
    parameter.trailingMembers.map Prod.fst =
      backKeys.filter fun key => (parameter.member? key).isSome := by
  have parts : backKeys = ["description"] ++ ["required"] ++ ["type"] ++ ["format"] ++ ["items"] ++
      ["collectionFormat"] ++ ["schema"] := rfl
  rw [parts]
  simp only [trailingMembers, List.map_append, keys_member?, Option.isSome_map, List.map_cons,
    List.map_nil, List.filter_append, List.filter_singleton, member?, Option.isSome_some, cond_true]

theorem keys_entries (parameter : Parameter)
    (distinct : (parameter.constraints.map Prod.fst).Nodup) :
    parameter.entries.map Prod.fst =
      frontKeys ++ (parameter.constraints.map Prod.fst).filter (· ∉ frontKeys) ++
        backKeys.filter fun key =>
          (parameter.member? key).isSome ∧ key ∉ parameter.constraints.map Prod.fst := by
  have front : (Entries.setAll [] parameter.leadingMembers).map Prod.fst = frontKeys := by
    have keys : parameter.leadingMembers.map Prod.fst = frontKeys := rfl
    rw [keys_setAll_nil, keys, eraseDups_of_nodup (by decide)]
  have middleKeys : (parameter.constraints.map fun pair => (pair.1, Value.string pair.2)).map
      Prod.fst = parameter.constraints.map Prod.fst := by
    rw [List.map_map]
    rfl
  have backDistinct : (parameter.trailingMembers.map Prod.fst).Nodup := by
    rw [keys_trailingMembers]
    exact List.Nodup.filter _ (by decide)
  rw [entries, setAll_append, setAll_append, keys_setAll_of_nodup _ backDistinct,
    keys_setAll_of_nodup _ (middleKeys ▸ distinct), front, middleKeys, keys_trailingMembers,
    List.filter_filter]
  congr 1
  apply List.filter_congr
  intro key isBack
  have notFront : key ∉ frontKeys := by
    revert key
    decide
  rw [Bool.eq_iff_iff]
  simp only [Bool.and_eq_true, decide_eq_true_eq, List.mem_append, List.mem_filter, notFront,
    false_or, not_false_eq_true, and_true]
  exact and_comm

/-! ## Building a parameter -/

/-- The parameter with one more constraint; a key that it has already keeps its place. -/
def constrain (parameter : Parameter) (key value : String) : Parameter :=
  { parameter with constraints := Entries.set parameter.constraints key value }

/-- What becomes of a parameter of which only three members are known: constraints are
added, and the other members are set and changed, in any order. -/
inductive Built (name : String) (location : Location) (required : Bool) :
    List (String × String) → Parameter → Prop where
  | fresh : Built name location required [] { name, location, required }
  | constrain {added : List (String × String)} {parameter : Parameter}
      (built : Built name location required added parameter) (key value : String) :
      Built name location required (added ++ [(key, value)]) (parameter.constrain key value)
  | withMembers {added : List (String × String)} {parameter : Parameter}
      (built : Built name location required added parameter)
      (description type format : Option String) (items : Option Schema)
      (collectionFormat : Option String) (schema : Option Schema) :
      Built name location required added
        { parameter with description, type, format, items, collectionFormat, schema }

theorem Built.constraints_eq {name : String} {location : Location} {required : Bool}
    {added : List (String × String)} {parameter : Parameter}
    (built : Built name location required added parameter) :
    parameter.constraints = Entries.setAll [] added := by
  induction built with
  | fresh => rfl
  | constrain built key value ih =>
    rw [setAll_append, ← ih]
    rfl
  | withMembers built description type format items collectionFormat schema ih => exact ih

/-! ## Writing a parameter -/

inductive ObjectCall where
  /-- The object begins; so many members are to come. -/
  | start (declared : Nat)
  | member (key : String) (value : Value)
  | finish

/-- The members of which a writer is told, if they are as many as declared. -/
def ObjectCall.members? : Nat → List ObjectCall → Option (List (String × Value))
  | 0, [.finish] => some []
  | declared + 1, .member key value :: rest =>
    (ObjectCall.members? declared rest).map ((key, value) :: ·)
  | _, _ => none

def ObjectCall.object? : List ObjectCall → Option Value
  | .start declared :: rest => (ObjectCall.members? declared rest).map .object
  | _ => none

def objectCalls (parameter : Parameter) : List ObjectCall :=
  .start parameter.entries.length ::
    (parameter.entries.map (fun entry => .member entry.1 entry.2) ++ [.finish])

theorem members?_of_entries (entries : List (String × Value)) :
    ObjectCall.members? entries.length
      (entries.map (fun entry => .member entry.1 entry.2) ++ [.finish]) = some entries := by
  induction entries with
  | nil => rfl
  | cons entry rest ih =>
    rw [List.length_cons, List.map_cons, List.cons_append, ObjectCall.members?, ih, Option.map_some]

/-- A parameter that was built has the keys of its object in one order, and each of them
once, so a writer that counts on the declared length writes the same object. -/
theorem keys_of_built {name : String} {location : Location} {required : Bool}
    {added : List (String × String)} {parameter : Parameter}
    (built : Built name location required added parameter) :
    (parameter.entries.map Prod.fst =
      ["name", "in"] ++ (added.map Prod.fst).eraseDups.filter (· ∉ ["name", "in"]) ++
        ["description", "required", "type", "format", "items", "collectionFormat", "schema"].filter
          fun key => (parameter.member? key).isSome ∧ key ∉ added.map Prod.fst) ∧
    (parameter.entries.map Prod.fst).Nodup ∧
    ObjectCall.object? parameter.objectCalls = some (.object parameter.entries) ∧
    parameter.toJson = .object parameter.entries := by
  have constraintKeys : parameter.constraints.map Prod.fst = (added.map Prod.fst).eraseDups := by
    rw [built.constraints_eq, keys_setAll_nil]
  have distinct : (parameter.constraints.map Prod.fst).Nodup := by
    rw [built.constraints_eq]
    exact nodup_keys_setAll added List.nodup_nil
  refine ⟨?_, parameter.nodup_keys_entries, ?_, rfl⟩
  · rw [parameter.keys_entries distinct, constraintKeys]
    simp only [List.mem_eraseDups]
    rfl
  · rw [objectCalls, ObjectCall.object?, members?_of_entries, Option.map_some]

def deckConstraints : List (String × String) :=
  [("maximum", "4"), ("in", "body"), ("type", "number"), ("maximum", "9")]

def deck : Parameter where
  name := "deck"
  location := .query
  required := true
  constraints := [("maximum", "9"), ("in", "body"), ("type", "number")]
  type := some "integer"
  format := some "int32"

theorem built_deck : Built "deck" .query true deckConstraints deck := by
  have start : Built "deck" .query true [] _ := .fresh
  have constrained := ((start.constrain "maximum" "4").constrain "in" "body").constrain
    "type" "number"
  exact (constrained.withMembers none (some "integer") (some "int32") none none none).constrain
    "maximum" "9"

theorem keys_of_built_deck :
    Built "deck" .query true deckConstraints deck ∧
      deck.entries.map Prod.fst = ["name", "in", "maximum", "type", "required", "format"] := by
  refine ⟨built_deck, (keys_of_built built_deck).1.trans ?_⟩
  decide

end Parameter
end AnnotatedApi
