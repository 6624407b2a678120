import AnnotatedApi.Annotation.Parameter
import AnnotatedApi.Proofs.LastValues

/-!
# The members of a written parameter

In the object of a parameter the members after the constraints win over them, and the
two members in front of the constraints lose to a constraint of their key.
-/

set_option autoImplicit false

namespace AnnotatedApi

/-! ## Members of one parameter -/

namespace Parameter

open Json Entries

def member? (parameter : Parameter) : String → Option Value
  | "name" => some (.string parameter.name)
  | "in" => some (.string parameter.location.name)
  | "description" => parameter.description.map .string
  | "required" => some (.bool parameter.required)
  | "type" => parameter.type.map .string
  | "format" => parameter.format.map .string
  | "items" => parameter.items.map (·.toJson.sortKeys)
  | "collectionFormat" => parameter.collectionFormat.map .string
  | "schema" => parameter.schema.map (·.toJson.sortKeys)
  | _ => none

/-- The value under a key of the object that is written for the parameter. -/
def written? (parameter : Parameter) (key : String) : Option Value :=
  match parameter.toJson with
  | .object members => Entries.get? members key
  | _ => none

/-- Every member that is set stands in the written object with its own value. -/
def KeepsMembers (parameter : Parameter) : Prop :=
  ∀ key value, parameter.member? key = some value → parameter.written? key = some value

def memberKeys : List String :=
  ["name", "in", "description", "required", "type", "format", "items", "collectionFormat", "schema"]

def frontKeys : List String := ["name", "in"]

theorem member?_of_not_mem (parameter : Parameter) {key : String} (other : key ∉ memberKeys) :
    parameter.member? key = none := by
  unfold member?
  split
  case h_10 => rfl
  all_goals exact absurd (by decide) other

section Lookup
variable (parameter : Parameter) (key : String)

theorem lastValue?_member? (name : String) (value : Option Value) :
    lastValue? (Value.member? name value) key = if name = key then value else none := by
  cases value with
  | none => simp [Value.member?, lastValue?_nil]
  | some value => rw [Value.member?, lastValue?_singleton]

theorem lastValue?_leadingMembers :
    lastValue? parameter.leadingMembers key =
      if key ∈ frontKeys then parameter.member? key else none := by
  have pairs : parameter.leadingMembers =
      [("name", Value.string parameter.name)] ++
        [("in", Value.string parameter.location.name)] := rfl
  rw [pairs, lastValue?_append, lastValue?_singleton, lastValue?_singleton]
  by_cases front : key ∈ frontKeys
  · rw [if_pos front]
    simp only [frontKeys, List.mem_cons, List.not_mem_nil, or_false] at front
    rcases front with rfl | rfl <;> rfl
  · rw [if_neg front]
    simp only [frontKeys, List.mem_cons, List.not_mem_nil, or_false, not_or] at front
    rw [if_neg (Ne.symm front.1), if_neg (Ne.symm front.2)]
    rfl

theorem lastValue?_trailingMembers :
    lastValue? parameter.trailingMembers key =
      if key ∈ frontKeys then none else parameter.member? key := by
  simp only [trailingMembers, lastValue?_append, lastValue?_member?, lastValue?_singleton]
  by_cases isMember : key ∈ memberKeys
  · simp only [memberKeys, List.mem_cons, List.not_mem_nil, or_false] at isMember
    rcases isMember with rfl | rfl | rfl | rfl | rfl | rfl | rfl | rfl | rfl <;>
      simp [member?, frontKeys]
  · rw [member?_of_not_mem parameter isMember]
    simp only [memberKeys, List.mem_cons, List.not_mem_nil, or_false, not_or] at isMember
    obtain ⟨-, -, description, required, type, format, items, collectionFormat, schema⟩ := isMember
    rw [if_neg (Ne.symm description), if_neg (Ne.symm required), if_neg (Ne.symm type),
      if_neg (Ne.symm format), if_neg (Ne.symm items), if_neg (Ne.symm collectionFormat),
      if_neg (Ne.symm schema)]
    simp

theorem written?_eq :
    parameter.written? key =
      if key ∈ frontKeys then
        ((lastValue? parameter.constraints key).map .string).or (parameter.member? key)
      else (parameter.member? key).or ((lastValue? parameter.constraints key).map .string) := by
  have object : parameter.written? key = Entries.get? parameter.entries key := rfl
  rw [object, entries, get?_setAll, lastValue?_append, lastValue?_append, lastValue?_map,
    lastValue?_leadingMembers, lastValue?_trailingMembers]
  by_cases front : key ∈ frontKeys
  · rw [if_pos front, if_pos front, if_pos front]
    simp [Entries.get?]
  · rw [if_neg front, if_neg front, if_neg front]
    simp [Entries.get?]

theorem written?_of_not_member (unset : parameter.member? key = none) :
    parameter.written? key = (lastValue? parameter.constraints key).map .string := by
  rw [written?_eq, unset]
  split <;> simp

end Lookup

theorem member?_of_front (parameter : Parameter) :
    parameter.member? "name" = some (.string parameter.name) ∧
      parameter.member? "in" = some (.string parameter.location.name) := ⟨rfl, rfl⟩

theorem written?_of_back {parameter : Parameter} {key : String} {value : Value}
    (back : key ∉ frontKeys) (set : parameter.member? key = some value) :
    parameter.written? key = some value := by
  rw [written?_eq, if_neg back, set]
  rfl

/-- A member in front of the constraints is kept if the last constraint of its key repeats it. -/
theorem written?_of_front {parameter : Parameter} {key text : String} (front : key ∈ frontKeys)
    (set : parameter.member? key = some (.string text)) :
    parameter.written? key = some (.string text) ↔
      ∀ value, lastValue? parameter.constraints key = some value → value = text := by
  rw [written?_eq, if_pos front, set]
  cases lastValue? parameter.constraints key with
  | none => simp
  | some value => simp

theorem keepsMembers_iff (parameter : Parameter) :
    parameter.KeepsMembers ↔
      (∀ value, lastValue? parameter.constraints "name" = some value → value = parameter.name) ∧
      ∀ value, lastValue? parameter.constraints "in" = some value →
        value = parameter.location.name := by
  obtain ⟨name, location⟩ := parameter.member?_of_front
  have keepsName := written?_of_front (by decide) name
  have keepsLocation := written?_of_front (by decide) location
  constructor
  · intro keeps
    exact ⟨keepsName.1 (keeps _ _ name), keepsLocation.1 (keeps _ _ location)⟩
  · rintro ⟨nameKept, locationKept⟩ key value set
    by_cases front : key ∈ frontKeys
    · simp only [frontKeys, List.mem_cons, List.not_mem_nil, or_false] at front
      rcases front with rfl | rfl
      · rw [← set, name]
        exact keepsName.2 nameKept
      · rw [← set, location]
        exact keepsLocation.2 locationKept
    · exact written?_of_back front set

theorem nodup_keys_entries (parameter : Parameter) : (parameter.entries.map Prod.fst).Nodup :=
  nodup_keys_setAll _ List.nodup_nil

theorem withType_keeps (parameter : Parameter) (type : ValueType)
    (literals : Option (List String)) :
    (parameter.withType type literals).name = parameter.name ∧
      (parameter.withType type literals).location = parameter.location ∧
      (parameter.withType type literals).required = parameter.required ∧
      (parameter.withType type literals).constraints = parameter.constraints ∧
      (parameter.withType type literals).description = parameter.description := by
  unfold withType
  split <;> exact ⟨rfl, rfl, rfl, rfl, rfl⟩

end Parameter

/-! ## Members of the parameters of an operation -/

namespace ParameterContext

open Entries Json Text

variable (context : ParameterContext)

def untyped (required : Bool) (value : String) : Parameter :=
  let name := bareName (threeTokens value).2.1
  { name, required
    location := context.locationOf name
    constraints := Entries.setAll [] (constraintsOf context.tags name)
    description := nonEmpty? (threeTokens value).2.2 }

theorem parameter_eq (required : Bool) (value : String) :
    context.parameter required value =
      (context.untyped required value).withType (context.known.typeOf (threeTokens value).1)
        (KeyMap.get? (enumerations context.tags) (bareName (threeTokens value).2.1)) := rfl

theorem parameter_members (required : Bool) (value : String) :
    (context.parameter required value).required = required ∧
      (context.parameter required value).location =
        context.locationOf (context.parameter required value).name ∧
      (context.parameter required value).constraints =
        Entries.setAll [] (constraintsOf context.tags (context.parameter required value).name) ∧
      (context.parameter required value).description = nonEmpty? (threeTokens value).2.2 := by
  rw [parameter_eq]
  obtain ⟨sameName, sameLocation, sameFlag, sameConstraints, sameDescription⟩ :=
    (context.untyped required value).withType_keeps
      (context.known.typeOf (threeTokens value).1)
      (KeyMap.get? (enumerations context.tags) (bareName (threeTokens value).2.1))
  rw [sameName, sameLocation, sameFlag, sameConstraints, sameDescription]
  simp only [untyped, and_self]

/-- When a parameter keeps its members.  A constraint reaches the name and the location, and
of the other keys only those whose member is not set. -/
theorem written_members_of_parameters :
    (∀ parameter : Parameter,
      (parameter.KeepsMembers ↔
        (∀ value, lastValue? parameter.constraints "name" = some value → value = parameter.name) ∧
        ∀ value, lastValue? parameter.constraints "in" = some value →
          value = parameter.location.name) ∧
      (∀ key value, key ≠ "name" → key ≠ "in" → parameter.member? key = some value →
        parameter.written? key = some value) ∧
      (∀ key, parameter.member? key = none →
        parameter.written? key = (lastValue? parameter.constraints key).map .string) ∧
      (parameter.entries.map Prod.fst).Nodup) ∧
    (∀ parameter ∈ context.parameters,
      (∀ key, lastValue? parameter.constraints key =
        lastValue? (constraintsOf context.tags parameter.name) key) ∧
      parameter.location = context.locationOf parameter.name ∧
      (parameter.KeepsMembers ↔
        (∀ value, lastValue? (constraintsOf context.tags parameter.name) "name" = some value →
          value = parameter.name) ∧
        ∀ value, lastValue? (constraintsOf context.tags parameter.name) "in" = some value →
          value = parameter.location.name)) := by
  constructor
  · intro parameter
    refine ⟨parameter.keepsMembers_iff, ?_, ?_, parameter.nodup_keys_entries⟩
    · intro key value notName notLocation set
      have back : key ∉ Parameter.frontKeys := by
        simp [Parameter.frontKeys, notName, notLocation]
      exact Parameter.written?_of_back back set
    · exact fun key unset => parameter.written?_of_not_member key unset
  · intro parameter among
    have built : ∃ required value, context.parameter required value = parameter := by
      rcases List.mem_append.1 among with isRequired | isOptional
      · obtain ⟨value, -, same⟩ := List.mem_map.1 isRequired
        exact ⟨true, value, same⟩
      · obtain ⟨value, -, same⟩ := List.mem_map.1 isOptional
        exact ⟨false, value, same⟩
    obtain ⟨required, value, rfl⟩ := built
    obtain ⟨-, location, constraints, -⟩ := context.parameter_members required value
    have last : ∀ key, lastValue? (context.parameter required value).constraints key =
        lastValue? (constraintsOf context.tags (context.parameter required value).name) key := by
      intro key
      rw [constraints, lastValue?_setAll_nil]
    refine ⟨last, location, ?_⟩
    rw [Parameter.keepsMembers_iff, last, last]

def deckContext (tags : List (String × String)) : ParameterContext where
  procedure := ⟨"actionGetDeck", "Ferry", ["deck"], ""⟩
  tags := Tags.ofList (("parameter", "int32 $deck the deck") :: tags)
  path := "/decks"
  method := "get"
  known := KnownModels.ofNames []

theorem deck_mem_parameters (tags : List (String × String))
    (given : (deckContext tags).tags.values "parameter" = ["int32 $deck the deck"]) :
    (deckContext tags).parameter true "int32 $deck the deck" ∈ (deckContext tags).parameters := by
  rw [parameters, given]
  exact List.mem_append_left _ List.mem_cons_self

def ferryConstraints : List (String × String) :=
  [("constraint", "maximum $deck 4"), ("constraint", "format $deck byte"),
    ("constraint", "maximum $deck 9")]

theorem written_members_of_ferry :
    ∃ parameter ∈ (deckContext ferryConstraints).parameters, parameter.KeepsMembers ∧
      parameter.written? "maximum" = some (.string "9") ∧
      parameter.written? "format" = some (.string "int32") := by
  have among := deck_mem_parameters ferryConstraints (by decide)
  have isDeck : ((deckContext ferryConstraints).parameter true
      "int32 $deck the deck").name = "deck" := by decide
  have typed : ((deckContext ferryConstraints).parameter true
      "int32 $deck the deck").format = some "int32" := by decide
  have constraints : constraintsOf (deckContext ferryConstraints).tags "deck" =
      [("maximum", "4"), ("format", "byte"), ("maximum", "9")] := by decide
  generalize (deckContext ferryConstraints).parameter true "int32 $deck the deck" = deck
    at among isDeck typed
  obtain ⟨anyParameter, ofFerry⟩ := written_members_of_parameters (deckContext ferryConstraints)
  obtain ⟨last, -, keeps⟩ := ofFerry deck among
  obtain ⟨-, kept, constrained, -⟩ := anyParameter deck
  rw [isDeck, constraints] at keeps
  have ownFormat : deck.member? "format" = some (.string "int32") := by
    rw [Parameter.member?, typed]
    rfl
  have noName : lastValue? [("maximum", "4"), ("format", "byte"), ("maximum", "9")] "name" =
      none := by decide
  have noLocation : lastValue? [("maximum", "4"), ("format", "byte"), ("maximum", "9")] "in" =
      none := by decide
  refine ⟨deck, among, keeps.2 (by simp [noName, noLocation]), ?_, ?_⟩
  · rw [constrained "maximum" rfl, last, isDeck, constraints]
    rfl
  · exact kept "format" _ (by decide) (by decide) ownFormat

/-- A constraint named `in` moves a parameter of the query to the body. -/
theorem location_lost_to_constraint :
    ∃ parameter ∈ (deckContext [("constraint", "in $deck body")]).parameters,
      parameter.member? "in" = some (.string "query") ∧
        parameter.written? "in" = some (.string "body") ∧ ¬ parameter.KeepsMembers := by
  have among := deck_mem_parameters [("constraint", "in $deck body")] (by decide)
  have location : ((deckContext [("constraint", "in $deck body")]).parameter true
      "int32 $deck the deck").location = .query := by decide
  have constrained : lastValue? ((deckContext [("constraint", "in $deck body")]).parameter true
      "int32 $deck the deck").constraints "in" = some "body" := by decide +kernel
  generalize (deckContext [("constraint", "in $deck body")]).parameter true
    "int32 $deck the deck" = deck at among location constrained
  have own : deck.member? "in" = some (.string "query") := by
    rw [deck.member?_of_front.2, location]
    rfl
  have replaced : deck.written? "in" = some (.string "body") := by
    rw [Parameter.written?_eq, if_pos (by decide), constrained]
    rfl
  refine ⟨deck, among, own, replaced, ?_⟩
  intro keeps
  have kept := keeps "in" (.string "query") own
  simp [replaced] at kept

end ParameterContext
end AnnotatedApi
