import AnnotatedApi.Proofs.WrittenParameters
import Mathlib.Data.List.TakeWhile

/-!
# Enumerated parameters

An enumeration names its parameter by a token that loses every dollar sign, the name of a
parameter loses only those in front.  So an enumeration reaches the parameter of the same
token exactly if no dollar sign stands inside the name, and one whose name has dollar signs
inside reaches the parameter that is called so without them.
-/

set_option autoImplicit false

namespace AnnotatedApi

open Text Entries

/-! ## Two ways to drop dollar signs -/

theorem withoutDollars_eq (token : String) :
    withoutDollars token = String.ofList ((bareName token).toList.filter (· != '$')) := by
  have front : (token.toList.takeWhile (· == '$')).filter (· != '$') = [] := by
    apply List.filter_eq_nil_iff.2
    intro c among
    simpa using List.mem_takeWhile_imp among
  rw [withoutDollars, bareName, String.toList_ofList]
  conv_lhs => rw [← List.takeWhile_append_dropWhile (p := (· == '$')) (l := token.toList)]
  rw [List.filter_append, front, List.nil_append]

theorem not_mem_withoutDollars (token : String) : '$' ∉ (withoutDollars token).toList := by
  rw [withoutDollars, String.toList_ofList, List.mem_filter]
  simp

/-- The two names of a token agree if no dollar sign stands behind those in front. -/
theorem withoutDollars_eq_bareName_iff (token : String) :
    withoutDollars token = bareName token ↔ '$' ∉ (bareName token).toList := by
  constructor
  · intro same
    rw [← same]
    exact not_mem_withoutDollars token
  · intro absent
    have kept : (bareName token).toList.filter (· != '$') = (bareName token).toList := by
      apply List.filter_eq_self.2
      intro c among
      simpa using ne_of_mem_of_not_mem among absent
    rw [withoutDollars_eq, kept, String.ofList_toList]

/-! ## Enumerations -/

def Enumerates (value name : String) (literals : List String) : Prop :=
  ∃ token, tokens value = token :: literals ∧ withoutDollars token = name

theorem enumeration?_eq_some_iff (value name : String) (literals : List String) :
    enumeration? value = some (name, literals) ↔ Enumerates value name literals := by
  rw [enumeration?, Enumerates]
  cases tokens value with
  | nil => simp
  | cons token rest =>
    simp only [Option.some.injEq, Prod.mk.injEq, List.cons.injEq]
    constructor
    · rintro ⟨same, rfl⟩
      exact ⟨token, ⟨rfl, rfl⟩, same⟩
    · rintro ⟨token', ⟨rfl, rfl⟩, same⟩
      exact ⟨same, rfl⟩

theorem Enumerates.not_mem {value name : String} {literals : List String}
    (enumerates : Enumerates value name literals) : '$' ∉ name.toList := by
  obtain ⟨token, -, rfl⟩ := enumerates
  exact not_mem_withoutDollars token

/-- An enumeration is one of the parameter with the same token only if both drop the same
dollar signs. -/
theorem enumerates_bareName_iff {value token : String} {literals : List String}
    (listed : tokens value = token :: literals) :
    Enumerates value (bareName token) literals ↔ '$' ∉ (bareName token).toList := by
  constructor
  · exact Enumerates.not_mem
  · intro absent
    exact ⟨token, listed, (withoutDollars_eq_bareName_iff token).2 absent⟩

theorem get?_enumerations (tags : Tags) (name : String) :
    KeyMap.get? (enumerations tags) name =
      lastValue? ((Tags.values tags "enum").filterMap enumeration?) name := by
  rw [enumerations, KeyMap.get?_ofList]

def Carries (node : Schema) (literals : List String) : Prop :=
  node.enumeration = some literals ∧ node.default = some (.string (literals.headD ""))

def CarriesNone (node : Schema) : Prop := node.enumeration = none ∧ node.default = none

section Items
variable {items : ElementType} (other : ∀ model, items ≠ .reference model)
include other

theorem carriesNone_schema : CarriesNone items.schema := by
  cases items with
  | primitive type => exact ⟨rfl, rfl⟩
  | map values => exact ⟨rfl, rfl⟩
  | reference model => exact absurd rfl (other model)

theorem carries_enumeratedItems_iff (given : Option (List String)) (literals : List String) :
    Carries (enumeratedItems items given) literals ↔ given = some literals := by
  cases given with
  | none => simp [Carries, enumeratedItems, (carriesNone_schema other).1]
  | some listed =>
    simp only [Carries, enumeratedItems, Option.some.injEq]
    constructor
    · exact fun same => same.1
    · rintro rfl
      exact ⟨rfl, rfl⟩

theorem carriesNone_enumeratedItems_iff (given : Option (List String)) :
    CarriesNone (enumeratedItems items given) ↔ given = none := by
  cases given with
  | none => simp [enumeratedItems, carriesNone_schema other]
  | some listed => simp [CarriesNone, enumeratedItems]

end Items

namespace ParameterContext

variable (context : ParameterContext) (required : Bool) (value : String)

theorem name_parameter :
    (context.parameter required value).name = bareName (threeTokens value).2.1 :=
  (Parameter.withType_keeps _ _ _).1

section Array
variable {items : ElementType}
  (array : context.known.typeOf (threeTokens value).1 = .array items)
  (other : ∀ model, items ≠ .reference model)
include array other

theorem items_of_array :
    (context.parameter required value).items =
      some (enumeratedItems items
        (lastValue? ((Tags.values context.tags "enum").filterMap enumeration?)
          (context.parameter required value).name)) := by
  rw [name_parameter, ← get?_enumerations, parameter_eq, array]
  cases items with
  | primitive type => rfl
  | map values => rfl
  | reference model => exact absurd rfl (other model)

theorem exists_items_of_array :
    ∃ node, (context.parameter required value).items = some node ∧
      (∀ literals, Carries node literals ↔
        ToldLast Enumerates (Tags.values context.tags "enum")
          (context.parameter required value).name literals) ∧
      (CarriesNone node ↔ ∀ enum ∈ Tags.values context.tags "enum", ∀ literals,
        ¬ Enumerates enum (context.parameter required value).name literals) ∧
      (CarriesNone node ∨ ∃ literals, Carries node literals) := by
  refine ⟨_, context.items_of_array required value array other, ?_, ?_, ?_⟩
  · intro literals
    rw [carries_enumeratedItems_iff other,
      lastValue?_eq_some_iff_toldLast enumeration? enumeration?_eq_some_iff]
  · rw [carriesNone_enumeratedItems_iff other,
      lastValue?_eq_none_iff_untold enumeration? enumeration?_eq_some_iff]
  · simp only [carries_enumeratedItems_iff other, carriesNone_enumeratedItems_iff other]
    cases lastValue? ((Tags.values context.tags "enum").filterMap enumeration?)
        (context.parameter required value).name with
    | none => exact Or.inl rfl
    | some literals => exact Or.inr ⟨literals, rfl⟩

end Array

/-- The items of an array parameter carry what the last enumeration of its name lists, where
enumerations are compared by their names without dollar signs.  So an enumeration that names
the parameter by the very same token reaches it exactly if no dollar sign stands inside the
name, and where none stands inside the names of enumerations, the items carry nothing
exactly if no enumeration has the parameter's name behind its dollar signs. -/
theorem enumeration_of_array_parameter {items : ElementType}
    (array : context.known.typeOf (threeTokens value).1 = .array items)
    (other : ∀ model, items ≠ .reference model) :
    ∃ node, (context.parameter required value).items = some node ∧
      (∀ literals, Carries node literals ↔
        ToldLast Enumerates (Tags.values context.tags "enum")
          (context.parameter required value).name literals) ∧
      (CarriesNone node ↔ ∀ enum ∈ Tags.values context.tags "enum", ∀ literals,
        ¬ Enumerates enum (context.parameter required value).name literals) ∧
      (∀ enum ∈ Tags.values context.tags "enum", ∀ listed,
        tokens enum = (threeTokens value).2.1 :: listed →
          ((∃ literals, Carries node literals) ↔
            '$' ∉ (context.parameter required value).name.toList)) ∧
      (∀ before enum after literals,
        Tags.values context.tags "enum" = before ++ enum :: after →
          tokens enum = (threeTokens value).2.1 :: literals →
            (∀ later ∈ after, ∀ others,
              ¬ Enumerates later (context.parameter required value).name others) →
              (Carries node literals ↔
                '$' ∉ (context.parameter required value).name.toList)) ∧
      ((∀ enum ∈ Tags.values context.tags "enum", ∀ token listed,
          tokens enum = token :: listed → '$' ∉ (bareName token).toList) →
        (CarriesNone node ↔ ∀ enum ∈ Tags.values context.tags "enum", ∀ token listed,
          tokens enum = token :: listed →
            bareName token ≠ (context.parameter required value).name)) := by
  obtain ⟨node, isItems, carries_iff, carriesNone_iff, decided⟩ :=
    context.exists_items_of_array required value array other
  have reached : ∀ literals, Carries node literals →
      '$' ∉ (context.parameter required value).name.toList := by
    intro literals carries
    obtain ⟨-, enum, -, -, enumerates, -⟩ := (carries_iff literals).1 carries
    exact enumerates.not_mem
  have own : ∀ enum literals, tokens enum = (threeTokens value).2.1 :: literals →
      '$' ∉ (context.parameter required value).name.toList →
        Enumerates enum (context.parameter required value).name literals := by
    intro enum literals listed plain
    rw [name_parameter] at plain ⊢
    exact (enumerates_bareName_iff listed).2 plain
  refine ⟨node, isItems, carries_iff, carriesNone_iff, ?_, ?_, ?_⟩
  · intro enum among listed sameToken
    constructor
    · rintro ⟨literals, carries⟩
      exact reached literals carries
    · intro plain
      rcases decided with nothing | carried
      · exact absurd (own enum listed sameToken plain) (carriesNone_iff.1 nothing enum among listed)
      · exact carried
  · intro before enum after literals split sameToken silent
    constructor
    · exact reached literals
    · intro plain
      exact (carries_iff literals).2
        ⟨before, enum, after, split, own enum literals sameToken plain, silent⟩
  · intro plain
    rw [carriesNone_iff]
    constructor
    · intro unlisted enum among token listed split sameName
      refine unlisted enum among listed ⟨token, split, ?_⟩
      rw [(withoutDollars_eq_bareName_iff token).2 (plain enum among token listed split), sameName]
    · rintro unlisted enum among listed ⟨token, split, sameName⟩
      apply unlisted enum among token listed split
      rw [← (withoutDollars_eq_bareName_iff token).2 (plain enum among token listed split), sameName]

def hatchContext (parameter enumeration : String) : ParameterContext where
  procedure := ⟨"actionGetHatch", "Ferry", [], ""⟩
  tags := Tags.ofList [("parameter", parameter), ("enum", enumeration)]
  path := "/hatch"
  method := "get"
  known := KnownModels.ofNames []

theorem enumeration_of_hatch :
    KnownModels.typeOf (.ofNames []) (threeTokens "string[] $side the hatch").1 =
        .array (.primitive ⟨"string", none⟩) ∧
      ∃ node, ((hatchContext "string[] $side the hatch" "$side left right").parameter true
          "string[] $side the hatch").items = some node ∧ Carries node ["left", "right"] := by
  have array : KnownModels.typeOf (.ofNames []) (threeTokens "string[] $side the hatch").1 =
      .array (.primitive ⟨"string", none⟩) := by
    decide
  obtain ⟨node, isItems, -, -, -, lastOfToken, -⟩ :=
    (hatchContext "string[] $side the hatch" "$side left right").enumeration_of_array_parameter true
      "string[] $side the hatch" array nofun
  have listed : tokens "$side left right" =
      (threeTokens "string[] $side the hatch").2.1 :: ["left", "right"] := by decide
  refine ⟨array, node, isItems, ?_⟩
  exact (lastOfToken [] "$side left right" [] ["left", "right"] (by decide) listed nofun).2
    (by decide)

/-- An enumeration of the very name token of a parameter does not reach it, and another one
reaches a parameter that it does not name. -/
theorem enumeration_lost_hatch :
    (tokens "$left$right open shut" =
        (threeTokens "string[] $left$right the hatch").2.1 :: ["open", "shut"] ∧
      ∃ node, ((hatchContext "string[] $left$right the hatch" "$left$right open shut").parameter
          true "string[] $left$right the hatch").items = some node ∧ CarriesNone node) ∧
    (bareName "left$right" ≠ ((hatchContext "string[] $leftright the hatch"
          "left$right open shut").parameter true "string[] $leftright the hatch").name ∧
      ∃ node, ((hatchContext "string[] $leftright the hatch" "left$right open shut").parameter
          true "string[] $leftright the hatch").items = some node ∧
        Carries node ["open", "shut"]) := by
  refine ⟨⟨by decide, _, rfl, rfl, rfl⟩, by decide, _, rfl, rfl, rfl⟩

end ParameterContext
end AnnotatedApi
