import AnnotatedApi.Proofs.EnumeratedParameters
import AnnotatedApi.Proofs.ParameterKeys
import AnnotatedApi.Proofs.Text

/-!
# The parameters of an operation

Every annotation of a parameter gives one parameter, the required ones first.  Its value is
two tokens and a rest, and from these, the constraints on the name and the request that the
operation answers, every member follows.
-/

set_option autoImplicit false

namespace AnnotatedApi

open Text Entries

/-! ## The tokens of a value -/

/-- The text is a token, the white space behind it, and a rest that begins with none. -/
structure IsSplit (text token gap rest : List Char) : Prop where
  split : text = token ++ (gap ++ rest)
  visible : ∀ c ∈ token, isSpace c = false
  spaces : ∀ c ∈ gap, isSpace c = true
  apart : gap = [] → rest = []
  ended : ∀ c ∈ rest.head?, isSpace c = false

theorem IsSplit.not_visible_gap {text token gap rest : List Char}
    (parts : IsSplit text token gap rest) : ∀ c ∈ (gap ++ rest).head?, (!isSpace c) = false := by
  intro c first
  cases gap with
  | nil =>
    rw [parts.apart rfl] at first
    cases first
  | cons space gap =>
    obtain rfl : space = c := by simpa using first
    simpa using parts.spaces space List.mem_cons_self

theorem isSplit_iff (text token rest : List Char) :
    (∃ gap, IsSplit text token gap rest) ↔ headToken text = token ∧ afterToken text = rest := by
  constructor
  · rintro ⟨gap, parts⟩
    have visible : ∀ c ∈ token, (!isSpace c) = true := by
      intro c among
      rw [parts.visible c among]
      rfl
    obtain ⟨token_eq, behind⟩ := takeWhile_dropWhile_append visible parts.not_visible_gap
    rw [headToken, afterToken, parts.split, token_eq, behind]
    exact ⟨rfl, (takeWhile_dropWhile_append parts.spaces parts.ended).2⟩
  · rintro ⟨rfl, rfl⟩
    refine ⟨(text.dropWhile fun c => !isSpace c).takeWhile isSpace, ?_, ?_, ?_, ?_, ?_⟩
    · rw [headToken, afterToken, List.takeWhile_append_dropWhile, List.takeWhile_append_dropWhile]
    · intro c among
      simpa using List.mem_takeWhile_imp among
    · intro c among
      exact List.mem_takeWhile_imp among
    · intro noGap
      -- A text behind the token would begin with white space.
      have stop := not_head_dropWhile (fun c => !isSpace c) text
      rw [afterToken]
      cases behind : text.dropWhile fun c => !isSpace c with
      | nil => rfl
      | cons c rest =>
        rw [behind] at noGap stop
        have space : isSpace c = true := by simpa using stop c rfl
        rw [List.takeWhile_cons_of_pos space] at noGap
        cases noGap
    · exact not_head_dropWhile isSpace _

def SplitsInto (value first second rest : String) : Prop :=
  ∃ gap behind gap', IsSplit value.toList first.toList gap behind ∧
    IsSplit behind second.toList gap' rest.toList

theorem splitsInto_iff (value first second rest : String) :
    SplitsInto value first second rest ↔ threeTokens value = (first, second, rest) := by
  have parts : SplitsInto value first second rest ↔
      ∃ behind, (∃ gap, IsSplit value.toList first.toList gap behind) ∧
        ∃ gap, IsSplit behind second.toList gap rest.toList := by
    constructor
    · rintro ⟨gap, behind, gap', front, back⟩
      exact ⟨behind, ⟨gap, front⟩, gap', back⟩
    · rintro ⟨behind, ⟨gap, front⟩, gap', back⟩
      exact ⟨gap, behind, gap', front, back⟩
  rw [parts]
  simp only [isSplit_iff, threeTokens, Prod.mk.injEq, ← String.toList_inj, String.toList_ofList]
  constructor
  · rintro ⟨behind, ⟨isFirst, rfl⟩, isSecond, isRest⟩
    exact ⟨isFirst, isSecond, isRest⟩
  · rintro ⟨isFirst, isSecond, isRest⟩
    exact ⟨_, ⟨isFirst, rfl⟩, isSecond, isRest⟩

def IsBare (token name : String) : Prop :=
  ∃ count, token.toList = List.replicate count '$' ++ name.toList ∧ name.toList.head? ≠ some '$'

theorem isBare_iff (token name : String) : IsBare token name ↔ bareName token = name := by
  rw [bareName, ← String.toList_inj, String.toList_ofList]
  constructor
  · rintro ⟨count, split, stop⟩
    have dollars : ∀ c ∈ List.replicate count '$', (c == '$') = true := by
      intro c among
      simpa using List.eq_of_mem_replicate among
    have ended : ∀ c ∈ name.toList.head?, (c == '$') = false := by
      intro c first
      rw [beq_eq_false_iff_ne]
      rintro rfl
      exact stop first
    rw [split]
    exact (takeWhile_dropWhile_append dollars ended).2
  · intro same
    have dollars : token.toList.takeWhile (· == '$') =
        List.replicate (token.toList.takeWhile (· == '$')).length '$' := by
      apply List.eq_replicate_of_mem
      intro c among
      simpa using List.mem_takeWhile_imp among
    refine ⟨(token.toList.takeWhile (· == '$')).length, ?_, ?_⟩
    · rw [← dollars, ← same, List.takeWhile_append_dropWhile]
    · intro first
      rw [← same] at first
      have stop := not_head_dropWhile (· == '$') token.toList '$' first
      cases stop

/-! ## Locations -/

namespace Location

def IsForm (consumes : String) : Prop :=
  consumes = "multipart/form-data" ∨ consumes = "application/x-www-form-urlencoded"

def HasBody (method : String) : Prop := method = "put" ∨ method = "post"

def IsTemplated (path name : String) : Prop :=
  ∃ before after, path = before ++ ("\x7b" ++ name ++ "\x7d") ++ after

/-- The table of locations.  A form goes by the signature alone, a request with a body by
the path alone, and any other request by both. -/
inductive TravelsIn (name method consumes path : String) (bound : Prop) : Location → Prop where
  | boundInForm (form : IsForm consumes) (taken : bound) :
      TravelsIn name method consumes path bound .path
  | form (form : IsForm consumes) (free : ¬ bound) :
      TravelsIn name method consumes path bound .formData
  | templatedWithBody (plain : ¬ IsForm consumes) (body : HasBody method)
      (templated : IsTemplated path name) : TravelsIn name method consumes path bound .path
  | body (plain : ¬ IsForm consumes) (body : HasBody method)
      (untemplated : ¬ IsTemplated path name) : TravelsIn name method consumes path bound .body
  | templated (plain : ¬ IsForm consumes) (bodiless : ¬ HasBody method)
      (templated : IsTemplated path name) : TravelsIn name method consumes path bound .path
  | query (plain : ¬ IsForm consumes) (bodiless : ¬ HasBody method)
      (untemplated : ¬ IsTemplated path name) (taken : bound) :
      TravelsIn name method consumes path bound .query
  | header (plain : ¬ IsForm consumes) (bodiless : ¬ HasBody method)
      (untemplated : ¬ IsTemplated path name) (free : ¬ bound) :
      TravelsIn name method consumes path bound .header

theorem isInPath_iff (path name : String) :
    isInPath path name = true ↔ IsTemplated path name := by
  rw [isInPath, occursIn_iff]
  constructor
  · rintro ⟨before, after, split⟩
    refine ⟨String.ofList before, String.ofList after, ?_⟩
    rw [← String.toList_inj, ← split]
    simp
  · rintro ⟨before, after, rfl⟩
    refine ⟨before.toList, after.toList, ?_⟩
    simp

theorem formTypes_iff (consumes : String) :
    formTypes.contains consumes = true ↔ IsForm consumes := by
  simp [formTypes, IsForm]

theorem methodsWithBody_iff (method : String) :
    methodsWithBody.contains method = true ↔ HasBody method := by
  simp [methodsWithBody, HasBody]

theorem exists_travelsIn (name method consumes path : String) (bound : Prop) :
    ∃ location, TravelsIn name method consumes path bound location := by
  by_cases form : IsForm consumes
  · by_cases taken : bound
    · exact ⟨.path, .boundInForm form taken⟩
    · exact ⟨.formData, .form form taken⟩
  · by_cases body : HasBody method
    · by_cases templated : IsTemplated path name
      · exact ⟨.path, .templatedWithBody form body templated⟩
      · exact ⟨.body, .body form body templated⟩
    · by_cases templated : IsTemplated path name
      · exact ⟨.path, .templated form body templated⟩
      · by_cases taken : bound
        · exact ⟨.query, .query form body templated taken⟩
        · exact ⟨.header, .header form body templated taken⟩

section Travels
variable {name method consumes path : String} {inSignature : Bool} {location : Location}

theorem TravelsIn.ofParameter_eq
    (travels : TravelsIn name method consumes path (inSignature = true) location) :
    ofParameter name method consumes path inSignature = location := by
  rw [ofParameter]
  cases travels with
  | boundInForm form taken => rw [if_pos ((formTypes_iff _).2 form), if_pos taken]
  | form form free => rw [if_pos ((formTypes_iff _).2 form), if_neg free]
  | templatedWithBody plain body templated =>
    rw [if_neg (mt (formTypes_iff _).1 plain), if_pos ((isInPath_iff _ _).2 templated)]
  | body plain body untemplated =>
    rw [if_neg (mt (formTypes_iff _).1 plain), if_neg (mt (isInPath_iff _ _).1 untemplated),
      if_pos ((methodsWithBody_iff _).2 body)]
  | templated plain bodiless templated =>
    rw [if_neg (mt (formTypes_iff _).1 plain), if_pos ((isInPath_iff _ _).2 templated)]
  | query plain bodiless untemplated taken =>
    rw [if_neg (mt (formTypes_iff _).1 plain), if_neg (mt (isInPath_iff _ _).1 untemplated),
      if_neg (mt (methodsWithBody_iff _).1 bodiless), if_pos taken]
  | header plain bodiless untemplated free =>
    rw [if_neg (mt (formTypes_iff _).1 plain), if_neg (mt (isInPath_iff _ _).1 untemplated),
      if_neg (mt (methodsWithBody_iff _).1 bodiless), if_neg free]

theorem travelsIn_iff :
    TravelsIn name method consumes path (inSignature = true) location ↔
      ofParameter name method consumes path inSignature = location := by
  constructor
  · exact TravelsIn.ofParameter_eq
  · rintro rfl
    obtain ⟨location, travels⟩ := exists_travelsIn name method consumes path (inSignature = true)
    rwa [travels.ofParameter_eq]

end Travels
end Location

/-! ## Constraints -/

inductive ConstraintsOn (name : String) : List String → List (String × String) → Prop where
  | nil : ConstraintsOn name [] []
  | own {value key token text : String} {values : List String} {pairs : List (String × String)}
      (split : SplitsInto value key token text) (bare : IsBare token name)
      (others : ConstraintsOn name values pairs) :
      ConstraintsOn name (value :: values) ((key, text) :: pairs)
  | foreign {value key token text owner : String} {values : List String}
      {pairs : List (String × String)} (split : SplitsInto value key token text)
      (bare : IsBare token owner) (differs : owner ≠ name)
      (others : ConstraintsOn name values pairs) : ConstraintsOn name (value :: values) pairs

theorem constraintsOn_constraintsOf (tags : Tags) (name : String) :
    ConstraintsOn name (Tags.values tags "constraint") (constraintsOf tags name) := by
  rw [constraintsOf]
  induction Tags.values tags "constraint" with
  | nil => exact .nil
  | cons value values ih =>
    have split : SplitsInto value (threeTokens value).1 (threeTokens value).2.1
        (threeTokens value).2.2 := (splitsInto_iff _ _ _ _).2 rfl
    have bare : IsBare (threeTokens value).2.1 (constraint value).1 := (isBare_iff _ _).2 rfl
    rw [List.map_cons, List.filterMap_cons]
    by_cases own : (constraint value).1 = name
    · simp only [own, if_true]
      exact .own split (own ▸ bare) ih
    · simp only [own, if_false]
      exact .foreign split bare own ih

/-! ## Types -/

def ValueType.IsListed (type : ValueType) : Prop :=
  ∃ items, type = .array items ∧ ∀ model, items ≠ .reference model

inductive ValueType.HasNode : ValueType → Prop where
  | model (name : String) : HasNode (.element (.reference name))
  | map (values : PrimitiveType) : HasNode (.element (.map values))
  | models (name : String) : HasNode (.array (.reference name))

theorem ValueType.HasNode.not_isListed {type : ValueType} (node : type.HasNode) :
    ¬ type.IsListed := by
  rintro ⟨items, array, other⟩
  cases node with
  | model name => cases array
  | map values => cases array
  | models name =>
    cases array
    exact other name rfl

theorem ValueType.not_isListed_element (type : ElementType) :
    ¬ (ValueType.element type).IsListed := by
  rintro ⟨items, array, -⟩
  cases array

namespace Parameter

structure TellsType (parameter : Parameter) (type : ValueType) : Prop where
  oneOf : parameter.type = none ↔ parameter.schema ≠ none
  items_iff : parameter.items ≠ none ↔ type.IsListed
  collectionFormat :
    parameter.collectionFormat = if parameter.items = none then none else some "csv"
  array : type.IsListed → parameter.type = some "array"
  schema_iff : parameter.schema ≠ none ↔ type.HasNode
  node : ∀ node, parameter.schema = some node → node = type.schema
  /-- But for the literals of an enumeration, the items are a node of their own type. -/
  items : ∀ items node, type = .array items → parameter.items = some node →
    { node with enumeration := none, default := none } = items.schema
  primitive : ∀ primitive, type = .element (.primitive primitive) →
    parameter.type = some primitive.type ∧ parameter.format = primitive.format
  unformatted : (∀ primitive, type ≠ .element (.primitive primitive)) → parameter.format = none

section Told
variable {parameter : Parameter}

theorem tellsType_of_primitive {primitive : PrimitiveType}
    (typed : parameter.type = some primitive.type) (format : parameter.format = primitive.format)
    (noItems : parameter.items = none) (separated : parameter.collectionFormat = none)
    (noSchema : parameter.schema = none) :
    parameter.TellsType (.element (.primitive primitive)) where
  oneOf := by simp [typed, noSchema]
  items_iff := by simp [noItems, ValueType.not_isListed_element]
  collectionFormat := by rw [separated, if_pos noItems]
  array listed := absurd listed (ValueType.not_isListed_element _)
  schema_iff := by
    rw [noSchema]
    exact ⟨fun set => absurd rfl set, nofun⟩
  node := by simp [noSchema]
  items := by simp
  primitive := by
    rintro _ ⟨⟩
    exact ⟨typed, format⟩
  unformatted other := absurd rfl (other primitive)

theorem tellsType_of_hasNode {type : ValueType} (hasNode : type.HasNode)
    (untyped : parameter.type = none) (unformatted : parameter.format = none)
    (noItems : parameter.items = none) (separated : parameter.collectionFormat = none)
    (schema : parameter.schema = some type.schema) : parameter.TellsType type where
  oneOf := by simp [untyped, schema]
  items_iff := by simp [noItems, hasNode.not_isListed]
  collectionFormat := by rw [separated, if_pos noItems]
  array listed := absurd listed hasNode.not_isListed
  schema_iff := by simp [schema, hasNode]
  node node set := by
    rw [schema] at set
    exact (Option.some.inj set).symm
  items := by simp [noItems]
  primitive := by
    rintro primitive rfl
    cases hasNode
  unformatted _ := unformatted

theorem tellsType_of_isListed {items : ElementType} (other : ∀ model, items ≠ .reference model)
    (literals : Option (List String)) (array : parameter.type = some "array")
    (unformatted : parameter.format = none)
    (listed : parameter.items = some (enumeratedItems items literals))
    (separated : parameter.collectionFormat = some "csv") (noSchema : parameter.schema = none) :
    parameter.TellsType (.array items) where
  oneOf := by simp [array, noSchema]
  items_iff := by
    rw [listed]
    exact ⟨fun _ => ⟨items, rfl, other⟩, fun _ => nofun⟩
  collectionFormat := by rw [separated, listed, if_neg nofun]
  array _ := array
  schema_iff := by
    rw [noSchema]
    refine ⟨fun set => absurd rfl set, ?_⟩
    intro hasNode
    exact absurd ⟨items, rfl, other⟩ hasNode.not_isListed
  node := by simp [noSchema]
  items := by
    rintro _ node ⟨⟩ isNode
    obtain rfl := Option.some.inj (listed.symm.trans isNode)
    cases literals <;> cases items <;> rfl
  primitive := by simp
  unformatted _ := unformatted

end Told
end Parameter

/-! ## Parameters of a context -/

namespace ParameterContext

variable (context : ParameterContext)

theorem tellsType_parameter (required : Bool) (value : String) :
    (context.parameter required value).TellsType (context.known.typeOf (threeTokens value).1) := by
  rw [parameter_eq]
  cases context.known.typeOf (threeTokens value).1 with
  | element type =>
    cases type with
    | primitive primitive => exact Parameter.tellsType_of_primitive rfl rfl rfl rfl rfl
    | map values => exact Parameter.tellsType_of_hasNode (.map values) rfl rfl rfl rfl rfl
    | reference model => exact Parameter.tellsType_of_hasNode (.model model) rfl rfl rfl rfl rfl
  | array items =>
    cases items with
    | primitive primitive => exact Parameter.tellsType_of_isListed nofun _ rfl rfl rfl rfl rfl
    | map values => exact Parameter.tellsType_of_isListed nofun _ rfl rfl rfl rfl rfl
    | reference model => exact Parameter.tellsType_of_hasNode (.models model) rfl rfl rfl rfl rfl

/-- The parameter is what an annotation gives whose value has the given tokens and rest. -/
structure Describes (required : Bool) (type token rest : String) (parameter : Parameter) : Prop where
  required : parameter.required = required
  name : IsBare token parameter.name
  location : Location.TravelsIn parameter.name context.method
    ((Tags.values context.tags "consumes").headD "") context.path
    (parameter.name ∈ context.procedure.parameters) parameter.location
  description : parameter.description = if rest = "" then none else some rest
  constraints : ∃ pairs,
    ConstraintsOn parameter.name (Tags.values context.tags "constraint") pairs ∧
      parameter.constraints = (pairs.map Prod.fst).eraseDups.filterMap fun key =>
        (lastValue? pairs key).map (key, ·)
  type : parameter.TellsType (context.known.typeOf type)

theorem describes_parameter (required : Bool) (value : String) :
    context.Describes required (threeTokens value).1 (threeTokens value).2.1 (threeTokens value).2.2
      (context.parameter required value) := by
  obtain ⟨sameFlag, location, constraints, description⟩ := context.parameter_members required value
  refine ⟨sameFlag, ?_, ?_, ?_, ?_, context.tellsType_parameter required value⟩
  · rw [name_parameter, isBare_iff]
  · have bound : ((context.parameter required value).name ∈ context.procedure.parameters) =
        (context.procedure.takes (context.parameter required value).name = true) := by
      simp [Procedure.takes]
    rw [bound, Location.travelsIn_iff, location, locationOf, Tags.first?_getD]
  · rw [description, nonEmpty?_eq]
  · exact ⟨_, constraintsOn_constraintsOf _ _, constraints.trans (setAll_nil_eq _)⟩

/-- The parameters of an operation are described by the annotations one by one: first by
those of required parameters, then by those of optional ones. -/
theorem parameters_described :
    List.Forall₂
      (fun annotation parameter => ∃ type token rest, SplitsInto annotation.2 type token rest ∧
        context.Describes annotation.1 type token rest parameter)
      ((Tags.values context.tags "parameter").map (true, ·) ++
        (Tags.values context.tags "optparameter").map (false, ·))
      context.parameters := by
  have each : ∀ annotation : Bool × String, ∃ type token rest,
      SplitsInto annotation.2 type token rest ∧
        context.Describes annotation.1 type token rest
          (context.parameter annotation.1 annotation.2) := by
    intro annotation
    exact ⟨_, _, _, (splitsInto_iff _ _ _ _).2 rfl,
      context.describes_parameter annotation.1 annotation.2⟩
  have parameters_eq : context.parameters =
      ((Tags.values context.tags "parameter").map (true, ·) ++
        (Tags.values context.tags "optparameter").map (false, ·)).map fun annotation =>
          context.parameter annotation.1 annotation.2 := by
    simp only [parameters, List.map_append, List.map_map, Function.comp_def]
  rw [parameters_eq, List.forall₂_map_right_iff, List.forall₂_same]
  exact fun annotation _ => each annotation

end ParameterContext
end AnnotatedApi
