import AnnotatedApi.Proofs.ErrorResponses
import AnnotatedApi.Proofs.LeftmostMatches

/-!
# What the tags say of the responses

The responses are put under their codes one after the other: what the default tag says,
then success with its headers, then the errors in their order.  An error is found at the
leftmost run of digits that white space follows and that has the rest of its value on one
line, which is what a search with the pattern of a status entry finds as well.
-/

set_option autoImplicit false

namespace AnnotatedApi

open Text Entries

/-! ## The leftmost status -/

/-- A run of digits that is no part of a longer one, all the white space behind it, and the
rest of the text, which is on one line. -/
structure IsStatusRun (text front code gap description : List Char) : Prop where
  split : text = front ++ (code ++ (gap ++ description))
  entry : IsEntry code gap description
  maximal : ∀ c ∈ front.getLast?, isDecimalDigit c = false
  oneLine : '\n' ∉ description

def LeftmostStatus (text code description : List Char) : Prop :=
  ∃ front gap, IsStatusRun text front code gap description ∧
    ∀ front' code' gap' description', IsStatusRun text front' code' gap' description' →
      front.length ≤ front'.length

theorem IsEntry.cons {c : Char} {code gap description : List Char}
    (digit : isDecimalDigit c = true) (entry : IsEntry code gap description) :
    IsEntry (c :: code) gap description :=
  ⟨List.cons_ne_nil c code, List.forall_mem_cons.2 ⟨digit, entry.digits⟩, entry.apart,
    entry.spaces, entry.visible⟩

theorem IsStatusRun.statusHere?_eq {text front code gap description : List Char}
    (run : IsStatusRun text front code gap description) :
    statusHere? (code ++ (gap ++ description)) = some (code, description) := by
  rw [run.entry.statusHere?_eq, if_neg run.oneLine]

/-- The search stops at the first place where an entry stands. -/
theorem exists_first_entry {text code description : List Char}
    (found : status? text = some (code, description)) :
    ∃ front gap, text = front ++ (code ++ (gap ++ description)) ∧
      IsEntry code gap description ∧ '\n' ∉ description ∧
        ∀ front' rest, text = front' ++ rest → front'.length < front.length →
          statusHere? rest = none := by
  induction text with
  | nil => cases found
  | cons c text ih =>
    cases here : statusHere? (c :: text) with
    | some first =>
      rw [status?_of_here here] at found
      obtain rfl := Option.some.inj found
      obtain ⟨gap, split, entry, oneLine⟩ := (statusHere?_eq_some_iff _ _ _).1 here
      refine ⟨[], gap, split, entry, oneLine, ?_⟩
      intro front' rest _ shorter
      simp at shorter
    | none =>
      rw [status?_cons_of_passed here] at found
      obtain ⟨front, gap, split, entry, oneLine, passed⟩ := ih found
      refine ⟨c :: front, gap, by rw [split, List.cons_append], entry, oneLine, ?_⟩
      intro front' rest splitRest shorter
      cases front' with
      | nil =>
        rw [List.nil_append] at splitRest
        rwa [← splitRest]
      | cons c' front' =>
        rw [List.cons_append] at splitRest
        apply passed front' rest (List.cons.inj splitRest).2
        simp only [List.length_cons] at shorter
        omega

theorem leftmostStatus_of_status? {text code description : List Char}
    (found : status? text = some (code, description)) : LeftmostStatus text code description := by
  obtain ⟨front, gap, split, entry, oneLine, passed⟩ := exists_first_entry found
  have maximal : ∀ c ∈ front.getLast?, isDecimalDigit c = false := by
    intro c isLast
    -- A digit in front of the code would begin an entry at an earlier place.
    by_contra other
    have digit : isDecimalDigit c = true := by simpa using other
    obtain ⟨front, rfl⟩ := List.getLast?_eq_some_iff.1 isLast
    have here := (entry.cons digit).statusHere?_eq
    rw [if_neg oneLine] at here
    have earlier := passed front (c :: code ++ (gap ++ description)) (by simp [split]) (by simp)
    rw [here] at earlier
    cases earlier
  refine ⟨front, gap, ⟨split, entry, maximal, oneLine⟩, ?_⟩
  intro front' code' gap' description' other
  by_contra shorter
  have earlier := passed front' _ other.split (by omega)
  rw [other.statusHere?_eq] at earlier
  cases earlier

theorem LeftmostStatus.unique {text code description code' description' : List Char}
    (leftmost : LeftmostStatus text code description)
    (leftmost' : LeftmostStatus text code' description') :
    (code, description) = (code', description') := by
  obtain ⟨front, gap, run, first⟩ := leftmost
  obtain ⟨front', gap', run', first'⟩ := leftmost'
  have sameLength : front.length = front'.length :=
    Nat.le_antisymm (first _ _ _ _ run') (first' _ _ _ _ run)
  have sameRest := (List.append_inj (run.split.symm.trans run'.split) sameLength).2
  have here := run.statusHere?_eq
  rw [sameRest, run'.statusHere?_eq] at here
  exact (Option.some.inj here).symm

theorem status?_eq_some_iff_leftmost (text code description : List Char) :
    status? text = some (code, description) ↔ LeftmostStatus text code description := by
  constructor
  · exact leftmostStatus_of_status?
  · intro leftmost
    obtain ⟨front, gap, run, -⟩ := id leftmost
    cases found : status? text with
    | none =>
      have holds : HoldsEntry text :=
        ⟨front, code, gap, description, run.split, run.entry, run.oneLine⟩
      exact absurd holds ((status?_eq_none_iff text).1 found)
    | some first =>
      obtain ⟨code', description'⟩ := first
      exact congrArg some ((leftmostStatus_of_status? found).unique leftmost)

theorem status?_eq_none_iff_no_leftmost (text : List Char) :
    status? text = none ↔ ∀ code description, ¬ LeftmostStatus text code description := by
  simp only [← status?_eq_some_iff_leftmost, Option.eq_none_iff_forall_ne_some, Prod.forall, ne_eq]

/-! ## What the tags describe -/

def DescribesHeader (value name : String) (header : Header) : Prop :=
  (threeTokens value).2.1 = name ∧
    header.type = (PrimitiveType.ofToken (threeTokens value).1).type ∧
    header.format = (PrimitiveType.ofToken (threeTokens value).1).format ∧
    header.description = (threeTokens value).2.2

section Description
variable (tags : Tags) (known : KnownModels)

structure DescribesSuccess (value : String) (response : Response) : Prop where
  description : response.description =
    if (twoTokens value).2 = "" then none else some (twoTokens value).2
  schema : response.schema = some (known.typeOf (twoTokens value).1).schema
  isSome_headers : response.headers.isSome = Tags.contains tags "emitsHeader"
  ascending : ∀ headers ∈ response.headers, KeyMap.Ascending headers
  headers : ∀ headers ∈ response.headers, ∀ name header,
    KeyMap.get? headers name = some header ↔
      ToldLast DescribesHeader (Tags.values tags "emitsHeader") name header

def GivesSuccess : Option Response → Prop
  | none => Tags.first? tags "return" = none
  | some response =>
    ∃ value, Tags.first? tags "return" = some value ∧ DescribesSuccess tags known value response

end Description

def putGiven (map : KeyMap Response) (key : String) : Option Response → KeyMap Response
  | none => map
  | some response => KeyMap.insert map key response

/-- The values of errors put their responses into a map, one after the other. -/
inductive PutsErrors : KeyMap Response → List String → KeyMap Response → Prop where
  | done (map : KeyMap Response) : PutsErrors map [] map
  | found {map final : KeyMap Response} {value : String} {rest : List String}
      {code description : List Char} (status : LeftmostStatus value.toList code description)
      (behind : PutsErrors
        (KeyMap.insert map (String.ofList code)
          (Response.ofDescription (String.ofList description))) rest final) :
      PutsErrors map (value :: rest) final
  | passed {map final : KeyMap Response} {value : String} {rest : List String}
      (absent : ∀ code description, ¬ LeftmostStatus value.toList code description)
      (behind : PutsErrors map rest final) : PutsErrors map (value :: rest) final

def DescribesResponses (tags : Tags) (known : KnownModels) (map : KeyMap Response) : Prop :=
  ∃ success, GivesSuccess tags known success ∧
    PutsErrors
      (putGiven
        (putGiven [] "default" ((Tags.first? tags "default").map Response.ofDescription))
        "200" success)
      (Tags.values tags "errors") map

def putCaptured (map : KeyMap Response) (value : String) : KeyMap Response :=
  match statusPattern.captures? value.toList with
  | some [code, description] =>
    KeyMap.insert map (String.ofList code) (Response.ofDescription (String.ofList description))
  | _ => map

/-! ## Headers -/

theorem emittedHeader_eq_some_iff (value name : String) (header : Header) :
    some (emittedHeader value) = some (name, header) ↔ DescribesHeader value name header := by
  obtain ⟨type, format, description⟩ := header
  simp only [emittedHeader, DescribesHeader, Option.some.injEq, Prod.mk.injEq, Header.mk.injEq]
  constructor
  · rintro ⟨named, typed, formatted, described⟩
    exact ⟨named, typed.symm, formatted.symm, described.symm⟩
  · rintro ⟨named, typed, formatted, described⟩
    exact ⟨named, typed.symm, formatted.symm, described.symm⟩

theorem get?_emittedHeaders (values : List String) (name : String) (header : Header) :
    KeyMap.get? (KeyMap.ofList (values.map emittedHeader)) name = some header ↔
      ToldLast DescribesHeader values name header := by
  have read : values.map emittedHeader = values.filterMap fun value => some (emittedHeader value) :=
    (congrFun List.filterMap_eq_map' values).symm
  rw [KeyMap.get?_ofList, read, lastValue?_eq_some_iff_toldLast _ emittedHeader_eq_some_iff]

/-! ## Success -/

section Success
variable {tags : Tags} {known : KnownModels} {value : String}

theorem describesSuccess_successResponse :
    DescribesSuccess tags known value (successResponse tags known value) := by
  have headers : (successResponse tags known value).headers =
      (Tags.values? tags "emitsHeader").map fun values =>
        KeyMap.ofList (values.map emittedHeader) := rfl
  rw [Tags.values?_eq] at headers
  refine ⟨nonEmpty?_eq _, rfl, ?_, ?_, ?_⟩
  · rw [headers, Option.isSome_map]
    cases Tags.contains tags "emitsHeader" <;> rfl
  · intro map isMap
    rw [headers, Option.mem_def, Option.map_eq_some_iff] at isMap
    obtain ⟨values, -, rfl⟩ := isMap
    exact KeyMap.ascending_ofList _
  · intro map isMap name header
    rw [headers, Option.mem_def, Option.map_eq_some_iff] at isMap
    obtain ⟨values, given, rfl⟩ := isMap
    obtain ⟨-, same⟩ := Option.ite_none_right_eq_some.1 given
    rw [get?_emittedHeaders, Option.some.inj same]

theorem DescribesSuccess.unique {response other : Response}
    (describes : DescribesSuccess tags known value response)
    (describes' : DescribesSuccess tags known value other) : response = other := by
  have descriptions := describes.description.trans describes'.description.symm
  have schemas := describes.schema.trans describes'.schema.symm
  have presence := describes.isSome_headers.trans describes'.isSome_headers.symm
  have headers : response.headers = other.headers := by
    cases first : response.headers with
    | none =>
      rw [first, Option.isSome_none] at presence
      cases second : other.headers with
      | none => rfl
      | some map' => simp [second] at presence
    | some map =>
      rw [first, Option.isSome_some] at presence
      obtain ⟨map', second⟩ := Option.isSome_iff_exists.1 presence.symm
      have sameMaps : map = map' := by
        apply KeyMap.ext_of_ascending (describes.ascending map first)
          (describes'.ascending map' second)
        intro name
        apply Option.ext
        intro header
        rw [describes.headers map first, describes'.headers map' second]
      rw [second, sameMaps]
  obtain ⟨description, schema, headers'⟩ := response
  cases descriptions
  cases schemas
  cases headers
  rfl

theorem describesSuccess_iff (response : Response) :
    DescribesSuccess tags known value response ↔ response = successResponse tags known value := by
  constructor
  · exact fun describes => describes.unique describesSuccess_successResponse
  · rintro rfl
    exact describesSuccess_successResponse

theorem givesSuccess_iff (success : Option Response) :
    GivesSuccess tags known success ↔
      success = (Tags.first? tags "return").map (successResponse tags known) := by
  cases returned : Tags.first? tags "return" with
  | none =>
    cases success with
    | none => simp [GivesSuccess, returned]
    | some response => simp [GivesSuccess, returned]
  | some value =>
    cases success with
    | none => simp [GivesSuccess, returned]
    | some response => simp [GivesSuccess, returned, describesSuccess_iff]

end Success

/-! ## The order of putting -/

theorem errorResponse?_of_leftmost {value : String} {code description : List Char}
    (status : LeftmostStatus value.toList code description) :
    errorResponse? value =
      some (String.ofList code, Response.ofDescription (String.ofList description)) := by
  rw [errorResponse?, (status?_eq_some_iff_leftmost _ _ _).2 status, Option.map_some]

theorem putCaptured_eq (map : KeyMap Response) (value : String) :
    putCaptured map value =
      ((errorResponse? value).map fun found => KeyMap.insert map found.1 found.2).getD map := by
  rw [putCaptured, captures?_statusPattern, errorResponse?]
  cases status? value.toList <;> rfl

theorem foldl_putCaptured (values : List String) (map : KeyMap Response) :
    values.foldl putCaptured map =
      (values.filterMap errorResponse?).foldl
        (fun map pair => KeyMap.insert map pair.1 pair.2) map := by
  induction values generalizing map with
  | nil => rfl
  | cons value rest ih =>
    rw [List.foldl_cons, putCaptured_eq, ih]
    cases read : errorResponse? value with
    | none => rw [List.filterMap_cons_none read, Option.map_none, Option.getD_none]
    | some pair =>
      rw [List.filterMap_cons_some read, List.foldl_cons, Option.map_some, Option.getD_some]

/-- One value of an error puts what the pattern keeps of it, and so does a whole list. -/
theorem putsErrors_iff (values : List String) (map final : KeyMap Response) :
    PutsErrors map values final ↔ final = values.foldl putCaptured map := by
  constructor
  · intro puts
    induction puts with
    | done map => rfl
    | found status behind ih =>
      rw [ih, List.foldl_cons, putCaptured_eq, errorResponse?_of_leftmost status]
      rfl
    | @passed map final value rest absent behind ih =>
      have unread : errorResponse? value = none := by
        rw [errorResponse?, (status?_eq_none_iff_no_leftmost _).2 absent, Option.map_none]
      rw [ih, List.foldl_cons, putCaptured_eq, unread]
      rfl
  · rintro rfl
    induction values generalizing map with
    | nil => exact .done map
    | cons value rest ih =>
      rw [List.foldl_cons]
      cases found : status? value.toList with
      | none =>
        have passed : putCaptured map value = map := by
          rw [putCaptured_eq, errorResponse?, found]
          rfl
        rw [passed]
        exact .passed ((status?_eq_none_iff_no_leftmost _).1 found) (ih map)
      | some status =>
        have leftmost : LeftmostStatus value.toList status.1 status.2 :=
          (status?_eq_some_iff_leftmost _ _ _).1 found
        rw [putCaptured_eq, errorResponse?_of_leftmost leftmost]
        exact .found leftmost (ih _)

theorem foldl_given (map : KeyMap Response) (key : String) (given : Option Response) :
    (given.map fun response => (key, response)).toList.foldl
      (fun map pair => KeyMap.insert map pair.1 pair.2) map = putGiven map key given := by
  cases given <;> rfl

section Responses
variable (tags : Tags) (known : KnownModels)

theorem ofList_plainResponses :
    KeyMap.ofList (plainResponses tags known) =
      putGiven
        (putGiven [] "default" ((Tags.first? tags "default").map Response.ofDescription))
        "200" ((Tags.first? tags "return").map (successResponse tags known)) := by
  rw [plainResponses, KeyMap.ofList, List.foldl_append, ← foldl_given, ← foldl_given,
    Option.map_map, Option.map_map]
  rfl

theorem responses_eq_foldl :
    responses tags known =
      (Tags.values tags "errors").foldl putCaptured
        (KeyMap.ofList (plainResponses tags known)) := by
  have split : writtenResponses tags known =
      plainResponses tags known ++ (Tags.values tags "errors").filterMap errorResponse? := rfl
  rw [foldl_putCaptured, responses, split, KeyMap.ofList, KeyMap.ofList, List.foldl_append]

theorem describesResponses_iff (map : KeyMap Response) :
    DescribesResponses tags known map ↔ map = responses tags known := by
  rw [responses_eq_foldl, ofList_plainResponses]
  constructor
  · rintro ⟨success, gives, puts⟩
    rw [(putsErrors_iff _ _ _).1 puts, (givesSuccess_iff success).1 gives]
  · intro same
    exact ⟨_, (givesSuccess_iff _).2 rfl, (putsErrors_iff _ _ _).2 same⟩

end Responses

/-! ## Codes -/

theorem first?_eq_none_of_absent {tags : Tags} {name : String}
    (absent : Tags.contains tags name = false) : Tags.first? tags name = none := by
  rw [Tags.contains, KeyMap.contains, Option.isSome_eq_false_iff, Option.isNone_iff_eq_none] at absent
  rw [Tags.first?, Tags.find?, absent, Option.map_none]

/-- Where a response comes from, and under which code it stands then. -/
theorem get?_responses_cases {tags : Tags} {known : KnownModels} {code : String}
    {response : Response} (found : KeyMap.get? (responses tags known) code = some response) :
    (code = "default" ∧ ∃ text, response = Response.ofDescription text) ∨
      (code = "200" ∧ ∃ value, Tags.first? tags "return" = some value ∧
        response = successResponse tags known value) ∨
      ∃ digits text, code = String.ofList digits ∧ digits ≠ [] ∧
        (∀ c ∈ digits, isDecimalDigit c = true) ∧ response = Response.ofDescription text := by
  have among := KeyMap.mem_of_mem_ofList (KeyMap.mem_of_get?_eq_some found)
  rw [writtenResponses, List.mem_append, List.mem_append] at among
  rcases among with (isDefault | isSuccess) | isError
  · obtain ⟨text, -, same⟩ := Option.map_eq_some_iff.1 (Option.mem_toList.1 isDefault)
    cases same
    exact Or.inl ⟨rfl, text, rfl⟩
  · obtain ⟨value, returned, same⟩ := Option.map_eq_some_iff.1 (Option.mem_toList.1 isSuccess)
    cases same
    exact Or.inr (Or.inl ⟨rfl, value, returned, rfl⟩)
  · obtain ⟨value, -, read⟩ := List.mem_filterMap.1 isError
    obtain ⟨digits, gap, description, rfl, rfl, entry, -⟩ := exists_entry_of_errorResponse? read
    exact Or.inr (Or.inr ⟨digits, _, rfl, entry.coded, entry.digits, rfl⟩)

end AnnotatedApi
