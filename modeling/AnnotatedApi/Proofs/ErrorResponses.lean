import AnnotatedApi.Proofs.LastValues
import AnnotatedApi.Proofs.Run
import AnnotatedApi.Proofs.StatusCodes

/-!
# Responses of errors

Under a code stands the response of the last value of an error in which the code is
found.  A value need not begin with its code, so a sentence can have a code as well, and
an entry that goes on over several lines has none.
-/

set_option autoImplicit false

namespace AnnotatedApi

open Text Entries

/-! ## The code of a value -/

abbrev HasCode (code value : String) : Prop := Writes errorResponse? code value

theorem errorResponse?_eq_none_iff (value : String) :
    errorResponse? value = none ↔ ¬ HoldsEntry value.toList := by
  rw [errorResponse?, Option.map_eq_none_iff, status?_eq_none_iff]

theorem exists_entry_of_errorResponse? {value code : String} {response : Response}
    (found : errorResponse? value = some (code, response)) :
    ∃ digits gap description, code = String.ofList digits ∧
      response = Response.ofDescription (String.ofList description) ∧
      IsEntry digits gap description ∧ '\n' ∉ description := by
  rw [errorResponse?, Option.map_eq_some_iff] at found
  obtain ⟨⟨digits, description⟩, here, same⟩ := found
  obtain ⟨rfl, rfl⟩ := Prod.mk.inj same
  obtain ⟨-, gap, -, entry, oneLine⟩ := exists_entry_of_status? here
  exact ⟨digits, gap, description, rfl, rfl, entry, oneLine⟩

theorem IsEntry.errorResponse?_eq {code gap description : List Char} {value : String}
    (entry : IsEntry code gap description) (written : value.toList = code ++ (gap ++ description)) :
    errorResponse? value =
      if '\n' ∈ description then errorResponse? (String.ofList description)
      else some (String.ofList code, Response.ofDescription (String.ofList description)) := by
  rw [errorResponse?, written, entry.status?_eq]
  by_cases several : '\n' ∈ description
  · rw [if_pos several, if_pos several, errorResponse?, String.toList_ofList]
  · rw [if_neg several, if_neg several, Option.map_some]

/-! ## The response under a code -/

section Lookup
variable (tags : Tags) (known : KnownModels)

def plainResponses : List (String × Response) :=
  ((tags.first? "default").map fun text => ("default", Response.ofDescription text)).toList ++
  ((tags.first? "return").map fun value => ("200", successResponse tags known value)).toList

theorem get?_responses (code : String) :
    KeyMap.get? (responses tags known) code =
      (lastValue? ((Tags.values tags "errors").filterMap errorResponse?) code).or
        (lastValue? (plainResponses tags known) code) := by
  have split : writtenResponses tags known =
      plainResponses tags known ++ (Tags.values tags "errors").filterMap errorResponse? := rfl
  rw [responses, KeyMap.get?_ofList, split, lastValue?_append]

theorem lastValue?_plainResponses_success :
    lastValue? (plainResponses tags known) "200" =
      (tags.first? "return").map (successResponse tags known) := by
  rw [plainResponses]
  cases tags.first? "default" <;> cases tags.first? "return" <;> simp [lastValue?]

/-- Under a status code none of them is a mere description. -/
theorem lastValue?_plainResponses_ne {code gap description : List Char}
    (entry : IsEntry code gap description) (text : String) :
    lastValue? (plainResponses tags known) (String.ofList code) ≠
      some (Response.ofDescription text) := by
  intro found
  rcases List.mem_append.1 (mem_of_lastValue?_eq_some found) with isDefault | isSuccess
  · obtain ⟨value, -, same⟩ := Option.map_eq_some_iff.1 (Option.mem_toList.1 isDefault)
    have sameCode : "default" = String.ofList code := congrArg Prod.fst same
    have first : 'd' ∈ code := by
      rw [← String.toList_ofList (l := code), ← sameCode]
      decide
    exact absurd (entry.digits 'd' first) (by decide)
  · obtain ⟨value, -, same⟩ := Option.map_eq_some_iff.1 (Option.mem_toList.1 isSuccess)
    have schemas := congrArg (Response.schema ∘ Prod.snd) same
    cases schemas

end Lookup

theorem plainResponses_congr {tags kept : Tags}
    (others : ∀ name, name ≠ "errors" → Tags.find? kept name = Tags.find? tags name)
    (known : KnownModels) : plainResponses kept known = plainResponses tags known := by
  have success : successResponse kept known = successResponse tags known := by
    funext value
    rw [successResponse, successResponse, Tags.values?, Tags.values?,
      others "emitsHeader" (by decide)]
  rw [plainResponses, plainResponses, success, Tags.first?, Tags.first?, Tags.first?, Tags.first?,
    others "default" (by decide), others "return" (by decide)]

/-! ## Values that do not begin with a code -/

/-- One of the values gives the response, and in none behind it the code is found. -/
def LastWord (values : List String) (code : String) (response : Response) : Prop :=
  ∃ before value after, values = before ++ value :: after ∧
    errorResponse? value = some (code, response) ∧ ∀ later ∈ after, ¬ HasCode code later

theorem lastWord_iff (values : List String) (code : String) (response : Response) :
    LastWord values code response ↔
      lastValue? (values.filterMap errorResponse?) code = some response :=
  (lastValue?_filterMap_eq_some_iff errorResponse? values code response).symm

theorem LastWord.filter {values : List String} {code : String} {response : Response}
    {before after : List String} {value : String} (split : values = before ++ value :: after)
    (given : errorResponse? value = some (code, response))
    (silent : ∀ later ∈ after, ¬ HasCode code later) {keep : String → Bool}
    (isKept : keep value = true) : LastWord (values.filter keep) code response := by
  refine ⟨before.filter keep, value, after.filter keep, ?_, given, ?_⟩
  · rw [split, List.filter_append, List.filter_cons_of_pos isKept]
  · exact fun later among => silent later (List.mem_of_mem_filter among)

section Responses
variable {tags : Tags} (known : KnownModels)

/-- The last word on a code is the response under it, and there is no other way for a
mere description to stand under a code. -/
theorem get?_responses_eq_description_iff {code gap description : List Char}
    (entry : IsEntry code gap description) (text : String) :
    KeyMap.get? (responses tags known) (String.ofList code) =
        some (Response.ofDescription text) ↔
      LastWord (Tags.values tags "errors") (String.ofList code) (Response.ofDescription text) := by
  rw [get?_responses, lastWord_iff]
  cases lastValue? ((Tags.values tags "errors").filterMap errorResponse?) (String.ofList code) with
  | some last => rw [Option.some_or]
  | none =>
    rw [Option.none_or]
    exact iff_of_false (lastValue?_plainResponses_ne tags known entry text) nofun

theorem responses_filter_iff {kept : Tags} (keep : String → Bool)
    (others : ∀ name, name ≠ "errors" → Tags.find? kept name = Tags.find? tags name)
    (filtered : Tags.values kept "errors" = (Tags.values tags "errors").filter keep) :
    responses kept known = responses tags known ↔
      ∀ before value after, Tags.values tags "errors" = before ++ value :: after →
        keep value = false → ∀ code response, errorResponse? value = some (code, response) →
          (∀ later ∈ after, ¬ HasCode code later) →
            LastWord (Tags.values kept "errors") code response := by
  constructor
  · intro unchanged before value after split _ code response given silent
    obtain ⟨digits, gap, description, rfl, rfl, entry, -⟩ := exists_entry_of_errorResponse? given
    rw [← get?_responses_eq_description_iff known entry, unchanged,
      get?_responses_eq_description_iff known entry]
    exact ⟨before, value, after, split, given, silent⟩
  · intro repeated
    refine KeyMap.ext_of_ascending (KeyMap.ascending_ofList _) (KeyMap.ascending_ofList _) ?_
    intro code
    have agree : lastValue? ((Tags.values kept "errors").filterMap errorResponse?) code =
        lastValue? ((Tags.values tags "errors").filterMap errorResponse?) code := by
      cases last : lastValue? ((Tags.values tags "errors").filterMap errorResponse?) code with
      | none =>
        rw [lastValue?_filterMap_eq_none_iff] at last ⊢
        intro value among
        rw [filtered] at among
        exact last value (List.mem_of_mem_filter among)
      | some response =>
        obtain ⟨before, value, after, split, given, silent⟩ := (lastWord_iff _ _ _).2 last
        rw [← lastWord_iff]
        cases isKept : keep value with
        | true =>
          rw [filtered]
          exact LastWord.filter split given silent isKept
        | false => exact repeated before value after split isKept code response given silent
    rw [get?_responses, get?_responses, agree,
      plainResponses_congr others]

theorem get?_responses_success_iff {value : String}
    (returns : tags.first? "return" = some value) :
    KeyMap.get? (responses tags known) "200" = some (successResponse tags known value) ↔
      ∀ entry ∈ Tags.values tags "errors", ¬ HasCode "200" entry := by
  rw [get?_responses, lastValue?_plainResponses_success, returns, Option.map_some,
    ← lastValue?_filterMap_eq_none_iff]
  cases last : lastValue? ((Tags.values tags "errors").filterMap errorResponse?) "200" with
  | none => simp
  | some response =>
    obtain ⟨-, entry, -, -, given, -⟩ := (lastWord_iff _ _ _).2 last
    obtain ⟨-, -, description, -, rfl, -, -⟩ := exists_entry_of_errorResponse? given
    refine iff_of_false ?_ nofun
    intro same
    have schemas := congrArg Response.schema (Option.some.inj same)
    cases schemas

end Responses

def berthTags (errors : List String) : Tags :=
  Tags.ofList (("return", "string the berths") :: errors.map fun value => ("errors", value))

theorem IsEntry.hasCode_iff {code gap description : List Char} {value : String}
    (entry : IsEntry code gap description) (written : value.toList = code ++ (gap ++ description))
    (oneLine : '\n' ∉ description) (other : String) :
    HasCode other value ↔ other = String.ofList code := by
  rw [HasCode, Writes, entry.errorResponse?_eq written, if_neg oneLine]
  simp [eq_comm]

theorem ControllerContext.responses_of_placed {context : ControllerContext}
    {procedure : Procedure} {comment : Comment} {placed : PlacedOperation}
    (built : context.placed procedure comment = .ok placed) :
    placed.operation.responses = responses comment.tags context.known := by
  rw [placed_eq] at built
  split at built
  · cases built
    rfl
  · cases built

def berthProcedure (errors : String) : Procedure :=
  ⟨"actionGetBerth", "Quay", [], "@path /berth\n@method get\n" ++ errors⟩

end AnnotatedApi
