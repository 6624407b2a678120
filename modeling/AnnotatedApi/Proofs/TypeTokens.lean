import AnnotatedApi.Proofs.Text
import AnnotatedApi.Schema.TypeToken

/-!
# What a type token says

A token with the array marker at its end stands for an array of what is in front
of the marker.  It refers to a model exactly if that, or the whole token where
there is no marker, is a known name.
-/

set_option autoImplicit false

namespace AnnotatedApi

open Text

namespace KnownModels

theorem arrayItems?_eq_some_iff (token items : String) :
    arrayItems? token = some items ↔ token = items ++ "[]" := by
  rw [arrayItems?, Option.map_eq_some_iff]
  constructor
  · rintro ⟨stem, found, rfl⟩
    have split := (stripBack?_eq_some_iff _ _ _).1 found
    rw [← String.toList_inj, split, String.toList_append, String.toList_ofList]
    rfl
  · rintro rfl
    refine ⟨items.toList, (stripBack?_eq_some_iff _ _ _).2 ?_, String.ofList_toList⟩
    rw [String.toList_append]
    rfl

theorem arrayItems?_eq_none_iff (token : String) :
    arrayItems? token = none ↔ ¬ "[]".toList <:+ token.toList := by
  rw [arrayItems?, Option.map_eq_none_iff, stripBack?_eq_none_iff]
  rfl

variable (known : KnownModels)

theorem elementType_eq_reference_iff (token model : String) :
    known.elementType token = .reference model ↔ known.contains model = true ∧ token = model := by
  rw [elementType]
  by_cases isKnown : known.contains token = true
  · rw [if_pos isKnown]
    constructor
    · intro same
      cases same
      exact ⟨isKnown, rfl⟩
    · rintro ⟨-, rfl⟩
      rfl
  · rw [if_neg isKnown]
    constructor
    · intro other
      cases mapped : mapValues? token <;> simp [mapped] at other
    · rintro ⟨modelKnown, rfl⟩
      exact absurd modelKnown isKnown

theorem typeOf_eq_reference_iff (token model : String) :
    known.typeOf token = .element (.reference model) ↔
      known.contains model = true ∧ token = model ∧ ¬ "[]".toList <:+ token.toList := by
  rw [typeOf, ← arrayItems?_eq_none_iff]
  cases marked : arrayItems? token with
  | none =>
    simp only [ValueType.element.injEq, elementType_eq_reference_iff, and_true]
  | some items => simp

theorem typeOf_eq_array_reference_iff (token model : String) :
    known.typeOf token = .array (.reference model) ↔
      known.contains model = true ∧ token = model ++ "[]" := by
  rw [typeOf, ← arrayItems?_eq_some_iff]
  cases marked : arrayItems? token with
  | none => simp
  | some items =>
    simp only [ValueType.array.injEq, elementType_eq_reference_iff, Option.some.injEq]

theorem contains_ofNames_iff (names : List String) (name : String) :
    (KnownModels.ofNames names).contains name = true ↔ name = envelopeName ∨ name ∈ names := by
  simp [KnownModels.ofNames, KnownModels.contains]

end KnownModels
end AnnotatedApi
