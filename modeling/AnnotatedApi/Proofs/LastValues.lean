import AnnotatedApi.Entries
import AnnotatedApi.KeyMap
import Mathlib.Data.List.Nodup

/-!
# Last values

Pairs that are set one after the other keep, under every key, the value of the last
pair with that key, in entries and in maps alike.
-/

set_option autoImplicit false

namespace AnnotatedApi

namespace Entries
variable {α : Type}

def lastValue? (pairs : List (String × α)) (key : String) : Option α :=
  (pairs.filter (·.1 = key)).getLast?.map Prod.snd

theorem lastValue?_nil (key : String) : lastValue? ([] : List (String × α)) key = none := rfl

theorem lastValue?_append (front back : List (String × α)) (key : String) :
    lastValue? (front ++ back) key = (lastValue? back key).or (lastValue? front key) := by
  rw [lastValue?, List.filter_append, List.getLast?_append, lastValue?, lastValue?]
  cases (back.filter (·.1 = key)).getLast? <;> simp

theorem lastValue?_singleton (key other : String) (value : α) :
    lastValue? [(other, value)] key = if other = key then some value else none := by
  by_cases same : other = key <;> simp [lastValue?, same]

theorem lastValue?_cons (pair : String × α) (rest : List (String × α)) (key : String) :
    lastValue? (pair :: rest) key =
      (lastValue? rest key).or (if pair.1 = key then some pair.2 else none) := by
  rw [← List.singleton_append, lastValue?_append, lastValue?_singleton]

theorem lastValue?_eq_none_iff (pairs : List (String × α)) (key : String) :
    lastValue? pairs key = none ↔ key ∉ pairs.map Prod.fst := by
  induction pairs with
  | nil => simp [lastValue?_nil]
  | cons pair rest ih =>
    rw [lastValue?_cons, List.map_cons, List.mem_cons, not_or, Option.or_eq_none_iff, ih]
    by_cases same : pair.1 = key
    · simp [same]
    · simp [same, Ne.symm same]

theorem mem_of_lastValue?_eq_some {pairs : List (String × α)} {key : String} {value : α}
    (found : lastValue? pairs key = some value) : (key, value) ∈ pairs := by
  rw [lastValue?, Option.map_eq_some_iff] at found
  obtain ⟨pair, isLast, rfl⟩ := found
  have among := List.mem_filter.1 (List.mem_of_getLast? isLast)
  have sameKey : pair.1 = key := by simpa using among.2
  exact sameKey ▸ among.1

theorem lastValue?_map {β : Type} (write : α → β) (pairs : List (String × α)) (key : String) :
    lastValue? (pairs.map fun pair => (pair.1, write pair.2)) key =
      (lastValue? pairs key).map write := by
  rw [lastValue?, List.filter_map, List.getLast?_map, lastValue?]
  simp [Function.comp_def]

/-- What is set last stands under its key. -/
theorem get?_setAll (entries : Entries α) (pairs : List (String × α)) (key : String) :
    Entries.get? (Entries.setAll entries pairs) key =
      (lastValue? pairs key).or (Entries.get? entries key) := by
  induction pairs generalizing entries with
  | nil => rfl
  | cons pair rest ih =>
    have step : Entries.setAll entries (pair :: rest) =
        Entries.setAll (Entries.set entries pair.1 pair.2) rest := rfl
    rw [step, ih, get?_set, lastValue?_cons]
    by_cases same : pair.1 = key
    · rw [if_pos same, if_pos same]
      cases lastValue? rest key <;> rfl
    · rw [if_neg same, if_neg same, Option.or_none]

theorem get?_eq_none_iff (entries : Entries α) (key : String) :
    Entries.get? entries key = none ↔ key ∉ entries.map Prod.fst := by
  induction entries with
  | nil => simp [Entries.get?]
  | cons pair rest ih =>
    rw [Entries.get?]
    by_cases same : pair.1 = key
    · simp [same]
    · simpa [same, Ne.symm same] using ih

theorem nodup_keys_set {entries : Entries α} (distinct : (entries.map Prod.fst).Nodup)
    (key : String) (value : α) : ((Entries.set entries key value).map Prod.fst).Nodup := by
  rw [keys_set]
  by_cases present : key ∈ entries.map Prod.fst
  · rwa [if_pos present]
  · rw [if_neg present]
    have apart : List.Disjoint (entries.map Prod.fst) [key] :=
      List.disjoint_singleton.2 present
    exact List.Nodup.append distinct (List.nodup_singleton key) apart

theorem nodup_keys_setAll (pairs : List (String × α)) {entries : Entries α}
    (distinct : (entries.map Prod.fst).Nodup) :
    ((Entries.setAll entries pairs).map Prod.fst).Nodup := by
  induction pairs generalizing entries with
  | nil => exact distinct
  | cons pair rest ih => exact ih (nodup_keys_set distinct pair.1 pair.2)

theorem lastValue?_eq_get? {entries : Entries α} (distinct : (entries.map Prod.fst).Nodup)
    (key : String) : lastValue? entries key = Entries.get? entries key := by
  induction entries with
  | nil => rfl
  | cons pair rest ih =>
    obtain ⟨other, value⟩ := pair
    rw [List.map_cons, List.nodup_cons] at distinct
    rw [lastValue?_cons, ih distinct.2, Entries.get?]
    by_cases same : other = key
    · subst same
      rw [if_pos rfl, if_pos rfl, (get?_eq_none_iff rest other).2 distinct.1]
      rfl
    · rw [if_neg same, if_neg same, Option.or_none]

theorem lastValue?_setAll_nil (pairs : List (String × α)) (key : String) :
    lastValue? (Entries.setAll [] pairs) key = lastValue? pairs key := by
  have distinct : ((Entries.setAll ([] : Entries α) pairs).map Prod.fst).Nodup :=
    nodup_keys_setAll pairs List.nodup_nil
  rw [lastValue?_eq_get? distinct, get?_setAll]
  exact Option.or_none

/-! ### Pairs that are read off values -/

section Reading
variable {β : Type} (read : β → Option (String × α))

def Writes (key : String) (x : β) : Prop := ∃ value, read x = some (key, value)

theorem lastValue?_filterMap_eq_none_iff (xs : List β) (key : String) :
    lastValue? (xs.filterMap read) key = none ↔ ∀ x ∈ xs, ¬ Writes read key x := by
  rw [lastValue?_eq_none_iff]
  constructor
  · rintro absent x among ⟨value, written⟩
    exact absent (List.mem_map_of_mem (List.mem_filterMap.2 ⟨x, among, written⟩))
  · intro none among
    obtain ⟨pair, isPair, rfl⟩ := List.mem_map.1 among
    obtain ⟨x, among, written⟩ := List.mem_filterMap.1 isPair
    exact none x among ⟨pair.2, written⟩

theorem lastValue?_filterMap_cons (x : β) (rest : List β) (key : String) :
    lastValue? ((x :: rest).filterMap read) key =
      (lastValue? (rest.filterMap read) key).or
        ((read x).bind fun pair => if pair.1 = key then some pair.2 else none) := by
  cases written : read x with
  | none => rw [List.filterMap_cons_none written, Option.bind_none, Option.or_none]
  | some pair => rw [List.filterMap_cons_some written, lastValue?_cons, Option.bind_some]

/-- The last value under a key was read off an element behind which none writes the key. -/
theorem lastValue?_filterMap_eq_some_iff (xs : List β) (key : String) (value : α) :
    lastValue? (xs.filterMap read) key = some value ↔
      ∃ before x after, xs = before ++ x :: after ∧ read x = some (key, value) ∧
        ∀ later ∈ after, ¬ Writes read key later := by
  constructor
  · intro found
    induction xs with
    | nil => cases found
    | cons x rest ih =>
      rw [lastValue?_filterMap_cons] at found
      cases behind : lastValue? (rest.filterMap read) key with
      | some last =>
        rw [behind, Option.some_or] at found
        obtain ⟨before, y, after, rfl, written, silent⟩ := ih (behind.trans found)
        exact ⟨x :: before, y, after, rfl, written, silent⟩
      | none =>
        have silent := (lastValue?_filterMap_eq_none_iff read rest key).1 behind
        rw [behind, Option.none_or] at found
        obtain ⟨pair, written, here⟩ := Option.bind_eq_some_iff.1 found
        obtain ⟨rfl, same⟩ := Option.ite_none_right_eq_some.1 here
        obtain rfl := Option.some.inj same
        exact ⟨[], x, rest, rfl, written, silent⟩
  · rintro ⟨before, x, after, rfl, written, silent⟩
    have absent := (lastValue?_filterMap_eq_none_iff read after key).2 silent
    rw [List.filterMap_append, lastValue?_append, lastValue?_filterMap_cons, absent, written,
      Option.none_or, Option.bind_some, if_pos rfl, Option.some_or]

/-- Of the elements that tell a value of a key, the last one tells this value. -/
def ToldLast (tells : β → String → α → Prop) (xs : List β) (key : String) (value : α) : Prop :=
  ∃ before x after, xs = before ++ x :: after ∧ tells x key value ∧
    ∀ later ∈ after, ∀ other, ¬ tells later key other

theorem lastValue?_eq_some_iff_toldLast {tells : β → String → α → Prop}
    (reads : ∀ x key value, read x = some (key, value) ↔ tells x key value)
    (xs : List β) (key : String) (value : α) :
    lastValue? (xs.filterMap read) key = some value ↔ ToldLast tells xs key value := by
  rw [lastValue?_filterMap_eq_some_iff]
  simp only [ToldLast, Writes, reads, not_exists]

theorem lastValue?_eq_none_iff_untold {tells : β → String → α → Prop}
    (reads : ∀ x key value, read x = some (key, value) ↔ tells x key value)
    (xs : List β) (key : String) :
    lastValue? (xs.filterMap read) key = none ↔ ∀ x ∈ xs, ∀ value, ¬ tells x key value := by
  rw [lastValue?_filterMap_eq_none_iff]
  simp only [Writes, reads, not_exists]

end Reading

end Entries

/-! ## Maps -/

namespace KeyMap
variable {α : Type}

open Entries

theorem get?_foldl_insert (pairs : List (String × α)) (map : KeyMap α) (key : String) :
    KeyMap.get? (pairs.foldl (fun map pair => KeyMap.insert map pair.1 pair.2) map) key =
      (lastValue? pairs key).or (KeyMap.get? map key) := by
  induction pairs generalizing map with
  | nil => rfl
  | cons pair rest ih =>
    rw [List.foldl_cons, ih, get?_insert, lastValue?_cons]
    by_cases same : pair.1 = key
    · rw [if_pos same.symm, if_pos same]
      cases lastValue? rest key <;> rfl
    · rw [if_neg (Ne.symm same), if_neg same, Option.or_none]

theorem get?_ofList (pairs : List (String × α)) (key : String) :
    KeyMap.get? (KeyMap.ofList pairs) key = lastValue? pairs key := by
  rw [KeyMap.ofList, get?_foldl_insert, get?_nil, Option.or_none]

end KeyMap
end AnnotatedApi
