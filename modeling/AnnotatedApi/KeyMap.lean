/-!
# Maps with text keys in ascending order

A map is a list of pairs whose keys ascend strictly by code point, which is
also the order of their UTF-8 bytes.  `insert` is one pass that replaces the
value of a key it meets; its lookup equations need no assumption on the order
of the list, and `Ascending` says that the order is kept.
-/

set_option autoImplicit false

namespace AnnotatedApi

/-- Pairs of a key and a value, by ascending key. -/
abbrev KeyMap (α : Type) := List (String × α)

namespace KeyMap

variable {α β : Type}

def insert (map : KeyMap α) (key : String) (value : α) : KeyMap α :=
  match map with
  | [] => [(key, value)]
  | (other, kept) :: rest =>
    if key = other then (key, value) :: rest
    else if key < other then (key, value) :: (other, kept) :: rest
    else (other, kept) :: KeyMap.insert rest key value

def get? (map : KeyMap α) (key : String) : Option α :=
  match map with
  | [] => none
  | (other, value) :: rest => if key = other then some value else KeyMap.get? rest key

def contains (map : KeyMap α) (key : String) : Bool := (KeyMap.get? map key).isSome

def keys (map : KeyMap α) : List String := map.map Prod.fst

/-- The map of a list of pairs; of two pairs with one key the later one counts. -/
def ofList (pairs : List (String × α)) : KeyMap α :=
  pairs.foldl (fun map pair => KeyMap.insert map pair.1 pair.2) []

def mapValues (f : α → β) (map : KeyMap α) : KeyMap β := map.map fun pair => (pair.1, f pair.2)

def Ascending (map : KeyMap α) : Prop := (KeyMap.keys map).Pairwise (· < ·)

/-! ## Lookup after insertion -/

@[simp] theorem get?_nil (key : String) : KeyMap.get? ([] : KeyMap α) key = none := rfl

theorem get?_insert_self (map : KeyMap α) (key : String) (value : α) :
    KeyMap.get? (KeyMap.insert map key value) key = some value := by
  induction map with
  | nil => simp [KeyMap.insert, KeyMap.get?]
  | cons pair rest ih =>
    obtain ⟨other, kept⟩ := pair
    rw [KeyMap.insert]
    split
    · simp [KeyMap.get?]
    · split
      · simp [KeyMap.get?]
      · next different _ => simp [KeyMap.get?, different, ih]

theorem get?_insert_of_ne (map : KeyMap α) {key other : String} (value : α) (h : other ≠ key) :
    KeyMap.get? (KeyMap.insert map key value) other = KeyMap.get? map other := by
  induction map with
  | nil => simp [KeyMap.insert, KeyMap.get?, h]
  | cons pair rest ih =>
    obtain ⟨head, kept⟩ := pair
    rw [KeyMap.insert]
    split
    · next same => subst same; simp [KeyMap.get?, h]
    · split
      · simp [KeyMap.get?, h]
      · simp [KeyMap.get?, ih]

theorem get?_insert (map : KeyMap α) (key other : String) (value : α) :
    KeyMap.get? (KeyMap.insert map key value) other =
      if other = key then some value else KeyMap.get? map other := by
  split
  · next same => subst same; exact get?_insert_self map other value
  · next different => exact get?_insert_of_ne map value different

/-! ## Changed values -/

theorem mapValues_cons (f : α → β) (key : String) (value : α) (rest : KeyMap α) :
    KeyMap.mapValues f ((key, value) :: rest) = (key, f value) :: KeyMap.mapValues f rest := rfl

@[simp] theorem get?_mapValues (f : α → β) (map : KeyMap α) (key : String) :
    KeyMap.get? (KeyMap.mapValues f map) key = (KeyMap.get? map key).map f := by
  induction map with
  | nil => rfl
  | cons pair rest ih =>
    obtain ⟨other, value⟩ := pair
    rw [mapValues_cons, KeyMap.get?, KeyMap.get?, ih]
    split <;> rfl

theorem mapValues_insert (f : α → β) (map : KeyMap α) (key : String) (value : α) :
    KeyMap.mapValues f (KeyMap.insert map key value) =
      KeyMap.insert (KeyMap.mapValues f map) key (f value) := by
  induction map with
  | nil => rfl
  | cons pair rest ih =>
    obtain ⟨other, kept⟩ := pair
    rw [KeyMap.insert, mapValues_cons, KeyMap.insert, ← ih]
    split
    · rfl
    · split <;> rfl

/-! ## The order of the keys -/

theorem mem_keys_insert (map : KeyMap α) (key other : String) (value : α) :
    other ∈ KeyMap.keys (KeyMap.insert map key value) ↔ other = key ∨ other ∈ KeyMap.keys map := by
  induction map with
  | nil => simp [KeyMap.insert, KeyMap.keys]
  | cons pair rest ih =>
    obtain ⟨head, kept⟩ := pair
    simp only [KeyMap.keys, List.mem_map] at ih
    rw [KeyMap.insert]
    split
    · next same => subst same; simp [KeyMap.keys]
    · split
      · simp [KeyMap.keys]
      · simp only [KeyMap.keys, List.map_cons, List.mem_cons, List.mem_map, ih]
        exact or_left_comm

theorem ascending_insert {map : KeyMap α} (h : Ascending map) (key : String) (value : α) :
    Ascending (KeyMap.insert map key value) := by
  induction map with
  | nil => simp [KeyMap.insert, Ascending, KeyMap.keys]
  | cons pair rest ih =>
    obtain ⟨head, kept⟩ := pair
    simp only [Ascending, KeyMap.keys, List.map_cons, List.pairwise_cons] at h
    rw [KeyMap.insert]
    split
    · next same =>
      subst same
      simpa only [Ascending, KeyMap.keys, List.map_cons, List.pairwise_cons] using h
    · next different =>
      split
      · next before =>
        simp only [Ascending, KeyMap.keys, List.map_cons, List.pairwise_cons, List.mem_cons]
        exact ⟨fun other among => by
          rcases among with rfl | among
          · exact before
          · exact String.lt_trans before (h.1 other among), h⟩
      · next notBefore =>
        have after : head < key := by grind
        have tail := ih h.2
        simp only [Ascending, KeyMap.keys, List.map_cons, List.pairwise_cons] at tail ⊢
        refine ⟨fun other among => ?_, tail⟩
        rcases (mem_keys_insert rest key other value).1 among with rfl | among
        · exact after
        · exact h.1 other among

theorem ascending_foldl_insert (pairs : List (String × α)) {map : KeyMap α} (h : Ascending map) :
    Ascending (pairs.foldl (fun map pair => KeyMap.insert map pair.1 pair.2) map) := by
  induction pairs generalizing map with
  | nil => exact h
  | cons pair rest ih => exact ih (ascending_insert h pair.1 pair.2)

theorem ascending_ofList (pairs : List (String × α)) : Ascending (KeyMap.ofList pairs) :=
  ascending_foldl_insert pairs List.Pairwise.nil

/-! ## Lookup and membership -/

theorem get?_eq_none_iff (map : KeyMap α) (key : String) :
    KeyMap.get? map key = none ↔ key ∉ KeyMap.keys map := by
  induction map with
  | nil => simp [KeyMap.keys]
  | cons pair rest ih =>
    obtain ⟨head, value⟩ := pair
    rw [KeyMap.get?]
    split
    · next same => subst same; simp [KeyMap.keys]
    · next different =>
      rw [ih]
      simp [KeyMap.keys, different]

theorem mem_keys_iff_exists (map : KeyMap α) (key : String) :
    key ∈ KeyMap.keys map ↔ ∃ value, KeyMap.get? map key = some value := by
  cases found : KeyMap.get? map key with
  | none => simpa using (get?_eq_none_iff map key).1 found
  | some value =>
    have present : key ∈ KeyMap.keys map := by
      apply Classical.byContradiction
      intro absent
      rw [(get?_eq_none_iff map key).2 absent] at found
      cases found
    simp [present]

theorem mem_of_get?_eq_some {map : KeyMap α} {key : String} {value : α}
    (found : KeyMap.get? map key = some value) : (key, value) ∈ map := by
  induction map with
  | nil => simp at found
  | cons pair rest ih =>
    obtain ⟨head, kept⟩ := pair
    rw [KeyMap.get?] at found
    split at found
    · next same =>
      subst same
      cases found
      exact List.mem_cons_self
    · exact List.mem_cons_of_mem _ (ih found)

theorem mem_insert {map : KeyMap α} {key : String} {value : α} {pair : String × α}
    (among : pair ∈ KeyMap.insert map key value) : pair = (key, value) ∨ pair ∈ map := by
  induction map with
  | nil => exact Or.inl (List.mem_singleton.1 among)
  | cons head rest ih =>
    obtain ⟨other, kept⟩ := head
    rw [KeyMap.insert] at among
    split at among
    · rcases List.mem_cons.1 among with same | among
      · exact Or.inl same
      · exact Or.inr (List.mem_cons_of_mem _ among)
    · split at among
      · exact List.mem_cons.1 among
      · rcases List.mem_cons.1 among with same | among
        · exact Or.inr (same ▸ List.mem_cons_self)
        · rcases ih among with same | among
          · exact Or.inl same
          · exact Or.inr (List.mem_cons_of_mem _ among)

/-! ## The map of a list of pairs -/

theorem mem_keys_foldl_insert (pairs : List (String × α)) (map : KeyMap α) (key : String) :
    key ∈ KeyMap.keys (pairs.foldl (fun map pair => KeyMap.insert map pair.1 pair.2) map) ↔
      key ∈ KeyMap.keys map ∨ key ∈ pairs.map Prod.fst := by
  induction pairs generalizing map with
  | nil => simp
  | cons pair rest ih =>
    rw [List.foldl_cons, ih, mem_keys_insert, List.map_cons, List.mem_cons]
    exact or_assoc.trans or_left_comm

theorem mem_keys_ofList (pairs : List (String × α)) (key : String) :
    key ∈ KeyMap.keys (KeyMap.ofList pairs) ↔ key ∈ pairs.map Prod.fst := by
  rw [KeyMap.ofList, mem_keys_foldl_insert]
  simp [KeyMap.keys]

theorem mem_foldl_insert {pairs : List (String × α)} {map : KeyMap α} {pair : String × α}
    (among : pair ∈ pairs.foldl (fun map pair => KeyMap.insert map pair.1 pair.2) map) :
    pair ∈ map ∨ pair ∈ pairs := by
  induction pairs generalizing map with
  | nil => exact Or.inl among
  | cons head rest ih =>
    rcases ih among with among | among
    · rcases mem_insert among with same | among
      · exact Or.inr (same ▸ List.mem_cons_self)
      · exact Or.inl among
    · exact Or.inr (List.mem_cons_of_mem _ among)

theorem mem_of_mem_ofList {pairs : List (String × α)} {pair : String × α}
    (among : pair ∈ KeyMap.ofList pairs) : pair ∈ pairs :=
  (mem_foldl_insert among).resolve_left List.not_mem_nil

/-! ## A map is what its lookups say -/

theorem get?_eq_none_of_lt {map : KeyMap α} {key : String}
    (after : ∀ other ∈ KeyMap.keys map, key < other) : KeyMap.get? map key = none :=
  (get?_eq_none_iff map key).2 fun among => String.lt_irrefl key (after key among)

theorem not_lt_head {key other : String} {value : α} {rest : KeyMap α}
    (h : Ascending ((key, value) :: rest)) (among : other ∈ KeyMap.keys ((key, value) :: rest)) :
    ¬ other < key := by
  simp only [Ascending, KeyMap.keys, List.map_cons, List.pairwise_cons, List.mem_cons] at h among
  rcases among with rfl | among
  · exact String.lt_irrefl other
  · exact fun before => String.lt_irrefl other (String.lt_trans before (h.1 other among))

theorem ext_of_ascending {first second : KeyMap α} (h : Ascending first) (h' : Ascending second)
    (same : ∀ key, KeyMap.get? first key = KeyMap.get? second key) : first = second := by
  induction first generalizing second with
  | nil =>
    cases second with
    | nil => rfl
    | cons pair rest => simpa [KeyMap.get?] using same pair.1
  | cons pair rest ih =>
    obtain ⟨key, value⟩ := pair
    cases second with
    | nil => simpa [KeyMap.get?] using same key
    | cons pair' rest' =>
      obtain ⟨key', value'⟩ := pair'
      have notBefore : ¬ key < key' :=
        not_lt_head h' ((mem_keys_iff_exists _ _).2 ⟨value, by rw [← same]; simp [KeyMap.get?]⟩)
      have notAfter : ¬ key' < key :=
        not_lt_head h ((mem_keys_iff_exists _ _).2 ⟨value', by rw [same]; simp [KeyMap.get?]⟩)
      have sameKey : key = key' := by grind
      subst sameKey
      have sameValue : value = value' := by simpa [KeyMap.get?] using same key
      subst sameValue
      simp only [Ascending, KeyMap.keys, List.map_cons, List.pairwise_cons] at h h'
      have tails : rest = rest' := ih h.2 h'.2 fun other => by
        by_cases head : other = key
        · subst head
          rw [get?_eq_none_of_lt h.1, get?_eq_none_of_lt h'.1]
        · simpa [KeyMap.get?, head] using same other
      rw [tails]

end KeyMap
end AnnotatedApi
