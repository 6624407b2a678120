/-!
# Entries in the order of their first writing

A list of pairs in which a key that is written again keeps its place and takes
the new value, so every key stands once.
-/

set_option autoImplicit false

namespace AnnotatedApi

abbrev Entries (α : Type) := List (String × α)

namespace Entries

variable {α : Type}

def set (entries : Entries α) (key : String) (value : α) : Entries α :=
  match entries with
  | [] => [(key, value)]
  | (other, kept) :: rest =>
    if other = key then (key, value) :: rest else (other, kept) :: Entries.set rest key value

def setAll (entries : Entries α) (pairs : List (String × α)) : Entries α :=
  pairs.foldl (fun entries pair => Entries.set entries pair.1 pair.2) entries

def get? (entries : Entries α) (key : String) : Option α :=
  match entries with
  | [] => none
  | (other, value) :: rest => if other = key then some value else Entries.get? rest key

theorem get?_set (entries : Entries α) (key other : String) (value : α) :
    Entries.get? (Entries.set entries key value) other =
      if key = other then some value else Entries.get? entries other := by
  induction entries with
  | nil => simp [Entries.set, Entries.get?]
  | cons pair rest ih =>
    obtain ⟨head, kept⟩ := pair
    rw [Entries.set]
    split
    · next same =>
      subst same
      by_cases h : head = other <;> simp [Entries.get?, h]
    · next different =>
      by_cases h : head = other
      · subst h
        simp [Entries.get?, Ne.symm different]
      · simp [Entries.get?, h, ih]

theorem keys_set (entries : Entries α) (key : String) (value : α) :
    (Entries.set entries key value).map Prod.fst =
      if key ∈ entries.map Prod.fst then entries.map Prod.fst
      else entries.map Prod.fst ++ [key] := by
  induction entries with
  | nil => simp [Entries.set]
  | cons pair rest ih =>
    obtain ⟨head, kept⟩ := pair
    rw [Entries.set]
    split
    · next same => subst same; simp
    · next different =>
      simp only [List.map_cons, ih, List.mem_cons, Ne.symm different, false_or]
      split <;> simp

end Entries
end AnnotatedApi
