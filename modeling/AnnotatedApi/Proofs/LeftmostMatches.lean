import AnnotatedApi.Proofs.StatusCodes

/-!
# Leftmost matches of a pattern

A pattern matches at a place of a text in several ways, and the ways are tried in an order:
a repetition takes as many characters as it can and gives them back one by one when what
follows does not match.  A search goes through the places from the left and stops at the
first way that succeeds.  The search with the pattern of a status entry finds what the
scan for a status code finds, so nothing is ever found by giving characters back.
-/

set_option autoImplicit false

namespace AnnotatedApi

namespace Text

/-- A pattern over texts.  Its repetitions are of single characters, and greedy. -/
inductive Pattern where
  | atLeast (count : Nat) (kind : Char → Bool)
  /-- What the inner pattern takes is kept. -/
  | captured (inner : Pattern)
  | followedBy (first second : Pattern)
  | atEnd

structure Match where
  taken : List Char
  captures : List (List Char)
  rest : List Char
deriving DecidableEq

def Match.append (first second : Match) : Match :=
  ⟨first.taken ++ second.taken, first.captures ++ second.captures, second.rest⟩

/-- The ways to take characters of a kind off the front of a text, the longest one first. -/
def takings (kind : Char → Bool) : List Char → List (List Char × List Char)
  | [] => [([], [])]
  | c :: rest =>
    if kind c then (takings kind rest).map (fun way => (c :: way.1, way.2)) ++ [([], c :: rest)]
    else [([], c :: rest)]

namespace Pattern

/-- The ways in which a pattern matches at the start of a text, in the order of trying. -/
def waysAt : Pattern → List Char → List Match
  | atLeast count kind, text =>
    (takings kind text).filterMap fun way =>
      if count ≤ way.1.length then some ⟨way.1, [], way.2⟩ else none
  | captured inner, text =>
    (inner.waysAt text).map fun way => { way with captures := way.taken :: way.captures }
  | followedBy first second, text =>
    (first.waysAt text).flatMap fun way => (second.waysAt way.rest).map way.append
  | atEnd, [] => [⟨[], [], []⟩]
  | atEnd, _ :: _ => []

def first? (pattern : Pattern) (text : List Char) : Option Match := (pattern.waysAt text).head?

/-- The match at the leftmost place where the pattern matches. -/
def search? (pattern : Pattern) : List Char → Option Match
  | [] => pattern.first? []
  | c :: rest => (pattern.first? (c :: rest)).or (pattern.search? rest)

def captures? (pattern : Pattern) (text : List Char) : Option (List (List Char)) :=
  (pattern.search? text).map (·.captures)

end Pattern

/-! ## The longest way -/

section Takings
variable (kind : Char → Bool)

theorem exists_takings_eq (text : List Char) :
    ∃ shorter, takings kind text = (text.takeWhile kind, text.dropWhile kind) :: shorter := by
  induction text with
  | nil => exact ⟨[], rfl⟩
  | cons c rest ih =>
    obtain ⟨shorter, longest⟩ := ih
    by_cases same : kind c = true
    · rw [takings, if_pos same, longest, List.takeWhile_cons_of_pos same,
        List.dropWhile_cons_of_pos same]
      exact ⟨_, rfl⟩
    · rw [takings, if_neg same, List.takeWhile_cons_of_neg same, List.dropWhile_cons_of_neg same]
      exact ⟨[], rfl⟩

theorem append_of_mem_takings {text : List Char} {way : List Char × List Char}
    (among : way ∈ takings kind text) :
    way.1 ++ way.2 = text ∧ ∀ c ∈ way.1, kind c = true := by
  induction text generalizing way with
  | nil =>
    rw [takings, List.mem_singleton] at among
    subst among
    simp
  | cons c rest ih =>
    by_cases same : kind c = true
    · rw [takings, if_pos same, List.mem_append, List.mem_map, List.mem_singleton] at among
      rcases among with ⟨inner, isWay, rfl⟩ | rfl
      · obtain ⟨split, alike⟩ := ih isWay
        refine ⟨by rw [List.cons_append, split], ?_⟩
        exact List.forall_mem_cons.2 ⟨same, alike⟩
      · simp
    · rw [takings, if_neg same, List.mem_singleton] at among
      subst among
      simp

/-- Where no shorter way does better than the longest one, the longest one decides. -/
theorem findSome?_takings {α : Type} (attempt : List Char × List Char → Option α)
    {text : List Char}
    (noBetter : ∀ taken rest, taken ++ rest = text → (∀ c ∈ taken, kind c = true) →
      attempt (text.takeWhile kind, text.dropWhile kind) = none → attempt (taken, rest) = none) :
    (takings kind text).findSome? attempt =
      attempt (text.takeWhile kind, text.dropWhile kind) := by
  obtain ⟨shorter, longest⟩ := exists_takings_eq kind text
  rw [longest, List.findSome?_cons]
  cases decided : attempt (text.takeWhile kind, text.dropWhile kind) with
  | some found => rfl
  | none =>
    apply List.findSome?_eq_none_iff.2
    intro way among
    have isWay : way ∈ takings kind text := longest ▸ List.mem_cons_of_mem _ among
    obtain ⟨split, alike⟩ := append_of_mem_takings kind isWay
    exact noBetter way.1 way.2 split alike decided

end Takings

/-! ## Parts of a pattern -/

namespace Pattern

theorem first?_followedBy (first second : Pattern) (text : List Char) :
    (followedBy first second).first? text =
      (first.waysAt text).findSome? fun way => (second.first? way.rest).map way.append := by
  simp only [first?, waysAt, List.head?_flatMap, List.head?_map]

theorem waysAt_captured_atLeast (count : Nat) (kind : Char → Bool) (text : List Char) :
    (captured (atLeast count kind)).waysAt text =
      (takings kind text).filterMap fun way =>
        if count ≤ way.1.length then some ⟨way.1, [way.1], way.2⟩ else none := by
  rw [waysAt, waysAt, List.map_filterMap]
  congr 1
  funext way
  split <;> rfl

/-- A repetition gives nothing back if what follows it fails behind a shorter run whenever
it fails behind the longest one. -/
theorem first?_repetition {repetition next : Pattern} {count : Nat} {kind : Char → Bool}
    (captures : List Char → List (List Char)) {text : List Char}
    (ways : repetition.waysAt text = (takings kind text).filterMap fun way =>
      if count ≤ way.1.length then some ⟨way.1, captures way.1, way.2⟩ else none)
    (noBetter : ∀ taken rest, taken ++ rest = text → (∀ c ∈ taken, kind c = true) →
      next.first? (text.dropWhile kind) = none → next.first? rest = none) :
    (followedBy repetition next).first? text =
      if count ≤ (text.takeWhile kind).length then
        (next.first? (text.dropWhile kind)).map
          (Match.append ⟨text.takeWhile kind, captures (text.takeWhile kind), text.dropWhile kind⟩)
      else none := by
  have attempts : (followedBy repetition next).first? text =
      (takings kind text).findSome? fun way =>
        if count ≤ way.1.length then
          (next.first? way.2).map (Match.append ⟨way.1, captures way.1, way.2⟩)
        else none := by
    rw [first?_followedBy, ways, ← List.head?_filterMap, List.filterMap_filterMap,
      List.head?_filterMap]
    congr 1
    funext way
    split <;> rfl
  rw [attempts, findSome?_takings kind]
  intro taken rest split alike failed
  dsimp only at failed ⊢
  -- The longest run is at least as long, so it is not for its length that it fails.
  have longer : taken.length ≤ (text.takeWhile kind).length := by
    rw [← split, List.takeWhile_append_of_pos alike, List.length_append]
    omega
  by_cases enough : count ≤ taken.length
  · rw [if_pos (by omega), Option.map_eq_none_iff] at failed
    rw [if_pos enough, noBetter taken rest split alike failed, Option.map_none]
  · rw [if_neg enough]

end Pattern

/-! ## The pattern of a status entry -/

def descriptionPattern : Pattern := .followedBy (.captured (.atLeast 0 (· != '\n'))) .atEnd

def gapPattern : Pattern := .followedBy (.atLeast 1 isSpace) descriptionPattern

/-- Digits, white space and a description up to the end.  The digits and the description
are kept. -/
def statusPattern : Pattern := .followedBy (.captured (.atLeast 1 isDecimalDigit)) gapPattern

theorem first?_atEnd (text : List Char) :
    Pattern.atEnd.first? text = if text = [] then some ⟨[], [], []⟩ else none := by
  cases text <;> rfl

theorem dropWhile_line_eq_nil_iff (text : List Char) :
    text.dropWhile (· != '\n') = [] ↔ '\n' ∉ text := by
  rw [List.dropWhile_eq_nil_iff]
  constructor
  · intro unbroken among
    simpa using unbroken '\n' among
  · intro unbroken c among
    simpa using ne_of_mem_of_not_mem among unbroken

theorem first?_descriptionPattern (text : List Char) :
    descriptionPattern.first? text =
      if '\n' ∈ text then none else some ⟨text, [text], []⟩ := by
  rw [descriptionPattern, Pattern.first?_repetition (fun taken => [taken])
    (Pattern.waysAt_captured_atLeast _ _ text), if_pos (Nat.zero_le _), first?_atEnd]
  · by_cases broken : '\n' ∈ text
    · have stops : text.dropWhile (· != '\n') ≠ [] :=
        fun all => (dropWhile_line_eq_nil_iff text).1 all broken
      rw [if_pos broken, if_neg stops, Option.map_none]
    · have all := (dropWhile_line_eq_nil_iff text).2 broken
      have taken : text.takeWhile (· != '\n') = text := by
        simpa [all] using List.takeWhile_append_dropWhile (p := (· != '\n')) (l := text)
      rw [if_neg broken, if_pos all, taken, all]
      simp [Match.append]
  · intro taken rest split alike failed
    rw [first?_atEnd] at failed ⊢
    apply if_neg
    rintro rfl
    have all : text.dropWhile (· != '\n') = [] := by
      rw [← split, List.append_nil]
      exact List.dropWhile_eq_nil_iff.2 alike
    rw [if_pos all] at failed
    cases failed

theorem first?_gapPattern (text : List Char) :
    gapPattern.first? text =
      if text.takeWhile isSpace = [] ∨ '\n' ∈ text.dropWhile isSpace then none
      else some ⟨text, [text.dropWhile isSpace], []⟩ := by
  rw [gapPattern, Pattern.first?_repetition (fun _ => []) rfl, first?_descriptionPattern]
  · by_cases gapless : text.takeWhile isSpace = []
    · simp [gapless]
    · have enough : 1 ≤ (text.takeWhile isSpace).length := List.length_pos_iff.2 gapless
      rw [if_pos enough]
      by_cases broken : '\n' ∈ text.dropWhile isSpace
      · simp [broken]
      · simp [gapless, broken, Match.append]
  · intro taken rest split alike failed
    rw [first?_descriptionPattern] at failed ⊢
    have broken : '\n' ∈ text.dropWhile isSpace := by
      by_contra oneLine
      rw [if_neg oneLine] at failed
      cases failed
    -- What is given back stands in front of the description, which stays broken.
    rw [← split, List.dropWhile_append_of_pos alike] at broken
    exact if_pos ((List.dropWhile_sublist isSpace).subset broken)

theorem first?_gapPattern_of_digit {c : Char} (digit : isDecimalDigit c = true)
    (rest : List Char) : gapPattern.first? (c :: rest) = none := by
  have visible : ¬ isSpace c = true := by
    intro space
    rw [isDecimalDigit_of_isSpace space] at digit
    cases digit
  rw [first?_gapPattern]
  exact if_pos (Or.inl (List.takeWhile_cons_of_neg visible))

/-- At one place the pattern matches where an entry stands, and keeps its two parts. -/
theorem captures_first?_statusPattern (text : List Char) :
    (statusPattern.first? text).map (·.captures) =
      (statusHere? text).map fun found => [found.1, found.2] := by
  rw [statusPattern, Pattern.first?_repetition (fun taken => [taken])
    (Pattern.waysAt_captured_atLeast _ _ text), first?_gapPattern, statusHere?]
  · by_cases codeless : text.takeWhile isDecimalDigit = []
    · simp [codeless]
    · have enough : 1 ≤ (text.takeWhile isDecimalDigit).length := List.length_pos_iff.2 codeless
      rw [if_pos enough]
      generalize text.dropWhile isDecimalDigit = after
      by_cases gapless : after.takeWhile isSpace = []
      · simp [gapless]
      · by_cases broken : '\n' ∈ after.dropWhile isSpace
        · simp [broken]
        · simp [codeless, gapless, broken, Match.append]
  · intro taken rest split alike failed
    by_cases ended : ∀ c ∈ rest.head?, isDecimalDigit c = false
    · have longest := (takeWhile_dropWhile_append alike ended).2
      rw [split] at longest
      rwa [← longest]
    · -- A digit that is given back is no white space.
      cases rest with
      | nil => simp at ended
      | cons c rest =>
        apply first?_gapPattern_of_digit
        simpa using ended

/-- The search with the pattern finds what the scan finds. -/
theorem captures?_statusPattern (text : List Char) :
    statusPattern.captures? text = (status? text).map fun found => [found.1, found.2] := by
  induction text with
  | nil => rfl
  | cons c rest ih =>
    have here := captures_first?_statusPattern (c :: rest)
    rw [Pattern.captures?, Pattern.search?, Option.map_or, here, ← Pattern.captures?, ih, status?]
    cases statusHere? (c :: rest) <;> rfl

end Text
end AnnotatedApi
