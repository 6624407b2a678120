import AnnotatedApi.Text.Basic

/-!
# Tokens of an annotation value

A value such as `int32 $id the identifier` is read as tokens separated by runs
of white space.  `words` takes every token.  `leading` takes a fixed number:
the last one keeps the rest of the text as it stands, and tokens that are
missing are empty.  `fixedTokens` has them in an array of that size.
-/

set_option autoImplicit false

namespace AnnotatedApi.Text

/-! ## All tokens -/

/-- Whether a word that has just begun ends here. -/
def endsWord : List Char → Bool
  | [] => true
  | c :: _ => isSpace c

/-- The maximal runs of characters that are not white space. -/
def words : List Char → List (List Char)
  | [] => []
  | c :: rest =>
    if isSpace c then words rest
    else if endsWord rest then [c] :: words rest
    else consHead c (words rest)

def tokens (text : String) : List String := (words text.toList).map String.ofList

/-! ## A fixed number of tokens -/

/-- The text up to its first white space; it is empty if the text begins with white space. -/
def headToken (text : List Char) : List Char := text.takeWhile fun c => !isSpace c

def afterToken (text : List Char) : List Char :=
  (text.dropWhile fun c => !isSpace c).dropWhile isSpace

/-- Exactly `count` tokens; the last one is the rest of the text. -/
def leading : Nat → List Char → List (List Char)
  | 0, _ => []
  | 1, text => [text]
  | count + 2, text => headToken text :: leading (count + 1) (afterToken text)

def leadingTokens (count : Nat) (text : String) : List String :=
  (leading count text.toList).map String.ofList

/-- Tokens under a limit on their number; no limit, and the limit zero, mean all of them. -/
def limitedTokens (text : String) : Option Nat → List String
  | none | some 0 => tokens text
  | some limit => leadingTokens limit text

def fixedTokens (count : Nat) (text : String) : Vector String count :=
  Vector.ofFn fun place => (limitedTokens text (some count))[place]?.getD ""

def twoTokens (text : String) : String × String :=
  (String.ofList (headToken text.toList), String.ofList (afterToken text.toList))

def threeTokens (text : String) : String × String × String :=
  let rest := afterToken text.toList
  (String.ofList (headToken text.toList), String.ofList (headToken rest),
    String.ofList (afterToken rest))

theorem leading_length (count : Nat) (text : List Char) : (leading count text).length = count := by
  induction count generalizing text with
  | zero => rfl
  | succ count ih =>
    cases count with
    | zero => rfl
    | succ count =>
      rw [leading, List.length_cons, ih]

theorem leadingTokens_length (count : Nat) (text : String) :
    (leadingTokens count text).length = count := by
  rw [leadingTokens, List.length_map, leading_length]

theorem leadingTokens_two (text : String) :
    leadingTokens 2 text = [(twoTokens text).1, (twoTokens text).2] := rfl

theorem leadingTokens_three (text : String) :
    leadingTokens 3 text =
      [(threeTokens text).1, (threeTokens text).2.1, (threeTokens text).2.2] := rfl

theorem limitedTokens_zero (text : String) :
    limitedTokens text (some 0) = limitedTokens text none := rfl

theorem limitedTokens_of_pos {count : Nat} (positive : 0 < count) (text : String) :
    limitedTokens text (some count) = leadingTokens count text := by
  cases count with
  | zero => cases positive
  | succ count => rfl

theorem getElem_fixedTokens {count : Nat} (text : String) {place : Nat} (inside : place < count) :
    (fixedTokens count text)[place] = (leadingTokens count text)[place]?.getD "" := by
  simp only [fixedTokens, Vector.getElem_ofFn, Fin.getElem?_fin,
    limitedTokens_of_pos (Nat.zero_lt_of_lt inside)]

/-- The array is filled to its end, so its last token is the rest of the text as well. -/
theorem toList_fixedTokens (count : Nat) (text : String) :
    (fixedTokens count text).toList = leadingTokens count text := by
  apply List.ext_getElem
  · rw [Vector.length_toList, leadingTokens_length]
  · intro place inArray inside
    rw [Vector.getElem_toList, getElem_fixedTokens, List.getElem?_eq_getElem inside, Option.getD_some]

theorem fixedTokens_one (text : String) : (fixedTokens 1 text)[0]? = some text := by
  rw [Vector.getElem?_eq_getElem Nat.zero_lt_one, getElem_fixedTokens]
  exact congrArg some String.ofList_toList

theorem fixedTokens_first (count : Nat) (text : String) :
    (fixedTokens (count + 2) text)[0]? = some (String.ofList (headToken text.toList)) := by
  rw [Vector.getElem?_eq_getElem (Nat.succ_pos (count + 1)), getElem_fixedTokens]
  rfl

end AnnotatedApi.Text
