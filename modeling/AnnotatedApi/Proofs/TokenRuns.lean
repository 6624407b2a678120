import AnnotatedApi.Proofs.ParameterLists
import AnnotatedApi.Text.Token

/-!
# Tokens and the white space between them

Without a limit the tokens of a text are its maximal runs of characters that are not white
space.  Under a limit the text is cut at its first gaps, which are maximal runs of white space,
and what is behind the last cut stands as it is.  The tokens of the pieces are together the
tokens of the text.
-/

set_option autoImplicit false

namespace AnnotatedApi.Text

/-! ## Runs of one kind of character -/

structure Stretch where
  before : List Char
  inner : List Char
  after : List Char

def Stretch.shift (stretch : Stretch) (front : List Char) : Stretch :=
  { stretch with before := front ++ stretch.before }

section Runs
variable (kind : Char → Bool)

/-- The piece is not empty, all its characters are of one kind, and the characters on either
side of it are not. -/
structure Stretch.IsRun (stretch : Stretch) (text : List Char) : Prop where
  split : text = stretch.before ++ (stretch.inner ++ stretch.after)
  nonempty : stretch.inner ≠ []
  same : ∀ c ∈ stretch.inner, kind c = true
  begun : ∀ c ∈ stretch.before.getLast?, kind c = false
  ended : ∀ c ∈ stretch.after.head?, kind c = false

def firstRun (c : Char) (rest : List Char) : Stretch :=
  ⟨[], c :: rest.takeWhile kind, rest.dropWhile kind⟩

/-- The runs from the front.  The run of the first character takes up the one that begins
right behind it. -/
def runs : List Char → List Stretch
  | [] => []
  | c :: rest =>
    let behind := (runs rest).filter fun stretch => !(kind c && stretch.before.isEmpty)
    if kind c then firstRun kind c rest :: behind.map (·.shift [c]) else behind.map (·.shift [c])

variable {kind}

theorem runs_cons_of_other {c : Char} (other : kind c = false) (rest : List Char) :
    runs kind (c :: rest) = (runs kind rest).map (·.shift [c]) := by
  simp [runs, other]

theorem runs_cons_of_same {c : Char} (same : kind c = true) (rest : List Char) :
    runs kind (c :: rest) =
      firstRun kind c rest ::
        ((runs kind rest).filter (!·.before.isEmpty)).map (·.shift [c]) := by
  simp [runs, same]

theorem filter_map_shift (c : Char) (stretches : List Stretch) :
    (stretches.map (·.shift [c])).filter (!·.before.isEmpty) = stretches.map (·.shift [c]) := by
  rw [List.filter_eq_self]
  intro stretch among
  obtain ⟨_, -, rfl⟩ := List.mem_map.1 among
  rfl

theorem map_inner_map_shift (c : Char) (stretches : List Stretch) :
    (stretches.map (·.shift [c])).map Stretch.inner = stretches.map Stretch.inner := by
  rw [List.map_map]
  rfl

theorem Stretch.IsRun.shift {stretch : Stretch} {text : List Char} (run : stretch.IsRun kind text)
    {front : List Char} (apart : stretch.before = [] → ∀ c ∈ front.getLast?, kind c = false) :
    (stretch.shift front).IsRun kind (front ++ text) where
  split := by rw [run.split, Stretch.shift, List.append_assoc]
  nonempty := run.nonempty
  same := run.same
  begun := by
    intro c last
    rw [Stretch.shift, List.getLast?_append] at last
    cases found : stretch.before.getLast? with
    | none =>
      rw [found, Option.none_or] at last
      exact apart (List.getLast?_eq_none_iff.1 found) c last
    | some final =>
      rw [found, Option.some_or] at last
      exact run.begun c (found.trans last)
  ended := run.ended

theorem isRun_firstRun {c : Char} (first : kind c = true) (rest : List Char) :
    (firstRun kind c rest).IsRun kind (c :: rest) where
  split := by simp [firstRun]
  nonempty := List.cons_ne_nil _ _
  same := List.forall_mem_cons.2 ⟨first, fun _ among => List.mem_takeWhile_imp among⟩
  begun := by simp [firstRun]
  ended := not_head_dropWhile kind rest

theorem Stretch.IsRun.eq_firstRun {stretch : Stretch} {c : Char} {rest : List Char}
    (run : stretch.IsRun kind (c :: rest)) (atFront : stretch.before = []) :
    kind c = true ∧ stretch = firstRun kind c rest := by
  obtain ⟨before, inner, after⟩ := stretch
  obtain rfl : before = [] := atFront
  obtain ⟨d, tail, rfl⟩ := List.exists_cons_of_ne_nil run.nonempty
  have split : c :: rest = d :: (tail ++ after) := run.split
  rw [List.cons.injEq] at split
  obtain ⟨rfl, rfl⟩ := split
  obtain ⟨first, same⟩ := List.forall_mem_cons.1 run.same
  obtain ⟨taken, dropped⟩ := takeWhile_dropWhile_append same run.ended
  exact ⟨first, by rw [firstRun, taken, dropped]⟩

theorem Stretch.IsRun.exists_shift {stretch : Stretch} {c : Char} {rest : List Char}
    (run : stretch.IsRun kind (c :: rest)) (behind : stretch.before ≠ []) :
    ∃ inRest : Stretch, inRest.IsRun kind rest ∧ (inRest.before = [] → kind c = false) ∧
      inRest.shift [c] = stretch := by
  obtain ⟨before, inner, after⟩ := stretch
  obtain ⟨d, before, rfl⟩ := List.exists_cons_of_ne_nil behind
  have split : c :: rest = d :: (before ++ (inner ++ after)) := run.split
  rw [List.cons.injEq] at split
  obtain ⟨rfl, rfl⟩ := split
  refine ⟨⟨before, inner, after⟩, ⟨rfl, run.nonempty, run.same, ?_, run.ended⟩, ?_, rfl⟩
  · intro final last
    apply run.begun
    rw [Option.mem_def] at last ⊢
    rw [List.getLast?_cons, last, Option.getD_some]
  · rintro rfl
    exact run.begun c rfl

/-- A run of a text with one more character in front begins there, or it is a run of the text
that the character does not lengthen. -/
theorem isRun_cons_iff (stretch : Stretch) (c : Char) (rest : List Char) :
    stretch.IsRun kind (c :: rest) ↔
      (kind c = true ∧ stretch = firstRun kind c rest) ∨
        ∃ inRest : Stretch, inRest.IsRun kind rest ∧ (inRest.before = [] → kind c = false) ∧
          inRest.shift [c] = stretch := by
  constructor
  · intro run
    by_cases atFront : stretch.before = []
    · exact Or.inl (run.eq_firstRun atFront)
    · exact Or.inr (run.exists_shift atFront)
  · rintro (⟨first, rfl⟩ | ⟨inRest, run, apart, rfl⟩)
    · exact isRun_firstRun first rest
    · apply run.shift
      intro atFront d last
      obtain rfl : c = d := by simpa using last
      exact apart atFront

theorem mem_runs_iff (stretch : Stretch) (text : List Char) :
    stretch ∈ runs kind text ↔ stretch.IsRun kind text := by
  induction text generalizing stretch with
  | nil =>
    constructor
    · intro among
      cases among
    · intro run
      have empty := run.split
      simp only [List.nil_eq, List.append_eq_nil_iff] at empty
      exact absurd empty.2.1 run.nonempty
  | cons c rest ih =>
    rw [isRun_cons_iff]
    by_cases first : kind c = true
    · simp [runs_cons_of_same first, first, ih, and_assoc]
    · simp [runs_cons_of_other (by simpa using first), first, ih]

theorem pairwise_map_shift (c : Char) {stretches : List Stretch}
    (ascending : stretches.Pairwise fun first second => first.before.length < second.before.length) :
    (stretches.map (·.shift [c])).Pairwise
      fun first second => first.before.length < second.before.length := by
  rw [List.pairwise_map]
  apply ascending.imp
  intro first second before
  exact Nat.succ_lt_succ before

theorem pairwise_runs (text : List Char) :
    (runs kind text).Pairwise fun first second => first.before.length < second.before.length := by
  induction text with
  | nil => exact List.Pairwise.nil
  | cons c rest ih =>
    by_cases first : kind c = true
    · rw [runs_cons_of_same first, List.pairwise_cons]
      refine ⟨?_, pairwise_map_shift c (ih.filter _)⟩
      intro stretch among
      obtain ⟨inRest, -, rfl⟩ := List.mem_map.1 among
      exact Nat.succ_pos _
    · rw [runs_cons_of_other (by simpa using first)]
      exact pairwise_map_shift c ih

end Runs

/-! ## All tokens -/

theorem words_cons_of_space {c : Char} (space : isSpace c = true) (rest : List Char) :
    words (c :: rest) = words rest := by
  rw [words, if_pos space]

theorem words_cons_of_ended {c : Char} (visible : isSpace c = false) {rest : List Char}
    (ended : endsWord rest = true) : words (c :: rest) = [c] :: words rest := by
  rw [words, if_neg (by simp [visible]), if_pos ended]

theorem words_cons_of_not_ended {c : Char} (visible : isSpace c = false) {rest : List Char}
    (goesOn : endsWord rest = false) : words (c :: rest) = consHead c (words rest) := by
  rw [words, if_neg (by simp [visible]), if_neg (by simp [goesOn])]

/-- The tokens of a text are its runs of characters that are not white space. -/
theorem words_eq_runs (text : List Char) :
    words text = (runs (!isSpace ·) text).map Stretch.inner := by
  induction text with
  | nil => rfl
  | cons c rest ih =>
    by_cases space : isSpace c = true
    · rw [words_cons_of_space space, runs_cons_of_other (by simp [space]), map_inner_map_shift, ih]
    · rw [Bool.not_eq_true] at space
      rw [runs_cons_of_same (by simp [space]), List.map_cons, map_inner_map_shift]
      cases rest with
      | nil => rw [words_cons_of_ended space rfl]; rfl
      | cons d tail =>
        by_cases spaceBehind : isSpace d = true
        · have ended : endsWord (d :: tail) = true := spaceBehind
          rw [words_cons_of_ended space ended, ih, runs_cons_of_other (by simp [spaceBehind]),
            filter_map_shift]
          simp [firstRun, spaceBehind]
        · rw [Bool.not_eq_true] at spaceBehind
          have goesOn : endsWord (d :: tail) = false := spaceBehind
          rw [words_cons_of_not_ended space goesOn, ih, runs_cons_of_same (by simp [spaceBehind]),
            List.filter_cons_of_neg (by simp [firstRun]), filter_map_shift, List.map_cons, consHead]
          simp [firstRun, spaceBehind]

theorem words_ne_nil_of_not_ended {text : List Char} (goesOn : endsWord text = false) :
    words text ≠ [] := by
  cases text with
  | nil => cases goesOn
  | cons c rest =>
    have visible : isSpace c = false := goesOn
    by_cases ended : endsWord rest = true
    · rw [words_cons_of_ended visible ended]
      exact List.cons_ne_nil _ _
    · rw [words_cons_of_not_ended visible (by simpa using ended)]
      exact consHead_ne_nil c _

theorem consHead_append (c : Char) {pieces : List (List Char)} (nonempty : pieces ≠ [])
    (more : List (List Char)) : consHead c (pieces ++ more) = consHead c pieces ++ more := by
  obtain ⟨piece, rest, rfl⟩ := List.exists_cons_of_ne_nil nonempty
  rfl

/-- Where a text ends or white space begins, the tokens on either side are apart. -/
theorem words_append_of_gap (front : List Char) {back : List Char}
    (gap : ∀ c ∈ back.head?, isSpace c = true) : words (front ++ back) = words front ++ words back := by
  have sameEnd (text : List Char) : endsWord (text ++ back) = endsWord text := by
    cases text with
    | cons c rest => rfl
    | nil =>
      cases back with
      | nil => rfl
      | cons c rest => exact gap c rfl
  induction front with
  | nil => rfl
  | cons c front ih =>
    rw [List.cons_append]
    by_cases space : isSpace c = true
    · rw [words_cons_of_space space, words_cons_of_space space, ih]
    · rw [Bool.not_eq_true] at space
      by_cases ended : endsWord front = true
      · rw [words_cons_of_ended space ended, words_cons_of_ended space ((sameEnd front).trans ended),
          ih, List.cons_append]
      · rw [Bool.not_eq_true] at ended
        rw [words_cons_of_not_ended space ended,
          words_cons_of_not_ended space ((sameEnd front).trans ended), ih,
          consHead_append c (words_ne_nil_of_not_ended ended)]

theorem words_dropWhile_isSpace (text : List Char) : words (text.dropWhile isSpace) = words text := by
  induction text with
  | nil => rfl
  | cons c rest ih =>
    by_cases space : isSpace c = true
    · rw [List.dropWhile_cons_of_pos space, ih, words_cons_of_space space]
    · rw [List.dropWhile_cons_of_neg space]

theorem words_headToken_append (text : List Char) :
    words (headToken text) ++ words (afterToken text) = words text := by
  have gap : ∀ c ∈ (text.dropWhile fun c => !isSpace c).head?, isSpace c = true := by
    intro c first
    simpa using not_head_dropWhile (fun c => !isSpace c) text c first
  rw [afterToken, words_dropWhile_isSpace, ← words_append_of_gap _ gap, headToken,
    List.takeWhile_append_dropWhile]

/-- Whatever their number, the tokens of the pieces are the tokens of the text. -/
theorem flatMap_words_leading (count : Nat) (text : List Char) :
    (leading (count + 1) text).flatMap words = words text := by
  induction count generalizing text with
  | zero => rw [leading, List.flatMap_singleton]
  | succ count ih => rw [leading, List.flatMap_cons, ih, words_headToken_append]

/-! ## A fixed number of tokens -/

structure Cut where
  parts : List (List Char × List Char)
  rest : List Char

namespace Cut

def text (cut : Cut) : List Char := (cut.parts.flatMap fun part => part.1 ++ part.2) ++ cut.rest

def pieces (cut : Cut) : List (List Char) := cut.parts.map Prod.fst ++ [cut.rest]

/-- No token has white space in it, and the gap behind it is a whole run of white space. -/
structure AtGaps (cut : Cut) : Prop where
  visible : ∀ part ∈ cut.parts, ∀ c ∈ part.1, isSpace c = false
  gaps : ∀ front part back, cut.parts = front ++ part :: back →
    Stretch.IsRun isSpace ⟨Cut.text ⟨front, part.1⟩, part.2, Cut.text ⟨back, cut.rest⟩⟩ cut.text

theorem atGaps_of_no_part (rest : List Char) : AtGaps ⟨[], rest⟩ where
  visible := by simp
  gaps := by simp

theorem text_cons (token gap : List Char) (parts : List (List Char × List Char)) (rest : List Char) :
    Cut.text ⟨(token, gap) :: parts, rest⟩ = (token ++ gap) ++ Cut.text ⟨parts, rest⟩ := by
  simp [Cut.text]

theorem AtGaps.cons {parts : List (List Char × List Char)} {rest : List Char}
    (behind : AtGaps ⟨parts, rest⟩) {whole token gap : List Char}
    (split : IsSplit whole token gap (Cut.text ⟨parts, rest⟩)) (nonempty : gap ≠ []) :
    AtGaps ⟨(token, gap) :: parts, rest⟩ where
  visible := List.forall_mem_cons.2 ⟨split.visible, behind.visible⟩
  gaps := by
    intro front part back cutHere
    cases front with
    | nil =>
      obtain ⟨rfl, rfl⟩ : (token, gap) = part ∧ parts = back := by simpa using cutHere
      refine ⟨?_, nonempty, split.spaces, ?_, split.ended⟩
      · simp [Cut.text]
      · intro c last
        rw [Cut.text, List.flatMap_nil, List.nil_append] at last
        exact split.visible c (List.mem_of_getLast? last)
    | cons first front =>
      obtain ⟨rfl, rfl⟩ : (token, gap) = first ∧ parts = front ++ part :: back := by
        simpa using cutHere
      have run := behind.gaps front part back rfl
      -- A run at the front of what is left would lengthen the gap.
      have apart : Cut.text ⟨front, part.1⟩ = [] →
          ∀ c ∈ (token ++ gap).getLast?, isSpace c = false := by
        intro atFront
        exfalso
        obtain ⟨c, inner, spaces⟩ := List.exists_cons_of_ne_nil run.nonempty
        have space := run.same c (by rw [spaces]; exact List.mem_cons_self)
        have visible := split.ended c (by rw [run.split, atFront, spaces]; rfl)
        rw [space] at visible
        cases visible
      have shifted := run.shift apart
      rwa [Stretch.shift, ← text_cons, ← text_cons] at shifted

end Cut

theorem leading_nil (count : Nat) : leading count [] = List.replicate count [] := by
  induction count with
  | zero => rfl
  | succ count ih =>
    cases count with
    | zero => rfl
    | succ count =>
      have next : leading (count + 2) [] = [] :: leading (count + 1) [] := rfl
      rw [next, ih]
      rfl

/-- The tokens under a limit are the pieces of a cut of the text, and then empty ones.  White space
is left in the last piece only if the limit is reached. -/
theorem exists_cut (limit : Nat) (text : List Char) :
    ∃ cut : Cut, cut.text = text ∧ cut.AtGaps ∧ cut.pieces.length ≤ limit + 1 ∧
      (cut.pieces.length < limit + 1 → ∀ c ∈ cut.rest, isSpace c = false) ∧
      leading (limit + 1) text =
        cut.pieces ++ List.replicate (limit + 1 - cut.pieces.length) [] := by
  induction limit generalizing text with
  | zero => exact ⟨⟨[], text⟩, rfl, Cut.atGaps_of_no_part text, Nat.le_refl 1, by simp [Cut.pieces], rfl⟩
  | succ limit ih =>
    obtain ⟨gap, split⟩ := (isSplit_iff text (headToken text) (afterToken text)).2 ⟨rfl, rfl⟩
    by_cases empty : gap = []
    · have noRest : afterToken text = [] := split.apart empty
      have whole : headToken text = text := by
        have parts := split.split
        rw [empty, noRest, List.append_nil, List.append_nil] at parts
        exact parts.symm
      refine ⟨⟨[], text⟩, rfl, Cut.atGaps_of_no_part text, by simp [Cut.pieces], ?_, ?_⟩
      · intro _
        rw [← whole]
        exact split.visible
      · rw [leading, whole, noRest, leading_nil]
        rfl
    · obtain ⟨⟨parts, rest⟩, whole, atGaps, few, complete, entries⟩ := ih (afterToken text)
      rw [← whole] at split
      refine ⟨⟨(headToken text, gap) :: parts, rest⟩, ?_, atGaps.cons split empty, ?_, ?_, ?_⟩
      · rw [Cut.text_cons, List.append_assoc, ← split.split]
      · exact Nat.succ_le_succ few
      · exact fun fewer => complete (Nat.lt_of_succ_lt_succ fewer)
      · rw [leading, entries]
        simp [Cut.pieces]

/-- Under a limit that is not zero there are as many tokens as the limit says: the pieces of a cut
of the text at its first gaps, the last one as it stands, and then empty ones.  Together they have
the tokens of the text, and an array of them has the same entries.  With no limit or the limit
zero the tokens are the runs of characters that are not white space, each once and in the order
of their places. -/
theorem limitedTokens_lose_nothing (text : String) (limit : Nat) :
    (limitedTokens text (some (limit + 1))).length = limit + 1 ∧
      (∃ cut : Cut, cut.text = text.toList ∧ cut.AtGaps ∧ cut.pieces.length ≤ limit + 1 ∧
        (cut.pieces.length < limit + 1 → ∀ c ∈ cut.rest, isSpace c = false) ∧
        limitedTokens text (some (limit + 1)) =
          (cut.pieces ++ List.replicate (limit + 1 - cut.pieces.length) []).map String.ofList) ∧
      (limitedTokens text (some (limit + 1))).flatMap (limitedTokens · none) =
        limitedTokens text none ∧
      (fixedTokens (limit + 1) text).toList = limitedTokens text (some (limit + 1)) ∧
      limitedTokens text (some 0) = limitedTokens text none ∧
      ∃ stretches : List Stretch,
        limitedTokens text none = stretches.map (fun stretch => String.ofList stretch.inner) ∧
        (∀ stretch, stretch ∈ stretches ↔ stretch.IsRun (!isSpace ·) text.toList) ∧
        stretches.Pairwise fun first second => first.before.length < second.before.length := by
  have limited : limitedTokens text (some (limit + 1)) =
      (leading (limit + 1) text.toList).map String.ofList := rfl
  have all (text : String) : limitedTokens text none = (words text.toList).map String.ofList := rfl
  have pieces : (limitedTokens text (some (limit + 1))).flatMap (limitedTokens · none) =
      limitedTokens text none := by
    simp only [limited, all, List.flatMap_map, String.toList_ofList]
    rw [← List.map_flatMap, flatMap_words_leading]
  obtain ⟨cut, whole, atGaps, few, complete, entries⟩ := exists_cut limit text.toList
  refine ⟨leadingTokens_length (limit + 1) text,
    ⟨cut, whole, atGaps, few, complete, by rw [limited, entries]⟩, pieces,
    toList_fixedTokens (limit + 1) text, limitedTokens_zero text,
    runs (!isSpace ·) text.toList, ?_, fun stretch => mem_runs_iff stretch text.toList,
    pairwise_runs text.toList⟩
  rw [all, words_eq_runs, List.map_map]
  rfl

example :
    limitedTokens " Widget[]  \t list\n of  widgets " (some 3) =
        ["", "Widget[]", "list\n of  widgets "] ∧
      limitedTokens " Widget[]  \t list\n of  widgets " none =
        ["Widget[]", "list", "of", "widgets"] := by
  decide

end AnnotatedApi.Text
