import AnnotatedApi.Text.Basic
import Mathlib.Data.List.DropRight

/-!
# Trimming, lines and fixed pieces of texts

Trimming at the end depends only on what stands behind the last character that is
no white space.  A line that ends in a line feed is cut off whole.
-/

set_option autoImplicit false

namespace AnnotatedApi.Text

/-! ## Fixed pieces -/

theorem stripFront?_eq_some_iff (front text rest : List Char) :
    stripFront? front text = some rest ↔ text = front ++ rest := by
  rw [stripFront?, List.isPrefixOf?_eq_some_iff_append_eq, eq_comm]

theorem stripFront?_eq_none_iff (front text : List Char) :
    stripFront? front text = none ↔ ∀ rest, text ≠ front ++ rest := by
  rw [Option.eq_none_iff_forall_ne_some]
  exact forall_congr' fun rest => not_congr (stripFront?_eq_some_iff front text rest)

theorem stripFront?_cons (c : Char) (front : List Char) (first : Char) (rest : List Char) :
    stripFront? (c :: front) (first :: rest) =
      if c = first then stripFront? front rest else none := by
  rw [stripFront?, List.isPrefixOf?]
  simp only [beq_iff_eq]
  rfl

theorem stripBack?_eq_some_iff (back text stem : List Char) :
    stripBack? back text = some stem ↔ text = stem ++ back := by
  rw [stripBack?, List.isSuffixOf?_eq_some_iff_append_eq, eq_comm]

theorem stripBack?_eq_none_iff (back text : List Char) :
    stripBack? back text = none ↔ ¬ back <:+ text := by
  constructor
  · rintro absent ⟨stem, split⟩
    rw [(stripBack?_eq_some_iff back text stem).2 split.symm] at absent
    cases absent
  · intro notSuffix
    cases found : stripBack? back text with
    | none => rfl
    | some stem =>
      have split := (stripBack?_eq_some_iff back text stem).1 found
      exact absurd ⟨stem, split.symm⟩ notSuffix

/-! ## Runs of one kind of character -/

theorem takeWhile_dropWhile_append {kind : Char → Bool} {front back : List Char}
    (same : ∀ c ∈ front, kind c = true) (ended : ∀ c ∈ back.head?, kind c = false) :
    (front ++ back).takeWhile kind = front ∧ (front ++ back).dropWhile kind = back := by
  rw [List.takeWhile_append_of_pos same, List.dropWhile_append_of_pos same]
  cases back with
  | nil => exact ⟨List.append_nil front, rfl⟩
  | cons c rest =>
    have stop : ¬ kind c = true := by simp [ended c rfl]
    rw [List.takeWhile_cons_of_neg stop, List.dropWhile_cons_of_neg stop]
    exact ⟨List.append_nil front, rfl⟩

theorem not_head_dropWhile (kind : Char → Bool) (text : List Char) :
    ∀ c ∈ (text.dropWhile kind).head?, kind c = false := by
  intro c first
  have stop := List.head?_dropWhile_not kind text
  rw [Option.mem_def.1 first] at stop
  exact stop

/-! ## Trimming -/

theorem trimEnd_eq_rdropWhile (text : List Char) : trimEnd text = text.rdropWhile isSpace := rfl

theorem trimEnd_eq_nil_iff (text : List Char) : trimEnd text = [] ↔ isAllSpace text = true := by
  rw [trimEnd_eq_rdropWhile, List.rdropWhile_eq_nil_iff, isAllSpace, List.all_eq_true]

theorem trimEnd_idempotent (text : List Char) : trimEnd (trimEnd text) = trimEnd text :=
  List.rdropWhile_idempotent isSpace text

theorem isAllSpace_trimEnd (text : List Char) : isAllSpace (trimEnd text) = isAllSpace text := by
  rw [Bool.eq_iff_iff, ← trimEnd_eq_nil_iff, ← trimEnd_eq_nil_iff, trimEnd_idempotent]

theorem trimEnd_append (front back : List Char) :
    trimEnd (front ++ back) =
      if isAllSpace back = true then trimEnd front else front ++ trimEnd back := by
  rw [trimEnd, List.reverse_append, List.dropWhile_append]
  by_cases allSpace : isAllSpace back = true
  · have gone : back.reverse.dropWhile isSpace = [] :=
      List.reverse_eq_nil_iff.1 ((trimEnd_eq_nil_iff back).2 allSpace)
    rw [if_pos allSpace, gone]
    rfl
  · have kept : back.reverse.dropWhile isSpace ≠ [] := by
      intro gone
      exact allSpace ((trimEnd_eq_nil_iff back).1 (List.reverse_eq_nil_iff.2 gone))
    rw [if_neg allSpace, if_neg (by simpa using kept), List.reverse_append, List.reverse_reverse]
    rfl

theorem trimEnd_append_cons_of_not_space (front back : List Char) {c : Char}
    (visible : isSpace c = false) : trimEnd (front ++ c :: back) = front ++ c :: trimEnd back := by
  have tail : trimEnd (c :: back) = c :: trimEnd back := by
    have split := trimEnd_append [c] back
    by_cases allSpace : isAllSpace back = true
    · rw [List.singleton_append, if_pos allSpace] at split
      rw [split, (trimEnd_eq_nil_iff back).2 allSpace]
      simp [trimEnd, visible]
    · rwa [List.singleton_append, if_neg allSpace] at split
  have visibleTail : ¬ isAllSpace (c :: back) = true := by simp [isAllSpace, visible]
  rw [trimEnd_append, if_neg visibleTail, tail]

theorem trimEnd_append_trimEnd (front back : List Char) :
    trimEnd (front ++ trimEnd back) = trimEnd (front ++ back) := by
  rw [trimEnd_append, trimEnd_append, isAllSpace_trimEnd, trimEnd_idempotent]

theorem trimStart_of_not_space {c : Char} (visible : isSpace c = false) (rest : List Char) :
    trimStart (c :: rest) = c :: rest := by
  simp [trimStart, visible]

theorem trimStart_append_of_allSpace {front : List Char} (allSpace : isAllSpace front = true)
    (back : List Char) : trimStart (front ++ back) = trimStart back := by
  have gone : front.dropWhile isSpace = [] :=
    List.dropWhile_eq_nil_iff.2 fun c among => List.all_eq_true.1 allSpace c among
  rw [trimStart, List.dropWhile_append, if_pos (by simpa using gone), trimStart]

theorem trim_trimEnd (text : List Char) : trim (trimEnd text) = trim text := by
  induction text with
  | nil => rfl
  | cons c rest ih =>
    -- A visible first character stops both trims of the front; a space is dropped by both.
    by_cases visible : isSpace c = false
    · have split := trimEnd_append_cons_of_not_space [] rest visible
      rw [List.nil_append, List.nil_append] at split
      rw [trim, split, trimStart_of_not_space visible, ← split, trimEnd_idempotent, trim,
        trimStart_of_not_space visible]
    · have space : isAllSpace [c] = true := by simpa [isAllSpace] using visible
      have skipped : ∀ tail : List Char, trim (c :: tail) = trim tail := fun tail => by
        rw [trim, ← List.singleton_append, trimStart_append_of_allSpace space, trim]
      rw [skipped, ← ih, ← List.singleton_append, trimEnd_append]
      by_cases allSpace : isAllSpace rest = true
      · rw [if_pos allSpace, (trimEnd_eq_nil_iff [c]).2 space, (trimEnd_eq_nil_iff rest).2 allSpace]
      · rw [if_neg allSpace, List.singleton_append, skipped]

/-- The end of a text may be trimmed before all of it is. -/
theorem trim_append_trimEnd (front back : List Char) :
    trim (front ++ trimEnd back) = trim (front ++ back) := by
  rw [← trim_trimEnd (front ++ trimEnd back), trimEnd_append_trimEnd, trim_trimEnd]

theorem trim_of_visible_ends {front back : Char} (visibleFront : isSpace front = false)
    (visibleBack : isSpace back = false) (inner : List Char) :
    trim (front :: (inner ++ [back])) = front :: (inner ++ [back]) := by
  rw [trim, trimStart_of_not_space visibleFront, ← List.cons_append,
    trimEnd_append_cons_of_not_space (front :: inner) [] visibleBack]
  rfl

structure Trimmed (text : List Char) : Prop where
  begun : ∀ c ∈ text.head?, isSpace c = false
  ended : ∀ c ∈ text.getLast?, isSpace c = false

theorem isInfix_trim (text : List Char) : trim text <:+: text := by
  have back : trimEnd (trimStart text) <+: trimStart text := List.rdropWhile_prefix isSpace _
  exact back.isInfix.trans (List.dropWhile_suffix isSpace).isInfix

theorem trimmed_trim (text : List Char) : Trimmed (trim text) where
  begun := by
    intro c first
    obtain ⟨back, split⟩ : trim text <+: trimStart text := List.rdropWhile_prefix isSpace _
    apply not_head_dropWhile isSpace text
    rw [trimStart] at split
    rw [Option.mem_def, ← split, List.head?_append, Option.mem_def.1 first, Option.some_or]
  ended := by
    intro c last
    have nonempty : (trimStart text).rdropWhile isSpace ≠ [] := by
      intro empty
      rw [trim, trimEnd_eq_rdropWhile, empty] at last
      cases last
    have stop := List.rdropWhile_last_not isSpace (trimStart text) nonempty
    rw [trim, trimEnd_eq_rdropWhile, List.getLast?_eq_some_getLast nonempty] at last
    obtain rfl : ((trimStart text).rdropWhile isSpace).getLast nonempty = c := by simpa using last
    simpa using stop

theorem trim_eq_nil_iff (text : List Char) : trim text = [] ↔ isAllSpace text = true := by
  rw [trim, trimEnd_eq_nil_iff, trimStart]
  constructor
  · intro allSpace
    rw [isAllSpace, List.all_eq_true] at allSpace ⊢
    intro c among
    rw [← List.takeWhile_append_dropWhile (p := isSpace) (l := text), List.mem_append] at among
    rcases among with inFront | behind
    · exact List.mem_takeWhile_imp inFront
    · exact allSpace c behind
  · intro allSpace
    rw [isAllSpace, List.all_eq_true] at allSpace ⊢
    exact fun c among => allSpace c ((List.dropWhile_suffix isSpace).subset among)

/-! ## Lines -/

theorem lines_append_newline {line : List Char} (unbroken : '\n' ∉ line) (rest : List Char) :
    lines (line ++ '\n' :: rest) = line :: lines rest := by
  induction line with
  | nil => rw [List.nil_append, lines_cons_newline]
  | cons c tail ih =>
    rw [List.mem_cons, not_or] at unbroken
    rw [List.cons_append, lines, if_neg (Ne.symm unbroken.1), ih unbroken.2, consHead]

theorem lines_of_unbroken {line : List Char} (nonempty : line ≠ []) (unbroken : '\n' ∉ line) :
    lines line = [line] := by
  induction line with
  | nil => exact absurd rfl nonempty
  | cons c tail ih =>
    rw [List.mem_cons, not_or] at unbroken
    rw [lines, if_neg (Ne.symm unbroken.1)]
    cases tail with
    | nil => rfl
    | cons next tail => rw [ih (List.cons_ne_nil next tail) unbroken.2, consHead]

theorem mem_of_mem_lines {text line : List Char} {c : Char} (among : line ∈ lines text) (inLine : c ∈ line) :
    c ∈ text := by
  induction text generalizing line with
  | nil => simp [lines] at among
  | cons first rest ih =>
    rw [lines] at among
    by_cases newline : first = '\n'
    · rw [if_pos newline] at among
      rcases List.mem_cons.1 among with rfl | among
      · cases inLine
      · exact List.mem_cons_of_mem first (ih among inLine)
    · rw [if_neg newline] at among
      cases behind : lines rest with
      | nil =>
        rw [behind, consHead, List.mem_singleton] at among
        subst among
        rw [List.mem_singleton.1 inLine]
        exact List.mem_cons_self
      | cons next others =>
        rw [behind] at ih
        rw [behind, consHead] at among
        rcases List.mem_cons.1 among with rfl | among
        · rcases List.mem_cons.1 inLine with rfl | inNext
          · exact List.mem_cons_self
          · exact List.mem_cons_of_mem first (ih List.mem_cons_self inNext)
        · exact List.mem_cons_of_mem first (ih (List.mem_cons_of_mem next among) inLine)

theorem not_newline_mem_lines {text line : List Char} (among : line ∈ lines text) : '\n' ∉ line := by
  induction text generalizing line with
  | nil => simp [lines] at among
  | cons c rest ih =>
    rw [lines] at among
    by_cases newline : c = '\n'
    · rw [if_pos newline] at among
      rcases List.mem_cons.1 among with rfl | among
      · exact List.not_mem_nil
      · exact ih among
    · rw [if_neg newline] at among
      cases behind : lines rest with
      | nil =>
        rw [behind, consHead, List.mem_singleton] at among
        subst among
        simpa using Ne.symm newline
      | cons next others =>
        rw [behind] at ih
        rw [behind, consHead] at among
        rcases List.mem_cons.1 among with rfl | among
        · rw [List.mem_cons, not_or]
          exact ⟨Ne.symm newline, ih List.mem_cons_self⟩
        · exact ih (List.mem_cons_of_mem next among)

/-- Lines with a line feed after each are read back, and then the lines of what follows. -/
theorem lines_flatMap_append {pieces : List (List Char)} (unbroken : ∀ piece ∈ pieces, '\n' ∉ piece)
    (rest : List Char) :
    lines ((pieces.flatMap fun piece => piece ++ ['\n']) ++ rest) = pieces ++ lines rest := by
  induction pieces with
  | nil => rfl
  | cons piece pieces ih =>
    rw [List.forall_mem_cons] at unbroken
    rw [List.flatMap_cons, List.append_assoc, List.append_assoc, List.singleton_append,
      lines_append_newline unbroken.1, ih unbroken.2, List.cons_append]

/-! ## Pieces between separators -/

section Pieces
variable (separator : Char)

theorem joinWith_append {front back : List (List Char)} (nonemptyFront : front ≠ [])
    (nonemptyBack : back ≠ []) :
    joinWith separator (front ++ back) =
      joinWith separator front ++ separator :: joinWith separator back := by
  induction front with
  | nil => exact absurd rfl nonemptyFront
  | cons piece front ih =>
    cases front with
    | nil =>
      obtain ⟨next, rest, rfl⟩ := List.exists_cons_of_ne_nil nonemptyBack
      rfl
    | cons next front =>
      have inner := ih (List.cons_ne_nil next front)
      rw [List.cons_append, List.cons_append, joinWith, ← List.cons_append, inner, joinWith,
        List.append_assoc, List.cons_append]

theorem joinWith_consHead (c : Char) {pieces : List (List Char)} (nonempty : pieces ≠ []) :
    joinWith separator (consHead c pieces) = c :: joinWith separator pieces := by
  obtain ⟨piece, rest, rfl⟩ := List.exists_cons_of_ne_nil nonempty
  cases rest <;> rfl

theorem joinWith_splitAt (text : List Char) : joinWith separator (splitAt separator text) = text := by
  induction text with
  | nil => rfl
  | cons c rest ih =>
    have nonempty := splitAt_ne_nil separator rest
    rw [splitAt]
    by_cases same : c = separator
    · obtain ⟨piece, pieces, split⟩ := List.exists_cons_of_ne_nil nonempty
      rw [if_pos same, split, joinWith, ← split, ih, same]
      rfl
    · rw [if_neg same, joinWith_consHead separator c nonempty, ih]

theorem splitAt_append_separator (front back : List Char) :
    splitAt separator (front ++ separator :: back) =
      splitAt separator front ++ splitAt separator back := by
  induction front with
  | nil => simp [splitAt]
  | cons c rest ih =>
    rw [List.cons_append, splitAt, splitAt, ih]
    by_cases same : c = separator
    · rw [if_pos same, if_pos same, List.cons_append]
    · obtain ⟨piece, pieces, split⟩ := List.exists_cons_of_ne_nil (splitAt_ne_nil separator rest)
      rw [if_neg same, if_neg same, split, List.cons_append, consHead, consHead, List.cons_append]

theorem splitAt_of_not_mem {text : List Char} (absent : separator ∉ text) :
    splitAt separator text = [text] := by
  induction text with
  | nil => rfl
  | cons c rest ih =>
    rw [List.mem_cons, not_or] at absent
    rw [splitAt, if_neg (Ne.symm absent.1), ih absent.2, consHead]

theorem not_mem_of_mem_splitAt {piece text : List Char} (among : piece ∈ splitAt separator text) :
    separator ∉ piece := by
  induction text generalizing piece with
  | nil =>
    obtain rfl := List.mem_singleton.1 among
    exact List.not_mem_nil
  | cons c rest ih =>
    rw [splitAt] at among
    by_cases same : c = separator
    · rw [if_pos same] at among
      rcases List.mem_cons.1 among with rfl | among
      · exact List.not_mem_nil
      · exact ih among
    · obtain ⟨first, others, split⟩ := List.exists_cons_of_ne_nil (splitAt_ne_nil separator rest)
      rw [split] at ih
      rw [if_neg same, split, consHead] at among
      rcases List.mem_cons.1 among with rfl | among
      · rw [List.mem_cons, not_or]
        exact ⟨Ne.symm same, ih List.mem_cons_self⟩
      · exact ih (List.mem_cons_of_mem first among)

theorem exists_joinWith_cons (piece : List Char) (later : List (List Char)) :
    ∃ back, joinWith separator (piece :: later) = piece ++ back := by
  cases later with
  | nil => exact ⟨[], (List.append_nil piece).symm⟩
  | cons next rest => exact ⟨separator :: joinWith separator (next :: rest), rfl⟩

theorem splitAt_joinWith {pieces : List (List Char)} (nonempty : pieces ≠ [])
    (apart : ∀ piece ∈ pieces, separator ∉ piece) :
    splitAt separator (joinWith separator pieces) = pieces := by
  induction pieces with
  | nil => exact absurd rfl nonempty
  | cons piece rest ih =>
    obtain ⟨here, behind⟩ := List.forall_mem_cons.1 apart
    cases rest with
    | nil => exact splitAt_of_not_mem separator here
    | cons next rest =>
      rw [joinWith, splitAt_append_separator, splitAt_of_not_mem separator here,
        ih (List.cons_ne_nil next rest) behind, List.singleton_append]

theorem tail_splitAt_joinWith {pieces : List (List Char)}
    (apart : ∀ piece ∈ pieces, separator ∉ piece) :
    (splitAt separator (joinWith separator pieces)).tail = pieces.tail := by
  cases pieces with
  | nil => rfl
  | cons piece rest => rw [splitAt_joinWith separator (List.cons_ne_nil piece rest) apart]

theorem exists_split_of_mem_tail {piece text : List Char}
    (later : piece ∈ (splitAt separator text).tail) :
    ∃ front back, text = front ++ separator :: (piece ++ back) := by
  obtain ⟨first, others, split⟩ := List.exists_cons_of_ne_nil (splitAt_ne_nil separator text)
  rw [split] at later
  obtain ⟨before, behind, rfl⟩ := List.append_of_mem later
  obtain ⟨back, starts⟩ := exists_joinWith_cons separator piece behind
  refine ⟨joinWith separator (first :: before), back, ?_⟩
  rw [← starts, ← joinWith_append separator (List.cons_ne_nil _ _) (List.cons_ne_nil _ _),
    List.cons_append, ← split, joinWith_splitAt]

theorem mem_tail_of_split (front : List Char) {rest piece : List Char}
    (among : piece ∈ splitAt separator rest) :
    piece ∈ (splitAt separator (front ++ separator :: rest)).tail := by
  rw [splitAt_append_separator]
  obtain ⟨first, later, split⟩ := List.exists_cons_of_ne_nil (splitAt_ne_nil separator front)
  rw [split]
  exact List.mem_append_right later among

/-- Text without a separator is the front of the first piece. -/
theorem exists_splitAt_append {line : List Char} (absent : separator ∉ line) (back : List Char) :
    ∃ behind others, splitAt separator (line ++ back) = (line ++ behind) :: others := by
  induction line with
  | nil => exact List.exists_cons_of_ne_nil (splitAt_ne_nil separator back)
  | cons c tail ih =>
    rw [List.mem_cons, not_or] at absent
    obtain ⟨behind, others, split⟩ := ih absent.2
    refine ⟨behind, others, ?_⟩
    rw [List.cons_append, splitAt, if_neg (Ne.symm absent.1), split]
    rfl

/-- A later piece of a part of a text is the front of a later piece of the text. -/
theorem exists_later_piece {part text piece : List Char} (inText : part <:+: text)
    (later : piece ∈ (splitAt separator part).tail) :
    ∃ behind, piece ++ behind ∈ (splitAt separator text).tail := by
  obtain ⟨front, back, rfl⟩ := inText
  have absent : separator ∉ piece :=
    not_mem_of_mem_splitAt separator (List.mem_of_mem_tail later)
  obtain ⟨before, after, rfl⟩ := exists_split_of_mem_tail separator later
  obtain ⟨behind, others, split⟩ := exists_splitAt_append separator absent (after ++ back)
  have among : piece ++ behind ∈ splitAt separator (piece ++ (after ++ back)) := by
    rw [split]
    exact List.mem_cons_self
  have inTail := mem_tail_of_split separator (front ++ before) among
  refine ⟨behind, ?_⟩
  simpa using inTail

end Pieces

theorem joinLines_append {front back : List (List Char)} (nonemptyFront : front ≠ [])
    (nonemptyBack : back ≠ []) :
    joinLines (front ++ back) = joinLines front ++ '\n' :: joinLines back :=
  joinWith_append '\n' nonemptyFront nonemptyBack

end AnnotatedApi.Text
