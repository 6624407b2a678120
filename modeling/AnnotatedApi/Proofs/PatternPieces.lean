import AnnotatedApi.FileTree.Pattern
import AnnotatedApi.Proofs.Text

/-!
# Pieces of a pattern

What a piece of a pattern is read from.  A piece that stands for a name is read from that
name, and a dot in front of a wildcard has to be written there.
-/

set_option autoImplicit false

namespace AnnotatedApi

open Text

theorem exists_of_bind_eq_ok {ε α β : Type} {first : Except ε α} {next : α → Except ε β}
    {result : β} (ran : first >>= next = .ok result) :
    ∃ value, first = .ok value ∧ next value = .ok result := by
  cases first with
  | error cause => cases ran
  | ok value => exact ⟨value, rfl, ran⟩

namespace Pattern

def IsWildcardSign (c : Char) : Prop := c = '?' ∨ c = '*' ∨ c = '['

theorem ne_char_of_readClass {text after : List Char} {wildcard : Wildcard}
    (closed : readClass text = some (wildcard, after)) : ∀ other, wildcard ≠ .char other := by
  intro other same
  subst same
  rw [readClass.eq_def] at closed
  split at closed
  · split at closed <;> cases closed
  · split at closed
    · cases closed
    · split at closed <;> cases closed
  · cases closed

theorem exists_cons_of_stars {total fuel : Nat} {previous : Option Char} {rest : List Char}
    {wildcards : List Wildcard}
    (parsed : read total (fuel + 1) previous ('*' :: rest) = .ok wildcards) :
    ∃ first others, wildcards = first :: others ∧ ∀ other, first ≠ .char other := by
  by_cases double : ∃ tail, rest = '*' :: tail
  · obtain ⟨tail, rfl⟩ := double
    by_cases triple : ∃ more, tail = '*' :: more
    · obtain ⟨more, rfl⟩ := triple
      rw [read] at parsed
      cases parsed
    · rw [read] at parsed
      · obtain ⟨after, -, parsed⟩ := exists_of_bind_eq_ok parsed
        obtain ⟨others, -, same⟩ := exists_of_bind_eq_ok parsed
        exact ⟨_, others, (Except.ok.inj same).symm, by simp⟩
      · exact fun more same => triple ⟨more, same⟩
  · rw [read] at parsed
    · obtain ⟨others, -, same⟩ := exists_of_bind_eq_ok parsed
      exact ⟨_, others, (Except.ok.inj same).symm, by simp⟩
    · exact fun more same => double ⟨_, same⟩
    · exact fun tail same => double ⟨tail, same⟩

/-- A character that is no sign of a wildcard stands for itself; the others begin a wildcard
that stands for no single character. -/
theorem read_cons_cases {total fuel : Nat} {previous : Option Char} {c : Char} {rest : List Char}
    {wildcards : List Wildcard}
    (parsed : read total (fuel + 1) previous (c :: rest) = .ok wildcards) :
    (∃ others, wildcards = .char c :: others ∧ read total fuel (some c) rest = .ok others) ∨
      IsWildcardSign c ∧ ∃ first others, wildcards = first :: others ∧
        ∀ other, first ≠ .char other := by
  by_cases sign : IsWildcardSign c
  · refine Or.inr ⟨sign, ?_⟩
    rcases sign with rfl | rfl | rfl
    · rw [read] at parsed
      obtain ⟨others, -, same⟩ := exists_of_bind_eq_ok parsed
      exact ⟨_, others, (Except.ok.inj same).symm, by simp⟩
    · exact exists_cons_of_stars parsed
    · rw [read] at parsed
      cases closed : readClass rest with
      | none => rw [closed] at parsed; cases parsed
      | some pair =>
        rw [closed] at parsed
        obtain ⟨others, -, same⟩ := exists_of_bind_eq_ok parsed
        exact ⟨_, others, (Except.ok.inj same).symm, ne_char_of_readClass closed⟩
  · have plain : ¬ c = '?' ∧ ¬ c = '*' ∧ ¬ c = '[' := by simpa [IsWildcardSign] using sign
    rw [read] at parsed
    · obtain ⟨others, read, same⟩ := exists_of_bind_eq_ok parsed
      exact Or.inl ⟨others, (Except.ok.inj same).symm, read⟩
    all_goals simp_all

theorem eq_of_literal? {total fuel : Nat} {previous : Option Char} {text name : List Char}
    {wildcards : List Wildcard} (parsed : read total fuel previous text = .ok wildcards)
    (enough : text.length < fuel) (literal : literal? wildcards = some name) : name = text := by
  induction fuel generalizing previous text name wildcards with
  | zero => omega
  | succ fuel ih =>
    cases text with
    | nil =>
      cases parsed
      exact (Option.some.inj literal).symm
    | cons c rest =>
      rcases read_cons_cases parsed with ⟨others, rfl, read⟩ | ⟨-, first, others, rfl, noChar⟩
      · rw [literal?, Option.map_eq_some_iff] at literal
        obtain ⟨name, literal, rfl⟩ := literal
        rw [ih read (by simpa using enough) literal]
      · cases first with
        | char other => exact absurd rfl (noChar other)
        | _ => cases literal

theorem literal?_of_plain {total fuel : Nat} {previous : Option Char} {text : List Char}
    {wildcards : List Wildcard} (parsed : read total fuel previous text = .ok wildcards)
    (enough : text.length < fuel) (plain : ∀ c ∈ text, ¬ IsWildcardSign c) :
    literal? wildcards = some text := by
  induction fuel generalizing previous text wildcards with
  | zero => omega
  | succ fuel ih =>
    cases text with
    | nil =>
      cases parsed
      rfl
    | cons c rest =>
      obtain ⟨here, behind⟩ := List.forall_mem_cons.1 plain
      rcases read_cons_cases parsed with ⟨others, rfl, read⟩ | ⟨sign, -⟩
      · rw [literal?, ih read (by simpa using enough) behind]
        rfl
      · exact absurd sign here

def Piece.KeepsStraight : Piece → Prop
  | .literal name => name ≠ ".." ∧ '/' ∉ name.toList
  | .wild wildcards => PathPattern.dotNames wildcards = []
  | .anyDepth => True

theorem keepsStraight_ofWildcards {text : List Char} {wildcards : List Wildcard}
    (parsed : Pattern.parse text = .ok wildcards) (plain : '/' ∉ text)
    (notParent : text ≠ ['.', '.'])
    (dotted : text.head? = some '.' → ∀ c ∈ text, ¬ IsWildcardSign c) :
    (Piece.ofWildcards wildcards).KeepsStraight := by
  rw [Pattern.parse] at parsed
  rw [Piece.ofWildcards]
  split
  · trivial
  · cases literal : literal? wildcards with
    | some name =>
      obtain rfl := eq_of_literal? parsed (Nat.lt_succ_self _) literal
      refine ⟨fun dots => notParent (String.ofList_inj.1 dots), ?_⟩
      rwa [String.toList_ofList]
    | none =>
      -- A dot in front would have to be read from the text, which is then without wildcards.
      change PathPattern.dotNames wildcards = []
      rw [PathPattern.dotNames.eq_def]
      split
      · cases text with
        | nil => cases parsed
        | cons c rest =>
          rcases read_cons_cases parsed with ⟨others, same, -⟩ | ⟨-, first, others, same, noChar⟩
          · cases same
            rw [literal?_of_plain parsed (Nat.lt_succ_self _) (dotted rfl)] at literal
            cases literal
          · cases same
            exact absurd rfl (noChar '.')
      · rfl

end Pattern

namespace PathPattern

theorem mem_splitAt_of_mem_pieceTexts {text piece : List Char}
    (among : piece ∈ Pattern.pieceTexts text) : piece ∈ splitAt '/' text := by
  rw [Pattern.pieceTexts] at among
  split at among
  · next split =>
    rw [← List.mem_reverse, split]
    exact List.mem_cons_of_mem _ (List.mem_reverse.1 among)
  · rwa [List.reverse_reverse] at among

theorem exists_of_mem_mapM {ε α β : Type} {part : α → Except ε β} {xs : List α} {ys : List β}
    (ran : xs.mapM part = .ok ys) : ∀ y ∈ ys, ∃ x ∈ xs, part x = .ok y := by
  induction xs generalizing ys with
  | nil => cases ran; simp
  | cons x xs ih =>
    rw [List.mapM_cons] at ran
    obtain ⟨first, here, ran⟩ := exists_of_bind_eq_ok ran
    obtain ⟨others, rest, ran⟩ := exists_of_bind_eq_ok ran
    cases ran
    intro y among
    rcases List.mem_cons.1 among with rfl | among
    · exact ⟨x, List.mem_cons_self, here⟩
    · obtain ⟨x', among, read⟩ := ih rest y among
      exact ⟨x', List.mem_cons_of_mem x among, read⟩

/-- Where a pattern starts, and which texts its pieces are read from. -/
theorem parse_eq_ok {argument : String} {pattern : PathPattern}
    (parsed : parse argument = .ok pattern) :
    pattern.start = (if argument.toList.head? = some '/' then "/" else ".") ∧
      ∀ piece ∈ pattern.pieces, ∃ text ∈ splitAt '/' argument.toList, ∃ wildcards,
        Pattern.parse text = .ok wildcards ∧ piece = Pattern.Piece.ofWildcards wildcards := by
  rw [parse] at parsed
  obtain ⟨whole, -, parsed⟩ := exists_of_bind_eq_ok parsed
  obtain ⟨pieces, read, parsed⟩ := exists_of_bind_eq_ok parsed
  cases parsed
  refine ⟨by simp, fun piece among => ?_⟩
  obtain ⟨text, isText, read⟩ := exists_of_mem_mapM read piece among
  refine ⟨text, ?inArgument, ?isPiece⟩
  case isPiece =>
    cases wildcards : Pattern.parse text with
    | error cause => rw [wildcards] at read; cases read
    | ok read' =>
      rw [wildcards] at read
      exact ⟨read', rfl, (Except.ok.inj read).symm⟩
  case inArgument =>
    have split : ∀ chars : List Char,
        text ∈ (if chars.isEmpty = true then [[]] else Pattern.pieceTexts chars) →
          text ∈ splitAt '/' chars := by
      intro chars isText
      cases chars with
      | nil => exact isText
      | cons c rest => exact mem_splitAt_of_mem_pieceTexts isText
    have inRelative := split _ isText
    by_cases absolute : argument.toList.head? = some '/'
    · obtain ⟨rest, chars⟩ := List.head?_eq_some_iff.1 absolute
      rw [if_pos (by simpa using absolute), chars, List.drop_one, List.tail_cons] at inRelative
      rw [chars, splitAt, if_pos rfl]
      exact List.mem_cons_of_mem [] inRelative
    · rwa [if_neg (by simpa using absolute)] at inRelative

end PathPattern
end AnnotatedApi
