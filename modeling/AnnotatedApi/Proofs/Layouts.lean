import AnnotatedApi.Document.Basic

/-!
# One text in two layouts

The indented layout is the compact one with spaces and line breaks between its parts, and
never inside its strings.  `IsLayoutOf` holds of every part of a value, from the escaped
characters of a string to a whole object, and so of a document.
-/

set_option autoImplicit false

namespace AnnotatedApi.Json

/-! ## Spaces and line breaks outside of strings -/

inductive Region where
  | outside
  | inString
  | escaped
deriving DecidableEq, Repr

def Region.behind (c : Char) : Region → Region
  | .outside => if c = '"' then .inString else .outside
  | .inString => if c = '"' then .outside else if c = '\\' then .escaped else .inString
  | .escaped => .inString

def IsBreak (c : Char) : Prop := c = '\n' ∨ c = '\r'

instance (c : Char) : Decidable (IsBreak c) := inferInstanceAs (Decidable (_ ∨ _))

/-- The text without the spaces and line breaks that stand outside of its strings. -/
def withoutLayout : Region → List Char → List Char
  | _, [] => []
  | region, c :: rest =>
    if region = .outside ∧ (c = ' ' ∨ IsBreak c) then withoutLayout .outside rest
    else c :: withoutLayout (region.behind c) rest

example : withoutLayout .outside ['[', '\n', ' ', '"', ' ', '\\', '"', ' ', '"', '\n', ']'] =
    ['[', '"', ' ', '\\', '"', ' ', '"', ']'] := by decide

/-- The text is `bare`, which stands on one line, with spaces and line breaks around its
parts; it begins and ends outside of a string. -/
structure IsLayoutOf (chars bare : List Char) : Prop where
  strip : ∀ rest, withoutLayout .outside (chars ++ rest) = bare ++ withoutLayout .outside rest
  unbroken : ∀ c ∈ bare, ¬ IsBreak c

theorem IsLayoutOf.append {chars chars' bare bare' : List Char} (front : IsLayoutOf chars bare)
    (back : IsLayoutOf chars' bare') : IsLayoutOf (chars ++ chars') (bare ++ bare') where
  strip rest := by rw [List.append_assoc, front.strip, back.strip, List.append_assoc]
  unbroken := List.forall_mem_append.2 ⟨front.unbroken, back.unbroken⟩

def IsPlain (c : Char) : Prop := c ≠ '"' ∧ c ≠ ' ' ∧ ¬ IsBreak c

instance (c : Char) : Decidable (IsPlain c) := inferInstanceAs (Decidable (_ ∧ _ ∧ _))

theorem isLayoutOf_plain {chars : List Char} (plain : ∀ c ∈ chars, IsPlain c) :
    IsLayoutOf chars chars := by
  constructor
  case unbroken =>
    intro c among
    exact (plain c among).2.2
  case strip =>
    intro rest
    induction chars with
    | nil => rfl
    | cons c chars ih =>
      obtain ⟨⟨notQuote, notSpace, notBreak⟩, others⟩ := List.forall_mem_cons.1 plain
      rw [List.cons_append, withoutLayout, if_neg (by simp [notSpace, notBreak]), Region.behind,
        if_neg notQuote, ih others, List.cons_append]

theorem isLayoutOf_blank {chars : List Char} (blank : ∀ c ∈ chars, c = ' ' ∨ IsBreak c) :
    IsLayoutOf chars [] := by
  constructor
  case unbroken => simp
  case strip =>
    intro rest
    induction chars with
    | nil => rfl
    | cons c chars ih =>
      obtain ⟨here, others⟩ := List.forall_mem_cons.1 blank
      rw [List.cons_append, withoutLayout, if_pos ⟨rfl, here⟩]
      exact ih others

theorem isLayoutOf_newLine (depth : Nat) : IsLayoutOf (Value.newLine depth) [] := by
  apply isLayoutOf_blank
  intro c among
  rcases List.mem_cons.1 among with rfl | among
  · exact Or.inr (Or.inl rfl)
  · exact Or.inl (List.eq_of_mem_replicate among)

/-! ## Strings -/

structure StaysInString (chars : List Char) : Prop where
  strip : ∀ rest,
    withoutLayout .inString (chars ++ rest) = chars ++ withoutLayout .inString rest
  unbroken : ∀ c ∈ chars, ¬ IsBreak c

theorem StaysInString.append {front back : List Char} (first : StaysInString front)
    (second : StaysInString back) : StaysInString (front ++ back) where
  strip rest := by rw [List.append_assoc, first.strip, second.strip, List.append_assoc]
  unbroken := List.forall_mem_append.2 ⟨first.unbroken, second.unbroken⟩

def IsStringChar (c : Char) : Prop := c ≠ '"' ∧ c ≠ '\\' ∧ ¬ IsBreak c

instance (c : Char) : Decidable (IsStringChar c) := inferInstanceAs (Decidable (_ ∧ _ ∧ _))

theorem staysInString_chars {chars : List Char} (all : ∀ c ∈ chars, IsStringChar c) :
    StaysInString chars := by
  constructor
  case unbroken =>
    intro c among
    exact (all c among).2.2
  case strip =>
    intro rest
    induction chars with
    | nil => rfl
    | cons c chars ih =>
      obtain ⟨⟨notQuote, notBackslash, -⟩, others⟩ := List.forall_mem_cons.1 all
      rw [List.cons_append, withoutLayout, if_neg (by simp), Region.behind, if_neg notQuote,
        if_neg notBackslash, ih others, List.cons_append]

theorem staysInString_escaped {c : Char} (unbroken : ¬ IsBreak c) : StaysInString ['\\', c] where
  strip rest := rfl
  unbroken := by simpa [IsBreak] using unbroken

theorem isStringChar_hexDigit : ∀ n < 16, IsStringChar (hexDigit n) := by decide

theorem staysInString_escape (c : Char) : StaysInString (escape c) := by
  rw [escape]
  by_cases quote : c = '"'
  · rw [if_pos quote]
    exact staysInString_escaped (by decide)
  rw [if_neg quote]
  by_cases backslash : c = '\\'
  · rw [if_pos backslash]
    exact staysInString_escaped (by decide)
  rw [if_neg backslash]
  split
  · exact staysInString_escaped (by decide)
  split
  · exact staysInString_escaped (by decide)
  by_cases feed : c = '\n'
  · rw [if_pos feed]
    exact staysInString_escaped (by decide)
  rw [if_neg feed]
  by_cases back : c = '\r'
  · rw [if_pos back]
    exact staysInString_escaped (by decide)
  rw [if_neg back]
  split
  · exact staysInString_escaped (by decide)
  split
  · next control =>
    have digits : StaysInString ['0', '0', hexDigit (c.toNat / 16), hexDigit (c.toNat % 16)] := by
      apply staysInString_chars
      have zero : IsStringChar '0' := by decide
      have high := isStringChar_hexDigit (c.toNat / 16) (by omega)
      have low := isStringChar_hexDigit (c.toNat % 16) (by omega)
      simp [zero, high, low]
    exact (staysInString_escaped (by decide)).append digits
  · apply staysInString_chars
    simp [IsStringChar, IsBreak, quote, backslash, feed, back]

theorem staysInString_flatMap_escape (text : List Char) :
    StaysInString (text.flatMap escape) := by
  induction text with
  | nil => exact ⟨fun _ => rfl, by simp⟩
  | cons c text ih => exact (staysInString_escape c).append ih

theorem isLayoutOf_quoted (text : String) : IsLayoutOf (quoted text) (quoted text) := by
  have inside := staysInString_flatMap_escape text.toList
  constructor
  case unbroken =>
    have quote : ¬ IsBreak '"' := by decide
    simpa [quoted, quote, or_imp, forall_and] using inside.unbroken
  case strip =>
    intro rest
    have opened : ∀ chars, withoutLayout .outside ('"' :: chars) =
        '"' :: withoutLayout .inString chars := fun _ => rfl
    have closed : ∀ chars, withoutLayout .inString ('"' :: chars) =
        '"' :: withoutLayout .outside chars := fun _ => rfl
    rw [quoted, List.cons_append, List.append_assoc, opened, inside.strip, List.singleton_append,
      closed]
    simp

/-! ## Numbers -/

def IsNumeral (c : Char) : Prop := c.isDigit = true ∨ c = '-' ∨ c = '+' ∨ c = '.' ∨ c = 'e'

theorem IsNumeral.isPlain {c : Char} (numeral : IsNumeral c) : IsPlain c := by
  rcases numeral with digit | rfl | rfl | rfl | rfl
  · refine ⟨?_, ?_, ?_⟩
    · rintro rfl
      cases digit
    · rintro rfl
      cases digit
    · rintro (rfl | rfl)
      · cases digit
      · cases digit
  all_goals decide

theorem isNumeral_natText (n : Nat) : ∀ c ∈ natText n, IsNumeral c := by
  intro c among
  exact Or.inl (Nat.isDigit_of_mem_toDigits (by decide) (by decide) among)

theorem isNumeral_zeros (count : Nat) : ∀ c ∈ List.replicate count '0', IsNumeral c := by
  intro c among
  rw [List.eq_of_mem_replicate among]
  exact Or.inl rfl

section Digits
variable {digits : List Char} (all : ∀ c ∈ digits, IsNumeral c)
include all

theorem isNumeral_pointText (whole : Int) : ∀ c ∈ pointText digits whole, IsNumeral c := by
  have zero : IsNumeral '0' := Or.inl rfl
  have point : IsNumeral '.' := by simp [IsNumeral]
  rw [pointText]
  split
  · simp only [List.forall_mem_cons, List.forall_mem_append]
    exact ⟨zero, point, isNumeral_zeros _, all⟩
  split
  · simp only [List.forall_mem_cons, List.forall_mem_append]
    exact ⟨⟨all, isNumeral_zeros _⟩, point, zero, by simp⟩
  · simp only [List.forall_mem_cons, List.forall_mem_append]
    exact ⟨fun c among => all c (List.mem_of_mem_take among), point,
      fun c among => all c (List.mem_of_mem_drop among)⟩

theorem isNumeral_scientificText (power : Int) :
    ∀ c ∈ scientificText digits power, IsNumeral c := by
  have point : IsNumeral '.' := by simp [IsNumeral]
  have mark : IsNumeral 'e' := by simp [IsNumeral]
  have sign : IsNumeral (if power < 0 then '-' else '+') := by
    split
    · exact Or.inr (Or.inl rfl)
    · exact Or.inr (Or.inr (Or.inl rfl))
  have exponent : ∀ c ∈ 'e' :: (if power < 0 then '-' else '+') :: natText power.natAbs,
      IsNumeral c := by
    simp only [List.forall_mem_cons]
    exact ⟨mark, sign, isNumeral_natText _⟩
  cases digits with
  | nil => exact exponent
  | cons first rest =>
    cases rest with
    | nil => exact List.forall_mem_append.2 ⟨all, exponent⟩
    | cons next rest =>
      obtain ⟨here, others⟩ := List.forall_mem_cons.1 all
      have mantissa : ∀ c ∈ first :: '.' :: next :: rest, IsNumeral c :=
        List.forall_mem_cons.2 ⟨here, List.forall_mem_cons.2 ⟨point, others⟩⟩
      exact List.forall_mem_append.2 ⟨mantissa, exponent⟩

end Digits

theorem isNumeral_binaryText (x : Binary64) : ∀ c ∈ binaryText x, IsNumeral c := by
  have sign : ∀ c ∈ if x.negative then ['-'] else [], IsNumeral c := by
    split <;> simp [IsNumeral]
  have digits := isNumeral_natText x.shortest.digits
  rw [binaryText]
  generalize (if x.negative then ['-'] else []) = front at sign ⊢
  dsimp only
  split
  · refine List.forall_mem_append.2 ⟨sign, ?_⟩
    simp [IsNumeral]
  · split
    · exact List.forall_mem_append.2 ⟨sign, isNumeral_pointText digits _⟩
    · exact List.forall_mem_append.2 ⟨sign, isNumeral_scientificText digits _⟩

theorem isNumeral_text (number : Number) : ∀ c ∈ number.text, IsNumeral c := by
  cases number with
  | binary value => exact isNumeral_binaryText value
  | integer value =>
    cases value with
    | ofNat n => exact isNumeral_natText n
    | negSucc n =>
      have minus : IsNumeral '-' := Or.inr (Or.inl rfl)
      exact List.forall_mem_cons.2 ⟨minus, isNumeral_natText (n + 1)⟩

theorem isLayoutOf_number (number : Number) : IsLayoutOf number.text number.text :=
  isLayoutOf_plain fun c among => (isNumeral_text number c among).isPlain

/-! ## Values -/

namespace Value

theorem isLayoutOf_mark {c : Char} (plain : IsPlain c) : IsLayoutOf [c] [c] :=
  isLayoutOf_plain (by simpa using plain)

theorem isLayoutOf_enclosed {front back : Char} (plain : IsPlain front) (plain' : IsPlain back)
    {chars bare : List Char} (inside : IsLayoutOf chars bare) (depth : Nat) :
    IsLayoutOf (front :: (chars ++ newLine depth ++ [back])) (front :: (bare ++ [back])) := by
  have lines := (isLayoutOf_mark plain).append
    ((inside.append (isLayoutOf_newLine depth)).append (isLayoutOf_mark plain'))
  simpa using lines

section Containers
variable {depth : Nat}

theorem isLayoutOf_array {items : List Value}
    (inside : IsLayoutOf (indentedItems (depth + 1) items) (compactItems items)) :
    IsLayoutOf (indentedChars depth (.array items)) (compactChars (.array items)) := by
  cases items with
  | nil => exact @isLayoutOf_plain ['[', ']'] (by simp [IsPlain, IsBreak])
  | cons item rest => exact isLayoutOf_enclosed (by decide) (by decide) inside depth

theorem isLayoutOf_object {members : List (String × Value)}
    (inside : IsLayoutOf (indentedMembers (depth + 1) members) (compactMembers members)) :
    IsLayoutOf (indentedChars depth (.object members)) (compactChars (.object members)) := by
  cases members with
  | nil => exact @isLayoutOf_plain ['{', '}'] (by simp [IsPlain, IsBreak])
  | cons member rest => exact isLayoutOf_enclosed (by decide) (by decide) inside depth

theorem isLayoutOf_cons_item {item : Value} {rest : List Value}
    (here : IsLayoutOf (item.indentedChars depth) item.compactChars)
    (others : IsLayoutOf (indentedItems depth rest) (compactItems rest)) :
    IsLayoutOf (indentedItems depth (item :: rest)) (compactItems (item :: rest)) := by
  have line := (isLayoutOf_newLine depth).append here
  cases rest with
  | nil => exact line
  | cons next rest =>
    have lines := line.append ((isLayoutOf_mark (c := ',') (by decide)).append others)
    simpa [indentedItems, compactItems] using lines

theorem isLayoutOf_cons_member {key : String} {value : Value} {rest : List (String × Value)}
    (here : IsLayoutOf (value.indentedChars depth) value.compactChars)
    (others : IsLayoutOf (indentedMembers depth rest) (compactMembers rest)) :
    IsLayoutOf (indentedMembers depth ((key, value) :: rest))
      (compactMembers ((key, value) :: rest)) := by
  have space : IsLayoutOf [' '] [] := isLayoutOf_blank (by simp)
  have line := ((isLayoutOf_newLine depth).append (isLayoutOf_quoted key)).append
    ((isLayoutOf_mark (c := ':') (by decide)).append (space.append here))
  cases rest with
  | nil => simpa [indentedMembers, compactMembers] using line
  | cons next rest =>
    have lines := line.append ((isLayoutOf_mark (c := ',') (by decide)).append others)
    simpa [indentedMembers, compactMembers] using lines

end Containers

mutual

theorem isLayoutOf_indentedChars (depth : Nat) :
    ∀ value : Value, IsLayoutOf (value.indentedChars depth) value.compactChars
  | .null => @isLayoutOf_plain ['n', 'u', 'l', 'l'] (by simp [IsPlain, IsBreak])
  | .bool true => @isLayoutOf_plain ['t', 'r', 'u', 'e'] (by simp [IsPlain, IsBreak])
  | .bool false => @isLayoutOf_plain ['f', 'a', 'l', 's', 'e'] (by simp [IsPlain, IsBreak])
  | .number value => isLayoutOf_number value
  | .string text => isLayoutOf_quoted text
  | .array items => isLayoutOf_array (isLayoutOf_indentedItems (depth + 1) items)
  | .object members => isLayoutOf_object (isLayoutOf_indentedMembers (depth + 1) members)

theorem isLayoutOf_indentedItems (depth : Nat) :
    ∀ items : List Value, IsLayoutOf (indentedItems depth items) (compactItems items)
  | [] => @isLayoutOf_plain [] (by simp)
  | item :: rest =>
    isLayoutOf_cons_item (isLayoutOf_indentedChars depth item) (isLayoutOf_indentedItems depth rest)

theorem isLayoutOf_indentedMembers (depth : Nat) :
    ∀ members : List (String × Value),
      IsLayoutOf (indentedMembers depth members) (compactMembers members)
  | [] => @isLayoutOf_plain [] (by simp)
  | (_, value) :: rest =>
    isLayoutOf_cons_member (isLayoutOf_indentedChars depth value)
      (isLayoutOf_indentedMembers depth rest)

end

theorem getLast?_indentedChars_object (depth : Nat) (members : List (String × Value)) :
    (indentedChars depth (.object members)).getLast? = some '}' := by
  cases members with
  | nil => rfl
  | cons member rest =>
    obtain ⟨key, value⟩ := member
    rw [indentedChars, ← List.cons_append]
    exact List.getLast?_concat

end Value
end Json

/-! ## Documents -/

open Json

/-- Without the spaces and line breaks outside of its strings the indented rendering is the
compact one without its final line feed.  This is the only line break of the compact
rendering, and the indented one has no other behind the document. -/
theorem Format.render_layouts (document : Document) :
    ∃ indented compact : List Char,
      (Format.json.render document).toList = indented ++ ['\n'] ∧
      (Format.compactJson.render document).toList = compact ++ ['\n'] ∧
      withoutLayout .outside (Format.json.render document).toList = compact ∧
      (∀ c ∈ compact, ¬ IsBreak c) ∧ indented.getLast? = some '}' := by
  have layout := Value.isLayoutOf_indentedChars 0 document.toJson
  refine ⟨_, _, String.toList_append, String.toList_append, ?_, ?_, ?_⟩
  · have final : withoutLayout .outside ['\n'] = [] := rfl
    have feed : "\n".toList = ['\n'] := rfl
    rw [render, String.toList_append, Value.indented, String.toList_ofList, layout.strip, feed,
      final, List.append_nil, Value.compact, String.toList_ofList]
  · rw [Value.compact, String.toList_ofList]
    exact layout.unbroken
  · rw [Value.indented, String.toList_ofList]
    exact Value.getLast?_indentedChars_object 0 _

end AnnotatedApi
