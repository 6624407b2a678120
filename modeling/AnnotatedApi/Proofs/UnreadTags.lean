import AnnotatedApi.Proofs.ReadTags
import AnnotatedApi.Proofs.WrittenComments

/-!
# Tags that nobody reads

A tag that is written between two sections of a comment is a section of its own: the
free text and the other tags stay what they are.  Under a name that is not read it
changes neither the document nor the error.
-/

set_option autoImplicit false

namespace AnnotatedApi

/-! ## Lookup among occurrences -/

namespace Tags

def grown (found : Option Occurrences) (value : String) : Occurrences :=
  match found with
  | some earlier => earlier.append value
  | none => .single value

theorem find?_add (tags : Tags) (name value other : String) :
    Tags.find? (Tags.add tags name value) other =
      if name = other then some (grown (Tags.find? tags other) value)
      else Tags.find? tags other := by
  rw [Tags.find?, Tags.find?, Tags.add]
  by_cases same : name = other
  · subst same
    rw [if_pos rfl]
    cases found : KeyMap.get? tags name with
    | none => exact KeyMap.get?_insert_self tags name _
    | some earlier => exact KeyMap.get?_insert_self tags name _
  · rw [if_neg same]
    cases found : KeyMap.get? tags name with
    | none => exact KeyMap.get?_insert_of_ne tags _ (Ne.symm same)
    | some earlier => exact KeyMap.get?_insert_of_ne tags _ (Ne.symm same)

theorem find?_foldl_add (occurrences : List (String × String)) (tags : Tags) (name : String) :
    Tags.find? (occurrences.foldl (fun tags pair => Tags.add tags pair.1 pair.2) tags) name =
      (occurrences.filter (·.1 = name)).foldl (fun found pair => some (grown found pair.2))
        (Tags.find? tags name) := by
  induction occurrences generalizing tags with
  | nil => rfl
  | cons pair rest ih =>
    rw [List.foldl_cons, ih, find?_add]
    by_cases same : pair.1 = name
    · have kept : (pair :: rest).filter (·.1 = name) = pair :: rest.filter (·.1 = name) :=
        List.filter_cons_of_pos (by simpa using same)
      rw [if_pos same, kept, List.foldl_cons]
    · have dropped : (pair :: rest).filter (·.1 = name) = rest.filter (·.1 = name) :=
        List.filter_cons_of_neg (by simpa using same)
      rw [if_neg same, dropped]

/-- What stands under a name depends only on the occurrences of that name. -/
theorem find?_ofList_congr {occurrences other : List (String × String)} {name : String}
    (same : occurrences.filter (·.1 = name) = other.filter (·.1 = name)) :
    Tags.find? (Tags.ofList occurrences) name = Tags.find? (Tags.ofList other) name := by
  rw [Tags.ofList, Tags.ofList, find?_foldl_add, find?_foldl_add, same]

end Tags

/-! ## A tag between two sections -/

namespace Comment

open Text

def StartsSection (content : List (List Char)) : Prop := ∀ line ∈ content.head?, BeginsTag line

instance (content : List (List Char)) : Decidable (StartsSection content) :=
  inferInstanceAs (Decidable (∀ line ∈ content.head?, BeginsTag line))

theorem sections_of_startsSection {content : List (List Char)} (starts : StartsSection content) :
    (sections content).1 = [] := by
  cases content with
  | nil => rfl
  | cons line rest =>
    have begins := (isTagLine_iff line).2 (starts line rfl)
    obtain ⟨⟨name, head⟩, tagged⟩ := Option.isSome_iff_exists.1 begins
    rw [sections_cons_of_tagLine tagged]

/-- Content in front of a section keeps its text and its tags. -/
theorem sections_append_of_startsSection (front : List (List Char)) {back : List (List Char)}
    (starts : StartsSection back) :
    sections (front ++ back) = ((sections front).1, (sections front).2 ++ (sections back).2) := by
  cases back with
  | nil => simp [sections]
  | cons line rest =>
    have begins := (isTagLine_iff line).2 (starts line rfl)
    obtain ⟨⟨name, head⟩, tagged⟩ := Option.isSome_iff_exists.1 begins
    rw [sections_append_cons_of_tagLine tagged, sections_cons_of_tagLine tagged]

namespace WrittenTag.Readable
variable {tag : WrittenTag} (readable : tag.Readable)
include readable

theorem startsSection (back : List (List Char)) : StartsSection (tag.lines ++ back) := by
  intro line isFirst
  cases isFirst
  have begins : isTagLine ('@' :: (tag.name ++ tag.head)) = true := by
    rw [isTagLine, readable.tagLine?_eq]
    rfl
  exact (isTagLine_iff _).1 begins

theorem sections_lines_append {back : List (List Char)} (starts : StartsSection back) :
    sections (tag.lines ++ back) =
      ([], (tag.name, tag.head :: tag.further) :: (sections back).2) := by
  have untagged : ∀ line ∈ tag.further, tagLine? line = none :=
    fun line among => (tagLine?_eq_none_iff line).2 (readable.untagged line among)
  rw [lines, List.cons_append, sections_cons_of_tagLine readable.tagLine?_eq,
    sections_append_of_untagged untagged, sections_of_startsSection starts, List.append_nil]

end WrittenTag.Readable

theorem agreeOn_insert (front : List (List Char)) {back : List (List Char)} {tag : WrittenTag}
    (readable : tag.Readable) (starts : StartsSection back) {read : List String}
    (unread : String.ofList tag.name ∉ read) :
    AgreeOn read (ofContentLines (front ++ back))
      (ofContentLines (front ++ (tag.lines ++ back))) := by
  have without := sections_append_of_startsSection front starts
  have inserted := sections_append_of_startsSection front (readable.startsSection back)
  rw [readable.sections_lines_append starts] at inserted
  rw [ofContentLines_eq, ofContentLines_eq, without, inserted]
  refine ⟨rfl, rfl, ?_⟩
  intro name isRead
  have other : ¬ String.ofList tag.name = name := by
    rintro rfl
    exact unread isRead
  apply Tags.find?_ofList_congr
  simp [occurrences, other]

/-! ## A tag in the text of a comment -/

/-- `other` is the text `raw` of a comment with one more tag, which is not read. -/
inductive AddsUnread (read : List String) (raw other : String) : Prop
  | insert (layout : Layout) (front back : List (List Char)) (tag : WrittenTag)
      (unbroken : ∀ line ∈ front ++ back, Unbroken line)
      (starts : StartsSection back)
      (readable : tag.Readable)
      (unread : String.ofList tag.name ∉ read)
      (written : trim raw.toList = trim (layout.wrap (front ++ back)))
      (grown : trim other.toList = trim (layout.wrap (front ++ (tag.lines ++ back))))

theorem addsUnread_wrap (layout : Layout) {read : List String} {front back : List (List Char)}
    {tag : WrittenTag} (unbroken : ∀ line ∈ front ++ back, Unbroken line)
    (starts : StartsSection back) (readable : tag.Readable)
    (unread : String.ofList tag.name ∉ read) :
    AddsUnread read (String.ofList (layout.wrap (front ++ back)))
      (String.ofList (layout.wrap (front ++ (tag.lines ++ back)))) :=
  .insert layout front back tag unbroken starts readable unread
    (by rw [String.toList_ofList]) (by rw [String.toList_ofList])

theorem AddsUnread.readAlike {read : List String} {raw other : String}
    (adds : AddsUnread read raw other) : ReadAlike read raw other := by
  obtain ⟨layout, front, back, tag, unbroken, starts, readable, unread, written, grown⟩ := adds
  have allUnbroken : ∀ line ∈ front ++ (tag.lines ++ back), Unbroken line := by
    intro line among
    rcases List.mem_append.1 among with inFront | among
    · exact unbroken line (List.mem_append_left back inFront)
    · rcases List.mem_append.1 among with inTag | inBack
      · exact readable.unbroken_lines line inTag
      · exact unbroken line (List.mem_append_right front inBack)
  rw [ReadAlike, parse_of_trim_eq_wrap layout unbroken written,
    parse_of_trim_eq_wrap layout allUnbroken grown]
  exact agreeOn_insert front readable starts unread

def SameOrAdds (read : List String) (raw other : String) : Prop :=
  raw = other ∨ AddsUnread read raw other

theorem SameOrAdds.readAlike {read : List String} {raw other : String}
    (same : SameOrAdds read raw other) : ReadAlike read raw other := by
  rcases same with rfl | adds
  · exact ⟨rfl, rfl, fun _ _ => rfl⟩
  · exact adds.readAlike

end Comment

/-! ## Whole runs -/

/-- Tags under names that are not read change neither the document nor the error, in
whichever comments of the controller, of its procedures and of fields they stand. -/
theorem compile_ignores_unread_tags (classes classes' : String → Option AnnotatedClass)
    (settings : Settings)
    (adds : ∀ name,
      Option.Rel (AnnotatedClass.Matches Comment.SameOrAdds) (classes name) (classes' name)) :
    Document.compile classes settings = Document.compile classes' settings := by
  apply compile_eq_of_matches settings
  intro name
  have here := adds name
  generalize classes name = cls at here
  generalize classes' name = cls' at here
  cases here with
  | none => exact .none
  | some same => exact .some (same.imp fun _ _ _ => Comment.SameOrAdds.readAlike)

theorem AnnotatedClass.Matches.find? {related : List String → String → String → Prop}
    {classes classes' : List AnnotatedClass}
    (matching : List.Forall₂ (AnnotatedClass.Matches related) classes classes') (name : String) :
    Option.Rel (AnnotatedClass.Matches related)
      (classes.find? (·.name = name)) (classes'.find? (·.name = name)) := by
  induction matching with
  | nil => exact .none
  | @cons cls cls' rest rest' first _ ih =>
    rw [List.find?_cons, List.find?_cons, first.name]
    by_cases named : cls'.name = name
    · simpa [named] using Option.Rel.some first
    · simpa [named] using ih

section Quay
open Comment

def quayWith (remark : WrittenTag → List (List Char)) : List AnnotatedClass :=
  [{ name := "Quay"
     comment := String.ofList (Layout.starred.wrap
      (["Moorings".toList, "".toList, "All of them".toList] ++
        (remark ⟨"todo".toList, " berths */".toList, ["/// ".toList, "* more".toList]⟩ ++
          ["@definition Boat".toList, "@version 2".toList])))
     model := false
     procedures := [⟨"actionShow", "", [], String.ofList (Layout.slashes.wrap
      (["Shows a boat".toList, "  @path /boats".toList, "@method get".toList,
        "@return Boat".toList] ++
          (remark ⟨"summary".toList, "".toList, ["".toList, " @ none".toList]⟩ ++ [])))⟩]
     fields := [] },
   { name := "Boat", comment := "", model := true, procedures := []
     fields := [⟨"length", String.ofList (Layout.bang.wrap
      (["In metres".toList] ++
        (remark ⟨"return".toList, "\tint".toList, []⟩ ++ ["\t@var int32".toList]))), .null⟩] }]

theorem compile_ignores_unread_tags_quay :
    ∃ document,
      Document.compile (fun name => (quayWith fun _ => []).find? (·.name = name))
        { controller := "Quay" } = .ok document ∧
      Document.compile (fun name => (quayWith WrittenTag.lines).find? (·.name = name))
        { controller := "Quay" } = .ok document := by
  have todo : (⟨"todo".toList, " berths */".toList, ["/// ".toList, "* more".toList]⟩ :
      WrittenTag).Readable :=
    WrittenTag.readable_of_all (by decide) (by decide) (by decide) (by decide) (by decide)
  have summary : (⟨"summary".toList, "".toList, ["".toList, " @ none".toList]⟩ :
      WrittenTag).Readable :=
    WrittenTag.readable_of_all (by decide) (by decide) (by decide) (by decide) (by decide)
  have unit : (⟨"return".toList, "\tint".toList, []⟩ : WrittenTag).Readable :=
    WrittenTag.readable_of_all (by decide) (by decide) (by decide) (by decide) (by decide)
  have matching : List.Forall₂ (AnnotatedClass.Matches SameOrAdds)
      (quayWith fun _ => []) (quayWith WrittenTag.lines) := by
    refine .cons ⟨rfl, rfl, ?controller, .cons ⟨rfl, rfl, rfl, ?procedure⟩ .nil, .nil⟩
      (.cons ⟨rfl, rfl, .inl rfl, .nil, .cons ⟨rfl, rfl, ?field⟩ .nil⟩ .nil)
    case controller => exact .inr (addsUnread_wrap .starred (by decide) (by decide) todo (by decide))
    case procedure => exact .inr (addsUnread_wrap .slashes (by decide) (by decide) summary (by decide))
    case field => exact .inr (addsUnread_wrap .bang (by decide) (by decide) unit (by decide))
  have compiled : ∃ document, Document.compile
      (fun name => (quayWith fun _ => []).find? (·.name = name)) { controller := "Quay" } =
        .ok document := ⟨_, rfl⟩
  obtain ⟨document, compiled⟩ := compiled
  rw [← compile_ignores_unread_tags _ _ _ (AnnotatedClass.Matches.find? matching)]
  exact ⟨document, compiled, compiled⟩

end Quay
end AnnotatedApi
