import RustLint.Lowering
import RustLint.Proofs.Lowering.DeriveSpelling
import RustLint.Proofs.Text.Strip
import Mathlib.Data.List.Forall2

set_option autoImplicit false

namespace RustLint

open Text (visible HasColons isBlank)

namespace Text

/-! Words behind blanks. -/

theorem afterWord?_eq_some_iff (w : Char) (ws cs rest : List Char) (solid : isBlank w = false) :
    afterWord? (w :: ws) cs = some rest ↔
      ∃ blanks, (∀ b ∈ blanks, isBlank b = true) ∧ cs = blanks ++ w :: (ws ++ rest) := by
  rw [← dropWhile_isBlank_eq_iff cs _ w solid, afterWord?, ← List.cons_append]
  constructor
  · intro found
    split at found
    · next begins =>
      obtain ⟨behind, parts⟩ := List.isPrefixOf_iff_prefix.mp begins
      rw [← parts, List.drop_left] at found
      cases found
      exact parts.symm
    · cases found
  · intro left
    rw [left, if_pos (List.isPrefixOf_iff_prefix.mpr (List.prefix_append _ _)), List.drop_left]

/-- A word of one character in front of blanks at the end. -/
theorem afterWord?_reverse_eq_some_iff (w : Char) (cs front : List Char)
    (solid : isBlank w = false) :
    afterWord? [w] cs.reverse = some front.reverse ↔
      ∃ blanks, (∀ b ∈ blanks, isBlank b = true) ∧ cs = front ++ w :: blanks := by
  rw [afterWord?_eq_some_iff w [] _ _ solid, List.nil_append]
  constructor
  · rintro ⟨blanks, blank, same⟩
    refine ⟨blanks.reverse, fun b listed => blank b (List.mem_reverse.mp listed), ?_⟩
    rw [List.reverse_eq_iff.mp same, List.reverse_append, List.reverse_cons, List.reverse_reverse,
      List.append_assoc, List.singleton_append]
  · rintro ⟨blanks, blank, rfl⟩
    refine ⟨blanks.reverse, fun b listed => blank b (List.mem_reverse.mp listed), ?_⟩
    rw [List.reverse_append, List.reverse_cons, List.append_assoc, List.singleton_append]

end Text

namespace DeriveAttribute

open Lowering

/-- Blanks in front of a character that a gap cannot have are the whole gap. -/
theorem Gap.isBlank_of_begins (gap : Gap) (blanks rest other : List Char) (w : Char)
    (solid : isBlank w = false) (plain : isForeign w = false)
    (blank : ∀ b ∈ blanks, isBlank b = true)
    (same : gap.text ++ w :: rest = blanks ++ w :: other) : gap.IsBlank ∧ rest = other := by
  have ends := (Text.dropWhile_isBlank_eq_iff _ other w solid).mpr ⟨blanks, blank, same⟩
  by_cases gapBlank : gap.IsBlank
  · have begins := (Text.dropWhile_isBlank_eq_iff _ rest w solid).mpr ⟨gap.text, gapBlank, rfl⟩
    exact ⟨gapBlank, (List.cons.inj (begins.symm.trans ends)).2⟩
  · obtain ⟨front, c, behind, parts, frontBlank, foreign⟩ := gap.exists_first gapBlank
    have begins := (Text.dropWhile_isBlank_eq_iff (gap.text ++ w :: rest) (behind ++ w :: rest) c
      (solid_of_isForeign c foreign).1).mpr ⟨front, frontBlank, by
        rw [parts, List.append_assoc, List.cons_append]⟩
    rw [(List.cons.inj (begins.symm.trans ends)).1, plain] at foreign
    cases foreign

/-- A foreign character behind which no double colon stands gets into a name. -/
theorem deriveNames_ne_of_foreign (items : List Item) (front behind : List Char) (c : Char)
    (foreign : isForeign c = true) (noColons : ¬HasColons (visible behind)) :
    deriveNames (front ++ c :: behind) ≠ items.map fun item => String.ofList item.name.chars := by
  intro same
  obtain ⟨solid, noComma, noColon, -⟩ := solid_of_isForeign c foreign
  obtain ⟨read, listed, within⟩ :=
    exists_name_of_foreign front behind c noComma noColon solid noColons
  rw [same] at listed
  obtain ⟨item, -, rfl⟩ := List.mem_map.mp listed
  rw [String.toList_ofList] at within
  exact Bool.false_ne_true ((item.name.plain_of_mem c within).2.2.2.symm.trans foreign)

theorem Name.deriveNames_ne_nil (name : Name) (front behind : List Char) :
    deriveNames (front ++ name.chars ++ behind) ≠ [] := by
  obtain ⟨c, listed⟩ := List.exists_mem_of_ne_nil _ name.written
  obtain ⟨noComma, -, solid, -⟩ := name.plain_of_mem c listed
  exact Lowering.deriveNames_ne_nil _ c
    (List.mem_append_left _ (List.mem_append_right _ listed)) noComma solid

theorem Gap.deriveNames_eq_nil_iff (gap : Gap) : deriveNames gap.text = [] ↔ gap.IsBlank := by
  constructor
  · contrapose
    intro written
    obtain ⟨blanks, c, rest, parts, -, foreign⟩ := gap.exists_first written
    obtain ⟨solid, noComma, -⟩ := solid_of_isForeign c foreign
    exact deriveNames_ne_nil _ c
      (parts ▸ List.mem_append_right _ List.mem_cons_self) noComma solid
  · intro blank
    have noComma : ',' ∉ gap.text := fun listed => absurd (blank ',' listed) (by decide)
    rw [deriveNames_part _ noComma, nameIn, if_pos ((Text.visible_eq_nil_iff _).mpr blank)]

/-! What is read right. -/

/-- The path is read right: blanks are all that stands around its last name, and no comma stands in
front of it. -/
structure Item.IsRead (item : Item) : Prop where
  front : ',' ∉ item.front
  close : item.close.IsBlank
  after : item.after.IsBlank

def Final.IsRead : Final → Prop
  | path item => item.IsRead
  | none gap => gap.IsBlank

/-- The attribute is read right: blanks are all that stands in front of the list, behind it and
behind its last comma, and each path is read right. -/
structure Spelling.IsRead (s : Spelling) : Prop where
  afterHash : s.afterHash.IsBlank
  afterBracket : s.afterBracket.IsBlank
  afterWord : s.afterWord.IsBlank
  items : ∀ item ∈ s.items, item.IsRead
  final : s.final.IsRead
  afterList : s.afterList.IsBlank

/-- No line comment behind the list or around the last name of a path has a double colon. -/
structure Spelling.IsTame (s : Spelling) : Prop where
  afterList : s.afterList.IsTame
  paths : ∀ item ∈ s.paths, item.close.IsTame ∧ item.after.IsTame

/-! One path. -/

namespace Item

variable (item : Item)

theorem deriveNames_of_isRead (read : item.IsRead) :
    deriveNames item.text = [String.ofList item.name.chars] :=
  deriveNames_name _ _ _ _ item.front_cases read.front read.close read.after item.name.written
    fun c listed =>
      have plain := item.name.plain_of_mem c listed
      ⟨plain.1, plain.2.1, plain.2.2.1⟩

theorem deriveNames_ne_nil : deriveNames item.text ≠ [] :=
  item.name.deriveNames_ne_nil _ _

theorem isBlank_after (tame : item.after.IsTame)
    (names : deriveNames item.text = [String.ofList item.name.chars]) : item.after.IsBlank := by
  by_contra written
  obtain ⟨front, c, behind, parts, foreign, noColons⟩ := item.after.exists_last written tame
  rw [text, parts, ← List.append_assoc] at names
  exact deriveNames_ne_of_foreign [item] _ behind c foreign noColons names

theorem isBlank_close (tame : item.close.IsTame) (after : item.after.IsBlank)
    (names : deriveNames item.text = [String.ofList item.name.chars]) : item.close.IsBlank := by
  by_contra written
  obtain ⟨front, c, behind, parts, foreign, noColons⟩ := item.close.exists_last written tame
  have noColon : ':' ∉ visible item.name.chars :=
    fun listed => (item.name.plain_of_mem ':' (List.mem_of_mem_filter listed)).2.1 rfl
  have none : ¬HasColons (visible (behind ++ item.name.chars ++ item.after.text)) := by
    rw [Text.visible_append, Text.visible_append, (Text.visible_eq_nil_iff _).mpr after,
      List.append_nil, Text.hasColons_append_iff _ _ noColon]
    exact noColons
  refine deriveNames_ne_of_foreign [item] (item.front ++ front) _ c foreign none
    (Eq.trans ?_ names)
  rw [text, parts]
  simp only [List.append_assoc, List.cons_append]

/-- A comma in a comment parts the path, and both parts give names. -/
theorem not_mem_front (names : deriveNames item.text = [String.ofList item.name.chars]) :
    ',' ∉ item.front := by
  intro comma
  obtain ⟨front, behind, c, parts, listed, foreign⟩ := item.hidesComma_of_mem comma
  obtain ⟨solid, noComma, -⟩ := solid_of_isForeign c foreign
  have written : item.text = front ++ ',' :: (behind ++ item.close.text ++ item.name.chars ++
      item.after.text) := by
    rw [text, parts]
    simp only [List.append_assoc, List.cons_append]
  rw [written, deriveNames_append, List.append_eq_singleton_iff] at names
  rcases names with ⟨none, -⟩ | ⟨-, none⟩
  · exact Lowering.deriveNames_ne_nil front c listed noComma solid none
  · exact item.name.deriveNames_ne_nil _ _ none

theorem isRead_of_deriveNames (closeTame : item.close.IsTame) (afterTame : item.after.IsTame)
    (names : deriveNames item.text = [String.ofList item.name.chars]) : item.IsRead :=
  have after := item.isBlank_after afterTame names
  ⟨item.not_mem_front names, item.isBlank_close closeTame after names, after⟩

end Item

/-! The list. -/

theorem deriveNames_items (items : List Item) (rest : List Char) :
    deriveNames (items.flatMap (fun item => item.text ++ [',']) ++ rest) =
      items.flatMap (fun item => deriveNames item.text) ++ deriveNames rest := by
  induction items with
  | nil => rfl
  | cons item items ih =>
    rw [List.flatMap_cons, List.flatMap_cons, List.append_assoc, List.append_assoc,
      List.append_assoc, List.singleton_append, deriveNames_append, ih]

theorem length_le_flatMap {α β : Type} (parts : List α) (names : α → List β)
    (some : ∀ part ∈ parts, names part ≠ []) : parts.length ≤ (parts.flatMap names).length := by
  induction parts with
  | nil => exact Nat.le_refl 0
  | cons part parts ih =>
    rw [List.forall_mem_cons] at some
    have here := List.length_pos_iff.mpr some.1
    have later := ih some.2
    rw [List.flatMap_cons, List.length_append, List.length_cons]
    omega

/-- Where each part gives a name at least, and there are as many names as parts, each gives one. -/
theorem flatMap_append_eq_map {α β : Type} (parts : List α) (names : α → List β) (name : α → β)
    (more : List β) (some : ∀ part ∈ parts, names part ≠ [])
    (same : parts.flatMap names ++ more = parts.map name) :
    (∀ part ∈ parts, names part = [name part]) ∧ more = [] := by
  induction parts with
  | nil => exact ⟨List.forall_mem_nil _, same⟩
  | cons part parts ih =>
    rw [List.forall_mem_cons] at some ⊢
    obtain ⟨first, others, written⟩ := List.exists_cons_of_ne_nil some.1
    rw [List.flatMap_cons, written, List.map_cons, List.append_assoc, List.cons_append] at same
    obtain ⟨firstSame, rest⟩ := List.cons.inj same
    have enough := length_le_flatMap parts names some.2
    have alone : others = [] := by
      have count := congrArg List.length rest
      rw [List.length_append, List.length_append, List.length_map] at count
      exact List.length_eq_zero_iff.mp (by omega)
    rw [alone, List.nil_append] at rest
    obtain ⟨each, none⟩ := ih some.2 rest
    exact ⟨⟨by rw [written, alone, firstSame], each⟩, none⟩

/-- What is behind the last comma gives the names of its paths, and more where it is not read
right without any. -/
theorem Final.deriveNames_text (final : Final) : ∃ more,
    deriveNames final.text = final.items.flatMap (fun item => deriveNames item.text) ++ more ∧
      (final.IsRead ↔ (∀ item ∈ final.items, item.IsRead) ∧ more = []) := by
  cases final with
  | path item =>
    refine ⟨[], by rw [text, items, List.flatMap_singleton, List.append_nil], ?_⟩
    rw [items, List.forall_mem_singleton, eq_self_iff_true, and_true, IsRead]
  | none gap =>
    refine ⟨deriveNames gap.text, by rw [text, items, List.flatMap_nil, List.nil_append], ?_⟩
    rw [items, gap.deriveNames_eq_nil_iff, IsRead]
    exact (and_iff_right (List.forall_mem_nil _)).symm

namespace Spelling

variable (s : Spelling)

theorem deriveNames_list : ∃ more,
    deriveNames s.list = s.paths.flatMap (fun item => deriveNames item.text) ++ more ∧
      ((∀ item ∈ s.items, item.IsRead) ∧ s.final.IsRead ↔
        (∀ item ∈ s.paths, item.IsRead) ∧ more = []) := by
  obtain ⟨more, written, finalRead⟩ := s.final.deriveNames_text
  refine ⟨more, ?_, ?_⟩
  · rw [list, deriveNames_items, written, paths, List.flatMap_append, List.append_assoc]
  · rw [finalRead, ← and_assoc, ← List.forall_mem_append, paths]

theorem deriveNames_list_of_isRead (items : ∀ item ∈ s.items, item.IsRead)
    (final : s.final.IsRead) : deriveNames s.list = s.names := by
  obtain ⟨more, written, read⟩ := s.deriveNames_list
  obtain ⟨each, none⟩ := read.mp ⟨items, final⟩
  rw [written, none, List.append_nil, names, List.map_eq_flatMap]
  exact List.flatMap_congr fun item listed => item.deriveNames_of_isRead (each item listed)

theorem isRead_of_deriveNames_list (tame : s.IsTame) (names : deriveNames s.list = s.names) :
    (∀ item ∈ s.items, item.IsRead) ∧ s.final.IsRead := by
  obtain ⟨more, written, read⟩ := s.deriveNames_list
  rw [written] at names
  obtain ⟨each, none⟩ := flatMap_append_eq_map s.paths _
    (fun item => String.ofList item.name.chars) more (fun item _ => item.deriveNames_ne_nil) names
  refine read.mpr ⟨fun item listed => ?_, none⟩
  obtain ⟨close, after⟩ := tame.paths item listed
  exact item.isRead_of_deriveNames close after (each item listed)

/-! The attribute. -/

theorem stripChars_text : Text.stripChars s.text = s.text := by
  apply Text.stripChars_of_isBare
  constructor
  · rintro c ⟨⟩
    rfl
  · intro c last
    obtain ⟨front, ends⟩ : ∃ front, s.text = front ++ [']'] := by
      refine ⟨'#' :: (s.afterHash.text ++ '[' :: (s.afterBracket.text ++ ("derive".toList ++
        (s.afterWord.text ++ '(' :: (s.list ++ ')' :: s.afterList.text))))), ?_⟩
      simp only [text, List.cons_append, List.append_assoc]
    rw [ends, List.getLast?_concat] at last
    cases last
    rfl

theorem afterWord?_bind_eq_some_iff {α : Type} (gap : Gap) (w : Char) (ws behind : List Char)
    (next : List Char → Option α) (result : α) (solid : isBlank w = false)
    (plain : isForeign w = false) :
    (Text.afterWord? (w :: ws) (gap.text ++ w :: (ws ++ behind))).bind next = some result ↔
      gap.IsBlank ∧ next behind = some result := by
  rw [Option.bind_eq_some_iff]
  constructor
  · rintro ⟨rest, found, named⟩
    obtain ⟨blanks, blank, same⟩ := (Text.afterWord?_eq_some_iff w ws _ rest solid).mp found
    obtain ⟨gapBlank, restSame⟩ := gap.isBlank_of_begins blanks _ _ w solid plain blank same
    rw [List.append_cancel_left restSame]
    exact ⟨gapBlank, named⟩
  · rintro ⟨gapBlank, named⟩
    exact ⟨behind, (Text.afterWord?_eq_some_iff w ws _ behind solid).mpr
      ⟨gap.text, gapBlank, rfl⟩, named⟩

/-- The list reaches up to a parenthesis that has nothing but blanks between it and the bracket. -/
theorem deriveList?_eq_some_iff (list : List Char) :
    deriveList? (String.ofList s.text) = some list ↔
      s.afterHash.IsBlank ∧ s.afterBracket.IsBlank ∧ s.afterWord.IsBlank ∧
        ∃ blanks, (∀ b ∈ blanks, isBlank b = true) ∧
          s.list ++ ')' :: s.afterList.text = list ++ ')' :: blanks := by
  have opens : Text.afterWord? ['#'] s.text = some (s.text.drop 1) :=
    (Text.afterWord?_eq_some_iff '#' [] _ _ rfl).mpr ⟨[], List.forall_mem_nil _, rfl⟩
  have closes : Text.afterWord? [']'] (s.list ++ ')' :: (s.afterList.text ++ [']'])).reverse =
      some (s.list ++ ')' :: s.afterList.text).reverse :=
    (Text.afterWord?_reverse_eq_some_iff ']' _ _ rfl).mpr
      ⟨[], List.forall_mem_nil _, by rw [List.append_assoc, List.cons_append]⟩
  rw [deriveList?, String.toList_ofList, stripChars_text, opens]
  refine (afterWord?_bind_eq_some_iff s.afterHash '[' [] _ _ _ rfl rfl).trans
    (and_congr_right fun _ => ?_)
  refine (afterWord?_bind_eq_some_iff s.afterBracket 'd' ['e', 'r', 'i', 'v', 'e'] _ _ _ rfl
    rfl).trans (and_congr_right fun _ => ?_)
  refine (afterWord?_bind_eq_some_iff s.afterWord '(' [] _ _ _ rfl rfl).trans
    (and_congr_right fun _ => ?_)
  change (Text.afterWord? [']'] (s.list ++ ')' :: (s.afterList.text ++ [']'])).reverse).bind _ =
    _ ↔ _
  rw [closes, Option.bind_some, ← Text.afterWord?_reverse_eq_some_iff ')' _ _ rfl]
  refine Option.bind_eq_some_iff.trans ⟨?_, fun found => ⟨list.reverse, found, ?_⟩⟩
  · rintro ⟨rest, found, written⟩
    cases written
    rw [found, List.reverse_reverse]
  · exact congrArg some list.reverse_reverse

/-- Without anything but blanks behind the list, it is found whole. -/
theorem deriveList?_of_isBlank (hash : s.afterHash.IsBlank) (bracket : s.afterBracket.IsBlank)
    (word : s.afterWord.IsBlank) (list : s.afterList.IsBlank) :
    deriveList? (String.ofList s.text) = some s.list :=
  (s.deriveList?_eq_some_iff _).mpr ⟨hash, bracket, word, s.afterList.text, list, rfl⟩

/-- A list that reaches into a comment gives a name with characters of it. -/
theorem deriveNames_ne_of_written (tame : s.afterList.IsTame) (written : ¬s.afterList.IsBlank)
    (list blanks : List Char) (blank : ∀ b ∈ blanks, isBlank b = true)
    (same : s.list ++ ')' :: s.afterList.text = list ++ ')' :: blanks) :
    deriveNames list ≠ s.names := by
  obtain ⟨front, c, behind, parts, foreign, noColons⟩ := s.afterList.exists_last written tame
  obtain ⟨solid, -, -, noClose⟩ := solid_of_isForeign c foreign
  rw [parts, ← List.cons_append, ← List.append_assoc, List.append_eq_append_iff] at same
  rcases same with ⟨more, rfl, ends⟩ | ⟨more, -, ends⟩
  · cases more with
    | nil => exact absurd (List.cons.inj ends).1 noClose
    | cons d more =>
      obtain ⟨rfl, rfl⟩ := List.cons.inj ends
      exact deriveNames_ne_of_foreign s.paths _ more c foreign fun colons =>
        noColons (colons.trans ((List.prefix_append more _).isInfix.filter _))
  · cases more with
    | nil => exact absurd (List.cons.inj ends).1.symm noClose
    | cons d more =>
      obtain ⟨-, rfl⟩ := List.cons.inj ends
      rw [blank c (List.mem_append_right _ List.mem_cons_self)] at solid
      cases solid

/-! What is derived. -/

/-- The names that the attribute derives. -/
def derived (s : Spelling) : List String :=
  ((deriveList? (String.ofList s.text)).map deriveNames).getD []

theorem derived_of_isRead (read : s.IsRead) : s.derived = s.names := by
  rw [derived, s.deriveList?_of_isBlank read.afterHash read.afterBracket read.afterWord
    read.afterList]
  exact s.deriveNames_list_of_isRead read.items read.final

theorem isRead_of_derived (some : s.paths ≠ []) (tame : s.IsTame) (same : s.derived = s.names) :
    s.IsRead := by
  rw [derived] at same
  cases found : deriveList? (String.ofList s.text) with
  | none =>
    rw [found] at same
    exact absurd (List.map_eq_nil_iff.mp same.symm) some
  | some list =>
    rw [found] at same
    obtain ⟨hash, bracket, word, blanks, blank, reaches⟩ :=
      (s.deriveList?_eq_some_iff list).mp found
    have afterList : s.afterList.IsBlank := by
      by_contra written
      exact s.deriveNames_ne_of_written tame.afterList written list blanks blank reaches same
    have whole := s.deriveList?_of_isBlank hash bracket word afterList
    rw [found] at whole
    cases whole
    obtain ⟨items, final⟩ := s.isRead_of_deriveNames_list tame same
    exact ⟨hash, bracket, word, items, final, afterList⟩

end Spelling

/-- The node is an attribute with this spelling. -/
structure Spells (source : Source) (t : ParseTree) (s : Spelling) : Prop where
  kind : t.kind = "attribute_item"
  text : textOf source t.info = String.ofList s.text

theorem derivesOf_map_forms {source : Source} {attributes : List ParseTree}
    {spellings : List Spelling} (spelled : List.Forall₂ (Spells source) attributes spellings) :
    derivesOf (attributes.map (forms source)) = spellings.flatMap Spelling.derived := by
  induction spelled with
  | nil => rfl
  | @cons t s attributes spellings spells _ ih =>
    have text : (forms source t).value.text = String.ofList s.text := by
      rw [forms, Tree.value_annotate]
      exact spells.text
    rw [derivesOf] at ih ⊢
    rw [List.map_cons, List.flatMap_cons, List.flatMap_cons, ih, text, Spelling.derived]

/-- Attributes that are read right derive the last segments of their paths, in order. The other ones
with paths derive something else, unless a line comment has a double colon. -/
theorem derivesOf_spelled (source : Source) (attributes : List ParseTree)
    (spellings : List Spelling) (spelled : List.Forall₂ (Spells source) attributes spellings) :
    ((∀ s ∈ spellings, s.IsRead) →
      derivesOf (attributes.map (forms source)) = spellings.flatMap Spelling.names) ∧
    List.Forall₂ (fun t s => s.paths ≠ [] → s.IsTame →
      (derivesOf [forms source t] = s.names ↔ s.IsRead)) attributes spellings := by
  constructor
  · intro read
    rw [derivesOf_map_forms spelled]
    exact List.flatMap_congr fun s listed => s.derived_of_isRead (read s listed)
  · refine List.Forall₂.imp (fun t s spells some tame => ?_) spelled
    have alone := derivesOf_map_forms (.cons spells .nil)
    rw [List.map_singleton, List.flatMap_singleton] at alone
    rw [alone]
    exact ⟨s.isRead_of_derived some tame, s.derived_of_isRead⟩

/-! The attributes of a struct. In the first one a comment stands at the beginning of a path, in the
second one in front of its last name. -/

def commentedSource : Source :=
  ⟨"#[derive(Clone, /* to print */ fmt::Debug,)] #[derive(/* c */ Default)] struct A;", none⟩

def commentedPath : ParseTree := ⟨⟨"attribute_item", true, 0, 44, none⟩, (), []⟩

def commentedPathSpelling : Spelling where
  afterHash := ⟨[]⟩
  afterBracket := ⟨[]⟩
  afterWord := ⟨[]⟩
  items := [
    ⟨[], ⟨[]⟩, ⟨"Clone".toList, by decide, by decide⟩, ⟨[]⟩⟩,
    ⟨[⟨⟨[.white ' ' rfl, .blockComment " to print ".toList, .white ' ' rfl]⟩,
        some ⟨"fmt".toList, by decide, by decide⟩, ⟨[]⟩⟩],
      ⟨[]⟩, ⟨"Debug".toList, by decide, by decide⟩, ⟨[]⟩⟩]
  final := .none ⟨[]⟩
  afterList := ⟨[]⟩

def commentedName : ParseTree := ⟨⟨"attribute_item", true, 45, 71, none⟩, (), []⟩

def commentedNameSpelling : Spelling where
  afterHash := ⟨[]⟩
  afterBracket := ⟨[]⟩
  afterWord := ⟨[]⟩
  items := []
  final := .path ⟨[], ⟨[.blockComment " c ".toList, .white ' ' rfl]⟩,
    ⟨"Default".toList, by decide, by decide⟩, ⟨[]⟩⟩
  afterList := ⟨[]⟩

theorem spells_commentedPath : Spells commentedSource commentedPath commentedPathSpelling :=
  ⟨rfl, by decide +kernel⟩

theorem spells_commentedName : Spells commentedSource commentedName commentedNameSpelling :=
  ⟨rfl, by decide +kernel⟩

theorem isRead_commentedPath : commentedPathSpelling.IsRead where
  afterHash := List.forall_mem_nil _
  afterBracket := List.forall_mem_nil _
  afterWord := List.forall_mem_nil _
  items := by
    simp only [commentedPathSpelling, List.forall_mem_cons]
    exact ⟨⟨by decide, List.forall_mem_nil _, List.forall_mem_nil _⟩,
      ⟨by decide, List.forall_mem_nil _, List.forall_mem_nil _⟩, List.forall_mem_nil _⟩
  final := List.forall_mem_nil _
  afterList := List.forall_mem_nil _

theorem isTame_commentedName : commentedNameSpelling.IsTame where
  afterList := by simp [Gap.IsTame, commentedNameSpelling]
  paths := by simp [Gap.IsTame, commentedNameSpelling, Spelling.paths, Final.items]

theorem not_isRead_commentedName : ¬commentedNameSpelling.IsRead := by
  intro read
  have blank : isBlank '/' = true := read.final.close '/' List.mem_cons_self
  exact absurd blank (by decide)

theorem derivesOf_commented :
    derivesOf ([commentedPath].map (forms commentedSource)) = ["Clone", "Debug"] ∧
      derivesOf [forms commentedSource commentedName] ≠ ["Default"] := by
  constructor
  · rw [(derivesOf_spelled _ _ _ (.cons spells_commentedPath .nil)).1
      (List.forall_mem_singleton.mpr isRead_commentedPath)]
    decide
  · intro same
    cases (derivesOf_spelled _ _ _ (.cons spells_commentedName .nil)).2 with
    | cons iff _ =>
      exact not_isRead_commentedName ((iff (List.cons_ne_nil _ _) isTame_commentedName).mp same)

/-- A comment in front of a name becomes part of it. -/
theorem not_derivesOf_spelled :
    ¬ ∀ (source : Source) (attributes : List ParseTree) (spellings : List Spelling),
      List.Forall₂ (Spells source) attributes spellings →
        derivesOf (attributes.map (forms source)) = spellings.flatMap Spelling.names := by
  intro always
  have same := always commentedSource [commentedName] [commentedNameSpelling]
    (.cons spells_commentedName .nil)
  revert same
  decide +kernel

end DeriveAttribute

end RustLint
