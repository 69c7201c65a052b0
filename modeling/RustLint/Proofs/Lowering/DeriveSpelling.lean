import RustLint.Proofs.Lowering.DeriveList
import RustLint.Proofs.Precedence.Token

set_option autoImplicit false

namespace RustLint.DeriveAttribute

open Text (visible HasColons isBlank)

/-! What stands between tokens. -/

/-- A mark for the direction of writing. It is white space between tokens, and not blank. -/
def isMark (c : Char) : Bool := c == '\u200e' || c == '\u200f'

/-- White space or a comment. The comments are known by their ends. -/
inductive Trivium where
  | white (c : Char) (white : (isBlank c || isMark c) = true)
  | lineComment (body : List Char)
  | blockComment (body : List Char)

def Trivium.text : Trivium → List Char
  | white c _ => [c]
  | lineComment body => '/' :: '/' :: (body ++ ['\n'])
  | blockComment body => '/' :: '*' :: (body ++ ['*', '/'])

/-- What stands between two tokens. -/
structure Gap where
  trivia : List Trivium

namespace Gap

def text (gap : Gap) : List Char := gap.trivia.flatMap Trivium.text

/-- Nothing but blanks stands in the gap. -/
def IsBlank (gap : Gap) : Prop := ∀ c ∈ gap.text, isBlank c = true

/-- No line comment in the gap has a double colon, blanks aside. -/
def IsTame (gap : Gap) : Prop :=
  ∀ body, .lineComment body ∈ gap.trivia → ¬HasColons (visible body)

end Gap

/-- A character that gaps have and names have not. -/
def isForeign (c : Char) : Bool := c == '/' || isMark c

theorem solid_of_isForeign (c : Char) (foreign : isForeign c = true) :
    isBlank c = false ∧ c ≠ ',' ∧ c ≠ ':' ∧ c ≠ ')' := by
  simp only [isForeign, isMark, Bool.or_eq_true, beq_iff_eq] at foreign
  rcases foreign with rfl | rfl | rfl <;> decide

/-- A comma stands behind a foreign character. -/
def HidesComma (cs : List Char) : Prop :=
  ∃ front behind c, cs = front ++ ',' :: behind ∧ c ∈ front ∧ isForeign c = true

theorem HidesComma.mono {cs text : List Char} (hides : HidesComma cs) (within : cs <:+: text) :
    HidesComma text := by
  obtain ⟨before, after, rfl⟩ := within
  obtain ⟨front, behind, c, rfl, listed, foreign⟩ := hides
  refine ⟨before ++ front, behind ++ after, c, ?_, List.mem_append_right before listed, foreign⟩
  simp only [List.append_assoc, List.cons_append]

/-- A white character that is not blank is foreign. -/
theorem isForeign_of_white (c : Char) (white : (isBlank c || isMark c) = true)
    (solid : isBlank c = false) : isForeign c = true := by
  rw [solid, Bool.false_or] at white
  rw [isForeign, white, Bool.or_true]

namespace Gap

variable (t : Trivium) (trivia : List Trivium)

theorem text_cons : (Gap.mk (t :: trivia)).text = t.text ++ (Gap.mk trivia).text :=
  List.flatMap_cons

theorem isBlank_cons_iff :
    (Gap.mk (t :: trivia)).IsBlank ↔
      (∀ c ∈ t.text, isBlank c = true) ∧ (Gap.mk trivia).IsBlank := by
  rw [IsBlank, text_cons, List.forall_mem_append, IsBlank]

/-- Where a gap is not blank, it begins with blanks and a foreign character. -/
theorem exists_first (gap : Gap) (written : ¬gap.IsBlank) : ∃ blanks c rest,
    gap.text = blanks ++ c :: rest ∧ (∀ b ∈ blanks, isBlank b = true) ∧ isForeign c = true := by
  obtain ⟨trivia⟩ := gap
  induction trivia with
  | nil => exact absurd (List.forall_mem_nil _) written
  | cons t trivia ih =>
    rw [text_cons]
    cases t with
    | white c white =>
      cases blank : isBlank c with
      | false => exact ⟨[], c, _, rfl, List.forall_mem_nil _, isForeign_of_white c white blank⟩
      | true =>
        rw [isBlank_cons_iff, not_and] at written
        obtain ⟨blanks, d, rest, parts, blankParts, foreign⟩ :=
          ih (written (List.forall_mem_singleton.mpr blank))
        exact ⟨c :: blanks, d, rest, congrArg (c :: ·) parts,
          List.forall_mem_cons.mpr ⟨blank, blankParts⟩, foreign⟩
    | lineComment | blockComment => exact ⟨[], '/', _, rfl, List.forall_mem_nil _, rfl⟩

/-- Where a gap is not blank, no double colon stands behind its last foreign character, unless it is
in a line comment. -/
theorem exists_last (gap : Gap) (written : ¬gap.IsBlank) (tame : gap.IsTame) : ∃ front c behind,
    gap.text = front ++ c :: behind ∧ isForeign c = true ∧ ¬HasColons (visible behind) := by
  obtain ⟨trivia⟩ := gap
  induction trivia with
  | nil => exact absurd (List.forall_mem_nil _) written
  | cons t trivia ih =>
    by_cases blankBehind : (Gap.mk trivia).IsBlank
    · have nothing : visible (Gap.mk trivia).text = [] :=
        (Text.visible_eq_nil_iff _).mpr blankBehind
      have noColons : ¬HasColons (visible (Gap.mk trivia).text) := by
        rw [nothing]
        simp [HasColons]
      rw [text_cons]
      cases t with
      | white c white =>
        refine ⟨[], c, _, rfl, isForeign_of_white c white ?_, noColons⟩
        rw [isBlank_cons_iff, not_and'] at written
        exact Bool.eq_false_iff.mpr fun blank =>
          written blankBehind (List.forall_mem_singleton.mpr blank)
      | lineComment body =>
        refine ⟨['/'], '/', body ++ ['\n'] ++ (Gap.mk trivia).text, by simp [Trivium.text], rfl, ?_⟩
        have feed : visible ['\n'] = [] := by decide
        rw [Text.visible_append, Text.visible_append, nothing, feed, List.append_nil,
          List.append_nil]
        exact tame body List.mem_cons_self
      | blockComment body =>
        exact ⟨'/' :: '*' :: (body ++ ['*']), '/', _, by simp [Trivium.text], rfl, noColons⟩
    · obtain ⟨front, c, behind, parts, foreign, noColons⟩ :=
        ih blankBehind fun body listed => tame body (List.mem_cons_of_mem t listed)
      refine ⟨t.text ++ front, c, behind, ?_, foreign, noColons⟩
      rw [text_cons, parts, List.append_assoc]

/-- A comma is in a comment, behind its beginning. -/
theorem hidesComma_of_mem (gap : Gap) (comma : ',' ∈ gap.text) : HidesComma gap.text := by
  obtain ⟨trivia⟩ := gap
  induction trivia with
  | nil => cases comma
  | cons t trivia ih =>
    rw [text_cons] at comma ⊢
    rcases List.mem_append.mp comma with here | later
    · refine HidesComma.mono ?_ (List.prefix_append _ _).isInfix
      cases t with
      | white c white =>
        cases List.mem_singleton.mp here
        exact absurd white (by decide)
      | lineComment | blockComment =>
        obtain ⟨front, behind, parts⟩ := List.append_of_mem (List.mem_of_ne_of_mem (by decide) here)
        refine ⟨'/' :: front, behind, '/', ?_, List.mem_cons_self, rfl⟩
        rw [Trivium.text, parts, List.cons_append]
    · exact (ih later).mono (List.suffix_append _ _).isInfix

end Gap

/-! Attributes. -/

/-- A name, with the characters that identifiers are made of and the hash of raw ones. -/
structure Name where
  chars : List Char
  written : chars ≠ []
  plain : chars.all (fun c => (Precedence.continuesName c || c == '#') && !isMark c) = true

theorem Name.plain_of_mem (name : Name) (c : Char) (listed : c ∈ name.chars) :
    c ≠ ',' ∧ c ≠ ':' ∧ isBlank c = false ∧ isForeign c = false := by
  have plain := List.all_eq_true.mp name.plain c listed
  rw [Bool.and_eq_true, Bool.not_eq_true'] at plain
  obtain ⟨continues, noMark⟩ := plain
  have other (d : Char) (ends : (Precedence.continuesName d || d == '#') = false) : c ≠ d := by
    rintro rfl
    rw [ends] at continues
    cases continues
  refine ⟨other ',' (by decide), other ':' (by decide), ?_, ?_⟩
  · rw [Bool.eq_false_iff]
    intro blank
    refine other c ?_ rfl
    rw [Precedence.continuesName_of_isBlank c blank, Bool.false_or, beq_eq_false_iff_ne]
    rintro rfl
    exact absurd blank (by decide)
  · rw [isForeign, noMark, Bool.or_false, beq_eq_false_iff_ne]
    exact other '/' (by decide)

/-- A name with the double colon behind it; a path may begin with a double colon alone. -/
structure Step where
  before : Gap
  name : Option Name
  behind : Gap

namespace Step

def text (step : Step) : List Char :=
  step.before.text ++ step.name.elim [] Name.chars ++ step.behind.text ++ [':', ':']

theorem hidesComma_of_mem (step : Step) (comma : ',' ∈ step.text) : HidesComma step.text := by
  simp only [text, List.mem_append] at comma
  rcases comma with ((before | named) | behind) | colons
  · refine (step.before.hidesComma_of_mem before).mono ⟨[], step.name.elim [] Name.chars ++
      step.behind.text ++ [':', ':'], ?_⟩
    simp only [text, List.nil_append, List.append_assoc]
  · cases found : step.name with
    | none =>
      rw [found] at named
      cases named
    | some name =>
      rw [found] at named
      exact absurd rfl (name.plain_of_mem ',' named).1
  · exact (step.behind.hidesComma_of_mem behind).mono (List.infix_append _ _ _)
  · exact absurd colons (by decide)

end Step

/-- A path with the gaps around it. The last of its names has `close` in front of it. -/
structure Item where
  steps : List Step
  close : Gap
  name : Name
  after : Gap

namespace Item

variable (item : Item)

/-- The path up to its last double colon. -/
def front : List Char := item.steps.flatMap Step.text

def text : List Char :=
  item.front ++ item.close.text ++ item.name.chars ++ item.after.text

theorem front_cases : item.front = [] ∨ ∃ path, item.front = path ++ [':', ':'] := by
  rcases item.steps.eq_nil_or_concat with none | ⟨steps, step, parts⟩
  · exact .inl (by rw [front, none, List.flatMap_nil])
  · refine .inr ⟨steps.flatMap Step.text ++
      (step.before.text ++ step.name.elim [] Name.chars ++ step.behind.text), ?_⟩
    rw [front, parts, List.concat_eq_append, List.flatMap_append, List.flatMap_singleton, Step.text]
    simp only [List.append_assoc]

theorem hidesComma_of_mem (comma : ',' ∈ item.front) : HidesComma item.front := by
  obtain ⟨step, listed, within⟩ := List.mem_flatMap.mp comma
  obtain ⟨front, behind, parts⟩ := List.append_of_mem listed
  refine (step.hidesComma_of_mem within).mono
    ⟨front.flatMap Step.text, behind.flatMap Step.text, ?_⟩
  rw [Item.front, parts, List.flatMap_append, List.flatMap_cons, List.append_assoc]

end Item

/-- What stands behind the last comma of a list, or in a list without commas: a path, or none. -/
inductive Final where
  | path (item : Item)
  | none (gap : Gap)

namespace Final

def text : Final → List Char
  | path item => item.text
  | none gap => gap.text

def items : Final → List Item
  | path item => [item]
  | none _ => []

end Final

/-- A derive attribute as it is written. All of the items have a comma behind them. -/
structure Spelling where
  afterHash : Gap
  afterBracket : Gap
  afterWord : Gap
  items : List Item
  final : Final
  afterList : Gap

namespace Spelling

/-- What stands between the parentheses. -/
def list (s : Spelling) : List Char :=
  s.items.flatMap (fun item => item.text ++ [',']) ++ s.final.text

def text (s : Spelling) : List Char :=
  '#' :: (s.afterHash.text ++ '[' :: (s.afterBracket.text ++ ("derive".toList ++
    (s.afterWord.text ++ '(' :: (s.list ++ ')' :: (s.afterList.text ++ [']']))))))

def paths (s : Spelling) : List Item := s.items ++ s.final.items

/-- The last segments of the paths. -/
def names (s : Spelling) : List String :=
  s.paths.map fun item => String.ofList item.name.chars

end Spelling

end RustLint.DeriveAttribute
