import Mathlib.Logic.Relation
import RustLint.Lowering
import RustLint.Proofs.Text.Outdent
import RustLint.Proofs.Text.Positions
import RustLint.Rules.CollapsibleIf

set_option autoImplicit false

namespace RustLint

open Text (IsSolid laterIndent outdent)

namespace Fragment

theorem text_infix_operand (f : Fragment) (op : Operator) (side : Associativity) :
    f.text.toList <:+: (f.operand op side).toList := by
  unfold operand
  split
  · split
    · rw [String.toList_append, String.toList_append]
      exact List.infix_append _ _ _
    · exact List.infix_refl _
  · exact List.infix_refl _

/-- Both conditions stand in their conjunction. -/
theorem text_infix_and (f g : Fragment) :
    f.text.toList <:+: (f.and g).text.toList ∧ g.text.toList <:+: (f.and g).text.toList := by
  have chars : (f.and g).text.toList = (f.operand Operator.and .left).toList ++
      (" ".toList ++ Operator.and.symbol.toList ++ " ".toList) ++
      (g.operand Operator.and .right).toList := by
    simp only [and, combine, around, String.toList_append, List.append_assoc]
  rw [chars]
  constructor
  · apply (text_infix_operand f Operator.and .left).trans
    rw [List.append_assoc]
    exact (List.prefix_append _ _).isInfix
  · exact (text_infix_operand g Operator.and .right).trans (List.suffix_append _ _).isInfix

end Fragment

namespace CollapsibleIf

/-- The parts of the source that the edit keeps, and how many characters each of their later lines
loses. -/
def Collapse.kept (source : Source) : Collapse → List (Span × Nat)
  | orElse _ inner => [(inner.span, laterIndent (source.snippet inner.span).toList)]
  | nested _ lhs inner rhs =>
    [(lhs.span, 0), (rhs.span, 0),
      (inner.body.span, laterIndent (source.snippet inner.body.span).toList)]

variable (source : Source) (c : Collapse) (part : Span) (count : Nat)

/-- A part either stays as it is or is trimmed as a whole. -/
theorem count_of_mem_kept (kept : (part, count) ∈ c.kept source) :
    count = 0 ∨ count = laterIndent (source.snippet part).toList := by
  cases c with
  | orElse block inner =>
    cases List.mem_singleton.mp kept
    exact .inr rfl
  | nested outer lhs inner rhs =>
    simp only [Collapse.kept, List.mem_cons, Prod.mk.injEq, List.not_mem_nil, or_false] at kept
    rcases kept with ⟨rfl, rfl⟩ | ⟨rfl, rfl⟩ | ⟨rfl, rfl⟩
    · exact .inl rfl
    · exact .inl rfl
    · exact .inr rfl

/-- What is left of each part stands in the replacement. -/
theorem outdent_infix_replacement (kept : (part, count) ∈ c.kept source) :
    outdent count (source.snippet part).toList <:+: (c.suggestion source).replacement.toList := by
  have trimmed (span : Span) : (source.snippetBlock span).toList =
      outdent (laterIndent (source.snippet span).toList) (source.snippet span).toList := by
    rw [Source.snippetBlock, Text.trimMultiline_eq_outdent, String.toList_ofList]
  cases c with
  | orElse block inner =>
    cases List.mem_singleton.mp kept
    rw [← trimmed]
    exact List.infix_refl _
  | nested outer lhs inner rhs =>
    have chars : ((Collapse.nested outer lhs inner rhs).suggestion source).replacement.toList =
        "if ".toList ++ ((Fragment.ofExpr source lhs).and (Fragment.ofExpr source rhs)).text.toList
          ++ (" ".toList ++ (source.snippetBlock inner.body.span).toList) := by
      simp only [Collapse.suggestion, String.toList_append, List.append_assoc]
    obtain ⟨left, right⟩ :=
      Fragment.text_infix_and (Fragment.ofExpr source lhs) (Fragment.ofExpr source rhs)
    rw [chars]
    simp only [Collapse.kept, List.mem_cons, Prod.mk.injEq, List.not_mem_nil, or_false] at kept
    rcases kept with ⟨rfl, rfl⟩ | ⟨rfl, rfl⟩ | ⟨rfl, rfl⟩
    · rw [outdent, Text.outdentFrom_zero]
      exact left.trans (List.infix_append _ _ _)
    · rw [outdent, Text.outdentFrom_zero]
      exact right.trans (List.infix_append _ _ _)
    · rw [← trimmed, ← List.append_assoc]
      exact (List.suffix_append _ _).isInfix

/-- Whatever begins and ends with something else than indentation or a line feed, a literal like
any other text: where the edit keeps it, it is outdented on its own. That leaves it as it is exactly
when it is on one line or the part of the source around it has no indentation to lose. -/
theorem kept_literal (source : Source) (c : Collapse) (part literal : Span) (count : Nat)
    (before inside after before' text after' : List Char)
    (kept : (part, count) ∈ c.kept source) (partMarks : source.Marks part before inside after)
    (marks : source.Marks literal before' text after')
    (contained : part.contains literal = true) (solid : IsSolid text) :
    (∃ front behind, inside = front ++ text ++ behind ∧
      outdent count front ++ outdent count text ++ outdent count behind <:+:
        (c.suggestion source).replacement.toList) ∧
      (outdent count text = text ↔ count = 0 ∨ '\n' ∉ text) := by
  refine ⟨?_, Text.outdent_eq_self_iff count text solid⟩
  obtain ⟨front, behind, parts, -⟩ := partMarks.within marks contained
  have whole := outdent_infix_replacement source c part count kept
  rw [partMarks.snippet_eq, String.toList_ofList, parts] at whole
  refine ⟨front, behind, parts, ?_⟩
  rcases count_of_mem_kept source c part count kept with rfl | shared
  · simpa only [outdent, Text.outdentFrom_zero] using whole
  · rw [partMarks.snippet_eq, String.toList_ofList, parts] at shared
    rwa [Text.outdent_around count front text behind solid shared] at whole

/-- The node is in the tree. -/
abbrev IsBelow (root node : ParseTree) : Prop :=
  Relation.ReflTransGen (fun t u => u ∈ t.children) root node

/-! A literal over two lines, in a block that is moved out of another. -/

/-- What stands in front of the block that is moved. -/
def movedBefore : String := "fn f() \x7b\n  if a \x7b\n    if b "

def movedBody : String := "\x7b\n      log!(\"x\n      y\");\n    \x7d"

def movedAfter : String := "\n  \x7d\n\x7d\n"

def movedSource : Source := ⟨movedBefore ++ movedBody ++ movedAfter, none⟩

def movedLiteral : ParseTree := ⟨⟨"string_literal", true, 40, 51, none⟩, (), []⟩

def movedTokens : ParseTree := ⟨⟨"token_tree", true, 39, 52, none⟩, (), [movedLiteral]⟩

def movedMacro : ParseTree :=
  ⟨⟨"macro_invocation", true, 35, 52, none⟩, (), [
    ⟨⟨"identifier", true, 35, 38, some "macro"⟩, (), []⟩, movedTokens]⟩

/-- A statement that is the expression. -/
def statement (start stop : Int) (expr : ParseTree) : ParseTree :=
  ⟨⟨"expression_statement", true, start, stop, none⟩, (), [expr]⟩

/-- An `if` with a name as condition; the block behind it holds one statement. -/
def ifName (start stop : Int) (inside : ParseTree) : ParseTree :=
  ⟨⟨"if_expression", true, start, stop, none⟩, (), [
    ⟨⟨"identifier", true, start + 3, start + 4, some "condition"⟩, (), []⟩,
    ⟨⟨"block", true, start + 5, stop, some "consequence"⟩, (), [inside]⟩]⟩

def movedFile : ParseTree :=
  ⟨⟨"source_file", true, 0, 66, none⟩, (), [
    ⟨⟨"function_item", true, 0, 65, none⟩, (), [
      ⟨⟨"identifier", true, 3, 4, some "name"⟩, (), []⟩,
      ⟨⟨"parameters", true, 4, 6, some "parameters"⟩, (), []⟩,
      ⟨⟨"block", true, 7, 65, some "body"⟩, (), [
        statement 11 63 (ifName 11 63 (statement 22 59 (ifName 22 59
          (statement 35 53 movedMacro))))]⟩]⟩]⟩

/-- The two `if`s of the file, as far as their edit looks at them. -/
def movedCollapse : Collapse :=
  let name (lo : Int) : Expr := .other "identifier" [] ⟨lo, lo + 1, 0⟩
  .nested ⟨.test (name 14), ⟨[], ⟨16, 63, 0⟩⟩, none, ⟨11, 63, 0⟩⟩ (name 14)
    ⟨.test (name 25), ⟨[], ⟨27, 59, 0⟩⟩, none, ⟨22, 59, 0⟩⟩ (name 25)

theorem movedLiteral_outdented :
    let literal := "\"x\n      y\"".toList
    (∃ front behind, movedBody.toList = front ++ literal ++ behind ∧
      outdent 4 front ++ outdent 4 literal ++ outdent 4 behind <:+:
        (movedCollapse.suggestion movedSource).replacement.toList) ∧
      (outdent 4 literal = literal ↔ 4 = 0 ∨ '\n' ∉ literal) := by
  have solid : IsSolid "\"x\n      y\"".toList :=
    ⟨⟨'"', _, rfl, by decide, by decide⟩, ⟨"\"x\n      y".toList, '"', rfl, by decide, by decide⟩⟩
  exact kept_literal movedSource movedCollapse ⟨27, 59, 0⟩ movedLiteral.span 4
    movedBefore.toList movedBody.toList movedAfter.toList
    (movedBefore.toList ++ "\x7b\n      log!(".toList) _
    (");\n    \x7d".toList ++ movedAfter.toList)
    (by decide +kernel) ⟨by decide, by decide, by decide⟩ ⟨by decide, by decide, by decide⟩
    (by decide) solid

theorem movedLiteral_isBelow : IsBelow movedFile movedLiteral := by
  have ofStatement (start stop : Int) (expr : ParseTree) :
      IsBelow (statement start stop expr) expr := .single List.mem_cons_self
  have ofIf (start stop : Int) (inside : ParseTree) : IsBelow (ifName start stop inside) inside :=
    .head (List.mem_cons_of_mem _ List.mem_cons_self) (.single List.mem_cons_self)
  have ofMacro : IsBelow movedMacro movedLiteral :=
    .head (List.mem_cons_of_mem _ List.mem_cons_self) (.single List.mem_cons_self)
  have ofFile : IsBelow movedFile (statement 11 63 (ifName 11 63 (statement 22 59 (ifName 22 59
      (statement 35 53 movedMacro))))) :=
    .head List.mem_cons_self
      (.head (List.mem_cons_of_mem _ (List.mem_cons_of_mem _ List.mem_cons_self))
        (.single List.mem_cons_self))
  have outer := (ofFile.trans (ofStatement _ _ _)).trans (ofIf _ _ _)
  have inner := (outer.trans (ofStatement _ _ _)).trans (ofIf _ _ _)
  exact (inner.trans (ofStatement _ _ _)).trans ofMacro

/-- What the collapses of the file keep, and their edits. -/
theorem collapses_movedFile :
    ((Crate.ofTree movedSource movedFile).toOption.map fun crate =>
      (collapses crate).map fun c => (c.kept movedSource, c.suggestion movedSource)) =
    some [([(⟨14, 15, 0⟩, 0), (⟨25, 26, 0⟩, 0), (⟨27, 59, 0⟩, 4)],
      { span := ⟨11, 63, 0⟩
        replacement := "if a && b \x7b\n  log!(\"x\n  y\");\n\x7d"
        applicability := .machineApplicable })] := by
  decide +kernel

/-- The edit rewrites a literal that goes over a line end. -/
theorem not_kept_literal :
    ¬ ∀ (source : Source) (file node : ParseTree) (crate : Crate) (c : Collapse) (part : Span)
        (count : Nat),
      Crate.ofTree source file = .ok crate → c ∈ collapses crate →
      IsBelow file node → node.kind = "string_literal" ∨ node.kind = "raw_string_literal" →
      (part, count) ∈ c.kept source → part.contains node.span = true →
      (source.snippet node.span).toList <:+: (c.suggestion source).replacement.toList := by
  intro always
  have evaluated := collapses_movedFile
  cases lowered : Crate.ofTree movedSource movedFile with
  | error e =>
    rw [lowered] at evaluated
    cases evaluated
  | ok crate =>
    rw [lowered] at evaluated
    have single := Option.some.inj evaluated
    obtain ⟨c, listed, pair⟩ := List.mem_map.mp (single ▸ List.mem_singleton_self _)
    obtain ⟨kept, edit⟩ := Prod.mk.inj pair
    have body : (⟨27, 59, 0⟩, 4) ∈ c.kept movedSource := by
      rw [kept]
      decide
    have unchanged := always movedSource movedFile movedLiteral crate c _ 4 lowered listed
      movedLiteral_isBelow (.inl rfl) body (by decide)
    rw [edit] at unchanged
    revert unchanged
    decide +kernel

end CollapsibleIf

end RustLint
