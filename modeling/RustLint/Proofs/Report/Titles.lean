import RustLint.Proofs.Constructors.DeriveEdits
import RustLint.Proofs.Locations
import RustLint.Proofs.Report.Margin

set_option autoImplicit false

namespace RustLint

namespace NewWithoutDefault

/-- The message goes over several lines exactly when the type does. -/
theorem feed_message_iff {oracle : TypeOracle} {defaultTrait : String} {subject : Subject}
    {impl : ImplBlock} {c : Candidate} {finding : Finding}
    (flagged : outcome oracle defaultTrait subject impl c = .flagged finding) :
    '\n' ∈ finding.message.toList ↔ '\n' ∈ c.selfTy.display.toList := by
  obtain ⟨trait, ⟨definition, home, rfl⟩ | rfl⟩ := finding_of_outcome flagged
  · simp [deriveFindingIn]
  · simp [manualFinding]

end NewWithoutDefault

theorem CollapsibleIf.Collapse.no_feed_message (c : CollapsibleIf.Collapse) :
    '\n' ∉ c.message.toList := by
  cases c with
  | orElse _ _ =>
    rw [message]
    decide
  | nested _ _ _ _ =>
    rw [message]
    decide

namespace Report

open Detection (check finding_of_check indexOf)
open NewWithoutDefault (candidates outcome)

variable {config : Config} {files : List RustFile}

theorem whereabouts_ofSpan (resolve : Path.Resolver) (root : Path) (file : RustFile) (span : Span) :
    whereabouts resolve root (some (.ofSpan file.source span)) =
      file.path.shown resolve root ++ ":" ++
        shownNumber (Location.ofSpan file.source span).startLine ++ ":" ++
        shownNumber (Location.ofSpan file.source span).startCol := rfl

theorem location_of_check {f : Finding} (listed : f ∈ (check config files).value.findings) :
    ∃ file ∈ files, f.location = some (.ofSpan file.source f.span) :=
  Detection.exists_location config (indexOf config files).oracle files f listed

/-- An edit of another file goes to one of the files. -/
theorem path_of_check {f : Finding} {s : Suggestion} {path : Path}
    (listed : f ∈ (check config files).value.findings) (edit : f.suggestion = some s)
    (named : s.path = some path) : ∃ home ∈ files, home.path = path := by
  have absent (noPath : s.path = none) : ∃ home ∈ files, home.path = path :=
    nomatch noPath.symm.trans named
  obtain ⟨file, -, crate, -, ⟨c, rfl⟩ | ⟨entry, -, flagged⟩⟩ := finding_of_check listed
  · cases edit
    exact absent (by cases c <;> rfl)
  · obtain ⟨trait, ⟨definition, source, made⟩ | rfl⟩ :=
      NewWithoutDefault.finding_of_outcome flagged
    · have lint : f.lint = Lint.newWithoutDefaultDerive.name := by rw [made]; rfl
      obtain ⟨-, -, -, -, -, -, -, -, home, d, used, only, -, -, atHome⟩ :=
        Detection.suggestion_at_definition config files f listed lint
      obtain ⟨before, behind, split, -⟩ := only.alone
      have inFiles : home ∈ files := split ▸ List.mem_append_right before List.mem_cons_self
      cases edit.symm.trans atHome
      exact ⟨home, inFiles, Option.some.inj named⟩
    · cases edit
      exact absent rfl

theorem help_of_check {f : Finding} {s : Suggestion}
    (listed : f ∈ (check config files).value.findings) (edit : f.suggestion = some s) :
    s.help = "try" := by
  obtain ⟨file, -, crate, -, ⟨c, rfl⟩ | ⟨entry, -, flagged⟩⟩ := finding_of_check listed
  · cases edit
    cases c <;> rfl
  · obtain ⟨trait, ⟨definition, source, rfl⟩ | rfl⟩ :=
      NewWithoutDefault.finding_of_outcome flagged
    · obtain ⟨home, -, rfl⟩ := Option.map_eq_some_iff.mp edit
      rfl
    · cases edit
      rfl

theorem lint_of_check {f : Finding} (listed : f ∈ (check config files).value.findings) :
    f.lint ∈ Lint.names := by
  obtain ⟨file, -, crate, -, ⟨c, rfl⟩ | ⟨entry, -, flagged⟩⟩ := finding_of_check listed
  · exact List.mem_map_of_mem (Lint.mem_all .collapsibleIf)
  · obtain ⟨trait, ⟨definition, source, rfl⟩ | rfl⟩ :=
      NewWithoutDefault.finding_of_outcome flagged
    · exact List.mem_map_of_mem (Lint.mem_all .newWithoutDefaultDerive)
    · exact List.mem_map_of_mem (Lint.mem_all .newWithoutDefault)

theorem head?_whereabouts_iff (resolve : Path.Resolver) (root : Path) {f : Finding}
    (listed : f ∈ (check config files).value.findings) :
    (whereabouts resolve root f.location).toList.head? = some ' ' ↔
      ∃ path, f.location.bind (·.path) = some path ∧
        (path.shown resolve root).toList.head? = some ' ' := by
  obtain ⟨file, -, location⟩ := location_of_check listed
  have path : f.location.bind (·.path) = some file.path := by
    rw [location]
    rfl
  rw [path, location, whereabouts_ofSpan]
  cases place : (file.path.shown resolve root).toList <;> simp [place]

/-- The message of a finding goes over several lines exactly when it is about a method in an `impl`
whose type does. -/
theorem feed_message_of_check {f : Finding}
    (listed : f ∈ (check config files).value.findings) : '\n' ∈ f.message.toList ↔
      ∃ file ∈ files, ∃ crate, file.crate = some crate ∧ ∃ entry ∈ candidates crate,
        outcome (indexOf config files).oracle config.defaultTrait
          ⟨file.place, file.source, crate⟩ entry.1 entry.2 = .flagged f ∧
        '\n' ∈ entry.2.selfTy.display.toList := by
  constructor
  · intro feed
    obtain ⟨file, inFiles, crate, tree, ⟨c, rfl⟩ | ⟨entry, candidate, flagged⟩⟩ :=
      finding_of_check listed
    · exact absurd feed c.no_feed_message
    · exact ⟨file, inFiles, crate, tree, entry, candidate, flagged,
        (NewWithoutDefault.feed_message_iff flagged).mp feed⟩
  · rintro ⟨file, -, crate, -, entry, -, flagged, feed⟩
    exact (NewWithoutDefault.feed_message_iff flagged).mpr feed

section Shown

variable {resolve : Path.Resolver} {root : Path}
  (shown : ∀ file ∈ files, '\n' ∉ (file.path.shown resolve root).toList)

include shown

/-- Where the paths are shown on one line, nothing in a finding goes over several lines but perhaps
its message and its replacement. -/
theorem plain_of_check {f : Finding} (listed : f ∈ (check config files).value.findings) :
    Plain resolve root f where
  place := by
    obtain ⟨file, inFiles, location⟩ := location_of_check listed
    have number (n : Option Int) : '\n' ∉ (shownNumber n).toList := no_feed_number _
    rw [location, whereabouts_ofSpan]
    simp [shown file inFiles, number]
  lint := by
    have names : ∀ name ∈ Lint.names, '\n' ∉ name.toList := by decide
    exact names _ (lint_of_check listed)
  help s edit := by
    rw [help_of_check listed edit]
    decide
  otherFile s edit := by
    rw [otherFile]
    split
    · exact List.not_mem_nil
    · next path named =>
      obtain ⟨home, inFiles, rfl⟩ := path_of_check listed edit named
      split
      · exact List.not_mem_nil
      · simp [shown home inFiles]

end Shown

/-- The report of a run over files whose paths are shown on one line: it is laid out line by line
exactly when the lines at the margin are the titles and the count, and that is when every message is
on one line and no path is shown with a space at its front. All about edits is indented or blank in
any case, and the messages that are not on one line are those about a type that is not. -/
theorem laid_check_iff (config : Config) (files : List RustFile) (resolve : Path.Resolver)
    (root : Path) (shown : ∀ file ∈ files, '\n' ∉ (file.path.shown resolve root).toList) :
    (Laid resolve root (check config files).value ↔
      (rows (human resolve root (check config files).value)).filter atMargin =
        (check config files).value.findings.map (title resolve root) ++
          [countLine (check config files).value]) ∧
    (Laid resolve root (check config files).value ↔
      ∀ f ∈ (check config files).value.findings, '\n' ∉ f.message.toList ∧
        ∀ path ∈ f.location.bind (·.path), (path.shown resolve root).toList.head? ≠ some ' ') ∧
    (∀ f ∈ (check config files).value.findings, ∀ line ∈ details resolve root f,
      '\n' ∉ line.toList ∧ atMargin line = false) ∧
    ∀ f ∈ (check config files).value.findings, '\n' ∈ f.message.toList ↔
      ∃ file ∈ files, ∃ crate, file.crate = some crate ∧ ∃ entry ∈ candidates crate,
        outcome (indexOf config files).oracle config.defaultTrait
          ⟨file.place, file.source, crate⟩ entry.1 entry.2 = .flagged f ∧
        '\n' ∈ entry.2.selfTy.display.toList := by
  have plain : ∀ f ∈ (check config files).value.findings, Plain resolve root f :=
    fun f listed => plain_of_check shown listed
  obtain ⟨margin, fine⟩ := laid_iff plain
  refine ⟨margin, fine.trans ?_, fun f listed => (plain f listed).details_off_margin,
    fun f listed => feed_message_of_check listed⟩
  refine forall₂_congr fun f listed => and_congr_right fun _ => ?_
  rw [ne_eq, head?_whereabouts_iff resolve root listed, not_exists]
  exact forall_congr' fun path => not_and

/-- An enum with a constructor. -/
def enumFile : RustFile where
  path := .ofString "/proj/src/e.rs"
  place := "src/e.rs"
  text := "pub enum E \x7b A \x7d\nimpl E \x7b\n    pub fn new() -> Self \x7b E::A \x7d\n\x7d\n"
  suppressions := []
  crate := some ⟨[.typeDef ⟨.enum, "E", {}, [], .everywhere, ⟨0, 16, 0⟩, true⟩,
    .impl ⟨{}, none, ⟨.path, "E", ⟨22, 23, 0⟩, [], "E"⟩,
      [.fn ⟨⟨"new", 0, false, false, {}, some ⟨.self, "Self", ⟨46, 50, 0⟩, [], "Self"⟩⟩,
        .everywhere, some ⟨[], ⟨51, 59, 0⟩⟩, ⟨30, 59, 0⟩, true⟩], ⟨17, 61, 0⟩, true⟩], ⟨0, 62, 0⟩⟩

/-- The suggested implementation goes over five lines, of which none stands at the margin. -/
theorem laid_enumFile :
    (∀ file ∈ [enumFile], '\n' ∉ (file.path.shown Path.lexical (.ofString "/proj")).toList) ∧
      Laid Path.lexical (.ofString "/proj") (check {} [enumFile]).value ∧
      (rows (human Path.lexical (.ofString "/proj") (check {} [enumFile]).value)).filter atMargin =
        ["src/e.rs:3:5: new_without_default: you should consider adding a `Default` " ++
          "implementation for `E`", "1 finding(s) in 1 file checked."] := by
  have shown : ∀ file ∈ [enumFile],
      '\n' ∉ (file.path.shown Path.lexical (.ofString "/proj")).toList := by decide +kernel
  obtain ⟨margin, fine, -, -⟩ := laid_check_iff {} [enumFile] Path.lexical (.ofString "/proj") shown
  have laid : Laid Path.lexical (.ofString "/proj") (check {} [enumFile]).value :=
    fine.mpr (by decide +kernel)
  refine ⟨shown, laid, (margin.mp laid).trans ?_⟩
  decide +kernel

/-- The file `pub struct S<T>(T); impl S<u8,> { pub fn new() -> Self { S(0) } }` with the type of
the `impl` on three lines. -/
def splitTypeText : String :=
  "pub struct S<T>(T);\n\nimpl S<\n    u8,\n> \x7b\n    pub fn new() -> Self \x7b\n" ++
    "        S(0)\n    \x7d\n\x7d\n"

def splitTypeTree : ParseTree :=
  let leaf (kind : String) (lo hi : Int) (label : Option String) : ParseTree :=
    ⟨⟨kind, true, lo, hi, label⟩, (), []⟩
  ⟨⟨"source_file", true, 0, 89, none⟩, (), [
    ⟨⟨"struct_item", true, 0, 19, none⟩, (), [
      leaf "visibility_modifier" 0 3 none, leaf "type_identifier" 11 12 (some "name"),
      ⟨⟨"type_parameters", true, 12, 15, some "type_parameters"⟩, (), [
        leaf "type_identifier" 13 14 none]⟩,
      ⟨⟨"ordered_field_declaration_list", true, 15, 18, some "body"⟩, (), [
        leaf "type_identifier" 16 17 (some "type")]⟩]⟩,
    ⟨⟨"impl_item", true, 21, 88, none⟩, (), [
      ⟨⟨"generic_type", true, 26, 38, some "type"⟩, (), [
        leaf "type_identifier" 26 27 (some "type"),
        ⟨⟨"type_arguments", true, 27, 38, some "type_arguments"⟩, (), [
          leaf "primitive_type" 33 35 none]⟩]⟩,
      ⟨⟨"declaration_list", true, 39, 88, some "body"⟩, (), [
        ⟨⟨"function_item", true, 45, 86, none⟩, (), [
          leaf "visibility_modifier" 45 48 none, leaf "identifier" 52 55 (some "name"),
          leaf "parameters" 55 57 (some "parameters"),
          leaf "type_identifier" 61 65 (some "return_type"),
          ⟨⟨"block", true, 66, 86, some "body"⟩, (), [
            ⟨⟨"call_expression", true, 76, 80, none⟩, (), [
              leaf "identifier" 76 77 (some "function"),
              ⟨⟨"arguments", true, 77, 80, some "arguments"⟩, (), [
                leaf "integer_literal" 78 79 none]⟩]⟩]⟩]⟩]⟩]⟩]⟩

def splitTypeFile : RustFile :=
  let path := Path.ofString "/proj/src/lib.rs"
  .ofCrate Path.lexical (.ofString "/proj") path splitTypeText
    (Crate.ofTree ⟨splitTypeText, some path⟩ splitTypeTree).toOption

/-- The finding about the constructor. -/
def splitTypeFinding : Finding where
  lint := Lint.newWithoutDefaultDerive.name
  message := "you should consider deriving a `Default` implementation for `S<\n    u8,\n>`"
  span := ⟨45, 86, 0⟩
  location := some ⟨some (.ofString "/proj/src/lib.rs"), some 6, some 5, some 8, some 6⟩
  suggestion := some ⟨⟨0, 0, 0⟩, "#[derive(Default)]\n", .maybeIncorrect, "try",
    some (.ofString "/proj/src/lib.rs")⟩

/-- No line of the report is the title of the finding, whose message goes over three lines. -/
theorem not_laid_check : ¬ ∀ (config : Config) (files : List RustFile) (resolve : Path.Resolver)
    (root : Path), (∀ file ∈ files, '\n' ∉ (file.path.shown resolve root).toList) →
      Laid resolve root (check config files).value := by
  intro always
  have laid := always {} [splitTypeFile] Path.lexical (.ofString "/proj") (by decide +kernel)
  have found : (check {} [splitTypeFile]).value = ⟨1, [splitTypeFinding], []⟩ := by decide +kernel
  rw [found] at laid
  have listed : title Path.lexical (.ofString "/proj") splitTypeFinding ∈
      rows (human Path.lexical (.ofString "/proj") ⟨1, [splitTypeFinding], []⟩) := by
    rw [laid.whole]
    exact List.mem_cons_self
  have feed : '\n' ∈ splitTypeFinding.message.toList := by decide
  refine no_feed_of_mem_rows listed ?_
  rw [title, String.toList_append]
  exact List.mem_append_right _ feed

end Report

end RustLint
