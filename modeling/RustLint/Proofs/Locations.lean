import RustLint.Proofs.Detection
import RustLint.Proofs.Text.Columns

set_option autoImplicit false

namespace RustLint

/-- The location has a beginning and an end, and does not end before it begins. -/
def Location.Ordered (l : Location) : Prop :=
  ∃ startLine startCol endLine endCol : Nat,
    l.startLine = some (startLine : Int) ∧ l.startCol = some (startCol : Int) ∧
      l.endLine = some (endLine : Int) ∧ l.endCol = some (endCol : Int) ∧
      toLex (startLine, startCol) ≤ toLex (endLine, endCol)

/-- Spans that do not end before they begin yield such locations. -/
theorem Location.ordered_ofSpan (source : Source) (span : Span) (order : span.lo ≤ span.hi) :
    (Location.ofSpan source span).Ordered :=
  ⟨(source.lineCol span.lo).1, (source.lineCol span.lo).2, (source.lineCol span.hi).1,
    (source.lineCol span.hi).2, rfl, rfl, rfl, rfl, source.lineCol_mono _ _ order⟩

namespace Detection

/-- The location of a finding of either rule is that of its span. -/
theorem location_of_findings (oracle : TypeOracle) (defaultTrait : String) (rule : Rule)
    (builtin : rule ∈ builtinRules oracle defaultTrait) (file : RustFile) (finding : Finding)
    (found : finding ∈ rule.findings file) :
    finding.location = some (.ofSpan file.source finding.span) := by
  rw [Rule.findings] at found
  split at found
  · cases found
  · next crate _ =>
    rcases List.mem_pair.mp builtin with rfl | rfl
    · obtain ⟨collapse, -, rfl⟩ := List.mem_map.mp found
      rfl
    · obtain ⟨⟨impl, c⟩, -, flagged⟩ :=
        (NewWithoutDefault.mem_check_iff oracle defaultTrait _ finding).mp found
      obtain ⟨trait, ⟨definition, home, rfl⟩ | rfl⟩ := NewWithoutDefault.finding_of_outcome flagged
      · rfl
      · rfl

/-- A finding is reported where its span is in its file. -/
theorem exists_location (config : Config) (oracle : TypeOracle) (files : List RustFile)
    (finding : Finding) (reported : finding ∈ (inFiles config oracle files).value) :
    ∃ file ∈ files, finding.location = some (.ofSpan file.source finding.span) := by
  obtain ⟨file, inFiles, rule, builtin, found, -⟩ :=
    (mem_detect_iff config _ files finding).mp reported
  exact ⟨file, inFiles,
    location_of_findings oracle config.defaultTrait rule builtin file finding found⟩

end Detection

/-- For every text and all offsets: the position of an offset outside the text is that of the
nearest offset inside. Its line is one more than the line feeds in front of the offset, its column
one more than the characters since the last of them, where a character that the offset cuts is one
in front of it. Later offsets do not have earlier positions. So no finding ends before it begins,
unless its span does. -/
theorem Source.lineCol_counts (s : Source) :
    (∀ offset : Int, s.lineCol offset = s.lineCol (max 0 (min offset s.size))) ∧
      (∀ offset : Int, s.lineCol offset =
        ((s.charsBefore offset).count '\n' + 1,
          ((s.charsBefore offset).rtakeWhile (· != '\n')).length + 1)) ∧
      (∀ a b : Int, a ≤ b → toLex (s.lineCol a) ≤ toLex (s.lineCol b)) ∧
      (∀ span : Span, span.lo ≤ span.hi → (Location.ofSpan s span).Ordered) ∧
      ∀ (config : Config) (oracle : TypeOracle) (files : List RustFile),
        ∀ finding ∈ (Detection.inFiles config oracle files).value,
          finding.span.lo ≤ finding.span.hi →
            ∃ location, finding.location = some location ∧ location.Ordered := by
  refine ⟨fun offset => ?_, s.lineCol_eq_position, s.lineCol_mono, Location.ordered_ofSpan s, ?_⟩
  · have nearest : s.clamp (max 0 (min offset s.size)) = s.clamp offset := by
      rw [clamp, clamp]
      omega
    rw [lineCol, lineCol, nearest]
  · intro config oracle files finding reported order
    obtain ⟨file, -, place⟩ :=
      Detection.exists_location config oracle files finding reported
    exact ⟨_, place, Location.ordered_ofSpan file.source finding.span order⟩

/-! The file `fn é() {if é {⏎if b {}}}`, whose outer `if` begins in its first and ends in its
second line. -/

def twoLineSample : RustFile where
  path := default
  place := "main.rs"
  text := "fn é() \x7bif é \x7b\nif b \x7b\x7d\x7d\x7d"
  suppressions := []
  crate :=
    let inner : If := ⟨.test (.other "identifier" [] ⟨20, 21, 0⟩), ⟨[], ⟨22, 24, 0⟩⟩, none,
      ⟨17, 24, 0⟩⟩
    let outer : If := ⟨.test (.other "identifier" [] ⟨12, 14, 0⟩),
      ⟨[.expr (.branch inner) false ⟨17, 24, 0⟩], ⟨15, 25, 0⟩⟩, none, ⟨9, 25, 0⟩⟩
    some ⟨[.fn ⟨⟨"é", 0, false, false, default, none⟩, .hidden,
      some ⟨[.expr (.branch outer) false ⟨9, 25, 0⟩], ⟨8, 26, 0⟩⟩, ⟨0, 26, 0⟩, true⟩], ⟨0, 26, 0⟩⟩

/-- Inside of the `é` and behind the text, and the finding at the outer `if`. -/
theorem lineCol_twoLineSample :
    twoLineSample.source.lineCol 4 = (1, 5) ∧ twoLineSample.source.lineCol 30 = (2, 10) ∧
      toLex (twoLineSample.source.lineCol 4) ≤ toLex (twoLineSample.source.lineCol 30) ∧
      (Location.ofSpan twoLineSample.source ⟨9, 25, 0⟩).Ordered ∧
      ∃ finding ∈ (Detection.inFiles {} (fun _ => .error .noAnswer) [twoLineSample]).value,
        finding.span = ⟨9, 25, 0⟩ ∧
          ∃ location, finding.location = some location ∧ location.Ordered := by
  obtain ⟨-, counts, mono, ofSpan, findings⟩ := Source.lineCol_counts twoLineSample.source
  refine ⟨?_, ?_, mono 4 30 (by decide), ofSpan _ (by decide), ?_⟩
  · rw [counts]
    decide +kernel
  · rw [counts]
    decide +kernel
  · have reported : ((Detection.inFiles {} (fun _ => .error .noAnswer) [twoLineSample]).value.map
        (·.span)) = [⟨9, 25, 0⟩] := by decide +kernel
    have single : (⟨9, 25, 0⟩ : Span) ∈ [⟨9, 25, 0⟩] := List.mem_singleton_self _
    rw [← reported] at single
    obtain ⟨finding, listed, span⟩ := List.mem_map.mp single
    exact ⟨finding, listed, span, findings _ _ _ finding listed (by rw [span]; decide)⟩

end RustLint
