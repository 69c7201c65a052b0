import RustLint.Proofs.Report.RoundTrip
import RustLint.Report.Machine

set_option autoImplicit false

namespace RustLint.Report

/-! What a reader gets. -/

/-- An edit in a report. -/
structure DecodedSuggestion where
  help : String
  path : Option String
  lo : Int
  hi : Int
  replacement : String
  applicability : Applicability
  deriving DecidableEq

/-- A place in a report. -/
structure DecodedLocation where
  path : String
  startLine : Option Int
  startCol : Option Int
  endLine : Option Int
  endCol : Option Int
  deriving DecidableEq

structure DecodedFinding where
  lint : String
  message : String
  lo : Int
  hi : Int
  location : Option DecodedLocation
  suggestion : Option DecodedSuggestion
  deriving DecidableEq

structure DecodedSummary where
  schemaVersion : Int
  toolName : String
  toolVersion : String
  filesChecked : Int
  filesSkipped : List String
  findings : List DecodedFinding
  deriving DecidableEq

/-! Decoding of a value. -/

namespace Datum

def int? : Datum → Option Int
  | number n => some n
  | _ => none

def string? : Datum → Option String
  | text s => some s
  | _ => none

/-- A value that may be missing. -/
def optional? {α : Type} (decode : Datum → Option α) : Datum → Option (Option α)
  | null => some none
  | value => (decode value).map some

def listOf? {α : Type} (decode : Datum → Option α) : Datum → Option (List α)
  | list items => items.mapM decode
  | _ => none

/-- The values of an object that has the members of these names and no others. -/
def fields? (names : List String) : Datum → Option (List Datum)
  | object members =>
    if members.map Prod.fst = names then some (members.map Prod.snd) else none
  | _ => none

/-- The bounds of a span. -/
def bounds? (value : Datum) : Option (Int × Int) := do
  let [lo, hi] ← value.fields? ["lo", "hi"] | none
  some (← lo.int?, ← hi.int?)

def applicability? : Datum → Option Applicability
  | text "machine-applicable" => some .machineApplicable
  | text "maybe-incorrect" => some .maybeIncorrect
  | _ => none

def suggestion? (value : Datum) : Option DecodedSuggestion := do
  let [help, path, span, replacement, applicability] ←
    value.fields? ["help", "path", "span", "replacement", "applicability"] | none
  let (lo, hi) ← span.bounds?
  some ⟨← help.string?, ← path.optional? string?, lo, hi, ← replacement.string?,
    ← applicability.applicability?⟩

def location? (value : Datum) : Option DecodedLocation := do
  let [path, startLine, startCol, endLine, endCol] ←
    value.fields? ["path", "start_line", "start_col", "end_line", "end_col"] | none
  some ⟨← path.string?, ← startLine.optional? int?, ← startCol.optional? int?,
    ← endLine.optional? int?, ← endCol.optional? int?⟩

def finding? (value : Datum) : Option DecodedFinding := do
  let [lint, message, span, location, suggestion] ←
    value.fields? ["lint", "message", "span", "location", "suggestion"] | none
  let (lo, hi) ← span.bounds?
  some ⟨← lint.string?, ← message.string?, lo, hi, ← location.optional? location?,
    ← suggestion.optional? suggestion?⟩

def summary? (value : Datum) : Option DecodedSummary := do
  let [schemaVersion, tool, filesChecked, filesSkipped, findings] ←
    value.fields? ["schema_version", "tool", "files_checked", "files_skipped", "findings"] | none
  let [name, version] ← tool.fields? ["name", "version"] | none
  some ⟨← schemaVersion.int?, ← name.string?, ← version.string?, ← filesChecked.int?,
    ← filesSkipped.listOf? string?, ← findings.listOf? finding?⟩

end Datum

/-- The summary that a report tells. -/
def decode? (report : String) : Option DecodedSummary := do (← Datum.read? report).summary?

/-! What a report tells of a summary. -/

section

variable (resolve : Path.Resolver) (root : Path)

def toldSuggestion (s : Suggestion) : Except Path.PlaceError DecodedSuggestion := do
  return {
    help := s.help
    path := ← s.path.mapM (·.display resolve root)
    lo := s.span.lo
    hi := s.span.hi
    replacement := s.replacement
    applicability := s.applicability }

/-- A location is told if its path is known. -/
def toldLocation : Option Location → Except Path.PlaceError (Option DecodedLocation)
  | some ⟨some path, startLine, startCol, endLine, endCol⟩ => do
    return some ⟨← path.display resolve root, startLine, startCol, endLine, endCol⟩
  | _ => return none

def toldFinding (f : Finding) : Except Path.PlaceError DecodedFinding := do
  return {
    lint := f.lint
    message := f.message
    lo := f.span.lo
    hi := f.span.hi
    location := ← toldLocation resolve root f.location
    suggestion := ← f.suggestion.mapM (toldSuggestion resolve root) }

def toldSummary (s : Summary) : Except Path.PlaceError DecodedSummary := do
  return {
    schemaVersion := schemaVersion
    toolName := toolName
    toolVersion := toolVersion
    filesChecked := s.filesChecked
    filesSkipped := ← s.filesSkipped.mapM (·.display resolve root)
    findings := ← s.findings.mapM (toldFinding resolve root) }

end

/-! What can stand in the way of a report: the paths that it shows and the numbers that it holds. -/

def pathsOfFinding (f : Finding) : List Path :=
  (f.location.bind (·.path)).toList ++ (f.suggestion.bind (·.path)).toList

def pathsOf (s : Summary) : List Path := s.filesSkipped ++ s.findings.flatMap pathsOfFinding

def numbersOfSuggestion (s : Suggestion) : List Int := [s.span.lo, s.span.hi]

/-- The numbers of a location that is told. -/
def numbersOfLocation : Option Location → List Int
  | some ⟨some _, startLine, startCol, endLine, endCol⟩ =>
    startLine.toList ++ startCol.toList ++ endLine.toList ++ endCol.toList
  | _ => []

def numbersOfFinding (f : Finding) : List Int :=
  f.span.lo :: f.span.hi ::
    (numbersOfLocation f.location ++ f.suggestion.toList.flatMap numbersOfSuggestion)

def numbersOf (s : Summary) : List Int :=
  schemaVersion :: s.filesChecked :: s.findings.flatMap numbersOfFinding

/-! Decoding what was written. -/

namespace Datum

theorem ofMembers_eq_map (members : List (String × Json)) :
    ofMembers members = members.map fun member => (member.1, ofJson member.2) := by
  induction members with
  | nil => rfl
  | cons member members ih => rw [ofMembers, ih, List.map_cons]

/-- The members of a written object are found under the names they were written with. -/
theorem fields?_object {names : List String} (members : List (String × Json))
    (named : members.map Prod.fst = names) :
    (ofJson (.object members)).fields? names =
      some (members.map fun member => ofJson member.2) := by
  simp only [← named, ofJson, ofMembers_eq_map, fields?, List.map_map, Function.comp_def,
    ↓reduceIte]

theorem bounds?_jsonSpan (s : Span) : (ofJson (jsonSpan s)).bounds? = some (s.lo, s.hi) := rfl

theorem applicability?_text (a : Applicability) :
    (ofJson (.text a.text)).applicability? = some a := by
  cases a <;> rfl

theorem optional?_number (n : Option Int) :
    (ofJson (.ofOption .number n)).optional? int? = some n := by
  cases n <;> rfl

theorem numbers_number (n : Option Int) : (Json.ofOption .number n).numbers = n.toList := by
  cases n <;> rfl

/-- The value holds these numbers, and reading it gives what is told. -/
structure Reads {α : Type} (decode : Datum → Option α) (numbers : List Int) (j : Json) (told : α) :
    Prop where
  back : decode (ofJson j) = some told
  numbers : j.numbers = numbers

section Reads

variable {α : Type} {decode : Datum → Option α} {numbers more : List Int} {j : Json} {told : α}

theorem Reads.optional (reads : Reads decode numbers j told) (noNull : decode null = none) :
    Reads (optional? decode) numbers j (some told) where
  back := by
    have present : ofJson j ≠ null := by
      intro missing
      have decoded := reads.back
      rw [missing, noNull] at decoded
      cases decoded
    rw [optional?, reads.back]
    · rfl
    · exact present
  numbers := reads.numbers

theorem Reads.cons {js : List Json} {others : List α} (head : Reads decode numbers j told)
    (tail : Reads (listOf? decode) more (.list js) others) :
    Reads (listOf? decode) (numbers ++ more) (.list (j :: js)) (told :: others) where
  back := by
    have items : (ofItems js).mapM decode = some others := tail.back
    rw [ofJson, ofItems, listOf?, List.mapM_cons, head.back, items]
    rfl
  numbers := by
    have items : Json.numbersOfItems js = more := tail.numbers
    rw [Json.numbers, Json.numbersOfItems, head.numbers, items]

end Reads

section Tells

variable (resolve : Path.Resolver) (root : Path)

/-- A part is written for what is told of it, or neither is there since one of its paths cannot be
shown. -/
inductive Tells {α β : Type} (paths : List Path) (R : α → β → Prop) :
    Except Path.PlaceError α → Except Path.PlaceError β → Prop
  | written (a : α) (b : β)
      (places : ∀ path ∈ paths, path.display resolve root ≠ .error .circular) (related : R a b) :
      Tells paths R (.ok a) (.ok b)
  | circular (path : Path) (among : path ∈ paths)
      (noPlace : path.display resolve root = .error .circular) :
      Tells paths R (.error .circular) (.error .circular)

variable {resolve root} {α β γ δ : Type} {paths more : List Path} {R : α → β → Prop}
  {S : γ → δ → Prop} {written : Except Path.PlaceError α} {told : Except Path.PlaceError β}

theorem Tells.map (tells : Tells resolve root paths R written told) (f : α → γ) (g : β → δ)
    (related : ∀ a b, R a b → S (f a) (g b)) :
    Tells resolve root paths S (f <$> written) (g <$> told) := by
  cases tells with
  | written a b places first => exact .written _ _ places (related a b first)
  | circular path among noPlace => exact .circular path among noPlace

theorem Tells.bind {next : α → Except Path.PlaceError γ} {next' : β → Except Path.PlaceError δ}
    (first : Tells resolve root paths R written told)
    (behind : ∀ a b, R a b → Tells resolve root more S (next a) (next' b)) :
    Tells resolve root (paths ++ more) S (written >>= next) (told >>= next') := by
  cases first with
  | circular path among noPlace => exact .circular path (List.mem_append_left more among) noPlace
  | written a b places related =>
    change Tells resolve root (paths ++ more) S (next a) (next' b)
    generalize next a = second, next' b = told, behind a b related = tells
    cases tells with
    | circular path among noPlace =>
      exact .circular path (List.mem_append_right paths among) noPlace
    | written c d places' related' =>
      exact .written c d (List.forall_mem_append.mpr ⟨places, places'⟩) related'

variable (resolve root) in
theorem tells_path (path : Path) : Tells resolve root [path] (Reads string? [])
    (jsonPath resolve root path) (path.display resolve root) := by
  rw [jsonPath]
  cases shown : path.display resolve root with
  | ok text => exact .written _ text (by simp [shown]) ⟨rfl, rfl⟩
  | error e =>
    cases Path.circular_of_display shown
    exact .circular path List.mem_cons_self shown

section Parts

variable {ι : Type} {paths : ι → List Path} {decode : Datum → Option α} {numbers : ι → List Int}
  {write : ι → Except Path.PlaceError Json} {tell : ι → Except Path.PlaceError α}
  (part : ∀ i, Tells resolve root (paths i) (Reads decode (numbers i)) (write i) (tell i))

include part

theorem tells_optional (noNull : decode null = none) (i : Option ι) :
    Tells resolve root (i.toList.flatMap paths)
      (Reads (optional? decode) (i.toList.flatMap numbers)) (optional write i) (i.mapM tell) := by
  cases i with
  | none => exact .written _ none (List.forall_mem_nil _) ⟨rfl, rfl⟩
  | some i =>
    rw [Option.toList_some, List.flatMap_singleton, List.flatMap_singleton]
    have present := (part i).map id some fun j a reads => reads.optional noNull
    rw [id_map] at present
    exact present

theorem tells_list (is : List ι) :
    Tells resolve root (is.flatMap paths)
      (fun js as => Reads (listOf? decode) (is.flatMap numbers) (.list js) as)
      (is.mapM write) (is.mapM tell) := by
  induction is with
  | nil => exact .written [] [] (List.forall_mem_nil _) ⟨rfl, rfl⟩
  | cons i is ih =>
    rw [List.mapM_cons, List.mapM_cons, List.flatMap_cons, List.flatMap_cons]
    simp only [bind_pure_comp]
    exact (part i).bind fun j a head => ih.map _ _ fun js as tail => head.cons tail

end Parts

variable (resolve root)

theorem tells_suggestion (s : Suggestion) :
    Tells resolve root s.path.toList (Reads suggestion? (numbersOfSuggestion s))
      (jsonSuggestion resolve root s) (toldSuggestion resolve root s) := by
  have path := tells_optional (tells_path resolve root) rfl s.path
  rw [List.flatMap_singleton'] at path
  rw [jsonSuggestion, toldSuggestion, bind_pure_comp, bind_pure_comp]
  refine path.map _ _ fun j told reads => ⟨?_, ?_⟩
  · rw [suggestion?, fields?_object _ (by rfl)]
    simp only [List.map_cons, List.map_nil, Option.bind_eq_bind, Option.bind_some,
      bounds?_jsonSpan, reads.back, applicability?_text]
    rfl
  · simp [Json.numbers, Json.numbersOfMembers, jsonSpan, reads.numbers, numbersOfSuggestion]

theorem tells_location (l : Option Location) :
    Tells resolve root (l.bind (·.path)).toList
      (Reads (optional? location?) (numbersOfLocation l))
      (optional (jsonLocation resolve root) l) (toldLocation resolve root l) := by
  match l with
  | none | some ⟨none, _, _, _, _⟩ => exact .written _ none (List.forall_mem_nil _) ⟨rfl, rfl⟩
  | some ⟨some path, startLine, startCol, endLine, endCol⟩ =>
    rw [optional, jsonLocation, optional, toldLocation, bind_pure_comp, bind_pure_comp]
    refine (tells_path resolve root path).map _ _ fun j told reads => Reads.optional ⟨?_, ?_⟩ rfl
    · rw [location?, fields?_object _ (by rfl)]
      simp only [List.map_cons, List.map_nil, Option.bind_eq_bind, Option.bind_some, reads.back,
        optional?_number]
    · simp [Json.numbers, Json.numbersOfMembers, numbers_number, reads.numbers, numbersOfLocation]

theorem tells_finding (f : Finding) :
    Tells resolve root (pathsOfFinding f) (Reads finding? (numbersOfFinding f))
      (jsonFinding resolve root f) (toldFinding resolve root f) := by
  have suggestion := tells_optional (tells_suggestion resolve root) rfl f.suggestion
  have paths : f.suggestion.toList.flatMap (·.path.toList) =
      (f.suggestion.bind (·.path)).toList := by
    cases f.suggestion <;> simp
  rw [paths] at suggestion
  rw [jsonFinding, toldFinding, pathsOfFinding]
  simp only [bind_pure_comp]
  refine (tells_location resolve root f.location).bind fun j location reads =>
    suggestion.map _ _ fun k edit readsEdit => ⟨?_, ?_⟩
  · rw [finding?, fields?_object _ (by rfl)]
    simp only [List.map_cons, List.map_nil, Option.bind_eq_bind, Option.bind_some,
      bounds?_jsonSpan, reads.back, readsEdit.back]
    rfl
  · simp [Json.numbers, Json.numbersOfMembers, jsonSpan, reads.numbers, readsEdit.numbers,
      numbersOfFinding]

/-- A summary is told as a whole or not at all. -/
theorem tells_summary (s : Summary) :
    Tells resolve root (pathsOf s) (Reads summary? (numbersOf s)) (jsonSummary resolve root s)
      (toldSummary resolve root s) := by
  have filesSkipped := tells_list (tells_path resolve root) s.filesSkipped
  rw [List.flatMap_singleton'] at filesSkipped
  rw [jsonSummary, toldSummary, pathsOf]
  simp only [bind_pure_comp]
  refine filesSkipped.bind fun js skipped reads =>
    (tells_list (tells_finding resolve root) s.findings).map _ _
      fun ks findings readsFindings => ⟨?_, ?_⟩
  · rw [summary?, fields?_object _ (by rfl)]
    simp only [List.map_cons, List.map_nil, Option.bind_eq_bind, Option.bind_some, reads.back,
      readsFindings.back]
    rfl
  · have ofSkipped : Json.numbersOfItems js = [] := reads.numbers.trans (by simp)
    have ofFindings : Json.numbersOfItems ks = s.findings.flatMap numbersOfFinding :=
      readsFindings.numbers
    simp [Json.numbers, Json.numbersOfMembers, ofSkipped, ofFindings, numbersOf]

end Tells

end Datum

section

variable {resolve : Path.Resolver} {root : Path} {s : Summary}

theorem machine_of_error {e : Path.PlaceError} (limit : Option Nat)
    (failed : jsonSummary resolve root s = .error e) :
    machine resolve root limit s = .error (.noPlace e) := by
  rw [machine, failed]
  rfl

theorem machine_of_ok {json : Json} (limit : Option Nat)
    (written : jsonSummary resolve root s = .ok json) : machine resolve root limit s =
      if json.numbers.all (Json.fits limit) then .ok (String.ofList (json.layout 0))
      else .error .tooManyDigits := by
  simp only [machine, written, Except.mapError, bind, Except.bind, Json.render?_eq]
  cases json.numbers.all (Json.fits limit) <;> rfl

end

/-- A finding outside of the root, in a text that no character set but Unicode has, and one that
nothing is known of but its span. -/
def sampleSummary : Summary where
  filesChecked := 3
  filesSkipped := [.ofString "/proj/src/../bad.rs"]
  findings := [
    { lint := "collapsible_if"
      message := "\"é\" \\ 😀\x7f\n"
      span := ⟨-7, 100000000000000000000, 0⟩
      location := some ⟨some (.ofString "/lib/a.rs"), some 1, none, some 0, some 12⟩
      suggestion := some ⟨⟨2, 5, 0⟩, "", .maybeIncorrect, "try", some (.ofString "/proj/b.rs")⟩ },
    { lint := "", message := "", span := ⟨0, 0, 0⟩, location := some { startLine := some 1000 } }]

def sampleTold : DecodedSummary where
  schemaVersion := 1
  toolName := "ferrolint"
  toolVersion := "0.1.0"
  filesChecked := 3
  filesSkipped := ["bad.rs"]
  findings := [
    { lint := "collapsible_if"
      message := "\"é\" \\ 😀\x7f\n"
      lo := -7
      hi := 100000000000000000000
      location := some ⟨"/lib/a.rs", some 1, none, some 0, some 12⟩
      suggestion := some ⟨"try", some "b.rs", 2, 5, "", .maybeIncorrect⟩ },
    ⟨"", "", 0, 0, none, none⟩]

end RustLint.Report
