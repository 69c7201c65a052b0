import RustLint.Text.Blank

set_option autoImplicit false

/- The tokens of source text. A token ends where the next character cannot be part of it, and a text
can end only where its last token does: not inside a string, and not inside a comment, line comments
included. -/
namespace RustLint.Precedence

inductive Delimiter where
  | paren
  | bracket
  | brace
  deriving DecidableEq, Repr

/-- Words are names and keywords; numbers, characters and strings are literals. -/
inductive Token where
  | word (text : String)
  | literal (text : String)
  | lifetime (text : String)
  | punct (symbol : String)
  | opening (d : Delimiter)
  | closing (d : Delimiter)
  deriving DecidableEq, Repr

/-- What the characters read so far are the beginning of. -/
inductive Mode where
  /-- Between two tokens. -/
  | blank
  | word (cs : List Char)
  /-- A number. `plain` says that it has digits only, `sign` that a sign may follow its `e`. -/
  | number (cs : List Char) (plain sign : Bool)
  /-- A number and a dot, which may turn out not to belong to it. -/
  | numberDot (cs : List Char)
  | punct (cs : List Char)
  /-- A single quote, which begins a character or a lifetime. -/
  | quote (before : List Char)
  | quoted (before : List Char) (c : Char)
  | lifetime (cs : List Char)
  /-- A character that is written as an escape sequence. -/
  | escape (cs : List Char) (escaped : Bool)
  | string (cs : List Char) (escaped : Bool)
  /-- The hashes in front of a raw string or of a raw name. -/
  | hashes (cs : List Char) (count : Nat)
  /-- A raw string; `closed` counts the hashes behind a quote that may end it. -/
  | raw (cs : List Char) (count : Nat) (closed : Option Nat)
  | lineComment
  | blockComment (depth : Nat) (last : Char)
  | failed
  deriving DecidableEq, Repr

/-- The symbols of more than one character, with the symbols that they begin with. -/
def symbols : List (List Char) := [
  "==", "!=", "<=", ">=", "&&", "||", "<<", ">>", "..", "...", "..=", "::", "->", "=>",
  "+=", "-=", "*=", "/=", "%=", "&=", "|=", "^=", "<<=", ">>="].map String.toList

def startsName (c : Char) : Bool :=
  c.isAlpha || c == '_' || (decide (128 ≤ c.toNat) && !Text.isBlank c)

def continuesName (c : Char) : Bool := startsName c || c.isDigit

def delimiter? (c : Char) : Option Token :=
  match c with
  | '(' => some (.opening .paren)
  | ')' => some (.closing .paren)
  | '[' => some (.opening .bracket)
  | ']' => some (.closing .bracket)
  | '\x7b' => some (.opening .brace)
  | '\x7d' => some (.closing .brace)
  | _ => none

/-- The first character of a token. -/
def start (c : Char) : Mode × List Token :=
  match delimiter? c with
  | some token => (.blank, [token])
  | none =>
    if Text.isBlank c then (.blank, [])
    else if c = '"' then (.string [c] false, [])
    else if c = '\'' then (.quote [], [])
    else if startsName c then (.word [c], [])
    else if c.isDigit then (.number [c] true false, [])
    else (.punct [c], [])

/-- The character as part of the token that was begun, with the tokens that are complete by it. -/
def extend : Mode → Char → Option (Mode × List Token)
  | .blank, _ => none
  | .word cs, c =>
    if continuesName c then some (.word (cs ++ [c]), [])
    else if c = '"' && [['b'], ['c']].contains cs then some (.string (cs ++ [c]) false, [])
    else if c = '"' && [['r'], ['b', 'r'], ['c', 'r']].contains cs then
      some (.raw (cs ++ [c]) 0 none, [])
    else if c = '#' && [['r'], ['b', 'r'], ['c', 'r']].contains cs then
      some (.hashes (cs ++ [c]) 1, [])
    else if c = '\'' && cs = ['b'] then some (.quote cs, [])
    else none
  | .number cs plain sign, c =>
    if continuesName c then
      -- Digits may be followed by an exponent; an `e` behind other letters is part of a suffix.
      let exponent := (c = 'e' || c = 'E') && cs.all fun d => d.isDigit || d = '_' || d = '.'
      some (.number (cs ++ [c]) (plain && (c.isDigit || c = '_')) exponent, [])
    else if c = '.' && plain then some (.numberDot cs, [])
    else if sign && (c = '+' || c = '-') then some (.number (cs ++ [c]) false false, [])
    else none
  | .numberDot cs, c =>
    if c.isDigit then some (.number (cs ++ ['.', c]) false false, [])
    else if c = '.' then some (.punct ['.', '.'], [.literal (String.ofList cs)])
    else if startsName c then some (.word [c], [.literal (String.ofList cs), .punct "."])
    else none
  | .punct cs, c =>
    if symbols.contains (cs ++ [c]) then some (.punct (cs ++ [c]), [])
    else if cs = ['/'] && c = '/' then some (.lineComment, [])
    else if cs = ['/'] && c = '*' then some (.blockComment 1 ' ', [])
    else none
  | .quote before, c =>
    if c = '\\' then some (.escape (before ++ ['\'', c]) true, [])
    else if c = '\'' then none
    else some (.quoted before c, [])
  | .quoted before d, c =>
    if c = '\'' then some (.blank, [.literal (String.ofList (before ++ ['\'', d, c]))])
    else if startsName d && continuesName c then some (.lifetime [d, c], [])
    else none
  | .lifetime cs, c => if continuesName c then some (.lifetime (cs ++ [c]), []) else none
  | .escape cs escaped, c =>
    if escaped then some (.escape (cs ++ [c]) false, [])
    else if c = '\'' then some (.blank, [.literal (String.ofList (cs ++ [c]))])
    else some (.escape (cs ++ [c]) (c = '\\'), [])
  | .string cs escaped, c =>
    if escaped then some (.string (cs ++ [c]) false, [])
    else if c = '"' then some (.blank, [.literal (String.ofList (cs ++ [c]))])
    else some (.string (cs ++ [c]) (c = '\\'), [])
  | .hashes cs count, c =>
    if c = '#' then some (.hashes (cs ++ [c]) (count + 1), [])
    else if c = '"' then some (.raw (cs ++ [c]) count none, [])
    else if startsName c && cs = ['r', '#'] then some (.word (cs ++ [c]), [])
    else none
  | .raw cs count closed, c =>
    let closed' := if c = '"' then some 0 else if c = '#' then closed.map (· + 1) else none
    if closed' = some count then some (.blank, [.literal (String.ofList (cs ++ [c]))])
    else some (.raw (cs ++ [c]) count closed', [])
  | .lineComment, c => some (if c = '\n' then .blank else .lineComment, [])
  | .blockComment depth last, c =>
    if last = '*' && c = '/' then
      some (if depth = 1 then .blank else .blockComment (depth - 1) ' ', [])
    else if last = '/' && c = '*' then some (.blockComment (depth + 1) ' ', [])
    else some (.blockComment depth c, [])
  | .failed, _ => some (.failed, [])

/-- The tokens that are complete when the token that was begun ends here. -/
def finish : Mode → Option (List Token)
  | .blank => some []
  | .word cs => some [.word (String.ofList cs)]
  | .number cs _ _ => some [.literal (String.ofList cs)]
  | .numberDot cs => some [.literal (String.ofList (cs ++ ['.']))]
  | .punct cs => some [.punct (String.ofList cs)]
  | .quoted [] c => if startsName c then some [.lifetime (String.ofList [c])] else none
  | .lifetime cs => some [.lifetime (String.ofList cs)]
  | _ => none

/-- One more character. -/
def step (m : Mode) (c : Char) : Mode × List Token :=
  match extend m c with
  | some next => next
  | none =>
    match finish m with
    | some tokens => ((start c).1, tokens ++ (start c).2)
    | none => (.failed, [])

/-- The characters in order, with the tokens that are complete by the last of them. -/
def scan (m : Mode) : List Char → Mode × List Token
  | [] => (m, [])
  | c :: cs => ((scan (step m c).1 cs).1, (step m c).2 ++ (scan (step m c).1 cs).2)

/-- The tokens of the characters. -/
def lexChars (cs : List Char) : Option (List Token) :=
  (finish (scan .blank cs).1).map ((scan .blank cs).2 ++ ·)

/-- The tokens of a text, if it does not break off inside of one. -/
def lex (text : String) : Option (List Token) := lexChars text.toList

/-- The token of a binary operator. -/
def operatorToken (symbol : String) : Token :=
  if symbol = "as" then .word symbol else .punct symbol

/-! A blank or a closing parenthesis is part of no token that a text can end with. -/

theorem scan_append (m : Mode) (cs ds : List Char) :
    scan m (cs ++ ds) =
      ((scan (scan m cs).1 ds).1, (scan m cs).2 ++ (scan (scan m cs).1 ds).2) := by
  induction cs generalizing m with
  | nil => simp [scan]
  | cons c cs ih => simp [scan, ih]

/-- No token goes on with the character. -/
structure Separates (c : Char) : Prop where
  noName : continuesName c = false
  noStart : startsName c = false
  noMark : c ∉ ['"', '#', '\'', '.', '+', '-', '/', '*']
  noSymbol : ∀ s ∈ symbols, s.getLast? ≠ some c

/-- A blank is below or above all signs, digits and letters of ASCII. -/
theorem toNat_of_isBlank (c : Char) (blank : Text.isBlank c = true) :
    c.toNat ≤ 32 ∨ 133 ≤ c.toNat := by
  simp only [Text.isBlank, Bool.or_eq_true, Bool.and_eq_true, decide_eq_true_eq,
    beq_iff_eq] at blank
  omega

theorem continuesName_of_isBlank (c : Char) (blank : Text.isBlank c = true) :
    continuesName c = false := by
  have range := toNat_of_isBlank c blank
  have underscore : c = '_' ↔ c.toNat = 95 := Char.toNat_inj.symm
  have letter : c.isAlpha = (c.isUpper || c.isLower) := rfl
  have upper : c.isUpper = decide (65 ≤ c.toNat ∧ c.toNat ≤ 90) := rfl
  have lower : c.isLower = (decide (97 ≤ c.toNat) && decide (c.toNat ≤ 122)) := rfl
  have digit : c.isDigit = (decide (48 ≤ c.toNat) && decide (c.toNat ≤ 57)) := rfl
  simp only [continuesName, startsName, letter, upper, lower, digit, blank, underscore,
    Bool.or_eq_false_iff, Bool.and_eq_false_iff, decide_eq_false_iff_not, beq_eq_false_iff_ne,
    ne_eq, Bool.not_true, or_true, and_true]
  omega

theorem separates_of_isBlank (c : Char) (blank : Text.isBlank c = true) : Separates c where
  noName := continuesName_of_isBlank c blank
  noStart := (Bool.or_eq_false_iff.mp (continuesName_of_isBlank c blank)).1
  noMark := by
    intro listed
    -- Not as a statement about every character of the list: it would be decided by going through
    -- all characters there are.
    have visible : ['"', '#', '\'', '.', '+', '-', '/', '*'].all (!Text.isBlank ·) = true := by
      decide
    have here := List.all_eq_true.mp visible c listed
    rw [blank] at here
    cases here
  noSymbol := by
    intro s listed ends
    have visible : ∀ s ∈ symbols, s.getLast?.any Text.isBlank = false := by decide
    have contrary := visible s listed
    rw [ends, Option.any_some, blank] at contrary
    cases contrary

theorem separates_closing : Separates ')' := ⟨by decide, by decide, by decide, by decide⟩

theorem extend_separator (m : Mode) (tokens : List Token) (ends : finish m = some tokens) (c : Char)
    (separates : Separates c) : extend m c = none := by
  obtain ⟨noName, noStart, noMark, noSymbol⟩ := separates
  simp only [List.mem_cons, List.not_mem_nil, or_false, not_or] at noMark
  have notListed (cs : List Char) : cs ++ [c] ∉ symbols := fun listed =>
    noSymbol _ listed List.getLast?_concat
  cases m with
  | blank => rfl
  | word cs => simp [extend, noName, noMark]
  | number cs plain sign => simp [extend, noName, noMark]
  | numberDot cs =>
    have noDigit : c.isDigit = false := (Bool.or_eq_false_iff.mp noName).2
    simp [extend, noDigit, noStart, noMark]
  | punct cs => simp [extend, notListed, noMark]
  | quoted before d => simp [extend, noName, noMark]
  | lifetime cs => simp [extend, noName]
  | quote _ | escape _ _ | string _ _ | hashes _ _ | raw _ _ _ | lineComment | blockComment _ _
  | failed => cases ends

theorem start_of_isBlank (c : Char) (blank : Text.isBlank c = true) : start c = (.blank, []) := by
  have noDelimiter : delimiter? c = none := by
    unfold delimiter?
    split <;> first | rfl | cases blank
  rw [start, noDelimiter]
  exact if_pos blank

theorem step_blank (m : Mode) (tokens : List Token) (ends : finish m = some tokens) (c : Char)
    (blank : Text.isBlank c = true) : step m c = (.blank, tokens) := by
  rw [step, extend_separator m tokens ends c (separates_of_isBlank c blank), ends]
  simp only [start_of_isBlank c blank, List.append_nil]

theorem step_closing (m : Mode) (tokens : List Token) (ends : finish m = some tokens) :
    step m ')' = (.blank, tokens ++ [.closing .paren]) := by
  rw [step, extend_separator m tokens ends ')' separates_closing, ends]
  rfl

/-! The tokens of texts that are put together. -/

theorem lexChars_eq_some (cs : List Char) (tokens : List Token) :
    lexChars cs = some tokens ↔
      ∃ last, finish (scan .blank cs).1 = some last ∧ (scan .blank cs).2 ++ last = tokens := by
  rw [lexChars, Option.map_eq_some_iff]

/-- Behind a blank the tokens of the rest begin. -/
theorem lexChars_append_blank (cs ds : List Char) (tokens : List Token)
    (complete : lexChars cs = some tokens) (c : Char) (blank : Text.isBlank c = true) :
    lexChars (cs ++ c :: ds) = (lexChars ds).map (tokens ++ ·) := by
  obtain ⟨last, ends, rfl⟩ := (lexChars_eq_some cs tokens).mp complete
  have atBlank := step_blank _ last ends c blank
  simp only [lexChars, scan_append, scan, atBlank, Option.map_map, Function.comp_def,
    List.append_assoc]

/-- Blanks in front of a text are passed over. -/
theorem lexChars_blanks_append (gap ds : List Char) (blank : ∀ c ∈ gap, Text.isBlank c = true) :
    lexChars (gap ++ ds) = lexChars ds := by
  induction gap with
  | nil => rfl
  | cons c gap ih =>
    have skipped := lexChars_append_blank [] (gap ++ ds) [] rfl c (blank c List.mem_cons_self)
    rw [List.nil_append] at skipped
    rw [List.cons_append, skipped, ih fun d listed => blank d (List.mem_cons_of_mem c listed)]
    exact Option.map_id_apply

theorem lexChars_operator (symbol : String) (ds : List Char)
    (known : scan .blank (symbol.toList ++ [' ']) = (.blank, [operatorToken symbol])) :
    lexChars (symbol.toList ++ ' ' :: ds) = (lexChars ds).map (operatorToken symbol :: ·) := by
  have split : symbol.toList ++ ' ' :: ds = (symbol.toList ++ [' ']) ++ ds := by simp
  rw [split, lexChars, lexChars, scan_append, known, Option.map_map]
  rfl

/-- Two texts around an operator. -/
theorem lex_around (symbol lhs rhs : String) (left right : List Token)
    (known : scan .blank (symbol.toList ++ [' ']) = (.blank, [operatorToken symbol]))
    (leftOk : lex lhs = some left) (rightOk : lex rhs = some right) :
    lex (lhs ++ " " ++ symbol ++ " " ++ rhs) = some (left ++ operatorToken symbol :: right) := by
  have chars : (lhs ++ " " ++ symbol ++ " " ++ rhs).toList =
      lhs.toList ++ ' ' :: (symbol.toList ++ ' ' :: rhs.toList) := by simp
  rw [lex, chars, lexChars_append_blank lhs.toList _ left leftOk ' ' rfl,
    lexChars_operator symbol _ known, show lexChars rhs.toList = some right from rightOk]
  rfl

/-- A text in parentheses. -/
theorem lex_parens (text : String) (tokens : List Token) (complete : lex text = some tokens) :
    lex ("(" ++ text ++ ")") = some (.opening .paren :: tokens ++ [.closing .paren]) := by
  obtain ⟨last, ends, rfl⟩ := (lexChars_eq_some text.toList tokens).mp complete
  have chars : ("(" ++ text ++ ")").toList = '(' :: (text.toList ++ [')']) := by simp
  have opens : step .blank '(' = (.blank, [.opening .paren]) := rfl
  have closes := step_closing _ last ends
  rw [lex, chars, lexChars]
  simp only [scan, opens, scan_append, closes, finish, Option.map_some, List.append_assoc,
    List.append_nil, List.cons_append, List.nil_append]

end RustLint.Precedence
