import CoverageTracker.Data.Value
set_option autoImplicit false

/-!
# TOML scalars

Numbers, truth values, dates and times, and the four kinds of text.  What is not a text
is a word: runs of characters with blanks between them.  `ofWord` classifies a word by
how it starts, then holds it to the rules of its class alone.

Whole numbers are held up to 128 bits, with or without a sign.  One that is larger, one
whose digits are none of its base, and a decimal number beyond the finite floating-point
values are an `overflow`.
-/

namespace CoverageTracker.Toml

open CoverageTracker.Data

/-! ## Digits -/

/-- Whether a character is a digit of a base up to sixteen. -/
def isDigitOf (base : Nat) (c : Char) : Bool :=
  (Binary64.hexDigit? c).any fun d => decide (d < base)

/-- The value of hexadecimal, decimal, octal or binary digits. -/
def natOf (base : Nat) (ds : List Char) : Nat :=
  ds.foldl (fun n c => base * n + (Binary64.hexDigit? c).getD 0) 0

/-- Takes the underscores out of a number.  Each stands between two digits; `before` says
whether a digit stands before the text. -/
def ungroup (isDigit : Char → Bool) (before : Bool) : List Char → Option (List Char)
  | [] => some []
  | ['_'] => none
  | '_' :: c :: rest =>
    if before && isDigit c then (ungroup isDigit true rest).map (c :: ·) else none
  | c :: rest => (ungroup isDigit (isDigit c) rest).map (c :: ·)

/-- Splits a sign off; true for a minus. -/
def signOf : List Char → Bool × List Char
  | '-' :: cs => (true, cs)
  | '+' :: cs => (false, cs)
  | cs => (false, cs)

/-! ## Numbers -/

/-- A whole number as a value. -/
def ofInt (n : Int) : Value := if fitsWide n then .integer n else .overflow .integer

/-- The whole number that a text without underscores stands for. -/
def integerOf (base : Nat) (cs : List Char) : Value :=
  let (negative, ds) := signOf cs
  if ds.isEmpty || !ds.all (isDigitOf base) then .overflow .integer
  else ofInt (if negative then -(natOf base ds : Int) else natOf base ds)

/-- A whole number in a base that its first two characters named; the rest may be empty. -/
def basedOf (base : Nat) (cs : List Char) : Option Value :=
  if cs.all fun c => isDigitOf base c || c == '_' then
    (ungroup (isDigitOf 16) false cs).map (integerOf base)
  else none

/-- Splits off decimal digits and underscores; a digit must be among them. -/
def digitRun (cs : List Char) : Option (List Char × List Char) :=
  let inRun := fun c : Char => c.isDigit || c == '_'
  let ds := (cs.takeWhile inRun).filter Char.isDigit
  if ds.isEmpty then none else some (ds, cs.dropWhile inRun)

/-- A decimal number by its parts. -/
def floatFrom (negative : Bool) (whole frac : List Char) (exp : Int) : Value :=
  let x := Binary64.ofDecimal (natOf 10 (whole ++ frac)) (exp - frac.length)
  if x.isInfinite then .overflow .float else .float (if negative then x.negate else x)

/-- Splits off a fraction, if there is one. -/
def fractionOf : List Char → Option (List Char × List Char)
  | '.' :: rest => digitRun rest
  | rest => some ([], rest)

/-- Splits off an exponent, if there is one. -/
def exponentOf : List Char → Option (Int × List Char)
  | c :: rest =>
    if c == 'e' || c == 'E' then
      let (below, rest) := signOf rest
      (digitRun rest).map fun p => (if below then -(natOf 10 p.1 : Int) else natOf 10 p.1, p.2)
    else some (0, c :: rest)
  | [] => some (0, [])

/-- A decimal number with a fraction, an exponent or both.  A number of more than one digit
before the point does not start with a zero. -/
def floatOf (cs : List Char) : Option Value := do
  let (negative, body) := signOf cs
  let (whole, rest) ← digitRun body
  if body.head? = some '0' ∧ 1 < whole.length then none
  let (frac, rest) ← fractionOf rest
  let (exp, rest) ← exponentOf rest
  let _ ← ungroup Char.isDigit false cs
  if rest.isEmpty then some (floatFrom negative whole frac exp) else none

/-- Infinity and NaN, with or without a sign. -/
def specialOf (cs : List Char) : Option Value :=
  let (negative, cs) := signOf cs
  let sign := fun x : Binary64 => if negative then x.negate else x
  if cs = ['i', 'n', 'f'] then some (.float (sign Binary64.infinity))
  else if cs = ['n', 'a', 'n'] then some (.float (sign ⟨0x7FF8000000000000⟩))
  else none

/-! ## Dates and times -/

/-- A number of exactly `n` decimal digits at the start of a text. -/
def fixed (n : Nat) (cs : List Char) : Option (Nat × List Char) :=
  let ds := cs.take n
  if ds.length = n ∧ ds.all Char.isDigit = true then some (natOf 10 ds, cs.drop n) else none

/-- The days of a month. -/
def daysIn (year month : Nat) : Nat :=
  if month = 2 then
    if year % 4 = 0 ∧ (year % 100 ≠ 0 ∨ year % 400 = 0) then 29 else 28
  else if month = 4 ∨ month = 6 ∨ month = 9 ∨ month = 11 then 30
  else 31

/-- Skips a date. -/
def skipDate (cs : List Char) : Option (List Char) := do
  let (year, cs) ← fixed 4 cs
  let '-' :: cs := cs | none
  let (month, cs) ← fixed 2 cs
  let '-' :: cs := cs | none
  let (day, cs) ← fixed 2 cs
  if 1 ≤ month ∧ month ≤ 12 ∧ 1 ≤ day ∧ day ≤ daysIn year month then some cs else none

/-- Skips the seconds of a time, if it has any, and their fraction; a leap second may be
counted as 60. -/
def skipSeconds : List Char → Option (List Char)
  | ':' :: cs => do
    let (second, cs) ← fixed 2 cs
    if 60 < second then none
    match cs with
    | '.' :: frac =>
      if (frac.takeWhile Char.isDigit).isEmpty then none
      else some (frac.dropWhile Char.isDigit)
    | cs => some cs
  | cs => some cs

/-- Skips an hour and a minute. -/
def skipClock (cs : List Char) : Option (List Char) := do
  let (hour, cs) ← fixed 2 cs
  let ':' :: cs := cs | none
  let (minute, cs) ← fixed 2 cs
  if hour ≤ 23 ∧ minute ≤ 59 then some cs else none

/-- Skips a time of day. -/
def skipTime (cs : List Char) : Option (List Char) := do skipSeconds (← skipClock cs)

/-- Whether a text is an offset from universal time, or nothing. -/
def isOffset : List Char → Bool
  | [] => true
  | [c] => c == 'Z' || c == 'z'
  | c :: cs => (c == '+' || c == '-') && skipClock cs == some []

/-- A date, a time of day, or a date with a time of day and perhaps an offset. -/
def momentOf (cs : List Char) : Option Value :=
  let valid :=
    match skipDate cs with
    | some [] => true
    | some (c :: time) =>
      (c == 'T' || c == 't' || c == ' ') && ((skipTime time).map isOffset).getD false
    | none => skipTime cs == some []
  if valid then some (.moment (String.ofList cs)) else none

/-! ## Words -/

/-- Blanks within a line. -/
def isBlank (c : Char) : Bool := c == ' ' || c == '\t'

/-- Characters of a word: all that have no meaning of their own outside of texts. -/
def isWordChar (c : Char) : Bool :=
  !(isBlank c || c == '\n' || c == '\r' || c == '#' || c == '=' || c == ',' || c == '[' || c == ']'
    || c == '\x7b' || c == '\x7d')

/-- Characters with which a word goes on after blanks. -/
def resumesWord (c : Char) : Bool := isWordChar c && c != '.' && c != '"' && c != '\''

/-- Splits off a word.  Blanks belong to it if it goes on after them, as between a date and
its time. -/
def splitWord : List Char → List Char × List Char
  | [] => ([], [])
  | c :: cs =>
    if isWordChar c || (isBlank c && (cs.dropWhile isBlank).head?.any resumesWord) then
      let (w, rest) := splitWord cs
      (c :: w, rest)
    else ([], c :: cs)

/-- The value of a word whose body, what follows its sign, starts with a digit.  The first
character that is no digit tells a date or a time; a point or an exponent anywhere tells a
decimal number; an underscore tells a whole number. -/
def ofNumber (word body : List Char) : Option Value :=
  let rest := body.dropWhile Char.isDigit
  if rest.head? = some '-' ∨ rest.head? = some ':' then momentOf word
  else if rest.contains ' ' then none
  else if rest.any fun c => c == '.' || c == 'e' || c == 'E' then floatOf word
  else if body.head? = some '0' ∧ 1 < body.length then none
  else if rest.isEmpty ∨ rest.head? = some '_' then
    (ungroup (isDigitOf 16) false word).map (integerOf 10)
  else none

/-- The value of a word. -/
def ofWord (cs : List Char) : Option Value :=
  match cs with
  | '0' :: 'x' :: ds => basedOf 16 ds
  | '0' :: 'o' :: ds => basedOf 8 ds
  | '0' :: 'b' :: ds => basedOf 2 ds
  | cs =>
    let body := (signOf cs).2
    if body.head?.any Char.isDigit then ofNumber cs body
    else if cs = ['t', 'r', 'u', 'e'] then some (.boolean true)
    else if cs = ['f', 'a', 'l', 's', 'e'] then some (.boolean false)
    else specialOf cs

/-- Reads a word. -/
def word (cs : List Char) : Option (Value × List Char) :=
  let (w, rest) := splitWord cs
  (ofWord w).map fun v => (v, rest)

/-! ## Texts -/

/-- Characters that may stand in texts and comments: all but controls other than tab. -/
def isPlain (c : Char) : Bool :=
  c == '\t' || (decide (0x20 ≤ c.toNat) && c.toNat != 0x7F)

/-- Splits off a line break, if the text starts with one. -/
def lineBreak : List Char → Option (List Char × List Char)
  | '\n' :: rest => some (['\n'], rest)
  | '\r' :: '\n' :: rest => some (['\r', '\n'], rest)
  | _ => none

/-- The character that `n` hexadecimal digits stand for. -/
def codePoint (n : Nat) (cs : List Char) : Option (Char × List Char) := do
  let ds := cs.take n
  if ds.length ≠ n then none
  let values ← ds.mapM Binary64.hexDigit?
  let code := values.foldl (fun m d => 16 * m + d) 0
  if code.isValidChar then some (Char.ofNat code, cs.drop n) else none

/-- Reads what follows a backslash. -/
def escape : List Char → Option (Char × List Char)
  | 'b' :: rest => some ('\x08', rest)
  | 't' :: rest => some ('\t', rest)
  | 'n' :: rest => some ('\n', rest)
  | 'f' :: rest => some ('\x0c', rest)
  | 'r' :: rest => some ('\r', rest)
  | 'e' :: rest => some ('\x1b', rest)
  | '"' :: rest => some ('"', rest)
  | '\\' :: rest => some ('\\', rest)
  | 'x' :: rest => codePoint 2 rest
  | 'u' :: rest => codePoint 4 rest
  | 'U' :: rest => codePoint 8 rest
  | _ => none

/-- Reads the rest of a one-line text in single quotes. -/
def literalRest : List Char → Option (List Char × List Char)
  | [] => none
  | c :: rest =>
    if c = '\'' then some ([], rest)
    else if isPlain c then (literalRest rest).map fun p => (c :: p.1, p.2)
    else none

/-- Reads the rest of a one-line text in double quotes. -/
def basicRest : Nat → List Char → Option (List Char × List Char)
  | 0, _ => none
  | fuel + 1, cs =>
    match cs with
    | [] => none
    | '"' :: rest => some ([], rest)
    | '\\' :: rest => do
      let (c, rest) ← escape rest
      (basicRest fuel rest).map fun p => (c :: p.1, p.2)
    | c :: rest =>
      if isPlain c then (basicRest fuel rest).map fun p => (c :: p.1, p.2) else none

/-- The end of a text of several lines: three quotes, before which one or two more belong to
the text. -/
def closing (quote : Char) (cs : List Char) : Option (List Char × List Char) :=
  let n := (cs.takeWhile (· == quote)).length
  if n < 3 then none
  else if n ≤ 5 then some (List.replicate (n - 3) quote, cs.drop n)
  else some ([quote, quote], cs.drop 5)

/-- What follows a backslash at the end of a line: blanks and line breaks up to the next
text. -/
def skipLineEnd (cs : List Char) : Option (List Char) :=
  (lineBreak (cs.dropWhile isBlank)).bind fun p => skipBreaks p.2.length p.2
where
  skipBreaks : Nat → List Char → Option (List Char)
    | 0, cs => some cs
    | fuel + 1, cs =>
      let cs := cs.dropWhile isBlank
      match lineBreak cs with
      | some (_, rest) => skipBreaks fuel rest
      | none => some cs

/-- Reads the rest of a text of several lines.  Line breaks are kept as they are written;
backslashes count only between double quotes. -/
def linesRest (quote : Char) : Nat → List Char → Option (List Char × List Char)
  | 0, _ => none
  | fuel + 1, cs =>
    match closing quote cs with
    | some p => some p
    | none =>
      match cs with
      | [] => none
      | c :: rest =>
        if c = '\\' ∧ quote = '"' then
          match skipLineEnd rest with
          | some rest => linesRest quote fuel rest
          | none => do
            let (c, rest) ← escape rest
            (linesRest quote fuel rest).map fun p => (c :: p.1, p.2)
        else
          match lineBreak cs with
          | some (br, rest) => (linesRest quote fuel rest).map fun p => (br ++ p.1, p.2)
          | none =>
            if isPlain c then (linesRest quote fuel rest).map fun p => (c :: p.1, p.2) else none

/-- Reads a text of several lines after its three quotes; a line break right after them does
not belong to it. -/
def lines (quote : Char) (cs : List Char) : Option (List Char × List Char) :=
  let body := (lineBreak cs).elim cs Prod.snd
  linesRest quote (body.length + 1) body

/-- Reads a one-line text in either kind of quotes. -/
def quoted : List Char → Option (List Char × List Char)
  | '"' :: rest => basicRest (rest.length + 1) rest
  | '\'' :: rest => literalRest rest
  | _ => none

/-- Reads a text of any of the four kinds. -/
def text : List Char → Option (List Char × List Char)
  | '"' :: '"' :: '"' :: rest => lines '"' rest
  | '\'' :: '\'' :: '\'' :: rest => lines '\'' rest
  | cs => quoted cs

end CoverageTracker.Toml
