import CoverageTracker.Toml.Scalar
import CoverageTracker.Toml.Table
set_option autoImplicit false

/-!
# TOML documents

Reads a document of TOML 1.1 as a data value.  In inline tables, line breaks and comments
are allowed around keys and values, and a comma at the end; seconds may be left out of a
time, and a byte order mark at the start is skipped.  Arrays and inline tables nest at most
`maxDepth` deep, and a key has at most so many parts.

Every reader returns what it leaves of the text.
-/

namespace CoverageTracker.Toml

open CoverageTracker.Data

/-- How deep arrays and inline tables may nest, and how many parts a key may have. -/
def maxDepth : Nat := 80

/-! ## Blanks, comments and line ends -/

/-- Skips blanks. -/
def skipBlank (cs : List Char) : List Char := cs.dropWhile isBlank

/-- Skips a comment, if there is one, up to the end of its line. -/
def skipComment : List Char → List Char
  | '#' :: rest => rest.dropWhile isPlain
  | cs => cs

/-- Skips blanks, a comment and a line break; the text may end instead. -/
def endLine (cs : List Char) : Option (List Char) :=
  match skipComment (skipBlank cs) with
  | [] => some []
  | cs => (lineBreak cs).map Prod.snd

/-- Skips blanks, comments and line breaks. -/
def skipFiller : Nat → List Char → List Char
  | 0, cs => cs
  | fuel + 1, cs =>
    match lineBreak (skipComment (skipBlank cs)) with
    | some (_, rest) => skipFiller fuel rest
    | none => skipComment (skipBlank cs)

/-- What may stand between the parts of an assignment: blanks, and in an inline table also
comments and line breaks. -/
def skipGap (inline : Bool) (cs : List Char) : List Char :=
  if inline then skipFiller cs.length cs else skipBlank cs

/-! ## Keys -/

/-- Characters of a key without quotes. -/
def isBareChar (c : Char) : Bool := c.isAlphanum || c == '_' || c == '-'

/-- Reads one part of a key. -/
def keyPart (cs : List Char) : Option (String × List Char) :=
  match quoted cs with
  | some (key, rest) => some (String.ofList key, rest)
  | none =>
    let key := cs.takeWhile isBareChar
    if key.isEmpty then none else some (String.ofList key, cs.dropWhile isBareChar)

/-- Reads the parts of a key, with points between them and blanks allowed around each. -/
def keyParts : Nat → List Char → Option (List String × List Char)
  | 0, _ => none
  | fuel + 1, cs => do
    let (part, rest) ← keyPart (skipBlank cs)
    match skipBlank rest with
    | '.' :: rest =>
      let (parts, rest) ← keyParts fuel rest
      return (part :: parts, rest)
    | rest => return ([part], rest)

/-- Reads a key. -/
def key (cs : List Char) : Option (List String × List Char) := keyParts maxDepth cs

/-- The parts of a key before its last one, and the last one. -/
def splitLast : List String → Option (List String × String)
  | [] => none
  | [k] => some ([], k)
  | k :: ks => (splitLast ks).map fun p => (k :: p.1, p.2)

/-! ## Values -/

mutual

/-- Reads a value that starts right here; `depth` more levels of nesting are allowed. -/
def value : Nat → Nat → List Char → Option (Value × List Char)
  | 0, _, _ => none
  | fuel + 1, depth, cs =>
    match cs with
    | '"' :: _ => (text cs).map fun p => (.string (String.ofList p.1), p.2)
    | '\'' :: _ => (text cs).map fun p => (.string (String.ofList p.1), p.2)
    | '[' :: rest =>
      match depth with
      | 0 => none
      | depth + 1 => (items fuel depth rest).map fun p => (.array p.1, p.2)
    | '\x7b' :: rest =>
      match depth with
      | 0 => none
      | depth + 1 => (members fuel depth [] rest).map fun p => (.table (Node.values p.1), p.2)
    | cs => word cs
termination_by structural x => x

/-- Reads the items of an array and its closing bracket. -/
def items : Nat → Nat → List Char → Option (List Value × List Char)
  | 0, _, _ => none
  | fuel + 1, depth, cs =>
    match skipFiller cs.length cs with
    | ']' :: rest => some ([], rest)
    | cs => do
      let (v, rest) ← value fuel depth cs
      match skipFiller rest.length rest with
      | ',' :: rest =>
        let (vs, rest) ← items fuel depth rest
        return (v :: vs, rest)
      | ']' :: rest => return ([v], rest)
      | _ => none
termination_by structural x => x

/-- Reads the members of an inline table and its closing brace. -/
def members : Nat → Nat → Entries → List Char → Option (Entries × List Char)
  | 0, _, _, _ => none
  | fuel + 1, depth, entries, cs =>
    match skipFiller cs.length cs with
    | '\x7d' :: rest => some (entries, rest)
    | cs => do
      let (entries, rest) ← assignment true fuel depth [] entries cs
      match skipFiller rest.length rest with
      | ',' :: rest => members fuel depth entries rest
      | '\x7d' :: rest => return (entries, rest)
      | _ => none
termination_by structural x => x

/-- Reads a key with its value and assigns it in the table of a section. -/
def assignment (inline : Bool) :
    Nat → Nat → List String → Entries → List Char → Option (Entries × List Char)
  | 0, _, _, _, _ => none
  | fuel + 1, depth, place, entries, cs => do
    let (parts, rest) ← key cs
    let (path, last) ← splitLast parts
    match skipGap inline rest with
    | '=' :: rest =>
      let (v, rest) ← value fuel depth (skipGap inline rest)
      let entries ← Entries.inSection place (Entries.assign path last v) entries
      return (entries, rest)
    | _ => none
termination_by structural x => x

end

/-! ## Documents -/

/-- Reads a header up to its closing brackets: the path of its table, and whether the header
is one that repeats. -/
def header : List Char → Option (Bool × List String × List Char)
  | '[' :: '[' :: rest => do
    let (parts, rest) ← key rest
    match rest with
    | ']' :: ']' :: rest => return (true, parts, rest)
    | _ => none
  | '[' :: rest => do
    let (parts, rest) ← key rest
    match rest with
    | ']' :: rest => return (false, parts, rest)
    | _ => none
  | _ => none

/-- Reads the lines of a document; `place` is the path of the section they stand in. -/
def document : Nat → List String → Entries → List Char → Option Entries
  | 0, _, _, _ => none
  | fuel + 1, place, entries, cs =>
    match skipFiller cs.length cs with
    | [] => some entries
    | '[' :: rest => do
      let (repeated, parts, rest) ← header ('[' :: rest)
      let (path, last) ← splitLast parts
      let entries ←
        if repeated then Entries.openRepeated path last entries
        else Entries.openTable path last entries
      document fuel parts entries (← endLine rest)
    | cs => do
      let (entries, rest) ← assignment false (2 * cs.length + 2) maxDepth place entries cs
      document fuel place entries (← endLine rest)

/-- Reads a whole document. -/
def parse (source : String) : Option Value :=
  let cs := match source.toList with
    | '\ufeff' :: rest => rest
    | cs => cs
  (document (cs.length + 1) [] [] cs).map fun entries => .table (Node.values entries)

end CoverageTracker.Toml
