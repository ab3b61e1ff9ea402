set_option autoImplicit false

/-!
# Glob patterns

Reads the text of a pattern into tokens.  `?` stands for any byte and `*` for any text;
`**` between slashes stands for any directories; brackets hold a class, braces
alternatives, and a backslash takes the next character as it is.  A class ends at its
first closing bracket that is not its first item; everything in it but `-` is a member.
-/

namespace CoverageTracker.Glob

/-- A piece of a pattern. -/
inductive Token where
  /-- a character as it is -/
  | literal (c : Char)
  /-- any byte -/
  | any
  /-- any text -/
  | star
  /-- any directories before what follows -/
  | leading
  /-- anything below the directory before it -/
  | trailing
  /-- any directories between what stands before and after it -/
  | between
  /-- a character of some ranges, or of none of them -/
  | oneOf (negated : Bool) (ranges : List (Char × Char))
  /-- any of some sequences -/
  | alternates (branches : List (List Token))
  deriving Repr, Inhabited

/-- Why a text is no pattern. -/
inductive PatternFault where
  | unclosedClass
  /-- a range in a class with its upper end below its lower end -/
  | invalidRange (lower upper : Char)
  | unopenedAlternates
  | unclosedAlternates
  | danglingEscape
  deriving DecidableEq, Repr

/-- The text of a fault. -/
def PatternFault.message : PatternFault → String
  | .unclosedClass => "unclosed character class; missing ']'"
  | .invalidRange lower upper =>
    String.ofList ("invalid range; '".toList ++ [lower] ++ "' > '".toList ++ [upper, '\''])
  | .unopenedAlternates =>
    "unopened alternate group; missing '\x7b' (maybe escape '\x7d' with '[\x7d]'?)"
  | .unclosedAlternates =>
    "unclosed alternate group; missing '\x7d' (maybe escape '\x7b' with '[\x7b]'?)"
  | .danglingEscape => "dangling '\\'"

/-- The refusal of a pattern. -/
def PatternFault.report (pattern : String) (fault : PatternFault) : String :=
  "invalid document pattern: error parsing glob '" ++ pattern ++ "': " ++ fault.message

/-! ## Classes -/

/-- Moves the upper end of the latest range. -/
def endRange (upper : Char) : List (Char × Char) → Except PatternFault (List (Char × Char))
  | [] => .ok [(upper, upper)]
  | (lower, _) :: rest =>
    if upper < lower then .error (.invalidRange lower upper) else .ok ((lower, upper) :: rest)

/-- Reads the items of a class and its closing bracket.  `ranges` are the latest first;
`inRange` says that a hyphen after the latest range waits for its upper end.  The
answer is what the class leaves of the text. -/
def classItems : Bool → Bool → List (Char × Char) → List Char →
    Except PatternFault (List (Char × Char) × List Char)
  | _, _, _, [] => .error .unclosedClass
  | first, inRange, ranges, c :: rest =>
    if c = ']' ∧ first = false then
      .ok ((if inRange then ('-', '-') :: ranges else ranges).reverse, rest)
    else if c = '-' ∧ first = false ∧ inRange = false then
      classItems false true ranges rest
    else if inRange then
      match endRange c ranges with
      | .ok ranges => classItems false false ranges rest
      | .error e => .error e
    else classItems false false ((c, c) :: ranges) rest

/-- Reads a class after its opening bracket. -/
def classToken (cs : List Char) : Except PatternFault (Token × List Char) :=
  let (negated, body) := match cs with
    | '!' :: rest => (true, rest)
    | '^' :: rest => (true, rest)
    | cs => (false, cs)
  (classItems true false [] body).map fun p => (.oneOf negated p.1, p.2)

/-! ## Branches -/

/-- An alternation that is not closed yet: the tokens before it, and its finished branches;
both the latest first. -/
structure Frame where
  before : List Token
  branches : List (List Token)
  deriving Repr

/-- What has been read: the tokens of the current branch, the latest first, and the open
alternations around it, the innermost first. -/
structure Partial where
  tokens : List Token
  frames : List Frame
  deriving Repr

/-- Adds a token to the current branch. -/
def Partial.push (p : Partial) (t : Token) : Partial := { p with tokens := t :: p.tokens }

/-- Closes the innermost alternation. -/
def Partial.close (p : Partial) : Except PatternFault Partial :=
  match p.frames with
  | [] => .error .unopenedAlternates
  | f :: frames =>
    let branches := (p.tokens.reverse :: f.branches).reverse
    .ok ⟨.alternates branches :: f.before, frames⟩

/-- Puts a recursive token in the place of the slash before it; after a leading or a trailing
one it adds nothing. -/
def Partial.replaceLast (p : Partial) (t : Token) : Partial :=
  match p.tokens with
  | .leading :: _ => p
  | .trailing :: _ => p
  | _ :: rest => { p with tokens := t :: rest }
  | [] => p

/-- Reads two stars that follow the character `prev`; `cs` follows them.  They are recursive
when they make up a whole path component, and two plain stars otherwise. -/
def twoStars (p : Partial) (prev : Option Char) (cs : List Char) : Partial × List Char :=
  let plain := (p.push .star).push .star
  let inside := !p.frames.isEmpty
  if p.tokens.isEmpty then
    match cs with
    | [] => (p.push .leading, [])
    | '/' :: rest => (p.push .leading, rest)
    | _ => (plain, cs)
  else if prev = some '/' ∨ (inside = true ∧ (prev = some ',' ∨ prev = some '\x7b')) then
    match cs with
    | [] => (p.replaceLast .trailing, [])
    | '/' :: rest => (p.replaceLast .between, rest)
    | c :: _ =>
      if inside ∧ (c = ',' ∨ c = '\x7d') then (p.replaceLast .trailing, cs) else (plain, cs)
  else (plain, cs)

/-! ## Patterns -/

/-- The last of the characters that a reader took: `before` is the text it started from and
`after` what it left. -/
def lastTaken (before after : List Char) : Option Char :=
  (before.take (before.length - after.length)).getLast?

/-- Reads a pattern to its end; `prev` is the character before `cs`. -/
def readTokens : Nat → Option Char → Partial → List Char → Except PatternFault (List Token)
  | _, _, p, [] => if p.frames.isEmpty then .ok p.tokens.reverse else .error .unclosedAlternates
  | 0, _, _, _ :: _ => .error .unclosedAlternates
  | fuel + 1, prev, p, c :: rest =>
    match c with
    | '?' => readTokens fuel (some c) (p.push .any) rest
    | '\\' =>
      match rest with
      | [] => .error .danglingEscape
      | e :: rest => readTokens fuel (some e) (p.push (.literal e)) rest
    | '\x7b' => readTokens fuel (some c) ⟨[], ⟨p.tokens, []⟩ :: p.frames⟩ rest
    | '\x7d' => do readTokens fuel (some c) (← p.close) rest
    | ',' =>
      match p.frames with
      | [] => readTokens fuel (some c) (p.push (.literal c)) rest
      | f :: frames =>
        readTokens fuel (some c) ⟨[], ⟨f.before, p.tokens.reverse :: f.branches⟩ :: frames⟩ rest
    | '*' =>
      match rest with
      | '*' :: rest =>
        let (p, left) := twoStars p prev rest
        readTokens fuel (lastTaken ('*' :: rest) left) p left
      | _ => readTokens fuel (some c) (p.push .star) rest
    | '[' => do
      let (t, left) ← classToken rest
      readTokens fuel (some ']') (p.push t) left
    | c => readTokens fuel (some c) (p.push (.literal c)) rest

/-- Reads the text of a pattern. -/
def tokensOf (pattern : String) : Except PatternFault (List Token) :=
  readTokens pattern.toList.length none ⟨[], []⟩ pattern.toList

end CoverageTracker.Glob
