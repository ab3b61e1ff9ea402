import CoverageTracker.Glob.ByteRegex
import CoverageTracker.Glob.Parser
set_option autoImplicit false

/-!
# Matching paths

A pattern matches a path as a whole, byte by byte of its UTF-8 form.  Frequent shapes of
patterns are matched by comparing texts, `Strategy.of` says which; all others by a regular
expression over bytes.  A comparison may differ from the expression of the same pattern,
so the choice of strategy is part of what a pattern means.
-/

namespace CoverageTracker.Glob

/-- The UTF-8 bytes of some characters. -/
def utf8 (cs : List Char) : List UInt8 := cs.flatMap String.utf8EncodeChar

/-! ## Expressions -/

/-- The bytes of a class.  A range of characters is written as the bytes of its lower end, a
hyphen and the bytes of its upper end, so that the hyphen joins the two bytes next to
it. -/
def rangeBytes (range : Char × Char) : List (UInt8 × UInt8) :=
  let lower := utf8 [range.1]
  let upper := utf8 [range.2]
  let singles := fun bs : List UInt8 => bs.map fun b => (b, b)
  if range.1 = range.2 then singles lower
  else
    match lower.getLast?, upper with
    | some b, c :: rest => singles lower.dropLast ++ (b, c) :: singles rest
    | _, _ => []

namespace ByteRegex

/-- Any text. -/
def anything : ByteRegex := many ByteSet.all

/-- A slash. -/
def slash : ByteRegex := byte (ByteSet.single 0x2F)

end ByteRegex

open ByteRegex in
mutual

/-- The expressions that a token stands for, one after the other; none if it stands for
nothing. -/
def Token.pieces : Token → List ByteRegex
  | .literal c => (utf8 [c]).map fun b => byte (ByteSet.single b)
  | .any => [byte ByteSet.all]
  | .star => [anything]
  | .leading => [alt (alt empty slash) (seq anything slash)]
  | .trailing => [slash, anything]
  | .between => [alt slash (seq slash (seq anything slash))]
  | .oneOf negated ranges => [byte ⟨negated, ranges.flatMap rangeBytes⟩]
  | .alternates branches =>
    match Token.branchPieces branches with
    | [] => []
    | rs => [anyOf rs]

/-- The expressions of several tokens, one after the other. -/
def Token.allPieces : List Token → List ByteRegex
  | [] => []
  | t :: ts => t.pieces ++ Token.allPieces ts

/-- The expressions of those branches that stand for something. -/
def Token.branchPieces : List (List Token) → List ByteRegex
  | [] => []
  | b :: bs =>
    match Token.allPieces b with
    | [] => Token.branchPieces bs
    | rs => ofList rs :: Token.branchPieces bs

end

/-- The expression of a pattern; a single leading token matches everything. -/
def regexOf (ts : List Token) : ByteRegex :=
  match ts with
  | [.leading] => ByteRegex.anything
  | ts => ByteRegex.ofList (Token.allPieces ts)

/-! ## Nesting -/

mutual

/-- How deep the expression of a token nests.  A group is one level, and the choice between
several branches in it another. -/
def Token.depth : Token → Nat
  | .literal _ => 0
  | .any => 0
  | .star => 1
  | .leading => 4
  | .trailing => 1
  | .between => 4
  | .oneOf _ _ => 1
  | .alternates branches =>
    match (Token.branchPieces branches).length with
    | 0 => 0
    | 1 => 1 + Token.branchesDepth branches
    | _ => 2 + Token.branchesDepth branches

/-- How deep the expressions of several tokens nest. -/
def Token.maxDepth : List Token → Nat
  | [] => 0
  | t :: ts => max t.depth (Token.maxDepth ts)

/-- How deep the expressions of branches nest; a sequence of several expressions is one
level. -/
def Token.branchesDepth : List (List Token) → Nat
  | [] => 0
  | b :: bs =>
    max (Token.maxDepth b + if 1 < (Token.allPieces b).length then 1 else 0)
      (Token.branchesDepth bs)

end

/-- How deep an expression may nest. -/
def depthLimit : Nat := 250

/-! ## Strategies -/

/-- How paths are compared with a pattern. -/
inductive Strategy where
  /-- the last component is this text -/
  | nameIs (text : List UInt8)
  /-- the path is this text -/
  | pathIs (text : List UInt8)
  /-- the extension is this text -/
  | extensionIs (text : List UInt8)
  /-- the path starts with this text -/
  | startsWith (text : List UInt8)
  /-- the path ends with this text, or is this text without its first byte -/
  | endsWith (text : List UInt8) (orIs : Bool)
  /-- the extension is this text and the expression matches the path -/
  | extensionAnd (text : List UInt8) (regex : ByteRegex)
  /-- the expression matches the last component -/
  | nameLike (regex : ByteRegex)
  /-- the expression matches the path -/
  | pathLike (regex : ByteRegex)
  deriving DecidableEq, Repr

/-- The characters of tokens that are all literals. -/
def literals? : List Token → Option (List Char)
  | [] => some []
  | .literal c :: ts => (literals? ts).map (c :: ·)
  | _ :: _ => none

/-- The characters of literals at the end of the tokens. -/
def literalTail (ts : List Token) : List Char :=
  (ts.reverse.map fun | .literal c => some c | _ => none).takeWhile Option.isSome
    |>.filterMap id |>.reverse

/-- Tokens without a leading one in front; true if there was one. -/
def dropLeading : List Token → Bool × List Token
  | .leading :: ts => (true, ts)
  | ts => (false, ts)

/-- A leading token, then one or more literals without a slash. -/
def nameLiteral? (ts : List Token) : Option (List Char) :=
  match ts with
  | .leading :: ts =>
    match literals? ts with
    | some cs => if cs.isEmpty || cs.contains '/' then none else some cs
    | none => none
  | _ => none

/-- Literals alone. -/
def pathLiteral? (ts : List Token) : Option (List Char) :=
  match literals? ts with
  | some cs => if cs.isEmpty then none else some cs
  | none => none

/-- A star and an extension with one point and no slash. -/
def extensionLiteral? (ts : List Token) : Option (List Char) :=
  match (dropLeading ts).2 with
  | .star :: ts =>
    match literals? ts with
    | some ('.' :: cs) => if cs.contains '.' || cs.contains '/' then none else some ('.' :: cs)
    | _ => none
  | _ => none

/-- Literals, then at most one star or trailing token. -/
def startLiteral? (ts : List Token) : Option (List Char) :=
  let text := match ts.getLast? with
    | some .star => literals? ts.dropLast
    | some .trailing => (literals? ts.dropLast).map (· ++ ['/'])
    | _ => literals? ts
  match text with
  | some cs => if cs.isEmpty then none else some cs
  | none => none

/-- At most a leading token and a star, then literals.  Literals right after a leading token
are a whole number of components, so a slash is put before them. -/
def endLiteral? (ts : List Token) : Option (List Char × Bool) :=
  let (led, ts) := dropLeading ts
  let whole := match led, ts with
    | true, .literal _ :: _ => true
    | _, _ => false
  let rest := match ts with
    | .star :: ts => ts
    | ts => ts
  if ts.isEmpty then none
  else
    match literals? rest with
    | some cs =>
      let cs := if whole then '/' :: cs else cs
      if cs.isEmpty || cs == ['/'] then none else some (cs, whole)
    | none => none

/-- An extension that every matching path has: literals at the end, from their last point,
with no slash after it. -/
def requiredExtension? (ts : List Token) : Option (List Char) :=
  let back := (literalTail ts).reverse
  let tail := back.takeWhile (· != '.')
  if tail.length = back.length || tail.contains '/' then none
  else some ('.' :: tail.reverse)

/-- Whether a class stands for no slash: its ranges hold one exactly when it is negated. -/
def excludesSlash (negated : Bool) (ranges : List (Char × Char)) : Bool :=
  (ranges.any fun r => decide (r.1 ≤ '/') && decide ('/' ≤ r.2)) == negated

/-- A leading token, then one or more tokens that stand for one character other than a
slash. -/
def nameTokens? (ts : List Token) : Option (List Token) :=
  match ts with
  | .leading :: t :: rest =>
    let inName : Token → Bool := fun
      | .literal c => c != '/'
      | .oneOf negated ranges => excludesSlash negated ranges
      | _ => false
    if (t :: rest).all inName then some (t :: rest) else none
  | _ => none

/-- The strategy of a pattern: the first that applies. -/
def Strategy.of (ts : List Token) : Strategy :=
  match nameLiteral? ts with
  | some cs => .nameIs (utf8 cs)
  | none =>
  match pathLiteral? ts with
  | some cs => .pathIs (utf8 cs)
  | none =>
  match extensionLiteral? ts with
  | some cs => .extensionIs (utf8 cs)
  | none =>
  match startLiteral? ts with
  | some cs => .startsWith (utf8 cs)
  | none =>
  match endLiteral? ts with
  | some (cs, whole) => .endsWith (utf8 cs) whole
  | none =>
  match requiredExtension? ts with
  | some cs => .extensionAnd (utf8 cs) (regexOf ts)
  | none =>
  match nameTokens? ts with
  | some ts => .nameLike (regexOf ts)
  | none => .pathLike (regexOf ts)

/-- Whether the strategy needs an expression. -/
def Strategy.usesRegex : Strategy → Bool
  | .extensionAnd _ _ => true
  | .nameLike _ => true
  | .pathLike _ => true
  | _ => false

/-! ## Paths -/

/-- What follows the last occurrence of a byte; everything if there is none. -/
def afterLast (b : UInt8) (bs : List UInt8) : List UInt8 :=
  (bs.reverse.takeWhile (· != b)).reverse

/-- The last component of a path; the parent directory is no name. -/
def baseName (path : List UInt8) : List UInt8 :=
  let name := afterLast 0x2F path
  if name = [0x2E, 0x2E] then [] else name

/-- The extension of a path: its last component from the last point on; empty if there is
none. -/
def extension (path : List UInt8) : List UInt8 :=
  let name := baseName path
  if name.contains 0x2E then 0x2E :: afterLast 0x2E name else []

/-- Whether a path matches. -/
def Strategy.accepts (path : List UInt8) : Strategy → Bool
  | .nameIs text => !(baseName path).isEmpty && baseName path == text
  | .pathIs text => path == text
  | .extensionIs text => !(extension path).isEmpty && extension path == text
  | .startsWith text => text.isPrefixOf path
  | .endsWith text orIs => text.isSuffixOf path || (orIs && path == text.drop 1)
  | .extensionAnd text regex => extension path == text && regex.accepts path
  | .nameLike regex => regex.accepts (afterLast 0x2F path)
  | .pathLike regex => regex.accepts path

end CoverageTracker.Glob

namespace CoverageTracker

/-! ## Patterns -/

/-- Why a pattern cannot be used. -/
inductive GlobError where
  /-- the text is no pattern -/
  | invalid (pattern : String) (fault : Glob.PatternFault)
  /-- the expression of the pattern nests too deep -/
  | tooDeep
  deriving DecidableEq, Repr

/-- A pattern that was read. -/
structure Glob where
  pattern : String
  tokens : List Glob.Token
  deriving Repr

namespace Glob

/-- Reads a pattern. -/
def parse (pattern : String) : Except GlobError Glob :=
  match tokensOf pattern with
  | .ok ts => .ok ⟨pattern, ts⟩
  | .error fault => .error (.invalid pattern fault)

/-- Whether the expression of a pattern, if it needs one, nests too deep. -/
def isTooDeep (g : Glob) : Bool :=
  (Strategy.of g.tokens).usesRegex && decide (depthLimit < 1 + Token.maxDepth g.tokens)

/-- Whether a path matches. -/
def accepts (g : Glob) (path : String) : Bool :=
  (Strategy.of g.tokens).accepts (utf8 path.toList)

end Glob

end CoverageTracker
