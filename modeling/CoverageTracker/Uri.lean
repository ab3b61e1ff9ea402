set_option autoImplicit false

/-!
# URI references

A document is known by its URI.  `Uri.parse` accepts the URI references of RFC 3986,
relative ones and the empty text included, and keeps an accepted text as it is: two
URIs are equal when their texts are.  A refusal says where, counted in bytes from the
start of the text.

Each scanner takes the rest of the text with the index of its first byte and returns
what it leaves over.
-/

namespace CoverageTracker

/-- Why a text is not a URI reference. -/
inductive UriFault where
  /-- a character that cannot stand at this index -/
  | unexpected (index : Nat)
  /-- a percent sign at this index without two hexadecimal digits after it -/
  | percent (index : Nat)
  /-- an opening bracket at this index without an IPv6 address and a closing bracket -/
  | ipLiteral (index : Nat)
  deriving DecidableEq, Repr

/-- The text of a fault. -/
def UriFault.message : UriFault → String
  | .unexpected i => "unexpected character at index " ++ toString i
  | .percent i => "invalid percent-encoded octet at index " ++ toString i
  | .ipLiteral i => "invalid IP literal at index " ++ toString i

namespace Uri

/-! ## Character classes -/

/-- Hexadecimal digits. -/
def isHex (c : Char) : Bool :=
  c.isDigit || (decide ('a' ≤ c) && decide (c ≤ 'f')) || (decide ('A' ≤ c) && decide (c ≤ 'F'))

/-- Characters of a scheme. -/
def isScheme (c : Char) : Bool := c.isAlphanum || c == '+' || c == '-' || c == '.'

/-- Characters that need no encoding anywhere. -/
def isUnreserved (c : Char) : Bool :=
  c.isAlphanum || c == '-' || c == '.' || c == '_' || c == '~'

/-- Characters that may delimit parts within a component. -/
def isSubDelim (c : Char) : Bool :=
  ['!', '$', '&', '\'', '(', ')', '*', '+', ',', ';', '='].contains c

/-- Characters of a registered name. -/
def isName (c : Char) : Bool := isUnreserved c || isSubDelim c

/-- Characters of the text before a host: a name, or a colon. -/
def isUserInfo (c : Char) : Bool := isName c || c == ':'

/-- Characters of the first segment of a relative path. -/
def isFirstSegment (c : Char) : Bool := isName c || c == '@'

/-- Characters of a path. -/
def isPath (c : Char) : Bool := isName c || c == ':' || c == '@' || c == '/'

/-- Characters of a query and of a fragment. -/
def isQuery (c : Char) : Bool := isPath c || c == '?'

/-! ## Scanning -/

/-- The rest of a text, and the index of its first byte. -/
structure Cursor where
  index : Nat
  rest : List Char
  deriving Repr

/-- A scanner returns the cursor after what it took. -/
abbrev Scan := Except UriFault Cursor

/-- Skips characters of a class and percent-encoded octets. -/
def skipOctets (allowed : Char → Bool) : List Char → Nat → Scan
  | '%' :: a :: b :: rest, i =>
    if isHex a && isHex b then skipOctets allowed rest (i + 3) else .error (.percent i)
  | c :: rest, i =>
    if c == '%' then .error (.percent i)
    else if allowed c then skipOctets allowed rest (i + c.utf8Size)
    else .ok ⟨i, c :: rest⟩
  | [], i => .ok ⟨i, []⟩

/-- Skips ASCII characters of a class. -/
def skipWhile (allowed : Char → Bool) (cs : List Char) (i : Nat) : Cursor :=
  ⟨i + (cs.takeWhile allowed).length, cs.dropWhile allowed⟩

/-! ## IP literals -/

/-- A decimal number from 0 to 255 without leading zeros. -/
def isDecimalOctet (cs : List Char) : Bool :=
  !cs.isEmpty && cs.length ≤ 3 && cs.all Char.isDigit &&
    (cs.length == 1 || cs.head? != some '0') &&
    decide (cs.foldl (fun n c => 10 * n + (c.toNat - '0'.toNat)) 0 ≤ 255)

/-- The pieces of a text between occurrences of a separator; at least one. -/
def splitAll (separator : Char) : List Char → List (List Char)
  | [] => [[]]
  | c :: cs =>
    if c = separator then [] :: splitAll separator cs
    else
      match splitAll separator cs with
      | piece :: pieces => (c :: piece) :: pieces
      | [] => [[c]]

/-- Four decimal octets with points between them. -/
def isIpv4 (cs : List Char) : Bool :=
  let parts := splitAll '.' cs
  parts.length == 4 && parts.all isDecimalOctet

/-- One to four hexadecimal digits. -/
def isGroup (cs : List Char) : Bool :=
  decide (1 ≤ cs.length) && decide (cs.length ≤ 4) && cs.all isHex

/-- How many groups a list of colon-separated pieces stands for, a dotted tail counting
as two; `none` if a piece is neither. -/
def groupCount (tail : Bool) : List (List Char) → Option Nat
  | [] => some 0
  | [last] =>
    if isGroup last then some 1 else if tail && isIpv4 last then some 2 else none
  | g :: gs => if isGroup g then (groupCount tail gs).map (· + 1) else none

/-- The text before and after the first `::`. -/
def splitGap : List Char → Option (List Char × List Char)
  | ':' :: ':' :: rest => some ([], rest)
  | c :: rest => (splitGap rest).map fun p => (c :: p.1, p.2)
  | [] => none

/-- The number of groups on one side of a gap; an empty side has none. -/
def sideCount (tail : Bool) (cs : List Char) : Option Nat :=
  if cs.isEmpty then some 0 else groupCount tail (splitAll ':' cs)

/-- An IPv6 address: eight groups, or fewer around one `::` that stands for at least one
group. -/
def isIpv6 (cs : List Char) : Bool :=
  match splitGap cs with
  | none => groupCount true (splitAll ':' cs) == some 8
  | some (before, after) =>
    match sideCount false before, sideCount true after with
    | some m, some n => decide (m + n ≤ 7)
    | _, _ => false

/-- Skips an IP literal; the text starts with its opening bracket. -/
def skipIpLiteral (cs : List Char) (i : Nat) : Scan :=
  let inner := (cs.drop 1).takeWhile (· != ']')
  match (cs.drop 1).dropWhile (· != ']') with
  | ']' :: rest => if isIpv6 inner then .ok ⟨i + inner.length + 2, rest⟩ else .error (.ipLiteral i)
  | _ => .error (.ipLiteral i)

/-! ## Parts of a reference -/

/-- Skips an optional colon and the digits after it. -/
def skipColonDigits (c : Cursor) : Cursor :=
  match c.rest with
  | ':' :: rest => skipWhile Char.isDigit rest (c.index + 1)
  | _ => c

/-- A scanned authority without an at sign must be a host with at most one colon, and only
digits after it.  Of two colons the first is refused, of several characters that are
no digits the last. -/
def checkHostPort (scanned : List Char) (i : Nat) : Except UriFault Unit :=
  let host := scanned.takeWhile (· != ':')
  match scanned.dropWhile (· != ':') with
  | [] => .ok ()
  | _ :: tail =>
    if tail.contains ':' then .error (.unexpected (i + host.length))
    else
      let after := (tail.reverse.takeWhile Char.isDigit).length
      if after = tail.length then .ok ()
      else .error (.unexpected (i + host.length + tail.length - after))

/-- Skips an authority: what follows `//` up to the path. -/
def skipAuthority (cs : List Char) (i : Nat) : Scan := do
  let c ← skipOctets isUserInfo cs i
  match c.rest with
  | '@' :: rest =>
    match rest with
    | '[' :: _ => return skipColonDigits (← skipIpLiteral rest (c.index + 1))
    | _ => return skipColonDigits (← skipOctets isName rest (c.index + 1))
  | rest =>
    if c.index = i then
      match rest with
      | '[' :: _ => return skipColonDigits (← skipIpLiteral rest i)
      | _ => return c
    else
      checkHostPort (cs.take (c.index - i)) i
      return c

/-- What follows a path: an optional query and an optional fragment, and then the end. -/
def checkTail (c : Cursor) : Except UriFault Unit := do
  let c ← match c.rest with
    | '?' :: rest => skipOctets isQuery rest (c.index + 1)
    | _ => .ok c
  let c ← match c.rest with
    | '#' :: rest => skipOctets isQuery rest (c.index + 1)
    | _ => .ok c
  match c.rest with
  | [] => .ok ()
  | _ => .error (.unexpected c.index)

/-- A path and what follows it. -/
def checkPath (c : Cursor) : Except UriFault Unit := do
  checkTail (← skipOctets isPath c.rest c.index)

/-- An authority, then nothing of a path or a path that starts with a slash. -/
def checkAuthority (cs : List Char) (i : Nat) : Except UriFault Unit := do
  let start ← skipAuthority cs i
  let stop ← skipOctets isPath start.rest start.index
  if start.index = stop.index ∨ start.rest.head? = some '/' then checkTail stop
  else .error (.unexpected start.index)

/-- What follows a scheme and its colon. -/
def checkHierarchy (cs : List Char) (i : Nat) : Except UriFault Unit :=
  match cs with
  | '/' :: '/' :: rest => checkAuthority rest (i + 2)
  | _ => checkPath ⟨i, cs⟩

/-- Whether a text is a URI reference.  A text with a colon after its scheme characters has
a scheme; any other has none, and then no colon in the first segment of its path. -/
def check (cs : List Char) : Except UriFault Unit := do
  let c := skipWhile isScheme cs 0
  match c.rest with
  | ':' :: rest =>
    match cs with
    | first :: _ =>
      if first.isAlpha then checkHierarchy rest (c.index + 1) else .error (.unexpected 0)
    | [] => .error (.unexpected 0)
  | rest =>
    match c.index, rest with
    | 0, '/' :: '/' :: rest => checkAuthority rest 2
    | _, _ =>
      let c ← skipOctets isFirstSegment rest c.index
      match c.rest with
      | ':' :: _ => .error (.unexpected c.index)
      | _ => checkPath c

end Uri

/-- A URI reference: a text that passed the check. -/
structure Uri where
  text : String
  valid : Uri.check text.toList = .ok ()
  deriving DecidableEq

namespace Uri

instance : Repr Uri where
  reprPrec u n := reprPrec u.text n

/-- Reads a URI reference. -/
def parse (text : String) : Except UriFault Uri :=
  match h : check text.toList with
  | .ok () => .ok ⟨text, h⟩
  | .error e => .error e

end Uri

end CoverageTracker
