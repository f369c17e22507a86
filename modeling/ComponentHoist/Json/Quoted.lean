import ComponentHoist.Text.Offset

/-!
# ComponentHoist.Json.Quoted — JSON strings

Writing and reading the quoted form of a text.

* `quote`: the written form.  Quotes, backslashes and control characters are escaped, everything else stands as it is.
* `scan`: the pieces of a string literal up to its closing quote, or up to the place where it breaks off.
* `decode`: the text that the pieces stand for.  Code units of surrogates have to come in pairs.
* `skip`: the rest behind a literal whose text is not wanted.  Here surrogates may stand alone.
-/

namespace ComponentHoist
namespace Json

/-- Why a text could not be read. -/
inductive Fault where
  /-- The text breaks the grammar. -/
  | malformed
  /-- A value has another shape than its place demands. -/
  | mismatched
  /-- The text ends inside a value. -/
  | truncated
deriving DecidableEq, Repr

/-! ### Writing -/

/-- The lower-case hexadecimal digit of a number below sixteen. -/
def hexDigit (n : Nat) : Char :=
  if n < 10 then Char.ofNat ('0'.toNat + n) else Char.ofNat ('a'.toNat + (n - 10))

/-- The written form of one character inside quotes. -/
def escape (c : Char) : List Char :=
  if c = '"' then ['\\', '"']
  else if c = '\\' then ['\\', '\\']
  else if c = '\x08' then ['\\', 'b']
  else if c = '\x0c' then ['\\', 'f']
  else if c = '\n' then ['\\', 'n']
  else if c = '\r' then ['\\', 'r']
  else if c = '\t' then ['\\', 't']
  else if c.toNat < 0x20 then ['\\', 'u', '0', '0', hexDigit (c.toNat / 16), hexDigit (c.toNat % 16)]
  else [c]

/-- The characters of the quoted form. -/
def quoteChars (cs : List Char) : List Char :=
  '"' :: cs.flatMap escape ++ ['"']

/-- The quoted form of a text. -/
def quote (s : String) : String :=
  String.ofList (quoteChars s.toList)

/-! ### Reading -/

/-- A piece of a string literal: a character, written as such or by a short escape, or a code unit in hexadecimal. -/
inductive Piece where
  | char (c : Char)
  | unit (n : Nat)
deriving DecidableEq, Repr

/-- The value of a hexadecimal digit in either case. -/
def hexValue? (c : Char) : Option Nat :=
  if '0' ≤ c ∧ c ≤ '9' then some (c.toNat - '0'.toNat)
  else if 'a' ≤ c ∧ c ≤ 'f' then some (c.toNat - 'a'.toNat + 10)
  else if 'A' ≤ c ∧ c ≤ 'F' then some (c.toNat - 'A'.toNat + 10)
  else none

/-- The code unit that four hexadecimal digits stand for. -/
def codeUnit? (a b c d : Char) : Option Nat := do
  let a ← hexValue? a
  let b ← hexValue? b
  let c ← hexValue? c
  let d ← hexValue? d
  return ((a * 16 + b) * 16 + c) * 16 + d

/-- The character that a short escape stands for. -/
def shortEscape? (c : Char) : Option Char :=
  match c with
  | '"' => some '"'
  | '\\' => some '\\'
  | '/' => some '/'
  | 'b' => some '\x08'
  | 'f' => some '\x0c'
  | 'n' => some '\n'
  | 'r' => some '\r'
  | 't' => some '\t'
  | _ => none

/-- What was scanned of a string literal: its pieces, and the text behind the closing quote or what went wrong
before it. -/
structure Scanned where
  pieces : List Piece
  ending : Except Fault (List Char)

/-- The same scan with one more piece in front. -/
def Scanned.cons (p : Piece) (s : Scanned) : Scanned :=
  { s with pieces := p :: s.pieces }

/-- Scans a string literal from behind its opening quote.  A hexadecimal escape is cut short when fewer than four bytes
follow it. -/
def scan : List Char → Scanned
  | [] => ⟨[], .error .truncated⟩
  | '"' :: rest => ⟨[], .ok rest⟩
  | ['\\'] => ⟨[], .error .truncated⟩
  | '\\' :: 'u' :: a :: b :: c :: d :: rest =>
    match codeUnit? a b c d with
    | some n => (scan rest).cons (.unit n)
    | none => ⟨[], .error .malformed⟩
  | '\\' :: 'u' :: rest => ⟨[], .error (if Text.byteLength rest < 4 then .truncated else .malformed)⟩
  | '\\' :: c :: rest =>
    match shortEscape? c with
    | some c => (scan rest).cons (.char c)
    | none => ⟨[], .error .malformed⟩
  | c :: rest =>
    if c.toNat < 0x20 then ⟨[], .error .malformed⟩ else (scan rest).cons (.char c)

/-- Whether the code unit opens a surrogate pair. -/
def isLeading (n : Nat) : Bool :=
  0xd800 ≤ n && n ≤ 0xdbff

/-- Whether the code unit closes a surrogate pair. -/
def isTrailing (n : Nat) : Bool :=
  0xdc00 ≤ n && n ≤ 0xdfff

/-- The character of a surrogate pair. -/
def joinPair (leading trailing : Nat) : Char :=
  Char.ofNat (0x10000 + (leading - 0xd800) * 0x400 + (trailing - 0xdc00))

/-- The text of the pieces and the text behind the literal.  Of two things that are wrong the one met first decides. -/
def decodePieces (ending : Except Fault (List Char)) : List Piece → Except Fault (List Char × List Char)
  | [] => ending.map fun rest => ([], rest)
  | .char c :: ps => (decodePieces ending ps).map fun (cs, rest) => (c :: cs, rest)
  | .unit n :: ps =>
    if isTrailing n then .error .malformed
    else if isLeading n then
      match ps with
      | .unit m :: qs =>
        if isTrailing m then (decodePieces ending qs).map fun (cs, rest) => (joinPair n m :: cs, rest)
        else .error .malformed
      | .char _ :: _ => .error .malformed
      | [] => .error (match ending with | .ok _ => .malformed | .error fault => fault)
    else (decodePieces ending ps).map fun (cs, rest) => (Char.ofNat n :: cs, rest)

/-- Reads a string literal from behind its opening quote: its text and the text behind it. -/
def decode (cs : List Char) : Except Fault (String × List Char) :=
  let s := scan cs
  (decodePieces s.ending s.pieces).map fun (text, rest) => (String.ofList text, rest)

/-- The text behind a string literal, read from behind its opening quote. -/
def skipString (cs : List Char) : Except Fault (List Char) :=
  (scan cs).ending

end Json
end ComponentHoist
