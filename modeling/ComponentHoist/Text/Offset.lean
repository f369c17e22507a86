import ComponentHoist.Span

/-!
# ComponentHoist.Text.Offset — byte offsets into a text

A source text is a list of characters, and an offset counts the bytes of their UTF-8 encoding.

* `splitAtByte`: the text before and after an offset; there is none past the end or inside a character.
* `slice`: the text covered by a span.
* `Location`: a line and a column, both counted from one in 32 bits, and `locate`, the location of an offset.  An offset
  without a split is given the location of the end of the text.
-/

namespace ComponentHoist
namespace Text

/-- The number of bytes in the encoding of the characters. -/
def byteLength : List Char → Nat
  | [] => 0
  | c :: cs => c.utf8Size + byteLength cs

/-- The characters before and after the byte offset, if it lies between two characters or at an end. -/
def splitAtByte : Nat → List Char → Option (List Char × List Char)
  | 0, cs => some ([], cs)
  | _ + 1, [] => none
  | n + 1, c :: cs =>
    if c.utf8Size ≤ n + 1 then
      (splitAtByte (n + 1 - c.utf8Size) cs).map fun (before, after) => (c :: before, after)
    else none

/-- The characters that the span covers, if it is not reversed and both its ends lie between characters. -/
def slice? (source : List Char) (span : Span) : Option (List Char) :=
  if span.start ≤ span.stop then do
    let (_, rest) ← splitAtByte span.start source
    let (covered, _) ← splitAtByte (span.stop - span.start) rest
    return covered
  else none

/-- The text that the span covers, or the empty text. -/
def slice (source : String) (span : Span) : String :=
  String.ofList ((slice? source.toList span).getD [])

/-- A place in a text, as an editor shows it.  Its numbers have 32 bits. -/
structure Location where
  /-- One more than the number of line feeds before the place. -/
  line : Nat
  /-- One more than the number of characters between the last line feed and the place. -/
  column : Nat
deriving DecidableEq, Repr

namespace Location

/-- The beginning of a text. -/
def origin : Location :=
  ⟨1, 1⟩

/-- The number behind another one.  Zero stands behind the largest one. -/
def succ (n : Nat) : Nat :=
  (n + 1) % UInt32.size

/-- The place behind a character that stands at the given place. -/
def next (place : Location) (c : Char) : Location :=
  if c = '\n' then ⟨succ place.line, 1⟩ else ⟨place.line, succ place.column⟩

/-- The place behind all the characters. -/
def after (cs : List Char) : Location :=
  cs.foldl next origin

/-- Whether a number has gone past the largest one.  Where arithmetic is checked, there is no such place. -/
def Overflows (place : Location) : Prop :=
  place.line = 0 ∨ place.column = 0

instance (place : Location) : Decidable place.Overflows :=
  inferInstanceAs (Decidable (place.line = 0 ∨ place.column = 0))

end Location

/-- The location of a byte offset.  The end of the text stands in for an offset past it or inside a character. -/
def locate (source : String) (offset : Nat) : Location :=
  match splitAtByte offset source.toList with
  | some (before, _) => Location.after before
  | none => Location.after source.toList

end Text
end ComponentHoist
