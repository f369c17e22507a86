/-!
# ComponentHoist.Span — stretches of source text

A span is a half-open range of byte offsets into the UTF-8 encoding of a source text.
-/

namespace ComponentHoist

/-- The bytes from `start` up to, and without, `stop`. -/
structure Span where
  /-- The offset of the first byte. -/
  start : Nat
  /-- The offset just past the last byte. -/
  stop : Nat
deriving DecidableEq, Repr, Inhabited

end ComponentHoist
