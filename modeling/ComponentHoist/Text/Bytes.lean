/-!
# ComponentHoist.Text.Bytes — texts as bytes

The names of files are bytes.  Most of them encode texts in UTF-8, but they need not.

* `utf8`, `ofUtf8?`: the bytes of a text, and the text that bytes encode.
* `shown`: the text as which bytes are shown.  What encodes no character is shown as the replacement character.
-/

namespace ComponentHoist
namespace Text

/-- The bytes that encode a text. -/
def utf8 (text : String) : List UInt8 :=
  text.toUTF8.data.toList

/-- The text that the bytes encode, if they encode one. -/
def ofUtf8? (bytes : List UInt8) : Option String :=
  String.fromUTF8? ⟨bytes.toArray⟩

/-- The beginning of the encoding of a character. -/
structure Opening where
  /-- How many bytes are to come. -/
  missing : Nat
  /-- The least and the greatest byte that may come next. -/
  least : UInt8
  greatest : UInt8
  /-- The digits of the code to the base 64 so far. -/
  code : Nat

/-- What the first byte of an encoding of several bytes opens.  The second byte has a smaller range where the code would
be too small for the number of bytes, or a surrogate, or too large. -/
def Opening.ofFirst? (b : UInt8) : Option Opening :=
  if 0xC2 ≤ b ∧ b ≤ 0xDF then some ⟨1, 0x80, 0xBF, b.toNat % 32⟩
  else if b = 0xE0 then some ⟨2, 0xA0, 0xBF, 0⟩
  else if b = 0xED then some ⟨2, 0x80, 0x9F, 13⟩
  else if 0xE1 ≤ b ∧ b ≤ 0xEF then some ⟨2, 0x80, 0xBF, b.toNat % 16⟩
  else if b = 0xF0 then some ⟨3, 0x90, 0xBF, 0⟩
  else if 0xF1 ≤ b ∧ b ≤ 0xF3 then some ⟨3, 0x80, 0xBF, b.toNat % 8⟩
  else if b = 0xF4 then some ⟨3, 0x80, 0x8F, 4⟩
  else none

/-- Stands for bytes that encode no character. -/
def replacement : Char :=
  '\uFFFD'

/-- What a byte is shown as that no opening goes on with.  The rest is shown by `more`, behind what the byte opens. -/
def shownFirst (b : UInt8) (more : Option Opening → List Char) : List Char :=
  if b < 0x80 then Char.ofNat b.toNat :: more none
  else
    match Opening.ofFirst? b with
    | some opening => more (some opening)
    | none => replacement :: more none

/-- The characters as which bytes are shown that come behind an opening.  An opening that does not go on is shown as one
character, and so is a byte that opens nothing. -/
def shownBehind : Option Opening → List UInt8 → List Char
  | none, [] => []
  | some _, [] => [replacement]
  | none, b :: bs => shownFirst b fun opening => shownBehind opening bs
  | some opening, b :: bs =>
    if opening.least ≤ b ∧ b ≤ opening.greatest then
      let code := opening.code * 64 + b.toNat % 64
      if opening.missing = 1 then Char.ofNat code :: shownBehind none bs
      else shownBehind (some ⟨opening.missing - 1, 0x80, 0xBF, code⟩) bs
    else replacement :: shownFirst b fun opening => shownBehind opening bs

/-- The text as which bytes are shown. -/
def shown (bytes : List UInt8) : String :=
  (ofUtf8? bytes).getD (String.ofList (shownBehind none bytes))

theorem ofUtf8?_eq_some_iff {bytes : List UInt8} {text : String} : ofUtf8? bytes = some text ↔ bytes = utf8 text := by
  have same : bytes = utf8 text ↔ text.toByteArray = ⟨bytes.toArray⟩ := by
    rw [utf8, String.toUTF8_eq_toByteArray]
    constructor
    · rintro rfl
      rfl
    · intro whole
      rw [whole]
  rw [same, ofUtf8?, String.fromUTF8?]
  constructor
  · intro decoded
    obtain ⟨valid, given⟩ := Option.dite_none_right_eq_some.mp decoded
    obtain rfl := Option.some.inj given
    rfl
  · intro whole
    have valid : ByteArray.IsValidUTF8 ⟨bytes.toArray⟩ := whole ▸ text.isValidUTF8
    rw [dif_pos valid, Option.some.injEq, ← String.toByteArray_inj, whole]
    rfl

/-- A text is shown as itself. -/
theorem shown_utf8 (text : String) : shown (utf8 text) = text := by
  rw [shown, ofUtf8?_eq_some_iff.mpr rfl]
  rfl

/-- An encoding that breaks off is shown as one character, as is a byte that is in no encoding. -/
example : shown [0x61, 0xE2, 0x82, 0x62, 0xFF, 0xF0, 0x9F, 0x98, 0x80] = "a\uFFFDb\uFFFD😀" := by
  decide

end Text
end ComponentHoist
