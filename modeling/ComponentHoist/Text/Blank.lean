/-!
# ComponentHoist.Text.Blank — white space

The characters with the Unicode property `White_Space`, and the two questions asked about them: what is left of
a text without them at its ends (`trim`), and whether it holds anything else (`isBlank`).
-/

namespace ComponentHoist
namespace Text

/-- Whether `c` has the Unicode property `White_Space`.  The zero-width space, the byte order mark and the Mongolian
vowel separator do not have it. -/
def isSpace (c : Char) : Bool :=
  let n := c.toNat
  (0x09 ≤ n && n ≤ 0x0d) || n == 0x20 || n == 0x85 || n == 0xa0 || n == 0x1680 || (0x2000 ≤ n && n ≤ 0x200a) ||
    n == 0x2028 || n == 0x2029 || n == 0x202f || n == 0x205f || n == 0x3000

/-- The list without the white space at its ends. -/
def trimChars (cs : List Char) : List Char :=
  ((cs.dropWhile isSpace).reverse.dropWhile isSpace).reverse

/-- The text without the white space at its ends. -/
def trim (s : String) : String :=
  String.ofList (trimChars s.toList)

/-- Whether the text is empty or holds white space only. -/
def isBlank (s : String) : Bool :=
  s.toList.all isSpace

theorem toList_trim (s : String) : (trim s).toList = trimChars s.toList := by
  simp [trim]

theorem trim_eq_self_iff (s : String) : trim s = s ↔ trimChars s.toList = s.toList := by
  rw [← toList_trim, String.toList_inj]

end Text
end ComponentHoist
