import ComponentHoist.Json.Quoted

/-!
# ComponentHoist.Proofs.Quoted — quoted texts are read back

Writing a text between quotes and reading it again gives the same text, whatever it holds.

* `Json.escape_cases`: the three ways in which a character is written.
* `Json.scan_escape`: each of them is scanned as one piece, whatever follows it.
* `Json.decode_quoteChars`: a quoted text is read back, and what follows it is left over.
* `Json.quote_injective`: so different texts look different between quotes.
-/

namespace ComponentHoist
namespace Json

/-! ### One character -/

/-- The characters with an escape of their own. -/
def shortEscaped : List Char :=
  ['"', '\\', '\x08', '\x0c', '\n', '\r', '\t']

/-- A character is written by a short escape, by the two last digits of its number, or as it is. -/
theorem escape_cases (c : Char) :
    (∃ letter, escape c = ['\\', letter] ∧ letter ≠ 'u' ∧ shortEscape? letter = some c) ∨
      (c.toNat < 0x20 ∧ escape c = ['\\', 'u', '0', '0', hexDigit (c.toNat / 16), hexDigit (c.toNat % 16)]) ∨
      (c ≠ '"' ∧ c ≠ '\\' ∧ ¬c.toNat < 0x20 ∧ escape c = [c]) := by
  by_cases short : c ∈ shortEscaped
  · refine .inl ?_
    simp only [shortEscaped, List.mem_cons, List.not_mem_nil, or_false] at short
    rcases short with rfl | rfl | rfl | rfl | rfl | rfl | rfl <;> exact ⟨_, rfl, by decide, rfl⟩
  · simp only [shortEscaped, List.mem_cons, List.not_mem_nil, or_false, not_or] at short
    refine .inr ?_
    by_cases control : c.toNat < 0x20
    · exact .inl ⟨control, by simp [escape, short, control]⟩
    · exact .inr ⟨short.1, short.2.1, control, by simp [escape, short, control]⟩

theorem hexValue?_hexDigit : ∀ n < 16, hexValue? (hexDigit n) = some n := by
  decide

theorem codeUnit?_control {n : Nat} (small : n < 0x20) :
    codeUnit? '0' '0' (hexDigit (n / 16)) (hexDigit (n % 16)) = some n := by
  have zero : hexValue? '0' = some 0 := rfl
  have value : ((0 * 16 + 0) * 16 + n / 16) * 16 + n % 16 = n := by omega
  rw [codeUnit?, zero, hexValue?_hexDigit _ (by omega), hexValue?_hexDigit _ (by omega)]
  exact congrArg some value

/-- What is written for a character is scanned as the character or, if that is a control character, as its number. -/
theorem scan_escape (c : Char) (rest : List Char) :
    ∃ piece, scan (escape c ++ rest) = (scan rest).cons piece ∧
      (piece = .char c ∨ piece = .unit c.toNat ∧ c.toNat < 0x20) := by
  rcases escape_cases c with ⟨letter, written, noUnit, short⟩ | ⟨control, written⟩ | ⟨noQuote, noSlash, plain, written⟩
  · refine ⟨.char c, ?_, .inl rfl⟩
    rw [written, List.cons_append, List.cons_append, List.nil_append, scan.eq_def]
    simp_all
  · refine ⟨.unit c.toNat, ?_, .inr ⟨rfl, control⟩⟩
    rw [written]
    simp only [List.cons_append, List.nil_append, scan]
    rw [codeUnit?_control control]
  · refine ⟨.char c, ?_, .inl rfl⟩
    rw [written, List.cons_append, List.nil_append, scan.eq_def]
    simp [noSlash, plain]

/-! ### A whole text -/

/-- The escaped characters up to the closing quote are read back. -/
theorem decodePieces_scan (cs rest : List Char) :
    let scanned := scan (cs.flatMap escape ++ '"' :: rest)
    decodePieces scanned.ending scanned.pieces = .ok (cs, rest) := by
  induction cs with
  | nil => rfl
  | cons c cs ih =>
    intro scanned
    obtain ⟨piece, first, same⟩ := scan_escape c (cs.flatMap escape ++ '"' :: rest)
    have whole : scanned = (scan (cs.flatMap escape ++ '"' :: rest)).cons piece := by
      rw [← first, ← List.append_assoc, ← List.flatMap_cons]
    have put : decodePieces scanned.ending scanned.pieces =
        (decodePieces scanned.ending (scan (cs.flatMap escape ++ '"' :: rest)).pieces).map
          fun read => (c :: read.1, read.2) := by
      rcases same with rfl | ⟨rfl, control⟩
      · rw [whole]
        rfl
      · -- The number of a control character is no half of a pair, and the character has that number.
        have trailing : isTrailing c.toNat = false := by
          have below : ¬0xdc00 ≤ c.toNat := by omega
          simp [isTrailing, below]
        have leading : isLeading c.toNat = false := by
          have below : ¬0xd800 ≤ c.toNat := by omega
          simp [isLeading, below]
        rw [whole, Scanned.cons, decodePieces.eq_def]
        simp [trailing, leading]
    rw [put, whole]
    show (decodePieces (scan _).ending (scan _).pieces).map _ = _
    rw [ih]
    rfl

/-- A text that is written between quotes is read back from behind the first quote, with what follows it left over. -/
theorem decode_quoteChars (s : String) (rest : List Char) :
    ∃ body, (quote s).toList = '"' :: body ∧ decode (body ++ rest) = .ok (s, rest) := by
  refine ⟨s.toList.flatMap escape ++ ['"'], by simp [quote, quoteChars], ?_⟩
  have text : decodePieces _ _ = .ok (s.toList, rest) := decodePieces_scan s.toList rest
  have back : String.ofList s.toList = s := String.ofList_toList
  rw [List.append_assoc, List.singleton_append, decode, text]
  exact congrArg (fun s => Except.ok (s, rest)) back

theorem quote_injective : Function.Injective quote := by
  intro s s' same
  obtain ⟨body, written, read⟩ := decode_quoteChars s []
  obtain ⟨body', written', read'⟩ := decode_quoteChars s' []
  have bodies : body = body' := List.tail_eq_of_cons_eq (by rw [← written, same, written'])
  rw [bodies, read'] at read
  exact (Prod.mk.inj (Except.ok.inj read)).1.symm

end Json
end ComponentHoist
