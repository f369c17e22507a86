import ComponentHoist.Pass
import ComponentHoist.Proofs.WrittenSettings

/-!
# ComponentHoist.Proofs.ConfigForms — the ways of writing settings

The same settings can be written in many ways: as an object in any order, with white space anywhere, names and values in
any spelling and other members in between, or as an array.  All of them are read as the same settings.

* `Config.Given.IsWritten`: the texts that write some settings.
* `Config.IsRefused`: the objects that name a setting twice or have a name that is no text.
* `Config.readMember_named`, `Config.readMembers_named`: what can be read of the names of members, by induction on the
  list.
* `Config.readConfig_forms`: whatever writes some settings is read as them, and what is refused is an error.
-/

namespace ComponentHoist
namespace Config

open Json (dropSpace textUnits Spells IsArray IsMember IsObject IsPadded IsListed IsEnd IsElement IsValue IsQuoted
  IsHexDigit IsBlank isQuoted_quoteChars spells_flatMap_escape)

/-! ### Forms -/

/-- The texts that write the settings assigned. -/
inductive Given.IsWritten (assigned : Given) (text : String) : Prop where
  | object {members : List (String × List Char)} {object : List Char} (writes : assigned.WrittenBy members)
      (isObject : IsObject (members.map fun member => (textUnits member.1, member.2)) object)
      (padded : IsPadded object text.toList)
  | array {count : Nat} {array : List Char}
      (first : ∀ setting, assigned.has setting = true ↔ setting ∈ Setting.all.take count)
      (isArray : IsArray assigned.Writes (Setting.all.take count) array) (padded : IsPadded array text.toList)

/-- The objects that name a setting more than once or have a member whose name is no text. -/
inductive IsRefused (text : String) : Prop where
  | repeated {members : List (List Nat × List Char)} {object : List Char} (isObject : IsObject members object)
      (values : ∀ member ∈ members, IsValue member.2) (setting : Setting)
      (twice : 2 ≤ (members.map Prod.fst).count (textUnits setting.key)) (padded : IsPadded object text.toList)
  | unnamed {members : List (List Nat × List Char)} {object : List Char} (isObject : IsObject members object)
      (values : ∀ member ∈ members, IsValue member.2)
      (noText : ∃ member ∈ members, ∀ name, member.1 ≠ textUnits name) (padded : IsPadded object text.toList)

/-! ### What can be read -/

section Refusals

variable {given given' : Given} {text body behind behind' value cs rest rest' : List Char} {mark : Char}
  {units : List Nat} {members : List (List Nat × List Char)} {fuel : Nat}

/-- If a member can be read, then its name is a text and, if that is the key of a setting, the setting is new. -/
theorem readMember_named (spells : Spells body units) (padded : IsPadded text value) (isValue : IsValue text)
    (colon : dropSpace behind = ':' :: (value ++ mark :: rest)) (ends : IsEnd mark)
    (read : readMember given (body ++ '"' :: behind) = .ok (given', behind')) :
    dropSpace behind' = mark :: rest ∧ (∃ name, units = textUnits name) ∧ ∀ setting : Setting,
      (given.has setting = true → given'.has setting = true) ∧
        (units = textUnits setting.key → given.has setting = false ∧ given'.has setting = true) := by
  obtain ⟨⟨name, _⟩, key, behindKey⟩ := bind_eq_ok_iff.mp read
  obtain ⟨rfl, rfl⟩ := spells.decode_eq_ok_iff.mp key
  obtain ⟨skipped, skip, closed⟩ := padded.skip isValue ends rest
  have named (setting : Setting) (same : textUnits name = textUnits setting.key) :
      Setting.ofKey? name = some setting := by
    rw [Json.textUnits_injective same, Setting.ofKey?_key]
  simp only [expectColon_of_dropSpace colon, bind, Except.bind] at behindKey
  split at behindKey
  next setting found =>
    split at behindKey
    next => cases behindKey
    next new =>
      -- whether the value has the right type or not, where it ends is where passing over it would have ended
      obtain rfl : skipped = behind' := Except.ok.inj (skip.symm.trans (Given.skip_of_read behindKey))
      obtain ⟨content, rfl⟩ := Given.exists_set_of_read behindKey
      refine ⟨closed, ⟨name, rfl⟩, fun other => ⟨fun has => ?_, fun same => ?_⟩⟩
      · by_cases this : other = setting
        · rw [this, Given.has_set_self]
        · rw [Given.has_set_of_ne given this, has]
      · obtain rfl := Option.some.inj ((named other same).symm.trans found)
        exact ⟨Bool.eq_false_iff.mpr new, given.has_set_self other content⟩
  next unknown =>
    rw [skip] at behindKey
    cases behindKey
    refine ⟨closed, ⟨name, rfl⟩, fun other => ⟨id, fun same => ?_⟩⟩
    rw [named other same] at unknown
    cases unknown

/-- How often a setting has been given or is named by the members that are left. -/
def Given.mentions (given : Given) (members : List (List Nat × List Char)) (setting : Setting) : Nat :=
  (members.map Prod.fst).count (textUnits setting.key) + if given.has setting then 1 else 0

/-- A member that only names a new setting leaves as many mentions as there were. -/
theorem Given.mentions_cons_le {member : List Nat × List Char} {setting : Setting}
    (kept : given.has setting = true → given'.has setting = true)
    (new : member.1 = textUnits setting.key → given.has setting = false ∧ given'.has setting = true) :
    given.mentions (member :: members) setting ≤ given'.mentions members setting := by
  rw [mentions, mentions, List.map_cons]
  by_cases this : member.1 = textUnits setting.key
  · obtain ⟨absent, present⟩ := new this
    rw [this, List.count_cons_self, absent, present]
    exact Nat.le_refl (_ + 1)
  · rw [List.count_cons_of_ne this]
    cases has : given.has setting with
    | false => exact Nat.le_add_right _ _
    | true => rw [kept has]

/-- If the members of an object can be read, then their names are texts, and no setting is mentioned twice. -/
theorem readMembers_named (listed : IsListed IsMember members cs) (values : ∀ member ∈ members, IsValue member.2)
    (read : readMembers fuel given (cs ++ '\x7d' :: rest) = .ok (given', rest')) :
    (∀ member ∈ members, ∃ name, member.1 = textUnits name) ∧
      ∀ setting, given.mentions members setting ≤ 1 := by
  induction listed generalizing given fuel with
  | @last member cs only =>
    cases fuel with
    | zero => cases read
    | succ fuel =>
      obtain ⟨body, behind, value, spells, padded, -, begins, colon⟩ := only.colon ('\x7d' :: rest)
      simp only [readMembers, begins] at read
      obtain ⟨⟨given₁, behind₁⟩, readFirst, -⟩ := bind_eq_ok_iff.mp read
      obtain ⟨-, named, settings⟩ :=
        readMember_named spells padded (values member List.mem_cons_self) colon (.inr (.inr rfl)) readFirst
      refine ⟨fun other mem => List.mem_singleton.mp mem ▸ named, fun setting => ?_⟩
      obtain ⟨kept, new⟩ := settings setting
      refine Nat.le_trans (Given.mentions_cons_le kept new) ?_
      rw [Given.mentions, List.map_nil, List.count_nil, Nat.zero_add]
      split <;> decide
  | @more member members cs cs' first _ ih =>
    cases fuel with
    | zero => cases read
    | succ fuel =>
      obtain ⟨body, behind, value, spells, padded, -, begins, colon⟩ := first.colon (',' :: (cs' ++ '\x7d' :: rest))
      rw [List.append_assoc, List.cons_append] at read
      simp only [readMembers, begins] at read
      obtain ⟨⟨given₁, behind₁⟩, readFirst, readOthers⟩ := bind_eq_ok_iff.mp read
      obtain ⟨comma, named, settings⟩ :=
        readMember_named spells padded (values member List.mem_cons_self) colon (.inl rfl) readFirst
      simp only [comma] at readOthers
      obtain ⟨texts, mentions⟩ := ih (fun other mem => values other (List.mem_cons_of_mem _ mem)) readOthers
      refine ⟨fun other mem => ?_, fun setting => ?_⟩
      · rcases List.mem_cons.mp mem with rfl | later
        · exact named
        · exact texts other later
      · obtain ⟨kept, new⟩ := settings setting
        exact Nat.le_trans (Given.mentions_cons_le kept new) (mentions setting)

end Refusals

/-! ### Whole texts -/

section Texts

variable {assigned given : Given} {inner rest : List Char} {text : String}

/-- What a text with white space around it is read as. -/
theorem ofText_padded (padded : IsPadded inner text.toList) (visible : ∃ c ∈ inner, Text.isSpace c = false) :
    ∃ after, dropSpace after = [] ∧ ofText text = readValue (inner ++ after) >>= fun (given, rest) =>
      if (dropSpace rest).isEmpty then .ok given.complete else .error .malformed := by
  obtain ⟨before, after, blankBefore, blankAfter, whole⟩ := padded
  obtain ⟨c, mem, noSpace⟩ := visible
  have notBlank : Text.isBlank text = false := by
    rw [Text.isBlank, List.all_eq_false, whole]
    exact ⟨c, by simp [mem], by simp [noSpace]⟩
  refine ⟨after, List.dropWhile_eq_nil_iff.mpr blankAfter, ?_⟩
  rw [ofText, notBlank, whole, readValue_append blankBefore]
  rfl

theorem ofText_of_readValue (padded : IsPadded inner text.toList) (visible : ∃ c ∈ inner, Text.isSpace c = false)
    (read : ∀ rest, readValue (inner ++ rest) = .ok (given, rest)) : ofText text = .ok given.complete := by
  obtain ⟨after, nothing, same⟩ := ofText_padded padded visible
  rw [same, read after]
  simp only [bind, Except.bind, nothing]
  rfl

theorem visible_of_isEnclosed {α : Type} {item : α → List Char → Prop} {opening closing : Char} {as : List α}
    {cs : List Char} (enclosed : Json.IsEnclosed item opening closing as cs) (visible : Text.isSpace opening = false) :
    ∃ c ∈ cs, Text.isSpace c = false := by
  cases enclosed <;> exact ⟨opening, List.mem_cons_self, visible⟩

/-- If an object is read as settings, then the names of its members are texts, and none names a setting twice. -/
theorem named_of_ofText {members : List (List Nat × List Char)} {object : List Char} {config : Config}
    (isObject : IsObject members object) (values : ∀ member ∈ members, IsValue member.2)
    (padded : IsPadded object text.toList) (read : ofText text = .ok config) :
    (∀ member ∈ members, ∃ name, member.1 = textUnits name) ∧
      ∀ setting : Setting, (members.map Prod.fst).count (textUnits setting.key) ≤ 1 := by
  obtain ⟨after, -, same⟩ := ofText_padded padded (visible_of_isEnclosed isObject rfl)
  rw [same] at read
  obtain ⟨⟨given, rest⟩, readObject, -⟩ := bind_eq_ok_iff.mp read
  cases isObject with
  | none => exact ⟨fun _ mem => absurd mem List.not_mem_nil, fun _ => Nat.zero_le 1⟩
  | some listed =>
    obtain ⟨fuel, -, same⟩ := readValue_object listed after
    rw [same] at readObject
    obtain ⟨texts, mentions⟩ := readMembers_named listed values readObject
    exact ⟨texts, fun setting => Nat.le_trans (Nat.le_add_right _ _) (mentions setting)⟩

theorem Given.IsWritten.ofText (written : assigned.IsWritten text) : Config.ofText text = .ok assigned.complete := by
  cases written with
  | object writes isObject padded =>
    exact ofText_of_readValue padded (visible_of_isEnclosed isObject rfl) (writes.readValue isObject)
  | array first isArray padded =>
    exact ofText_of_readValue padded (visible_of_isEnclosed isArray rfl) (readValue_positions first isArray)

theorem IsRefused.ofText (refused : IsRefused text) (config : Config) : Config.ofText text ≠ .ok config := by
  intro read
  cases refused with
  | repeated isObject values setting twice padded =>
    have once := (named_of_ofText isObject values padded read).2 setting
    omega
  | unnamed isObject values noText padded =>
    obtain ⟨member, mem, noText⟩ := noText
    obtain ⟨name, same⟩ := (named_of_ofText isObject values padded read).1 member mem
    exact noText name same

end Texts

/-! ### Some forms -/

section Samples

theorem isPadded_self (cs : List Char) : IsPadded cs cs :=
  ⟨[], [], by simp [IsBlank], by simp [IsBlank], by simp⟩

theorem isDigits_singleton {c : Char} (digit : c.isDigit = true) : Json.IsDigits [c] :=
  ⟨List.cons_ne_nil c [], fun _ mem => List.mem_singleton.mp mem ▸ digit⟩

theorem isMember_of_isQuoted {units : List Nat} {quoted : List Char} (isQuoted : IsQuoted units quoted)
    (text : List Char) : IsMember (units, text) (quoted ++ ':' :: text) :=
  ⟨quoted, quoted, text, isQuoted, isPadded_self quoted, isPadded_self text, rfl⟩

theorem isElement_of_item {α : Type} {item : α → List Char → Prop} {a : α} {text : List Char} (isItem : item a text) :
    IsElement item a text :=
  ⟨text, isItem, isPadded_self text⟩

theorem isObject_of_isListed {members : List (List Nat × List Char)} {cs object : List Char}
    (listed : IsListed IsMember members cs) (whole : '\x7b' :: (cs ++ ['\x7d']) = object) : IsObject members object :=
  whole ▸ .some listed

theorem isArray_of_isListed {α : Type} {item : α → List Char → Prop} {as : List α} {cs array : List Char}
    (listed : IsListed (IsElement item) as cs) (whole : '[' :: (cs ++ [']']) = array) : IsArray item as array :=
  whole ▸ .some listed

/-- The values of two settings. -/
def twoGiven : Given where
  isTesting := some true
  decoratorName := some "A"

/-- An object in an array. -/
def nestedText : List Char :=
  "[\x7b\"isTesting\":-1.5e3\x7d]".toList

theorem isValue_nested : IsValue nestedText := by
  have number : IsValue "-1.5e3".toList := .number
    ⟨['-'], ['1'], ['.', '5'], ['e', '3'], .inr rfl, ⟨isDigits_singleton rfl, by decide⟩,
      .inr ⟨['5'], isDigits_singleton rfl, rfl⟩,
      .inr ⟨'e', [], ['3'], .inl rfl, .inl rfl, isDigits_singleton rfl, rfl⟩, rfl⟩
  have isObject : IsObject [(textUnits "isTesting", "-1.5e3".toList)] "\x7b\"isTesting\":-1.5e3\x7d".toList :=
    isObject_of_isListed (.last (isMember_of_isQuoted (isQuoted_quoteChars "isTesting".toList) _)) rfl
  have isArray : IsArray Eq ["\x7b\"isTesting\":-1.5e3\x7d".toList] nestedText :=
    isArray_of_isListed (.last (isElement_of_item rfl)) rfl
  refine .array isArray fun element mem => ?_
  obtain rfl := List.mem_singleton.mp mem
  exact .object isObject fun member mem => List.mem_singleton.mp mem ▸ number

/-- A literal that stands for half of a surrogate pair. -/
theorem isQuoted_lone : IsQuoted [0xd800] "\"\\ud800\"".toList :=
  ⟨_, .hex (show IsHexDigit 'd' 13 from .inl rfl) (show IsHexDigit '8' 8 from .inl rfl)
    (show IsHexDigit '0' 0 from .inl rfl) (show IsHexDigit '0' 0 from .inl rfl) .nil, rfl⟩

/-- A literal with an escape that stands for the name of a setting. -/
theorem isQuoted_escaped : IsQuoted (textUnits "isTesting") "\"is\\u0054esting\"".toList :=
  ⟨_, (spells_flatMap_escape "is".toList).append (.hex (show IsHexDigit '0' 0 from .inl rfl)
    (show IsHexDigit '0' 0 from .inl rfl) (show IsHexDigit '5' 5 from .inl rfl) (show IsHexDigit '4' 4 from .inl rfl)
    (spells_flatMap_escape "esting".toList)), rfl⟩

/-- The two settings, one of them with an escape in its name, between members that are no settings. -/
def mixedText : String :=
  " \x7b\"x\":[\x7b\"isTesting\":-1.5e3\x7d],\"is\\u0054esting\":true,\"x\":\"\\ud800\",\"decoratorName\":\"A\"\x7d\n"

theorem isWritten_mixed : twoGiven.IsWritten mixedText := by
  have writes : twoGiven.WrittenBy [("x", nestedText), ("isTesting", "true".toList), ("x", "\"\\ud800\"".toList),
      ("decoratorName", "\"A\"".toList)] := by
    refine { once := ?_, known := ?_, others := ?_ }
    · intro setting text mem
      cases setting with
      | isTesting =>
        obtain rfl : text = "true".toList := by simpa [Setting.key] using mem
        exact ⟨true, rfl, rfl⟩
      | decoratorName =>
        obtain rfl : text = "\"A\"".toList := by simpa [Setting.key] using mem
        exact ⟨"A", rfl, isQuoted_quoteChars "A".toList⟩
      | decoratorsToRemove => simp [Setting.key] at mem
    · intro member mem unknown
      simp only [List.mem_cons, List.not_mem_nil, or_false] at mem
      rcases mem with rfl | rfl | rfl | rfl
      · exact isValue_nested
      · exact absurd rfl (unknown .isTesting)
      · exact .string isQuoted_lone
      · exact absurd rfl (unknown .decoratorName)
    · intro setting
      cases setting <;> decide
  have isObject : IsObject [(textUnits "x", nestedText), (textUnits "isTesting", "true".toList),
      (textUnits "x", "\"\\ud800\"".toList), (textUnits "decoratorName", "\"A\"".toList)] _ :=
    .some (.more (isMember_of_isQuoted (isQuoted_quoteChars "x".toList) _)
      (.more (isMember_of_isQuoted isQuoted_escaped _)
        (.more (isMember_of_isQuoted (isQuoted_quoteChars "x".toList) _)
          (.last (isMember_of_isQuoted (isQuoted_quoteChars "decoratorName".toList) _)))))
  exact .object writes isObject
    ⟨[' '], ['\n'], by simp [IsBlank, Json.isSpace], by simp [IsBlank, Json.isSpace], rfl⟩

/-- The two settings by position. -/
def positionalText : String :=
  "[true,\"A\"]"

theorem isWritten_positional : twoGiven.IsWritten positionalText := by
  have isTesting : twoGiven.Writes .isTesting "true".toList := ⟨true, rfl, rfl⟩
  have decoratorName : twoGiven.Writes .decoratorName "\"A\"".toList := ⟨"A", rfl, isQuoted_quoteChars "A".toList⟩
  have isArray : IsArray twoGiven.Writes (Setting.all.take 2) positionalText.toList :=
    isArray_of_isListed (.more (isElement_of_item isTesting) (.last (isElement_of_item decoratorName))) rfl
  exact .array (fun setting => by cases setting <;> decide) isArray (isPadded_self _)

/-- One setting twice, the second time with a value of another type. -/
def repeatedText : String :=
  "\x7b\"isTesting\":true,\"isTesting\":\"A\"\x7d"

theorem isRefused_repeated : IsRefused repeatedText := by
  have isObject : IsObject [(textUnits "isTesting", "true".toList), (textUnits "isTesting", "\"A\"".toList)]
      repeatedText.toList :=
    isObject_of_isListed (.more (isMember_of_isQuoted (isQuoted_quoteChars "isTesting".toList) _)
      (.last (isMember_of_isQuoted (isQuoted_quoteChars "isTesting".toList) _))) rfl
  refine .repeated isObject ?_ .isTesting (by decide) (isPadded_self _)
  intro member mem
  simp only [List.mem_cons, List.not_mem_nil, or_false] at mem
  rcases mem with rfl | rfl
  · exact .bool true
  · exact .string (isQuoted_quoteChars "A".toList)

/-- One member whose name is half of a surrogate pair. -/
def loneText : String :=
  "\x7b\"\\ud800\":null\x7d"

theorem isObject_lone : IsObject [([0xd800], "null".toList)] loneText.toList :=
  isObject_of_isListed (.last (isMember_of_isQuoted isQuoted_lone _)) rfl

theorem ne_textUnits_lone (name : String) : [0xd800] ≠ textUnits name := by
  intro same
  obtain ⟨m, vs, next, -⟩ := Json.exists_trailing_of_text (by decide) same
  cases next

theorem isRefused_lone : IsRefused loneText :=
  .unnamed isObject_lone (fun _ mem => List.mem_singleton.mp mem ▸ .null)
    ⟨_, List.mem_cons_self, ne_textUnits_lone⟩ (isPadded_self _)

end Samples

/-! ### All forms -/

/-- Whatever writes some settings is read as these, with the defaults for the others, and an object that names a setting
twice or has a name that is no text is an error in the settings. -/
theorem readConfig_forms (assigned : Given) (text : String) :
    (assigned.IsWritten text → readConfig text = .ok assigned.complete) ∧
      (IsRefused text → ∃ fault, readConfig text = .error (.config fault)) := by
  constructor
  · intro written
    rw [readConfig, written.ofText]
    rfl
  · intro refused
    rw [readConfig]
    cases read : ofText text with
    | ok config => exact absurd read (refused.ofText config)
    | error fault => exact ⟨fault, rfl⟩

theorem readConfig_forms_samples :
    (twoGiven.IsWritten mixedText ∧ readConfig mixedText = .ok twoGiven.complete) ∧
      (twoGiven.IsWritten positionalText ∧ readConfig positionalText = .ok twoGiven.complete) ∧
      (IsRefused repeatedText ∧ ∃ fault, readConfig repeatedText = .error (.config fault)) ∧
      (IsRefused loneText ∧ ∃ fault, readConfig loneText = .error (.config fault)) :=
  ⟨⟨isWritten_mixed, (readConfig_forms twoGiven mixedText).1 isWritten_mixed⟩,
    ⟨isWritten_positional, (readConfig_forms twoGiven positionalText).1 isWritten_positional⟩,
    ⟨isRefused_repeated, (readConfig_forms {} repeatedText).2 isRefused_repeated⟩,
    ⟨isRefused_lone, (readConfig_forms {} loneText).2 isRefused_lone⟩⟩

/-- The name of an unknown member matters: if it is no text, an object without any setting is not read as the
defaults. -/
theorem loneName_not_read :
    IsObject [([0xd800], "null".toList)] loneText.toList ∧ IsValue "null".toList ∧
      (∀ setting, [0xd800] ≠ textUnits (Setting.key setting)) ∧ readConfig loneText ≠ .ok ({} : Given).complete := by
  refine ⟨isObject_lone, .null, fun setting => ne_textUnits_lone setting.key, fun read => ?_⟩
  rw [readConfig] at read
  cases found : ofText loneText with
  | ok config => exact isRefused_lone.ofText config found
  | error fault =>
    rw [found] at read
    cases read

end Config
end ComponentHoist
