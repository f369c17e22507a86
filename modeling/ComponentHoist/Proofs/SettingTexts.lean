import ComponentHoist.Proofs.SkippedValue

/-!
# ComponentHoist.Proofs.SettingTexts — the values of settings in any spelling

The value of a setting is read from every text that stands for it, and wherever the reading of a setting ends, passing
over the value would have ended there too.

* `Config.Setting.Writes`: the texts that stand for a value of a setting.
* `Config.Given.field?`, `Config.Given.set`: the settings given, one by one.
* `Config.Given.read_padded`: each text for a value is read as that value.
* `Config.Given.skip_of_read`: the reader of a setting stops where `Json.skip` does.
-/

namespace ComponentHoist

/-! ### Fuel -/

namespace Json

/-- A list has at most one item more than there are commas. -/
theorem IsListed.length_le {α : Type} {item : α → List Char → Prop} {as : List α} {cs : List Char}
    (listed : IsListed item as cs) : as.length ≤ cs.count ',' + 1 := by
  induction listed with
  | last => exact Nat.le_add_left 1 _
  | more _ _ ih =>
    rw [List.length_cons, List.count_append, List.count_cons_self]
    omega

/-- So there is fuel for each item in the text from its first character on. -/
theorem IsListed.length_le_dropSpace {α : Type} {item : α → List Char → Prop} {as : List α} {cs : List Char}
    (listed : IsListed item as cs) (rest : List Char) : as.length ≤ (dropSpace (cs ++ rest)).length + 1 := by
  have kept : (dropSpace (cs ++ rest)).count ',' = (cs ++ rest).count ',' := by
    have split : (cs ++ rest).takeWhile isSpace ++ dropSpace (cs ++ rest) = cs ++ rest :=
      List.takeWhile_append_dropWhile
    have none : ((cs ++ rest).takeWhile isSpace).count ',' = 0 :=
      List.count_eq_zero.mpr fun comma => absurd (List.mem_takeWhile_imp comma) (by decide)
    rw [← congrArg (List.count ',') split, List.count_append, none, Nat.zero_add]
  have commas : (dropSpace (cs ++ rest)).count ',' ≤ (dropSpace (cs ++ rest)).length := List.count_le_length
  rw [kept, List.count_append] at commas
  have := listed.length_le
  omega

end Json

namespace Config

open Json (dropSpace dropSpace_append dropSpace_cons dropSpace_dropSpace textUnits IsQuoted IsElement IsArray IsPadded
  IsListed boolText)

/-! ### Values of settings -/

/-- The type of the values of a setting. -/
def Setting.Content : Setting → Type
  | isTesting => Bool
  | decoratorName => String
  | decoratorsToRemove => List String

/-- The texts that stand for a value of a setting: the word for a Boolean, a string literal in any spelling, or an array
of them. -/
def Setting.Writes : (setting : Setting) → setting.Content → List Char → Prop
  | isTesting, value, cs => cs = boolText value
  | decoratorName, value, cs => IsQuoted (textUnits value) cs
  | decoratorsToRemove, values, cs => IsArray (fun value => IsQuoted (textUnits value)) values cs

/-- The value given for a setting. -/
def Given.field? (given : Given) : (setting : Setting) → Option setting.Content
  | .isTesting => given.isTesting
  | .decoratorName => given.decoratorName
  | .decoratorsToRemove => given.decoratorsToRemove

/-- The settings given, with a value for one of them. -/
def Given.set (given : Given) : (setting : Setting) → setting.Content → Given
  | .isTesting, value => { given with isTesting := some value }
  | .decoratorName, value => { given with decoratorName := some value }
  | .decoratorsToRemove, value => { given with decoratorsToRemove := some value }

namespace Given

variable {given other : Given} {setting s : Setting}

theorem field?_set_self (given : Given) (setting : Setting) (value : setting.Content) :
    (given.set setting value).field? setting = some value := by
  cases setting <;> rfl

theorem field?_set_of_ne (given : Given) (different : s ≠ setting) (value : setting.Content) :
    (given.set setting value).field? s = given.field? s := by
  cases setting <;> cases s <;> first | rfl | exact absurd rfl different

theorem has_eq (given : Given) (setting : Setting) : given.has setting = (given.field? setting).isSome := by
  cases setting <;> rfl

theorem has_eq_false_iff : given.has setting = false ↔ given.field? setting = none := by
  rw [has_eq, Option.isSome_eq_false_iff, Option.isNone_iff_eq_none]

theorem has_set_self (given : Given) (setting : Setting) (value : setting.Content) :
    (given.set setting value).has setting = true := by
  rw [has_eq, field?_set_self]
  rfl

theorem has_set_of_ne (given : Given) (different : s ≠ setting) (value : setting.Content) :
    (given.set setting value).has s = given.has s := by
  rw [has_eq, has_eq, field?_set_of_ne given different]

theorem ext_field? (same : ∀ setting, given.field? setting = other.field? setting) : given = other := by
  obtain ⟨isTesting, decoratorName, decoratorsToRemove⟩ := given
  obtain rfl : isTesting = other.isTesting := same .isTesting
  obtain rfl : decoratorName = other.decoratorName := same .decoratorName
  obtain rfl : decoratorsToRemove = other.decoratorsToRemove := same .decoratorsToRemove
  rfl

end Given

/-- What stands for a value of a setting begins neither with white space nor with a closing bracket. -/
theorem Setting.Writes.exists_cons {setting : Setting} {value : setting.Content} {text : List Char}
    (writes : setting.Writes value text) : ∃ c tail, text = c :: tail ∧ Json.isSpace c = false ∧ c ≠ ']' := by
  cases setting with
  | isTesting =>
    obtain rfl := writes
    cases value <;> exact ⟨_, _, rfl, by decide⟩
  | decoratorName => exact Json.IsQuoted.exists_cons writes
  | decoratorsToRemove => cases writes <;> exact ⟨_, _, rfl, by decide⟩

/-! ### Each text for a value is read as that value -/

section Reading

variable {cs inner rest : List Char} {mark : Char} {fuel : Nat}

theorem readString_padded {text : String} (padded : IsPadded inner cs) (quoted : IsQuoted (textUnits text) inner)
    (rest : List Char) :
    ∃ behind, readString (cs ++ rest) = .ok (text, behind) ∧ dropSpace behind = dropSpace rest := by
  obtain ⟨body, behind, spells, begins, ends⟩ := padded.quoted quoted rest
  refine ⟨behind, ?_, ends⟩
  rw [readString, begins]
  exact spells.decode behind

theorem readElements_listed {texts : List String}
    (listed : IsListed (IsElement fun text => IsQuoted (textUnits text)) texts cs) (enough : texts.length ≤ fuel)
    (rest : List Char) : readElements fuel (cs ++ ']' :: rest) = .ok (texts, rest) := by
  induction listed generalizing fuel with
  | last only =>
    obtain ⟨fuel, rfl⟩ := Nat.exists_eq_add_one_of_ne_zero (Nat.ne_zero_of_lt enough)
    obtain ⟨inner, quoted, padded⟩ := only
    obtain ⟨behind, read, ends⟩ := readString_padded padded quoted (']' :: rest)
    rw [dropSpace_cons (by decide)] at ends
    simp only [readElements, read, ends, bind, Except.bind]
    rfl
  | @more text texts cs cs' first _ ih =>
    obtain ⟨fuel, rfl⟩ := Nat.exists_eq_add_one_of_ne_zero (Nat.ne_zero_of_lt enough)
    obtain ⟨inner, quoted, padded⟩ := first
    obtain ⟨behind, read, comma⟩ := readString_padded padded quoted (',' :: (cs' ++ ']' :: rest))
    rw [dropSpace_cons (by decide)] at comma
    have others := ih (Nat.le_of_succ_le_succ enough)
    rw [List.append_assoc, List.cons_append]
    simp only [readElements, read, comma, bind, Except.bind, others]
    rfl

theorem readElements_dropSpace (fuel : Nat) (cs : List Char) :
    readElements fuel (dropSpace cs) = readElements fuel cs := by
  cases fuel with
  | zero => rfl
  | succ fuel => rw [readElements, readElements, readString, readString, dropSpace_dropSpace]

/-- Reading an array without elements. -/
theorem readStrings_nil {tail : List Char} (begins : dropSpace cs = '[' :: tail) (closed : dropSpace tail = ']' :: rest) :
    readStrings cs = .ok ([], rest) := by
  simp only [readStrings, begins, closed]

/-- Reading an array with elements. -/
theorem readStrings_some {tail : List Char} (begins : dropSpace cs = '[' :: tail)
    (noEnd : ∀ rest, dropSpace tail ≠ ']' :: rest) :
    readStrings cs = readElements ((dropSpace tail).length + 1) tail := by
  rw [← readElements_dropSpace]
  simp only [readStrings, begins]

theorem readStrings_padded {texts : List String} (padded : IsPadded inner cs)
    (array : IsArray (fun text => IsQuoted (textUnits text)) texts inner) (rest : List Char) :
    ∃ behind, readStrings (cs ++ rest) = .ok (texts, behind) ∧ dropSpace behind = dropSpace rest := by
  obtain ⟨before, after, blankBefore, blankAfter, rfl⟩ := padded
  refine ⟨after ++ rest, ?_, dropSpace_append blankAfter rest⟩
  have begins (tail : List Char) : dropSpace (before ++ '[' :: tail) = '[' :: tail :=
    Json.dropSpace_blank blankBefore rfl tail
  cases array with
  | @none space blank =>
    have written : before ++ ('[' :: (space ++ [']']) ++ after) ++ rest =
        before ++ '[' :: (space ++ ']' :: (after ++ rest)) := by simp
    rw [written]
    exact readStrings_nil (begins _) (Json.dropSpace_blank blank rfl _)
  | @some _ elements listed =>
    have written : before ++ ('[' :: (elements ++ [']']) ++ after) ++ rest =
        before ++ '[' :: (elements ++ ']' :: (after ++ rest)) := by simp
    rw [written, readStrings_some (begins _) (listed.dropSpace_ne (fun _ _ _ quoted => quoted.exists_cons) _)]
    exact readElements_listed listed (listed.length_le_dropSpace _) (after ++ rest)

/-- Each text for a value of a setting is read as that value. -/
theorem Given.read_padded (given : Given) {setting : Setting} {value : setting.Content} (padded : IsPadded inner cs)
    (writes : setting.Writes value inner) (rest : List Char) :
    ∃ behind, given.read setting (cs ++ rest) = .ok (given.set setting value, behind) ∧
      dropSpace behind = dropSpace rest := by
  cases setting with
  | isTesting =>
    obtain ⟨before, after, blankBefore, blankAfter, rfl⟩ := padded
    obtain rfl := writes
    refine ⟨after ++ rest, ?_, dropSpace_append blankAfter rest⟩
    have written : before ++ (boolText value ++ after) ++ rest = before ++ (boolText value ++ (after ++ rest)) := by
      simp
    rw [written, Given.read, readBool, dropSpace_append blankBefore]
    cases value <;>
    · rw [boolText, List.cons_append, dropSpace_cons (by decide)]
      rfl
  | decoratorName =>
    obtain ⟨behind, read, ends⟩ := readString_padded padded writes rest
    exact ⟨behind, by rw [Given.read, read]; rfl, ends⟩
  | decoratorsToRemove =>
    obtain ⟨behind, read, ends⟩ := readStrings_padded padded writes rest
    exact ⟨behind, by rw [Given.read, read]; rfl, ends⟩

end Reading

/-! ### Where the readers of settings stop -/

section Stopping

variable {cs rest : List Char} {fuel : Nat}

theorem bind_eq_ok_iff {α β : Type} {read : Except Json.Fault α} {f : α → Except Json.Fault β} {b : β} :
    read >>= f = .ok b ↔ ∃ a, read = .ok a ∧ f a = .ok b := by
  cases read <;> simp [bind, Except.bind]

theorem skipValue_of_readBool {value : Bool} (read : readBool cs = .ok (value, rest)) :
    Json.skipValue (fuel + 1) cs = .ok rest := by
  rw [Json.skipValue]
  unfold readBool at read
  split at read
  next begins =>
    obtain ⟨_, word, same⟩ := Json.map_eq_ok_iff.mp read
    cases same
    rw [begins]
    exact word
  next begins =>
    obtain ⟨_, word, same⟩ := Json.map_eq_ok_iff.mp read
    cases same
    rw [begins]
    exact word
  next => cases read

theorem skipValue_of_readString {text : String} (read : readString cs = .ok (text, rest)) :
    Json.skipValue (fuel + 1) cs = .ok rest := by
  rw [Json.skipValue]
  unfold readString at read
  split at read
  next begins =>
    rw [begins]
    exact Json.skipString_of_decode read
  next => cases read

theorem skipElements_of_read {texts : List String} {fuel fuel' : Nat} (enough : fuel < fuel')
    (read : readElements fuel cs = .ok (texts, rest)) : Json.skipElements fuel' cs = .ok rest := by
  induction fuel generalizing fuel' cs texts with
  | zero => cases read
  | succ fuel ih =>
    obtain ⟨fuel', rfl⟩ := Nat.exists_eq_add_one_of_ne_zero (Nat.ne_zero_of_lt enough)
    have positive := Nat.lt_of_succ_lt_succ enough
    obtain ⟨fuel', rfl⟩ := Nat.exists_eq_add_one_of_ne_zero (Nat.ne_zero_of_lt positive)
    obtain ⟨⟨text, behind⟩, first, others⟩ := bind_eq_ok_iff.mp read
    rw [Json.skipElements, skipValue_of_readString first]
    simp only [bind, Except.bind]
    dsimp only at others
    split at others
    next => cases others
    next closed =>
      cases others
      simp only [closed]
    next comma =>
      obtain ⟨_, next, same⟩ := bind_eq_ok_iff.mp others
      cases same
      simp only [comma]
      exact ih positive next
    next => cases others

theorem skipValue_of_readStrings {texts : List String} (read : readStrings cs = .ok (texts, rest))
    (enough : cs.length < fuel) : Json.skipValue (fuel + 1) cs = .ok rest := by
  have bracket : ∃ tail, dropSpace cs = '[' :: tail := by
    unfold readStrings at read
    split at read
    next tail begins => exact ⟨tail, begins⟩
    next => cases read
  obtain ⟨tail, begins⟩ := bracket
  by_cases closed : ∃ rest, dropSpace tail = ']' :: rest
  · obtain ⟨rest', closed⟩ := closed
    rw [readStrings_nil begins closed] at read
    cases read
    exact Json.skipValue_array_nil begins closed
  · have noEnd := not_exists.mp closed
    have shorter (cs : List Char) : (dropSpace cs).length ≤ cs.length := List.length_dropWhile_le _ _
    have whole := shorter cs
    have elements := shorter tail
    rw [begins, List.length_cons] at whole
    rw [readStrings_some begins noEnd] at read
    rw [Json.skipValue_array begins noEnd]
    exact skipElements_of_read (by omega) read

/-- The reader of a setting stops where passing over its value does. -/
theorem Given.skip_of_read {given given' : Given} {setting : Setting}
    (read : given.read setting cs = .ok (given', rest)) : Json.skip cs = .ok rest := by
  unfold Json.skip
  cases setting <;> obtain ⟨_, value, same⟩ := Json.map_eq_ok_iff.mp read <;> cases same
  · exact skipValue_of_readBool value
  · exact skipValue_of_readString value
  · exact skipValue_of_readStrings value (by omega)


theorem Given.exists_set_of_read {given given' : Given} {setting : Setting}
    (read : given.read setting cs = .ok (given', rest)) : ∃ value, given' = given.set setting value := by
  cases setting <;> obtain ⟨found, -, same⟩ := Json.map_eq_ok_iff.mp read <;> cases same <;> exact ⟨found.1, rfl⟩

end Stopping

end Config
end ComponentHoist
