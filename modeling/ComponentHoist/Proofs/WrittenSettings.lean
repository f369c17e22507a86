import ComponentHoist.Proofs.SettingTexts

/-!
# ComponentHoist.Proofs.WrittenSettings — objects and arrays that write settings

The members of an object may write settings in any order and with anything else between them, and an array may write the
first ones by position.  The readers of both find the settings that were written.

* `Config.Given.WrittenBy`: the members that write some settings, each once.
* `Config.Given.Awaits.readMember`, `Config.Given.Awaits.readMembers`: what is left to be read becomes less with each
  member, and all of them are read, by induction on the list.
* `Config.readPositions_listed`: the elements of an array, by induction on the list.
* `Config.Given.WrittenBy.readValue`, `Config.readValue_positions`: whole objects and arrays.
-/

namespace ComponentHoist
namespace Config

open Json (dropSpace dropSpace_cons dropSpace_dropSpace textUnits Spells IsElement IsArray IsMember
  IsObject IsPadded IsListed IsEnd IsValue)

/-! ### Members that write settings -/

/-- Whether the text stands for the value given for the setting. -/
def Given.Writes (assigned : Given) (setting : Setting) (text : List Char) : Prop :=
  ∃ value, assigned.field? setting = some value ∧ setting.Writes value text

/-- Whether each member for itself is right: what names a setting stands for the value assigned to it, and what is no
setting is any value. -/
structure Given.Suits (assigned : Given) (members : List (String × List Char)) : Prop where
  known : ∀ setting text, (setting.key, text) ∈ members → assigned.Writes setting text
  others : ∀ member ∈ members, (∀ setting, member.1 ≠ Setting.key setting) → IsValue member.2

/-- The members of an object that write the settings assigned: each of these is named once, and no other setting is. -/
structure Given.WrittenBy (assigned : Given) (members : List (String × List Char)) : Prop
    extends assigned.Suits members where
  once : ∀ setting, (members.map Prod.fst).count setting.key = if assigned.has setting then 1 else 0

/-! ### Members of an object -/

section Members

variable {assigned given given' : Given} {name : String} {text body behind value cs rest : List Char} {mark : Char}
  {members : List (String × List Char)} {fuel : Nat}

theorem Setting.key_injective {s t : Setting} (same : s.key = t.key) : s = t :=
  Option.some.inj ((ofKey?_key s).symm.trans ((congrArg ofKey? same).trans (ofKey?_key t)))

theorem Setting.ofKey?_eq_none (unknown : ∀ setting, name ≠ Setting.key setting) : ofKey? name = none :=
  List.find?_eq_none.mpr fun setting _ same => unknown setting (beq_iff_eq.mp same).symm

theorem expectColon_of_dropSpace (colon : dropSpace behind = ':' :: rest) : expectColon behind = .ok rest := by
  simp only [expectColon, colon]

theorem Given.Suits.tail {member : String × List Char} (suits : assigned.Suits (member :: members)) :
    assigned.Suits members where
  known := fun setting text mem => suits.known setting text (List.mem_cons_of_mem _ mem)
  others := fun other mem => suits.others other (List.mem_cons_of_mem _ mem)

/-- What is left to be read when some of the settings assigned have been given: the members that remain name those that
have not been given, each once, and those that have been given have the values assigned. -/
structure Given.Awaits (assigned given : Given) (members : List (String × List Char)) : Prop
    extends assigned.Suits members where
  once : ∀ setting, (members.map Prod.fst).count setting.key =
    if assigned.has setting && !given.has setting then 1 else 0
  same : ∀ setting, given.has setting = true → given.field? setting = assigned.field? setting

theorem Given.WrittenBy.awaits (written : assigned.WrittenBy members) : assigned.Awaits {} members where
  toSuits := written.toSuits
  once := fun setting => by
    have nothing : ({} : Given).has setting = false := by cases setting <;> rfl
    rw [written.once, nothing, Bool.not_false, Bool.and_true]
  same := fun setting has => by cases setting <;> cases has

/-- When nothing is left to be read, the settings assigned have been given. -/
theorem Given.Awaits.eq_of_nil (awaits : assigned.Awaits given []) : given = assigned := by
  refine ext_field? fun setting => ?_
  cases given_has : given.has setting with
  | true => exact awaits.same setting given_has
  | false =>
    have assigned_has : assigned.has setting = false := by
      have once := awaits.once setting
      rw [given_has] at once
      simpa using once
    rw [has_eq_false_iff.mp given_has, has_eq_false_iff.mp assigned_has]

/-- A member that is read leaves the others to be read. -/
theorem Given.Awaits.readMember (awaits : assigned.Awaits given ((name, text) :: members))
    (spells : Spells body (textUnits name)) (padded : IsPadded text value)
    (colon : dropSpace behind = ':' :: (value ++ mark :: rest)) (ends : IsEnd mark) :
    ∃ given' behind', Config.readMember given (body ++ '"' :: behind) = .ok (given', behind') ∧
      dropSpace behind' = mark :: rest ∧ assigned.Awaits given' members := by
  have key := spells.decode behind
  have value := expectColon_of_dropSpace colon
  by_cases known : ∃ setting, name = Setting.key setting
  · obtain ⟨setting, rfl⟩ := known
    obtain ⟨content, assigned_content, writes⟩ := awaits.known setting text List.mem_cons_self
    have once := awaits.once setting
    rw [List.map_cons, List.count_cons_self] at once
    have new : given.has setting = false := by
      cases given_has : given.has setting with
      | false => rfl
      | true => simp [given_has] at once
    obtain ⟨behind', read, behindMark⟩ := given.read_padded padded writes (mark :: rest)
    rw [dropSpace_cons ends.isSpace] at behindMark
    refine ⟨given.set setting content, behind', ?_, behindMark, awaits.tail, fun other => ?_, fun other has => ?_⟩
    · simp only [Config.readMember, key, bind, Except.bind, Setting.ofKey?_key, new, value]
      exact read
    · by_cases this : other = setting
      · subst this
        -- this was the one member with the name
        have gone : (members.map Prod.fst).count other.key = 0 := by split at once <;> omega
        rw [gone, has_set_self, Bool.not_true, Bool.and_false]
        rfl
      · have different : Setting.key setting ≠ other.key := fun same => this (Setting.key_injective same).symm
        rw [has_set_of_ne given this, ← awaits.once other, List.map_cons, List.count_cons_of_ne different]
    · by_cases this : other = setting
      · subst this
        rw [field?_set_self, assigned_content]
      · rw [field?_set_of_ne given this]
        exact awaits.same other (has_set_of_ne given this content ▸ has)
  · have unknown : ∀ setting, name ≠ Setting.key setting := fun setting same => known ⟨setting, same⟩
    obtain ⟨behind', skipped, behindMark⟩ :=
      padded.skip (awaits.others (name, text) List.mem_cons_self unknown) ends rest
    refine ⟨given, behind', ?_, behindMark, awaits.tail, fun setting => ?_, awaits.same⟩
    · simp only [Config.readMember, key, bind, Except.bind, Setting.ofKey?_eq_none unknown, value, skipped]
      rfl
    · rw [← awaits.once setting, List.map_cons, List.count_cons_of_ne (unknown setting)]

/-- The members that are left are read to the closing brace, and then nothing is missing. -/
theorem Given.Awaits.readMembers {named : List (List Nat × List Char)} (listed : IsListed IsMember named cs)
    (names : named = members.map fun member => (textUnits member.1, member.2)) (awaits : assigned.Awaits given members)
    (enough : named.length ≤ fuel) (rest : List Char) :
    Config.readMembers fuel given (cs ++ '\x7d' :: rest) = .ok (assigned, rest) := by
  induction listed generalizing given members fuel with
  | last only =>
    obtain ⟨fuel, rfl⟩ := Nat.exists_eq_add_one_of_ne_zero (Nat.ne_zero_of_lt enough)
    obtain ⟨⟨name, text⟩, rfl, rfl⟩ := List.map_eq_singleton_iff.mp names.symm
    obtain ⟨body, behind, value, spells, padded, -, begins, colon⟩ := only.colon ('\x7d' :: rest)
    obtain ⟨given', behind', read, closed, nothing⟩ := awaits.readMember spells padded colon (.inr (.inr rfl))
    obtain rfl := nothing.eq_of_nil
    simp only [Config.readMembers, begins, read, closed, bind, Except.bind]
    rfl
  | @more _ _ cs cs' first _ ih =>
    obtain ⟨fuel, rfl⟩ := Nat.exists_eq_add_one_of_ne_zero (Nat.ne_zero_of_lt enough)
    obtain ⟨⟨name, text⟩, members, rfl, rfl, rfl⟩ := List.map_eq_cons_iff.mp names.symm
    obtain ⟨body, behind, value, spells, padded, -, begins, colon⟩ := first.colon (',' :: (cs' ++ '\x7d' :: rest))
    obtain ⟨given', behind', read, comma, left⟩ := awaits.readMember spells padded colon (.inl rfl)
    have others := ih rfl left (Nat.le_of_succ_le_succ enough)
    rw [List.append_assoc, List.cons_append]
    simp only [Config.readMembers, begins, read, comma, bind, Except.bind, others]

end Members

/-! ### Elements of an array -/

section Positions

variable {assigned given : Given} {cs rest : List Char}

theorem field?_set_assigned {setting : Setting} {content : setting.Content}
    (assigned_content : assigned.field? setting = some content) (other : Setting) :
    (given.set setting content).field? other =
      if other = setting then assigned.field? other else given.field? other := by
  by_cases this : other = setting
  · subst this
    rw [if_pos rfl, Given.field?_set_self, assigned_content]
  · rw [if_neg this, Given.field?_set_of_ne given this]

/-- The elements are read to the closing bracket, and the settings in front have the values assigned to them. -/
theorem readPositions_listed {settings : List Setting} (listed : IsListed (IsElement assigned.Writes) settings cs)
    (given : Given) (others : List Setting) (rest : List Char) : ∃ given',
      readPositions given (settings ++ others) (cs ++ ']' :: rest) = .ok (given', rest) ∧ ∀ setting,
        given'.field? setting = if setting ∈ settings then assigned.field? setting else given.field? setting := by
  induction listed generalizing given with
  | @last setting cs only =>
    obtain ⟨text, ⟨content, assigned_content, writes⟩, padded⟩ := only
    obtain ⟨behind, read, closed⟩ := given.read_padded padded writes (']' :: rest)
    rw [dropSpace_cons (by decide)] at closed
    refine ⟨given.set setting content, ?_, fun other => ?_⟩
    · simp only [List.cons_append, readPositions, read, closed, bind, Except.bind]
      rfl
    · simp only [field?_set_assigned assigned_content other, List.mem_singleton]
  | @more setting settings cs cs' first _ ih =>
    obtain ⟨text, ⟨content, assigned_content, writes⟩, padded⟩ := first
    obtain ⟨behind, read, comma⟩ := given.read_padded padded writes (',' :: (cs' ++ ']' :: rest))
    rw [dropSpace_cons (by decide)] at comma
    obtain ⟨given', next, fields⟩ := ih (given.set setting content)
    refine ⟨given', ?_, fun other => ?_⟩
    · rw [List.append_assoc, List.cons_append]
      simp only [List.cons_append, readPositions, read, comma, bind, Except.bind, next]
    · rw [fields other, field?_set_assigned assigned_content other]
      by_cases later : other ∈ settings
      · rw [if_pos later, if_pos (List.mem_cons_of_mem _ later)]
      · simp only [later, if_false, List.mem_cons, or_false]

theorem readPositions_dropSpace (given : Given) (settings : List Setting) (cs : List Char) :
    readPositions given settings (dropSpace cs) = readPositions given settings cs := by
  cases settings with
  | nil => rfl
  | cons setting settings =>
    have same : given.read setting (dropSpace cs) = given.read setting cs := by
      cases setting
      · rw [Given.read, Given.read, readBool, readBool, dropSpace_dropSpace]
      · rw [Given.read, Given.read, readString, readString, dropSpace_dropSpace]
      · rw [Given.read, Given.read, readStrings, readStrings, dropSpace_dropSpace]
    rw [readPositions, readPositions, same]

end Positions

/-! ### Whole values -/

section Values

variable {assigned given : Given} {rest : List Char}

theorem readMembers_dropSpace (fuel : Nat) (given : Given) (cs : List Char) :
    readMembers fuel given (dropSpace cs) = readMembers fuel given cs := by
  cases fuel with
  | zero => rfl
  | succ fuel => rw [readMembers, readMembers, dropSpace_dropSpace]

/-- The text of an object is read from its first member on. -/
theorem readValue_object {members : List (List Nat × List Char)} {cs : List Char}
    (listed : IsListed IsMember members cs) (rest : List Char) : ∃ fuel, members.length ≤ fuel ∧
      readValue ('\x7b' :: (cs ++ ['\x7d']) ++ rest) = readMembers fuel {} (cs ++ '\x7d' :: rest) := by
  refine ⟨_, listed.length_le_dropSpace ('\x7d' :: rest), ?_⟩
  have noEnd := listed.dropSpace_ne_brace ('\x7d' :: rest)
  rw [List.cons_append, List.append_assoc, List.singleton_append, ← readMembers_dropSpace, readValue,
    dropSpace_cons (by decide)]
  simp only

theorem readValue_object_nil {space : List Char} (blank : Json.IsBlank space) (rest : List Char) :
    readValue ('\x7b' :: (space ++ ['\x7d']) ++ rest) = .ok ({}, rest) := by
  have closed : dropSpace (space ++ '\x7d' :: rest) = '\x7d' :: rest := Json.dropSpace_blank blank rfl rest
  rw [List.cons_append, List.append_assoc, List.singleton_append, readValue, dropSpace_cons (by decide)]
  simp only [closed]

/-- The text of an array is read from its first element on. -/
theorem readValue_array {cs : List Char} (noEnd : ∀ rest', dropSpace (cs ++ ']' :: rest) ≠ ']' :: rest') :
    readValue ('[' :: (cs ++ [']']) ++ rest) = readPositions {} Setting.all (cs ++ ']' :: rest) := by
  rw [List.cons_append, List.append_assoc, List.singleton_append, ← readPositions_dropSpace, readValue,
    dropSpace_cons (by decide)]
  simp only

theorem readValue_array_nil {space : List Char} (blank : Json.IsBlank space) (rest : List Char) :
    readValue ('[' :: (space ++ [']']) ++ rest) = .ok ({}, rest) := by
  have closed : dropSpace (space ++ ']' :: rest) = ']' :: rest := Json.dropSpace_blank blank rfl rest
  rw [List.cons_append, List.append_assoc, List.singleton_append, readValue, dropSpace_cons (by decide)]
  simp only [closed]

/-- Every object that writes the settings assigned is read as these. -/
theorem Given.WrittenBy.readValue {members : List (String × List Char)} {object : List Char}
    (written : assigned.WrittenBy members)
    (isObject : IsObject (members.map fun member => (textUnits member.1, member.2)) object) (rest : List Char) :
    Config.readValue (object ++ rest) = .ok (assigned, rest) := by
  have awaits := written.awaits
  generalize names : members.map (fun member => (textUnits member.1, member.2)) = named at isObject
  cases isObject with
  | none blank =>
    obtain rfl := List.map_eq_nil_iff.mp names
    rw [readValue_object_nil blank, awaits.eq_of_nil]
  | some listed =>
    obtain ⟨fuel, enough, same⟩ := readValue_object listed rest
    rw [same]
    exact awaits.readMembers listed names.symm enough rest

/-- Every array of the values assigned to the settings in front is read as these: what stands behind them in the order
of positions keeps what it had, which is nothing. -/
theorem readValue_positions {count : Nat} {array : List Char}
    (first : ∀ setting, assigned.has setting = true ↔ setting ∈ Setting.all.take count)
    (isArray : IsArray assigned.Writes (Setting.all.take count) array) (rest : List Char) :
    readValue (array ++ rest) = .ok (assigned, rest) := by
  have fields (given : Given) (all : ∀ setting, given.field? setting =
      if setting ∈ Setting.all.take count then assigned.field? setting else ({} : Given).field? setting) :
      given = assigned := by
    refine Given.ext_field? fun setting => ?_
    rw [all setting]
    by_cases mem : setting ∈ Setting.all.take count
    · rw [if_pos mem]
    · have nothing := Given.has_eq_false_iff.mp (Bool.eq_false_iff.mpr fun has => mem ((first setting).mp has))
      rw [if_neg mem, nothing]
      cases setting <;> rfl
  have whole : Setting.all.take count ++ Setting.all.drop count = Setting.all := List.take_append_drop _ _
  generalize Setting.all.take count = front at isArray fields whole
  cases isArray with
  | none blank =>
    obtain rfl := fields {} fun setting => (if_neg List.not_mem_nil).symm
    exact readValue_array_nil blank rest
  | some listed =>
    obtain ⟨given, read, all⟩ := readPositions_listed listed {} (Setting.all.drop count) rest
    obtain rfl := fields given all
    rw [readValue_array (listed.dropSpace_ne (fun _ _ _ ⟨_, _, writes⟩ => writes.exists_cons) _), ← whole]
    exact read

end Values

end Config
end ComponentHoist
