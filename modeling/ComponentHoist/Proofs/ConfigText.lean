import ComponentHoist.Config
import ComponentHoist.Proofs.Quoted
import Mathlib.Data.List.TakeWhile

/-!
# ComponentHoist.Proofs.ConfigText — settings are read back from their text

What is written for the settings of the pass is read as the same settings, whatever names they hold.

* `Config.readElements_compact`, `Config.readStrings_compact`: the elements of a list, by induction on the list.
* `Config.Given.read_compact`: the value of one setting.
* `Config.readMembers_compact`: one member for each of some settings, in any order, by induction on the settings.
* `Config.ofText_toText`: the whole text, with white space around it.
-/

namespace ComponentHoist

/-! ### White space -/

namespace Json

theorem dropSpace_append {space : List Char} (blank : ∀ c ∈ space, isSpace c = true) (cs : List Char) :
    dropSpace (space ++ cs) = dropSpace cs :=
  List.dropWhile_append_of_pos blank

theorem dropSpace_cons {c : Char} (mark : isSpace c = false) (cs : List Char) : dropSpace (c :: cs) = c :: cs :=
  List.dropWhile_cons_of_neg (by simp [mark])

/-! ### The elements of a list -/

/-- A quoted text begins with a quote. -/
theorem quote_toList (s : String) : (quote s).toList = '"' :: (s.toList.flatMap escape ++ ['"']) := by
  simp [quote, quoteChars]

theorem compactElements_cons (element next : Json) (rest : List Json) :
    (compactElements (element :: next :: rest)).toList =
      (compact element).toList ++ ',' :: (compactElements (next :: rest)).toList := by
  simp [compactElements]

theorem length_le_compactElements (texts : List String) :
    texts.length ≤ (compactElements (texts.map .string)).toList.length := by
  induction texts with
  | nil => exact Nat.zero_le _
  | cons text texts ih =>
    cases texts with
    | nil => simp [compactElements, compact, quote_toList]
    | cons next texts =>
      rw [List.map_cons, List.map_cons, compactElements_cons, List.length_append, List.length_cons]
      simp only [List.map_cons, List.length_cons] at ih ⊢
      omega

theorem compactElements_head (text : String) (texts : List String) :
    ∃ body, (compactElements ((text :: texts).map .string)).toList = '"' :: body := by
  cases texts with
  | nil => exact ⟨_, quote_toList text⟩
  | cons next texts =>
    rw [List.map_cons, List.map_cons, compactElements_cons, compact, quote_toList]
    exact ⟨_, rfl⟩

/-! ### The members of an object -/

theorem compactMembers_cons (key : String) (value : Json) (next : String × Json) (rest : List (String × Json)) :
    (compactMembers ((key, value) :: next :: rest)).toList =
      (quote key).toList ++ ':' :: ((compact value).toList ++ ',' :: (compactMembers (next :: rest)).toList) := by
  simp [compactMembers]

theorem length_le_compactMembers (members : List (String × Json)) :
    members.length ≤ (compactMembers members).toList.length := by
  induction members with
  | nil => exact Nat.zero_le _
  | cons member members ih =>
    cases members with
    | nil => simp [compactMembers, quote_toList]
    | cons next members =>
      rw [compactMembers_cons]
      simp only [List.length_append, List.length_cons] at ih ⊢
      omega

theorem compactMembers_head (key : String) (value : Json) (rest : List (String × Json)) :
    ∃ body, (compactMembers ((key, value) :: rest)).toList = '"' :: body := by
  cases rest with
  | nil => exact ⟨_, by rw [compactMembers, String.toList_append, String.toList_append, quote_toList]; rfl⟩
  | cons next rest =>
    rw [compactMembers_cons, quote_toList]
    exact ⟨_, rfl⟩

end Json

namespace Config

open Json (dropSpace dropSpace_append dropSpace_cons compact compactElements compactMembers)

theorem readString_quote (text : String) (rest : List Char) :
    readString ((Json.quote text).toList ++ rest) = .ok (text, rest) := by
  obtain ⟨body, written, read⟩ := Json.decode_quoteChars text rest
  rw [written, List.cons_append, readString, dropSpace_cons (by decide)]
  exact read

theorem readElements_compact (rest : List Char) : ∀ {texts : List String} {fuel : Nat}, texts ≠ [] →
    texts.length ≤ fuel →
    readElements fuel ((compactElements (texts.map .string)).toList ++ ']' :: rest) = .ok (texts, rest)
  | [text], fuel + 1, _, _ => by
    have first := readString_quote text (']' :: rest)
    simp only [List.map_cons, List.map_nil, compactElements, compact, readElements, first]
    rfl
  | text :: next :: texts, fuel + 1, _, enough => by
    have first := readString_quote text
      (',' :: ((compactElements ((next :: texts).map .string)).toList ++ ']' :: rest))
    have others : readElements fuel _ = .ok (next :: texts, rest) :=
      readElements_compact rest (List.cons_ne_nil next texts) (Nat.le_of_succ_le_succ enough)
    rw [List.map_cons, List.map_cons, Json.compactElements_cons, ← List.map_cons, List.append_assoc, List.cons_append]
    simp only [compact, readElements, first]
    show (readElements fuel _ >>= _) = _
    rw [others]
    rfl

theorem readStrings_compact (texts : List String) (rest : List Char) :
    readStrings ((Json.strings texts).compact.toList ++ rest) = .ok (texts, rest) := by
  have written : (Json.strings texts).compact.toList ++ rest =
      '[' :: ((compactElements (texts.map .string)).toList ++ ']' :: rest) := by
    simp [Json.strings, compact]
  rw [written]
  cases texts with
  | nil => rfl
  | cons text texts =>
    -- The list is not empty, since a quote stands behind the bracket.
    obtain ⟨body, first⟩ := Json.compactElements_head text texts
    have enough : (text :: texts).length ≤
        ((compactElements ((text :: texts).map .string)).toList ++ ']' :: rest).length + 1 := by
      have := Json.length_le_compactElements (text :: texts)
      rw [List.length_append]
      omega
    have read := readElements_compact rest (List.cons_ne_nil text texts) enough
    rw [first] at read ⊢
    exact read

/-! ### Settings -/

namespace Setting

/-- The value of a setting. -/
def toJson (config : Config) : Setting → Json
  | isTesting => .bool config.isTesting
  | decoratorName => .string config.decoratorName
  | decoratorsToRemove => Json.strings config.decoratorsToRemove

theorem ofKey?_key (setting : Setting) : ofKey? setting.key = some setting := by
  cases setting <;> decide

end Setting

namespace Given

/-- The settings given and one more, with the value that it has in `config`. -/
def take (config : Config) (given : Given) : Setting → Given
  | .isTesting => { given with isTesting := some config.isTesting }
  | .decoratorName => { given with decoratorName := some config.decoratorName }
  | .decoratorsToRemove => { given with decoratorsToRemove := some config.decoratorsToRemove }

theorem has_take {config : Config} {given : Given} {setting other : Setting} (different : setting ≠ other) :
    (given.take config setting).has other = given.has other := by
  cases setting <;> cases other <;> first | rfl | exact absurd rfl different

/-- The value of a setting is read back. -/
theorem read_compact (config : Config) (given : Given) (setting : Setting) (rest : List Char) :
    given.read setting ((setting.toJson config).compact.toList ++ rest) = .ok (given.take config setting, rest) := by
  cases setting with
  | isTesting => cases h : config.isTesting <;> simp [Setting.toJson, h, compact, read, take] <;> rfl
  | decoratorName =>
    have text := readString_quote config.decoratorName rest
    rw [Setting.toJson, compact, read, text]
    rfl
  | decoratorsToRemove =>
    have texts := readStrings_compact config.decoratorsToRemove rest
    rw [Setting.toJson, read, texts]
    rfl

end Given

/-- A setting as a member of the object. -/
def member (config : Config) (setting : Setting) : String × Json :=
  (setting.key, setting.toJson config)

theorem toJson_eq (config : Config) : config.toJson = .object (Setting.all.map config.member) :=
  rfl

theorem complete_foldl_take (config : Config) : (Setting.all.foldl (Given.take config) {}).complete = config :=
  rfl

/-- The member of a setting that has not been given is read back. -/
theorem readMember_compact (config : Config) {given : Given} {setting : Setting} (new : given.has setting = false)
    (rest : List Char) : ∃ body, (Json.quote setting.key).toList = '"' :: body ∧
      readMember given (body ++ ':' :: ((setting.toJson config).compact.toList ++ rest)) =
        .ok (given.take config setting, rest) := by
  obtain ⟨body, written, key⟩ :=
    Json.decode_quoteChars setting.key (':' :: ((setting.toJson config).compact.toList ++ rest))
  refine ⟨body, written, ?_⟩
  simp only [readMember, key, bind, Except.bind, Setting.ofKey?_key, new]
  exact given.read_compact config setting rest

/-- The members of settings that have not been given are read back, in whatever order they stand. -/
theorem readMembers_compact (config : Config) (rest : List Char) : ∀ {settings : List Setting} {given : Given}
    {fuel : Nat}, settings ≠ [] → settings.Nodup → (∀ s ∈ settings, given.has s = false) → settings.length ≤ fuel →
    readMembers fuel given ((compactMembers (settings.map config.member)).toList ++ '\x7d' :: rest) =
      .ok (settings.foldl (Given.take config) given, rest)
  | [setting], given, fuel + 1, _, _, new, _ => by
    obtain ⟨body, key, read⟩ := readMember_compact config (new setting (List.mem_singleton_self _)) ('\x7d' :: rest)
    have written : (compactMembers ([setting].map config.member)).toList ++ '\x7d' :: rest =
        '"' :: (body ++ ':' :: ((setting.toJson config).compact.toList ++ '\x7d' :: rest)) := by
      simp [compactMembers, member, key]
    rw [written, readMembers, dropSpace_cons (by decide)]
    simp only [read]
    rfl
  | setting :: next :: settings, given, fuel + 1, _, distinct, new, enough => by
    obtain ⟨fresh, distinct⟩ := List.nodup_cons.mp distinct
    have others : readMembers fuel (given.take config setting) _ = .ok (_, rest) :=
      readMembers_compact config rest (List.cons_ne_nil next settings) distinct
        (fun s hs => by
          have different : setting ≠ s := fun same => fresh (same ▸ hs)
          rw [Given.has_take different]
          exact new s (List.mem_cons_of_mem _ hs))
        (Nat.le_of_succ_le_succ enough)
    obtain ⟨body, key, read⟩ := readMember_compact config (new setting List.mem_cons_self)
      (',' :: ((compactMembers ((next :: settings).map config.member)).toList ++ '\x7d' :: rest))
    have written : (compactMembers ((setting :: next :: settings).map config.member)).toList ++ '\x7d' :: rest =
        '"' :: (body ++ ':' :: ((setting.toJson config).compact.toList ++
          ',' :: ((compactMembers ((next :: settings).map config.member)).toList ++ '\x7d' :: rest))) := by
      simp [compactMembers, member, key]
    rw [written, readMembers, dropSpace_cons (by decide)]
    simp only [read]
    show readMembers fuel (given.take config setting) _ = _
    rw [others]
    rfl

/-! ### The whole text -/

theorem readValue_toText (config : Config) (rest : List Char) :
    readValue (config.toText.toList ++ rest) = .ok (Setting.all.foldl (Given.take config) {}, rest) := by
  have written : config.toText.toList ++ rest =
      '\x7b' :: ((compactMembers (Setting.all.map config.member)).toList ++ '\x7d' :: rest) := by
    simp [toText, toJson_eq, compact]
  have enough : Setting.all.length ≤
      ((compactMembers (Setting.all.map config.member)).toList ++ '\x7d' :: rest).length + 1 := by
    have := Json.length_le_compactMembers (Setting.all.map config.member)
    rw [List.length_map] at this
    rw [List.length_append]
    omega
  have read : readMembers _ {} _ = .ok (Setting.all.foldl (Given.take config) {}, rest) :=
    readMembers_compact config rest (by decide) (by decide) (by decide) enough
  -- The object is not empty, since a quote stands behind the brace.
  obtain ⟨members, first⟩ : ∃ members, (compactMembers (Setting.all.map config.member)).toList = '"' :: members :=
    Json.compactMembers_head _ _ _
  rw [written]
  rw [first] at read ⊢
  exact read

theorem readValue_append {space : List Char} (blank : ∀ c ∈ space, Json.isSpace c = true) (cs : List Char) :
    readValue (space ++ cs) = readValue cs := by
  rw [readValue, dropSpace_append blank, readValue]

theorem not_isBlank_toText (config : Config) (before after : String) :
    Text.isBlank (before ++ config.toText ++ after) = false := by
  have brace : '\x7b' ∈ (before ++ config.toText ++ after).toList := by simp [toText, toJson, compact]
  rw [Text.isBlank, List.all_eq_false]
  exact ⟨_, brace, by decide⟩

/-- The text of the settings is read as these settings, whatever names they hold, and so is the text with white space
around it. -/
theorem ofText_toText (config : Config) (before after : String)
    (blank : ∀ c ∈ before.toList ++ after.toList, Json.isSpace c = true) :
    ofText (before ++ config.toText ++ after) = .ok config := by
  obtain ⟨blankBefore, blankAfter⟩ := List.forall_mem_append.mp blank
  have whole : (before ++ config.toText ++ after).toList = before.toList ++ (config.toText.toList ++ after.toList) := by
    simp
  have nothing : dropSpace after.toList = [] := List.dropWhile_eq_nil_iff.mpr blankAfter
  rw [ofText, not_isBlank_toText, whole, readValue_append blankBefore, readValue_toText]
  show (if (dropSpace after.toList).isEmpty then _ else _) = _
  rw [nothing]
  exact congrArg Except.ok config.complete_foldl_take

/-! ### Names that need escapes -/

/-- Settings with an empty name and names of quotes, backslashes, control characters and characters of all lengths. -/
def awkwardNames : Config where
  isTesting := true
  decoratorName := ""
  decoratorsToRemove := ["\x22\\", "\x00\n\x1f\x7f", "ä😀", "", "decoratorName"]

theorem ofText_toText_awkwardNames :
    (∀ c ∈ " \n".toList ++ "\t\r".toList, Json.isSpace c = true) ∧
      ofText (" \n" ++ awkwardNames.toText ++ "\t\r") = .ok awkwardNames := by
  have blank : ∀ c ∈ " \n".toList ++ "\t\r".toList, Json.isSpace c = true := by
    simp [Json.isSpace]
  exact ⟨blank, ofText_toText awkwardNames " \n" "\t\r" blank⟩

end Config
end ComponentHoist
