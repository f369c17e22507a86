import ComponentHoist.FileName
import ComponentHoist.Text.Bytes

/-!
# ComponentHoist.PathName — written paths

A written path consists of bytes, and its slashes separate names.  A text counts as the path or the name that it
encodes.

* `pieces`, `components`: the bytes between the slashes.  Joining two paths by a slash joins their pieces.
* `lastName?`, `extension?`: the name that a path ends in, and its extension.
* `join`: the path of a place below that of a directory.
* `shown`: the text as which a path is shown.
-/

namespace ComponentHoist

/-- The name of a file or a directory. -/
abbrev Name := List UInt8

namespace Name

instance : Coe String Name :=
  ⟨Text.utf8⟩

instance : Coe (List String) (List Name) :=
  ⟨List.map Text.utf8⟩

/-- The name that stands for a directory in itself. -/
def here : Name :=
  "."

/-- The name that stands for the parent of a directory. -/
def parent : Name :=
  ".."

end Name

/-- A written path. -/
structure PathName where
  bytes : List UInt8
deriving DecidableEq

namespace PathName

instance : Coe String PathName :=
  ⟨fun text => ⟨Text.utf8 text⟩⟩

/-- The text as which a path is shown. -/
def shown (path : PathName) : String :=
  Text.shown path.bytes

instance : Coe (List PathName) (List String) :=
  ⟨List.map shown⟩

/-- The byte of a slash. -/
def slash : UInt8 :=
  0x2F

/-- The pieces between the slashes. -/
def pieces : List UInt8 → List (List UInt8)
  | [] => [[]]
  | b :: bs =>
    if b = slash then [] :: pieces bs
    else
      match pieces bs with
      | [] => [[b]]
      | first :: rest => (b :: first) :: rest

/-- The components of a path.  Components may be empty. -/
def components (path : PathName) : List Name :=
  pieces path.bytes

/-- Whether a component is more than nothing or a dot, so that it leads to another place. -/
def isStep (component : Name) : Bool :=
  component != [] && component != Name.here

/-- The name that a path ends in.  That of the parent directory is none. -/
def lastName? (path : PathName) : Option Name :=
  match (path.components.filter isStep).getLast? with
  | some name => if name = Name.parent then none else some name
  | none => none

/-- The extension of the name that a path ends in. -/
def extension? (path : PathName) : Option (List UInt8) :=
  path.lastName?.bind FileName.extension?

/-- Whether the last byte of a path is a slash. -/
def endsInSlash (path : PathName) : Bool :=
  path.bytes.getLast? = some slash

/-- The path of a directory with the names of a place below it. -/
def join (root : PathName) (place : List Name) : PathName :=
  match place with
  | [] => root
  | _ => ⟨root.bytes ++ (if root.endsInSlash then [] else [slash]) ++ [slash].intercalate place⟩

theorem pieces_ne_nil (bs : List UInt8) : pieces bs ≠ [] := by
  cases bs with
  | nil => simp [pieces]
  | cons b bs =>
    unfold pieces
    split
    · simp
    · split <;> simp

theorem pieces_append_slash (a b : List UInt8) : pieces (a ++ slash :: b) = pieces a ++ pieces b := by
  induction a with
  | nil => simp [pieces]
  | cons c a ih =>
    by_cases h : c = slash
    · simp [pieces, h, ih]
    · obtain ⟨first, rest, hp⟩ := List.exists_cons_of_ne_nil (pieces_ne_nil a)
      simp [pieces, h, ih, hp]

theorem pieces_of_notMem {a : List UInt8} (h : slash ∉ a) : pieces a = [a] := by
  induction a with
  | nil => rfl
  | cons c a ih =>
    obtain ⟨hc, ha⟩ : slash ≠ c ∧ slash ∉ a := by simpa using h
    simp [pieces, Ne.symm hc, ih ha]

end PathName
end ComponentHoist
