/-!
# ComponentHoist.FileName — base name and extension

A file name is split at its last dot, unless that dot is its first character.  The name of the parent directory,
`..`, is never split.

* `split`: the two parts of a name in any alphabet, which has one letter for the dot.
* `base`: the first part of a name in characters.
* `extension?`: the second part of a name in bytes.
-/

namespace ComponentHoist
namespace FileName

variable {α : Type} [DecidableEq α]

/-- The letters before the last dot and those behind it, if there is a dot. -/
def splitLastDot (dot : α) : List α → Option (List α × List α)
  | [] => none
  | c :: cs =>
    match splitLastDot dot cs with
    | some (before, after) => some (c :: before, after)
    | none => if c = dot then some ([], cs) else none

/-- The base name and, where the name has one, the extension. -/
def split (dot : α) (name : List α) : List α × Option (List α) :=
  if name = [dot, dot] then (name, none)
  else
    match splitLastDot dot name with
    | none => (name, none)
    | some ([], _) => (name, none)
    | some (base, extension) => (base, some extension)

/-- The name without its extension. -/
def base (name : List Char) : List Char :=
  (split '.' name).1

/-- The byte of a dot. -/
def dotByte : UInt8 :=
  0x2E

/-- The extension of the name. -/
def extension? (name : List UInt8) : Option (List UInt8) :=
  (split dotByte name).2

end FileName
end ComponentHoist
