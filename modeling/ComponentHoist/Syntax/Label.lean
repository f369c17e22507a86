/-!
# ComponentHoist.Syntax.Label — names that may be written in quotes

Keys of properties and names in import and export lists are written bare or in quotes.
-/

namespace ComponentHoist

/-- A name, bare or in quotes. -/
inductive Label where
  | bare (text : String)
  | quoted (text : String)
deriving DecidableEq, Repr

/-- The text that the name stands for. -/
def Label.text : Label → String
  | .bare text => text
  | .quoted text => text

end ComponentHoist
