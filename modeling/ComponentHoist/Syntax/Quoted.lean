/-!
# ComponentHoist.Syntax.Quoted — string literals and templates of programs

The text of a string literal in double quotes.  Quotes, backslashes and most control characters that have an escape
are escaped, and so is the beginning of a closing `script` tag, which would end an inline script.  In templates only
the latter is.
-/

namespace ComponentHoist
namespace Quoted

/-- Whether the text goes on with `script`, in any letter case. -/
def startsScript (cs : List Char) : Bool :=
  (cs.take 6).map Char.toLower == ['s', 'c', 'r', 'i', 'p', 't']

/-- Whether the text behind an opening angle bracket makes it the beginning of a closing `script` tag. -/
def closesScript : List Char → Bool
  | '/' :: cs => startsScript cs
  | _ => false

/-- The text inside the quotes. -/
def encode : List Char → List Char
  | [] => []
  | c :: cs =>
    let written :=
      match c with
      | '"' => ['\\', '"']
      | '\\' => ['\\', '\\']
      | '\x08' => ['\\', 'b']
      | '\x0b' => ['\\', 'v']
      | '\x0c' => ['\\', 'f']
      | '\n' => ['\\', 'n']
      | '\r' => ['\\', 'r']
      | '\x00' => if (cs.head?.map Char.isDigit).getD false then ['\\', 'x', '0', '0'] else ['\\', '0']
      | '\x07' => ['\\', 'x', '0', '7']
      | '\x1b' => ['\\', 'x', '1', 'B']
      | '\u00a0' => ['\\', 'x', 'A', '0']
      | '\u2028' => ['\\', 'u', '2', '0', '2', '8']
      | '\u2029' => ['\\', 'u', '2', '0', '2', '9']
      | '<' => if closesScript cs then ['<', '\\'] else ['<']
      | c => [c]
    written ++ encode cs

/-- The text of a chunk of a template, as it is written but for closing `script` tags. -/
def encodeChunk : List Char → List Char
  | [] => []
  | c :: cs => (if c = '<' && closesScript cs then ['<', '\\'] else [c]) ++ encodeChunk cs

/-- The first quote of either kind in a text that no backslash stands in front of. -/
def firstQuote? : List Char → Option Char
  | '\\' :: _ :: cs => firstQuote? cs
  | c :: cs => if c = '"' ∨ c = '\'' then some c else firstQuote? cs
  | [] => none

/-- The literal for a text. -/
def literal (s : String) : String :=
  String.ofList ('"' :: encode s.toList ++ ['"'])

end Quoted
end ComponentHoist
