import ComponentHoist.Json.Numeral

/-!
# ComponentHoist.Json.Skip — passing over a JSON value

`skip` gives the text behind the first value of a text.  The value has to be well formed, but nothing is asked of it:
numbers may be of any size, surrogates may stand alone, keys may repeat, and values may be nested to any depth.
-/

namespace ComponentHoist
namespace Json

/-- White space between the tokens of a JSON text. -/
def isSpace (c : Char) : Bool :=
  c == ' ' || c == '\n' || c == '\t' || c == '\r'

/-- The text from its first character that is not white space. -/
def dropSpace (cs : List Char) : List Char :=
  cs.dropWhile isSpace

/-- The text behind the given characters. -/
def expectWord : List Char → List Char → Except Fault (List Char)
  | [], cs => .ok cs
  | _ :: _, [] => .error .truncated
  | w :: ws, c :: cs => if w = c then expectWord ws cs else .error .malformed

mutual

/-- The text behind a value.  Two units of fuel are spent on each bracket and one on each comma. -/
def skipValue : Nat → List Char → Except Fault (List Char)
  | 0, _ => .error .truncated
  | fuel + 1, cs =>
    match dropSpace cs with
    | [] => .error .truncated
    | 'n' :: rest => expectWord ['u', 'l', 'l'] rest
    | 't' :: rest => expectWord ['r', 'u', 'e'] rest
    | 'f' :: rest => expectWord ['a', 'l', 's', 'e'] rest
    | '"' :: rest => skipString rest
    | '[' :: rest =>
      match dropSpace rest with
      | ']' :: rest => .ok rest
      | rest => skipElements fuel rest
    | '\x7b' :: rest =>
      match dropSpace rest with
      | '\x7d' :: rest => .ok rest
      | rest => skipMembers fuel rest
    | c :: rest =>
      if c = '-' ∨ c.isDigit then (scanNumeral .malformed (c :: rest)).map Prod.snd
      else .error .malformed

/-- The text behind the elements of an array, of which there is at least one more, and its bracket. -/
def skipElements : Nat → List Char → Except Fault (List Char)
  | 0, _ => .error .truncated
  | fuel + 1, cs => do
    match dropSpace (← skipValue fuel cs) with
    | [] => .error .truncated
    | ',' :: rest => skipElements fuel rest
    | ']' :: rest => .ok rest
    | _ => .error .malformed

/-- The text behind the members of an object, of which there is at least one more, and its brace. -/
def skipMembers : Nat → List Char → Except Fault (List Char)
  | 0, _ => .error .truncated
  | fuel + 1, cs =>
    match dropSpace cs with
    | [] => .error .truncated
    | '"' :: rest => do
      match dropSpace (← skipString rest) with
      | [] => .error .truncated
      | ':' :: rest =>
        match dropSpace (← skipValue fuel rest) with
        | [] => .error .truncated
        | ',' :: rest => skipMembers fuel rest
        | '\x7d' :: rest => .ok rest
        | _ => .error .malformed
      | _ => .error .malformed
    | _ => .error .malformed

end

/-- The text behind the first value of a text. -/
def skip (cs : List Char) : Except Fault (List Char) :=
  skipValue (2 * cs.length + 2) cs

end Json
end ComponentHoist
