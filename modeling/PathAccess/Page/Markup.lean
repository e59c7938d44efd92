/-!
# Style marks in texts

A text for a page may hold style marks: a name or a color in square brackets, a slash in front of it where
the style ends. A backslash before a bracket takes away its meaning. A page without colors shows the text
without its marks.
-/

namespace PathAccess.Markup

/-- Whether a text that follows an opening bracket closes a style mark: it begins like the name of a style
and reaches a closing bracket before any other opening one. -/
def closesMark : List Char → Bool
  | [] => false
  | c :: cs =>
    (('a' ≤ c && c ≤ 'z') || c == '#' || c == '/' || c == '@')
      && (cs.dropWhile fun c => c != ']' && c != '[').head? == some ']'

/-- The text without its marks, after so many backslashes that are not written yet, and inside a mark or
not. -/
def withoutMarks (backslashes : Nat) (inMark : Bool) : List Char → List Char
  | [] => List.replicate backslashes '\\'
  | c :: cs =>
    if inMark then withoutMarks 0 (c != ']') cs
    else if c == '\\' then withoutMarks (backslashes + 1) false cs
    else if c != '[' then List.replicate backslashes '\\' ++ c :: withoutMarks 0 false cs
    else if !closesMark cs then List.replicate (backslashes - 1) '\\' ++ c :: withoutMarks 0 false cs
    else if backslashes % 2 == 1 then
      List.replicate (backslashes / 2) '\\' ++ c :: withoutMarks 0 false cs
    else List.replicate (backslashes / 2) '\\' ++ withoutMarks 0 true cs

/-- Whether `c` makes a terminal do something other than to show a character. -/
def isTerminalControl (c : Char) : Bool :=
  let n := c.toNat
  n == 0x07 || n == 0x08 || n == 0x0B || n == 0x0C || n == 0x0D

/-- The characters that a page shows of a text as it is. -/
def shownLiterally (s : String) : List Char :=
  s.toList.filter (!isTerminalControl ·)

/-- The characters that a page shows of a text with style marks. -/
def shown (s : String) : List Char :=
  (withoutMarks 0 false s.toList).filter (!isTerminalControl ·)

end PathAccess.Markup
