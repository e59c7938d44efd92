/-!
# Characters in YAML

The classes of characters that decide how a YAML text is cut up, and which characters may stand in one.
-/

namespace PathAccess.Yaml

/-- Whether `c` ends a line: a line feed, a carriage return, a next-line character, or a line or paragraph
separator. -/
def isBreak (c : Char) : Bool :=
  let n := c.toNat
  n == 0x0A || n == 0x0D || n == 0x85 || n == 0x2028 || n == 0x2029

/-- Whether nothing or a break follows. -/
def isLineEnd (c? : Option Char) : Bool :=
  c?.all isBreak

/-- Whether nothing, a blank, a tab or a break follows. -/
def isGap (c? : Option Char) : Bool :=
  c?.all fun c => c == ' ' || c == '\t' || isBreak c

/-- Whether a character may stand in a YAML text as it is. -/
def isAllowed (c : Char) : Bool :=
  let n := c.toNat
  n == 0x09 || n == 0x0A || n == 0x0D || (0x20 ≤ n && n ≤ 0x7E) || n == 0x85
    || (0xA0 ≤ n && n ≤ 0xFFFD) || 0x10000 ≤ n

end PathAccess.Yaml
