import PathAccess.Text.Blank
/-!
# Breaking lines

How a text is laid out in a given width. Width is counted in cells: most characters take one, ideographs
and their like take two, and marks that combine with the character before them none. A line is broken before
a word that does not fit; a word that fits into no line is either folded into pieces or cut short.
-/

namespace PathAccess.Wrap

/-- The first and last code points of characters that are two cells wide. -/
def wideRanges : List (Nat × Nat) := [
  (0x1100, 0x115F), (0x231A, 0x231B), (0x2329, 0x232A), (0x23E9, 0x23EC), (0x2614, 0x2615),
  (0x2648, 0x2653), (0x26AA, 0x26AB), (0x26BD, 0x26BE), (0x2E80, 0x303E), (0x3041, 0x33FF),
  (0x3400, 0x4DBF), (0x4E00, 0xA4C6), (0xA960, 0xA97C), (0xAC00, 0xD7A3), (0xF900, 0xFAFF),
  (0xFE10, 0xFE19), (0xFE30, 0xFE6B), (0xFF01, 0xFF60), (0xFFE0, 0xFFE6), (0x16FE0, 0x18AFF),
  (0x1B000, 0x1B2FB), (0x1F18E, 0x1F19A), (0x1F200, 0x1F320), (0x1F32D, 0x1F335), (0x1F337, 0x1F37C),
  (0x1F37E, 0x1F393), (0x1F3A0, 0x1F3CA), (0x1F3E0, 0x1F3F0), (0x1F3F8, 0x1F43E), (0x1F442, 0x1F4FC),
  (0x1F4FF, 0x1F53D), (0x1F550, 0x1F567), (0x1F5FB, 0x1F64F), (0x1F680, 0x1F6C5), (0x1F900, 0x1F9FF),
  (0x20000, 0x3FFFD)]

/-- The first and last code points of characters that take no cell. -/
def combiningRanges : List (Nat × Nat) := [
  (0x00, 0x1F), (0x7F, 0x9F), (0x0300, 0x036F), (0x0483, 0x0489), (0x0591, 0x05BD), (0x064B, 0x065F),
  (0x0900, 0x0902), (0x093C, 0x093C), (0x0941, 0x0948), (0x0E31, 0x0E31), (0x0E34, 0x0E3A),
  (0x1AB0, 0x1AFF), (0x1DC0, 0x1DFF), (0x200B, 0x200F), (0x2028, 0x202E), (0x2060, 0x2063),
  (0x20D0, 0x20F0), (0x302A, 0x302D), (0xFE00, 0xFE0F), (0xFE20, 0xFE2F), (0xE0100, 0xE01EF)]

/-- The number of cells that a character takes. -/
def cells (c : Char) : Nat :=
  let within (r : Nat × Nat) : Bool := r.1 ≤ c.toNat && c.toNat ≤ r.2
  if combiningRanges.any within then 0 else if wideRanges.any within then 2 else 1

/-- The number of cells that a text takes. -/
def width (cs : List Char) : Nat :=
  cs.foldl (fun n c => n + cells c) 0

/-- What happens to a word that fits into no line. -/
inductive Overflow where
  /-- It is folded into pieces of the full width. -/
  | fold
  /-- It is cut, and an ellipsis shows where. -/
  | ellipsis
  deriving DecidableEq

/-- A text without the white space at its end. -/
def trimEnd (cs : List Char) : List Char :=
  (cs.reverse.dropWhile Text.isBlank).reverse

/-- Puts each word together with the white space after it. -/
def wordsWithBlanks : List (List Char) → List (List Char)
  | word :: blanks :: rest => (word ++ blanks) :: wordsWithBlanks rest
  | rest => rest

/-- The words of a line with the white space after them; the first also has what is in front of it. -/
def chunks (cs : List Char) : List (List Char) :=
  match cs.splitBy fun a b => Text.isBlank a == Text.isBlank b with
  | [] => []
  | run :: rest =>
    if run.head?.any Text.isBlank then
      match wordsWithBlanks rest with
      | [] => []
      | word :: words => (run ++ word) :: words
    else wordsWithBlanks (run :: rest)

/-- Cuts a word into pieces of at most the given width. -/
def pieces (max used : Nat) (piece : List Char) : List Char → List (List Char)
  | [] => [piece.reverse]
  | c :: cs =>
    if max < used + cells c then piece.reverse :: pieces max (cells c) [c] cs
    else pieces max (used + cells c) (c :: piece) cs

/-- Lays out words from a line on of which a part is filled. -/
def fill (max : Nat) (overflow : Overflow) (line : List Char) (used : Nat) :
    List (List Char) → List (List Char)
  | [] => [line]
  | word :: words =>
    let size := width (trimEnd word)
    let before := if line.isEmpty then [] else [line]
    if size + used ≤ max then fill max overflow (line ++ word) (used + width word) words
    else if size ≤ max then before ++ fill max overflow word (width word) words
    else
      match overflow with
      | .ellipsis => before ++ fill max overflow word (width word) words
      | .fold =>
        let folded := pieces max 0 [] word
        let last := folded.getLastD []
        before ++ folded.dropLast ++ fill max overflow last (width last) words

/-- The characters that fit into a number of cells, filled up with a blank if half a character is left. -/
def crop (max : Nat) : List Char → List Char
  | [] => []
  | c :: cs =>
    if cells c ≤ max then c :: crop (max - cells c) cs
    else List.replicate max ' '

/-- Cuts a line that is too long. -/
def cut (max : Nat) (cs : List Char) : List Char :=
  if width (trimEnd cs) ≤ max then trimEnd cs else crop (max - 1) cs ++ ['…']

/-- Replaces tabs by blanks up to the next multiple of eight columns. -/
def expandTabs (column : Nat) : List Char → List Char
  | [] => []
  | c :: cs =>
    if c == '\t' then
      let n := 8 - column % 8
      List.replicate n ' ' ++ expandTabs (column + n) cs
    else c :: expandTabs (column + cells c) cs

/-- The lines of a text between its line feeds. -/
def linesOf (cs : List Char) : List (List Char) :=
  Text.splitAt.go '\n' [] cs

/-- Lays out a text in a width. -/
def wrap (max : Nat) (overflow : Overflow) (cs : List Char) : List (List Char) :=
  (linesOf cs).flatMap fun line =>
    let laidOut := fill max overflow [] 0 (chunks (expandTabs 0 line))
    if overflow == .ellipsis then laidOut.map (cut max) else laidOut.map trimEnd

/-- Lays out a text in a width without breaking its lines. -/
def cutLines (max : Nat) (cs : List Char) : List (List Char) :=
  (linesOf cs).map fun line => cut max (expandTabs 0 line)

end PathAccess.Wrap
