import PathAccess.Value.Basic
/-!
# Reading JSON

The value of a JSON text. Of equal keys in a mapping the last value counts, at the place of the first. Numbers
without a fraction and an exponent are whole numbers of any size. Beyond the standard, the words for an
infinity and for what is no number are read as such.

Each reader takes a list of characters and gives a value and the characters that are left.
-/

namespace PathAccess.Json

/-- Whether `c` may stand between the parts of a text. -/
def isSpace (c : Char) : Bool :=
  c == ' ' || c == '\t' || c == '\n' || c == '\r'

/-- The characters after white space. -/
def skipSpace (cs : List Char) : List Char :=
  cs.dropWhile isSpace

/-- The characters after a word. -/
def afterWord? (word : String) (cs : List Char) : Option (List Char) :=
  if word.toList.isPrefixOf cs then some (cs.drop word.length) else none

/-! ### Texts -/

/-- The number of four hexadecimal digits. -/
def unit? (cs : List Char) : Option Nat :=
  let value (c : Char) : Option Nat :=
    if c.isDigit then some (c.toNat - 48)
    else if 'a' ≤ c ∧ c ≤ 'f' then some (c.toNat - 87)
    else if 'A' ≤ c ∧ c ≤ 'F' then some (c.toNat - 55)
    else none
  let ds := cs.take 4
  if ds.length != 4 then none else (ds.mapM value).map fun vs => vs.foldl (fun n v => 16 * n + v) 0

/-- The character of an escape of one letter. -/
def escapeLetter? (c : Char) : Option Char :=
  match c with
  | '"' => some '"'
  | '\\' => some '\\'
  | '/' => some '/'
  | 'b' => some (Char.ofNat 0x08)
  | 'f' => some (Char.ofNat 0x0C)
  | 'n' => some '\n'
  | 'r' => some '\r'
  | 't' => some '\t'
  | _ => none

/-- The character of two units of UTF-16, if they are a pair. -/
def pair? (high : Nat) (cs : List Char) : Option (Char × List Char) :=
  match cs with
  | '\\' :: 'u' :: rest =>
    (unit? rest).bind fun low =>
      if 0xD800 ≤ high && high < 0xDC00 && 0xDC00 ≤ low && low < 0xE000 then
        some (Char.ofNat (0x10000 + (high - 0xD800) * 0x400 + (low - 0xDC00)), rest.drop 4)
      else none
  | _ => none

/-- Reads a text after its first quote, onto its characters so far in reverse. Half of a pair on its own is
read as the replacement character. -/
def text? (fuel : Nat) (read : List Char) (cs : List Char) : Option (String × List Char) :=
  match fuel, cs with
  | _ + 1, '"' :: rest => some (String.ofList read.reverse, rest)
  | fuel + 1, '\\' :: 'u' :: rest =>
    (unit? rest).bind fun n =>
      match pair? n (rest.drop 4) with
      | some (c, rest) => text? fuel (c :: read) rest
      | none => text? fuel ((if h : n.isValidChar then Char.ofNatAux n h else '\uFFFD') :: read) (rest.drop 4)
  | fuel + 1, '\\' :: c :: rest => (escapeLetter? c).bind fun c => text? fuel (c :: read) rest
  | fuel + 1, c :: rest => if c.toNat < 0x20 || c == '\\' then none else text? fuel (c :: read) rest
  | _, _ => none

/-! ### Numbers -/

/-- The number of decimal digits. -/
def digits (cs : List Char) : Nat :=
  cs.foldl (fun n c => 10 * n + (c.toNat - 48)) 0

/-- The digits of a fraction, if a point and a digit come next. -/
def fraction (cs : List Char) : List Char × List Char :=
  match cs with
  | '.' :: c :: rest =>
    if c.isDigit then (c :: rest.takeWhile Char.isDigit, rest.dropWhile Char.isDigit) else ([], cs)
  | _ => ([], cs)

/-- The exponent, if a letter, perhaps a sign, and a digit come next. -/
def exponent? (cs : List Char) : Option (Int × List Char) :=
  match cs with
  | e :: rest =>
    if e != 'e' && e != 'E' then none
    else
      let (negative, rest) := match rest with
        | '-' :: rest => (true, rest)
        | '+' :: rest => (false, rest)
        | rest => (false, rest)
      let ds := rest.takeWhile Char.isDigit
      let n : Int := digits ds
      if ds.isEmpty then none else some (if negative then -n else n, rest.dropWhile Char.isDigit)
  | [] => none

/-- Reads a number. -/
def number? (cs : List Char) : Option (Scalar × List Char) :=
  let (negative, body) := match cs with
    | '-' :: rest => (true, rest)
    | cs => (false, cs)
  let whole := match body with
    | '0' :: _ => ['0']
    | body => body.takeWhile Char.isDigit
  if whole.isEmpty then none
  else
    let (places, rest) := fraction (body.drop whole.length)
    match exponent? rest with
    | some (e, rest) =>
      some (.real (Binary64.ofDecimal negative (digits (whole ++ places)) (e - places.length)), rest)
    | none =>
      if places.isEmpty then
        some (.int (if negative then -(digits whole : Int) else digits whole), rest)
      else some (.real (Binary64.ofDecimal negative (digits (whole ++ places)) (-(places.length : Int))), rest)

/-- The words for single values. -/
def wordValues : List (String × Scalar) := [
  ("null", .null), ("true", .bool true), ("false", .bool false), ("NaN", .real .nan),
  ("Infinity", .real (.infinite false)), ("-Infinity", .real (.infinite true))]

/-- Reads a word or a number. -/
def bare? (cs : List Char) : Option (Scalar × List Char) :=
  (wordValues.findSome? fun (word, s) => (afterWord? word cs).map (s, ·)).orElse fun _ => number? cs

/-! ### Values -/

mutual

/-- Reads a value. -/
def value? (fuel : Nat) (cs : List Char) : Option (Value × List Char) :=
  match fuel, cs with
  | 0, _ => none
  | _ + 1, '"' :: rest => do
    let (s, rest) ← text? (rest.length + 1) [] rest
    return (.text s, rest)
  | fuel + 1, '[' :: rest => do
    let (xs, rest) ← items? fuel true (skipSpace rest)
    return (.list xs, rest)
  | fuel + 1, '\x7b' :: rest => do
    let (es, rest) ← entries? fuel true (skipSpace rest)
    return (.map (Entries.ofPairs es), rest)
  | _, cs => (bare? cs).map fun (s, rest) => (.scalar s, rest)

/-- Reads the elements of a list from the next one on, and its end. -/
def items? (fuel : Nat) (isFirst : Bool) (cs : List Char) : Option (List Value × List Char) :=
  match fuel, cs with
  | 0, _ => none
  | fuel + 1, cs =>
    if isFirst && cs.head? == some ']' then some ([], cs.tail)
    else do
      let (v, rest) ← value? fuel cs
      match skipSpace rest with
      | ']' :: rest => return ([v], rest)
      | ',' :: rest =>
        let (vs, rest) ← items? fuel false (skipSpace rest)
        return (v :: vs, rest)
      | _ => none

/-- Reads the entries of a mapping from the next one on, and its end. -/
def entries? (fuel : Nat) (isFirst : Bool) (cs : List Char) : Option (List (Scalar × Value) × List Char) :=
  match fuel, cs with
  | fuel + 1, '"' :: rest => do
    let (k, rest) ← text? (rest.length + 1) [] rest
    let ':' :: rest := skipSpace rest | none
    let (v, rest) ← value? fuel (skipSpace rest)
    match skipSpace rest with
    | '\x7d' :: rest => return ([(.text k, v)], rest)
    | ',' :: rest =>
      let (es, rest) ← entries? fuel false (skipSpace rest)
      return ((.text k, v) :: es, rest)
    | _ => none
  | _, '\x7d' :: rest => if isFirst then some ([], rest) else none
  | _, _ => none

end

/-- The value of a JSON text. Of the limits that a reader of JSON may have, this one has none: a whole number may
have any count of digits, also more than 4300, and lists and mappings may be nested to any depth. A text is made
of characters, so that half of a pair on its own is no part of it, and is read as the replacement character. -/
def read? (s : String) : Option Value := do
  let (v, rest) ← value? (s.length + 1) (skipSpace s.toList)
  if (skipSpace rest).isEmpty then some v else none

end PathAccess.Json
