import PathAccess.Config.Problem
import PathAccess.Disk.FilePath
import PathAccess.Text.Blank
import PathAccess.Text.Case
import PathAccess.Value.Display
/-!
# Fields of a configuration

Reading the values of fields. Whole numbers and truth values may be written in several ways: as a text, as a
number without a fraction, or as one another. A text is never made out of anything else.

A section is a mapping with known fields, each with a default, and any others, which are kept as they are.
-/

namespace PathAccess.Config

/-! ### Single values -/

/-- The text of a value. -/
def readText : Value → Checked String
  | .scalar (.text s) => .ok s
  | _ => .fail .notText

/-- The text of a value, which may not be empty. -/
def readName (v : Value) : Checked String :=
  (readText v).require (· != "") .tooShort

/-- The text of a value, or nothing for the absent value. -/
def readOptionalText : Value → Checked (Option String)
  | .scalar .null => .ok none
  | v => some <$> readText v

/-- The path in a value, in normal form. -/
def readPath : Value → Checked String
  | .scalar (.text s) => .ok (FilePath.normal s)
  | _ => .fail .notPath

/-- The digits of a decimal numeral, with single underscores between them, read onto a value. -/
def digitsOf (value : Nat) : List Char → Option Nat
  | [] => some value
  | '_' :: c :: cs | c :: cs =>
    if c.isDigit then digitsOf (10 * value + (c.toNat - '0'.toNat)) cs else none

/-- The whole number in a text: a sign, digits, and a point with zeros after it; all but the digits may be
missing. -/
def wholeOf (s : String) : Option Int :=
  let cs := (Text.strip s).toList
  let (negative, cs) := match cs with
    | '-' :: cs => (true, cs)
    | '+' :: cs => (false, cs)
    | cs => (false, cs)
  let digits := cs.takeWhile (· != '.')
  let fraction := cs.dropWhile (· != '.')
  if digits.head?.any Char.isDigit && (fraction.drop 1).all (· == '0') then
    (digitsOf 0 digits).map fun n => if negative then -(n : Int) else n
  else none

/-- The whole number of a value. -/
def readWhole : Value → Checked Int
  | .scalar (.int n) => .ok n
  | .scalar (.bool b) => .ok (if b then 1 else 0)
  | .scalar (.text s) =>
    match wholeOf s with
    | some n => .ok n
    | none => .fail .unreadableWhole
  | .scalar (.real x) =>
    match x, x.toInt? with
    | _, some n => .ok n
    | .finite .., none => .fail .fractional
    | _, none => .fail .infinite
  | _ => .fail .notWhole

/-- The number of a value, which may not be less than zero. -/
def readCount (v : Value) : Checked Int :=
  (readWhole v).require (fun n => decide (0 ≤ n)) .negative

/-- The words for truth. -/
def trueWords : List String := ["1", "on", "t", "true", "y", "yes"]

/-- The words for falsehood. -/
def falseWords : List String := ["0", "off", "f", "false", "n", "no"]

/-- The truth value of a value: itself, one of the words in any case, or the number one or zero. -/
def readTruth : Value → Checked Bool
  | .scalar (.bool b) => .ok b
  | .scalar (.text s) =>
    let s := s.map Char.toLower
    if trueWords.contains s then .ok true
    else if falseWords.contains s then .ok false
    else .fail .unreadableTruth
  | .scalar s =>
    match s.toInt? with
    | some 1 => .ok true
    | some 0 => .ok false
    | some _ => .fail .unreadableTruth
    | none => .fail .notTruth
  | _ => .fail .notTruth

/-- The values of a list, each read in the same way. -/
def readList {α : Type} (read : Value → Checked α) : Value → Checked (List α)
  | .list vs => .all (vs.mapIdx fun i v => (read v).under (toString i))
  | _ => .fail .notList

/-! ### Sections -/

/-- The keys and values of a section or of a mapping by name. -/
abbrev Items := Entries Scalar Value

/-- A key as part of a place. -/
def placeOf : Scalar → String
  | .text s => s
  | .bool b => if b then "1" else "0"
  | s => s.quoted

/-- The values of a mapping by name, each read in the same way. -/
def readMapping {α : Type} (read : Value → Checked α) : Value → Checked (Entries String α)
  | .map items => .all (items.map fun (key, v) =>
      let name := match key with
        | .text s => .ok s
        | _ => (Checked.fail .notText).under "[key]"
      (Prod.mk <$> name <*> read v).under (placeOf key))
  | _ => .fail .notMapping

/-- The value of a known field of a section, or its default. -/
def field {α : Type} (items : Items) (name : String) (fallback : α) (read : Value → Checked α) : Checked α :=
  match Entries.find? items (.text name) with
  | some v => (read v).under name
  | none => .ok fallback

/-- What a section holds besides its known fields. Its keys have to be texts. -/
def otherItems (items : Items) (known : List String) : Checked (Entries String Value) :=
  Checked.map List.flatten <| .all <| items.map fun (key, v) =>
    match key with
    | .text name => .ok (if known.contains name then [] else [(name, v)])
    | _ => (Checked.fail .badKey).under (placeOf key)

/-- The settings of a section, and what else is written there. -/
structure Section (α : Type) where
  /-- The known fields. -/
  settings : α
  /-- The other entries, in order. -/
  others : Entries String Value := []

/-- A section with the given names of fields. -/
def readSection {α : Type} (names : List String) (read : Items → Checked α) : Value → Checked (Section α)
  | .map items => Section.mk <$> read items <*> otherItems items names
  | _ => .fail .notSection

/-- The mapping of a section. -/
def Section.toValue {α : Type} (s : Section α) (fields : α → List (String × Value)) : Value :=
  .record (fields s.settings ++ s.others)

end PathAccess.Config
