import PathAccess.Calendar
import PathAccess.Decimal.Binary64
import PathAccess.Entries
/-!
# Plain data

What documents, configuration files and audit records are made of: scalars, lists and mappings. A key
of a mapping is a scalar. Mappings keep the order of their entries, and two mappings are equal when
they hold the same entries in any order.

Numbers are compared by value, and a truth value counts as the number one or zero, so `true`, `1` and
`1.0` are one key and not three.
-/

namespace PathAccess

/-- A value without parts. -/
inductive Scalar where
  /-- The absent value. -/
  | null
  /-- A truth value. -/
  | bool (b : Bool)
  /-- A whole number. -/
  | int (n : Int)
  /-- A number with a fraction or an exponent. -/
  | real (x : Binary64)
  /-- A text. -/
  | text (s : String)
  /-- A day. -/
  | date (d : Date)
  /-- A moment of a day. -/
  | moment (m : Moment)

/-- A scalar, a list or a mapping. -/
inductive Value where
  /-- A value without parts. -/
  | scalar (s : Scalar)
  /-- A list of values. -/
  | list (items : List Value)
  /-- A mapping, in the order of its entries. -/
  | map (entries : List (Scalar × Value))

namespace Scalar

/-- The whole number that a scalar stands for, if it is one. -/
def toInt? : Scalar → Option Int
  | bool b => some (if b then 1 else 0)
  | int n => some n
  | real x => x.toInt?
  | _ => none

/-- Equality of scalars: by value for numbers and truth values, literal for texts and days. Moments are
equal as instants, if both have an offset or neither has. -/
def equal : Scalar → Scalar → Bool
  | null, null => true
  | text s, text t => s == t
  | date d, date e => d == e
  | moment m, moment n => m.offset.isSome == n.offset.isSome && m.instant == n.instant
  | real x, real y => x.equal y
  | a, b =>
    match a.toInt?, b.toInt? with
    | some m, some n => m == n
    | _, _ => false

instance : BEq Scalar := ⟨equal⟩

end Scalar

namespace Value

/-- The absent value. -/
abbrev null : Value := scalar .null

instance : Inhabited Value := ⟨null⟩

/-- A truth value. -/
abbrev bool (b : Bool) : Value := scalar (.bool b)

/-- A whole number. -/
abbrev int (n : Int) : Value := scalar (.int n)

/-- A text. -/
abbrev text (s : String) : Value := scalar (.text s)

/-- A list of texts. -/
def texts (ss : List String) : Value := list (ss.map text)

/-- A mapping with texts as keys. -/
def record (fields : List (String × Value)) : Value :=
  map (fields.map fun (k, v) => (.text k, v))

mutual

/-- Equality of values; the order of a mapping's entries does not count. -/
def equal : Value → Value → Bool
  | scalar a, scalar b => a == b
  | list xs, list ys => equalLists xs ys
  | map es, map fs => es.length == fs.length && equalEntries es fs
  | _, _ => false

/-- Equality of lists, element by element. -/
def equalLists : List Value → List Value → Bool
  | [], [] => true
  | x :: xs, y :: ys => equal x y && equalLists xs ys
  | _, _ => false

/-- Whether each entry of the first mapping is one of the second. -/
def equalEntries : List (Scalar × Value) → List (Scalar × Value) → Bool
  | [], _ => true
  | (k, v) :: es, fs =>
    (match Entries.find? fs k with
      | some w => equal v w
      | none => false) && equalEntries es fs

end

/-- Whether a value stands for nothing: the absent value, false, zero, or something empty. -/
def isVoid : Value → Bool
  | scalar .null => true
  | scalar (.text s) => s.isEmpty
  | scalar s => s.toInt? == some 0
  | list xs => xs.isEmpty
  | map es => es.isEmpty

/-- The value of a field of a mapping. -/
def field? (name : String) : Value → Option Value
  | map es => Entries.find? es (.text name)
  | _ => none

/-- The texts of a list that holds nothing else. -/
def toTexts? : Value → Option (List String)
  | list xs => xs.mapM fun
    | scalar (.text s) => some s
    | _ => none
  | _ => none

end Value

end PathAccess
