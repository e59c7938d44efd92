import PathAccess.Yaml.Node
import PathAccess.Yaml.Plain
/-!
# Reading YAML

The value of a YAML text. A text without a document has the absent value. Keys are scalars; of equal keys the
last value counts, at the place of the first. What is merged into a mapping comes in front of its own
entries and gives way to them.
-/

namespace PathAccess.Yaml

namespace Node

/-- The name space of the known tags. -/
def knownTags : String := "tag:yaml.org,2002:"

/-- The words for truth values, in any case. -/
def truth? (s : String) : Option Bool :=
  match s.toLower with
  | "yes" | "true" | "on" => some true
  | "no" | "false" | "off" => some false
  | _ => none

/-- The scalar that a plain scalar stands for. -/
def ofPlain : Plain → Except Fault Scalar
  | .value v => .ok v
  | .impossible reason => .error (.impossibleValue reason)
  | .merge | .defaultKey => .error .unreadableValue

/-- The scalar of a text under a tag. -/
def taggedScalar (tag s : String) : Except Fault Scalar :=
  let only (p : Option Plain) : Except Fault Scalar :=
    (p.map ofPlain).getD (.error .unreadableValue)
  if tag == knownTags ++ "str" then .ok (.text s)
  else if tag == knownTags ++ "null" then .ok .null
  else if tag == knownTags ++ "bool" then
    match truth? s with
    | some b => .ok (.bool b)
    | none => .error .unreadableValue
  else if tag == knownTags ++ "int" then only (Plain.int? s.toList)
  else if tag == knownTags ++ "float" then
    only ((Plain.real? s.toList).orElse fun _ => Plain.real? (s.toList ++ ['.']))
  else if tag == knownTags ++ "timestamp" then only (Plain.stamp? s.toList)
  else .error .unreadableValue

/-- The scalar of a node that is no key. -/
def toScalar (tag : Option String) (s : String) (isPlain : Bool) : Except Fault Scalar :=
  match tag with
  | some tag => taggedScalar tag s
  | none =>
    if isPlain then ofPlain (plain s) else .ok (.text s)

/-- Whether a key is the one that merges mappings. -/
def isMerge : Node → Bool
  | scalar none s true =>
    match plain s with
    | .merge => true
    | _ => false
  | scalar (some tag) _ _ => tag == knownTags ++ "merge"
  | _ => false

/-- The scalar of a key. -/
def toKey : Node → Except Fault Scalar
  | scalar none "=" true => .ok (.text "=")
  | scalar tag s isPlain => toScalar tag s isPlain
  | _ => .error .compoundKey

/-- Whether a tag is the one of a kind, or none. -/
def fits (kind : String) (tag : Option String) : Bool :=
  tag.all fun t => t == "!" || t == knownTags ++ kind

mutual

/-- The value of a node. -/
def toValue : Node → Except Fault Value
  | scalar tag s isPlain => return .scalar (← toScalar tag s isPlain)
  | list tag xs => do
    if !fits "seq" tag then throw .unreadableValue
    return .list (← itemsToValues xs)
  | map tag es => do
    if !fits "map" tag then throw .unreadableValue
    return .map (Entries.ofPairs (← entriesToPairs es))

/-- The values of the elements of a list. -/
def itemsToValues : List Node → Except Fault (List Value)
  | [] => return []
  | n :: ns => return (← toValue n) :: (← itemsToValues ns)

/-- The pairs of a mapping, what is merged in front. -/
def entriesToPairs (es : List (Node × Node)) : Except Fault (List (Scalar × Value)) :=
  return (← mergedPairs es) ++ (← ownPairs es)

/-- The pairs of a mapping's own entries. -/
def ownPairs : List (Node × Node) → Except Fault (List (Scalar × Value))
  | [] => return []
  | (k, v) :: es => do
    if isMerge k then ownPairs es
    else return (← toKey k, ← toValue v) :: (← ownPairs es)

/-- The pairs that are merged into a mapping. -/
def mergedPairs : List (Node × Node) → Except Fault (List (Scalar × Value))
  | [] => return []
  | (k, v) :: es => do
    if isMerge k then return (← sourcePairs v) ++ (← mergedPairs es)
    else mergedPairs es

/-- The pairs of what is merged: a mapping, or a list of mappings of which earlier ones win. -/
def sourcePairs : Node → Except Fault (List (Scalar × Value))
  | map _ es => return (← mergedPairs es) ++ (← ownPairs es)
  | list _ xs => listedPairs xs
  | scalar .. => throw .badMerge

/-- The pairs of mappings in a list, the last mapping first. -/
def listedPairs : List Node → Except Fault (List (Scalar × Value))
  | [] => return []
  | map _ es :: ns => return (← listedPairs ns) ++ ((← mergedPairs es) ++ (← ownPairs es))
  | _ :: _ => throw .badMerge

end

end Node

/-- The value of a YAML text. -/
def read (s : String) : Except Fault Value := do
  match ← Node.ofText? s with
  | none => return .null
  | some n => n.toValue

end PathAccess.Yaml
