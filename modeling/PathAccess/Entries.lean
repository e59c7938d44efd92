/-!
# Ordered mappings

A mapping is a list of entries in the order in which its keys came in: setting a key that is there
keeps its place, a new key goes to the end, and a key that is removed and set again has lost its place.
Trees, databases, directories and documents are all mappings of this kind.

Nothing forces the keys of a list to differ. The operations keep them distinct, and each looks at the
first entry only.
-/

namespace PathAccess

/-- Entries of a mapping from `κ` to `α`, in order. -/
abbrev Entries (κ α : Type) := List (κ × α)

namespace Entries

variable {κ α β : Type} [BEq κ]

/-- The value at a key. -/
def find? (es : Entries κ α) (k : κ) : Option α :=
  match es with
  | [] => none
  | (k', a) :: es => if k' == k then some a else find? es k

/-- Whether the key has an entry. -/
def has (es : Entries κ α) (k : κ) : Bool :=
  (find? es k).isSome

/-- Sets the value at a key, in its place if the key is there and at the end otherwise. -/
def set (es : Entries κ α) (k : κ) (a : α) : Entries κ α :=
  match es with
  | [] => [(k, a)]
  | (k', a') :: es => if k' == k then (k', a) :: es else (k', a') :: set es k a

/-- Removes the entry of a key. -/
def remove (es : Entries κ α) (k : κ) : Entries κ α :=
  match es with
  | [] => []
  | (k', a) :: es => if k' == k then es else (k', a) :: remove es k

/-- The mapping that results from setting the pairs one after the other. -/
def ofPairs (ps : List (κ × α)) : Entries κ α :=
  ps.foldl (fun es (k, a) => set es k a) []

/-- The keys, in order. -/
def keys (es : Entries κ α) : List κ :=
  es.map (·.1)

end Entries

end PathAccess
