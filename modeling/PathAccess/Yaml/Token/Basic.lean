import PathAccess.Yaml.Error
/-!
# Tokens of YAML

A YAML text as a list of tokens. The structure that indentation gives is made explicit: a token begins each
list and each mapping, a token ends each, and a token stands in front of each key.
-/

namespace PathAccess.Yaml

/-- A token. -/
inductive Token where
  /-- The version of YAML that a document is written in. -/
  | version (major : Nat)
  /-- A handle for tags, and what it stands for. -/
  | handle (name stem : String)
  /-- A directive of another kind. -/
  | otherDirective
  /-- The beginning of a document. -/
  | documentStart
  /-- The end of a document. -/
  | documentEnd
  /-- The beginning of a list by indentation. -/
  | listStart
  /-- The beginning of a mapping by indentation. -/
  | mapStart
  /-- The end of a list or mapping by indentation. -/
  | blockEnd
  /-- The beginning of a list in brackets. -/
  | flowListStart
  /-- The end of a list in brackets. -/
  | flowListEnd
  /-- The beginning of a mapping in brackets. -/
  | flowMapStart
  /-- The end of a mapping in brackets. -/
  | flowMapEnd
  /-- What follows is a key. -/
  | key
  /-- What follows is the value of a key. -/
  | value
  /-- What follows is an element of a list by indentation. -/
  | item
  /-- A comma in brackets. -/
  | comma
  /-- The same value as at an anchor. -/
  | alias (name : String)
  /-- A name for the value that follows. -/
  | anchor (name : String)
  /-- The type of the value that follows, in the name space of a handle. -/
  | tag (handle : Option String) (suffix : String)
  /-- A text, plain or in another style. -/
  | scalar (text : String) (isPlain : Bool)
  deriving DecidableEq

end PathAccess.Yaml
