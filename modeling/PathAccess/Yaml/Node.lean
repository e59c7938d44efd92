import PathAccess.Entries
import PathAccess.Yaml.Token.Lexer
/-!
# Nodes of YAML

A YAML document as a tree of nodes: scalars, lists and mappings, each perhaps with a tag. Anchors and aliases
are resolved here; what a scalar stands for is not. An alias inside the value that it names is an alias of
nothing.

Reading is given twice the number of tokens as its fuel. That is enough: of any two nested calls, one takes a
token.
-/

namespace PathAccess.Yaml

/-- A node. -/
inductive Node where
  /-- A text, plain or in another style. -/
  | scalar (tag : Option String) (text : String) (isPlain : Bool)
  /-- A list. -/
  | list (tag : Option String) (items : List Node)
  /-- A mapping. -/
  | map (tag : Option String) (entries : List (Node × Node))

instance : Inhabited Node := ⟨.scalar none "" true⟩

namespace Node

/-- What is left where a value is left out. -/
def absent : Node := scalar none "" true

/-- The state of reading nodes. -/
structure Reading where
  /-- The tokens that are left. -/
  tokens : List Token
  /-- The nodes with an anchor. -/
  anchors : Entries String Node := []
  /-- The handles for tags. -/
  handles : Entries String String := [("!", "!"), ("!!", "tag:yaml.org,2002:")]

/-- A step of reading nodes. -/
abbrev Read := StateT Reading (Except Fault)

/-- The next token. -/
def peek? : Read (Option Token) := do
  return (← get).tokens.head?

/-- Drops the next token. -/
def advance : Read Unit :=
  modify fun r => { r with tokens := r.tokens.tail }

/-- Whether the next token is one of some; if so it is dropped. -/
def accept (t : Token) : Read Bool := do
  if (← peek?) == some t then
    advance
    return true
  else return false

/-- Drops the next token, which has to be this one. -/
def expect (t : Token) : Read Unit := do
  if !(← accept t) then throw .unexpectedToken

/-- Whether one of some tokens, or none at all, comes next. -/
def comes (ts : List Token) : Read Bool := do
  return (← peek?).all ts.contains

/-- The tag of a handle and a suffix. -/
def resolveTag (handle : Option String) (suffix : String) : Read String := do
  match handle with
  | none => return suffix
  | some h =>
    match Entries.find? (← get).handles h with
    | some stem => return stem ++ suffix
    | none => throw .undeclaredHandle

/-- The anchor and the tag in front of a node, of each at most one, in any order. -/
def properties : Read (Option String × Option String) := do
  match (← get).tokens with
  | .anchor a :: .tag h s :: _ | .tag h s :: .anchor a :: _ =>
    advance
    advance
    return (some a, some (← resolveTag h s))
  | .anchor a :: _ =>
    advance
    return (some a, none)
  | .tag h s :: _ =>
    advance
    return (none, some (← resolveTag h s))
  | _ => return (none, none)

/-- Remembers a node under its anchor. -/
def remember (anchor : Option String) (n : Node) : Read Node := do
  match anchor with
  | none => return n
  | some a =>
    if Entries.has (← get).anchors a then throw .repeatedAnchor
    modify fun r => { r with anchors := Entries.set r.anchors a n }
    return n

mutual

/-- Reads a node. A list or mapping by indentation can only come where one is allowed; a list as deep as its
key is one without a token at its beginning. -/
def read (fuel : Nat) (byIndentation asDeepAsKey : Bool) : Read Node := do
  match fuel with
  | 0 => throw .unexpectedToken
  | fuel + 1 =>
    if let some (.alias a) ← peek? then
      advance
      match Entries.find? (← get).anchors a with
      | some n => return n
      | none => throw .undefinedAlias
    else
      let (anchor, tag) ← properties
      match ← peek? with
      | some (.scalar s isPlain) =>
        advance
        -- a tag without a name makes every scalar a plain one
        remember anchor (scalar (if tag == some "!" then none else tag) s (isPlain || tag == some "!"))
      | some .flowListStart =>
        advance
        remember anchor (list tag (← flowItems fuel true))
      | some .flowMapStart =>
        advance
        remember anchor (map tag (← flowEntries fuel true))
      | next =>
        if asDeepAsKey && next == some .item then remember anchor (list tag (← shallowItems fuel))
        else if byIndentation && next == some .listStart then
          advance
          remember anchor (list tag (← items fuel))
        else if byIndentation && next == some .mapStart then
          advance
          remember anchor (map tag (← entries fuel))
        else if anchor.isSome || tag.isSome then
          remember anchor (scalar (if tag == some "!" then none else tag) "" (tag.isNone || tag == some "!"))
        else throw .unexpectedToken

/-- Reads the elements of a list by indentation, and its end. -/
def items (fuel : Nat) : Read (List Node) := do
  match fuel with
  | 0 => throw .unexpectedToken
  | fuel + 1 =>
    if ← accept .item then
      let n ← if ← comes [.item, .blockEnd] then pure absent else read fuel true false
      return n :: (← items fuel)
    else
      expect .blockEnd
      return []

/-- Reads the elements of a list as deep as its key. -/
def shallowItems (fuel : Nat) : Read (List Node) := do
  match fuel with
  | 0 => throw .unexpectedToken
  | fuel + 1 =>
    if ← accept .item then
      let n ← if ← comes [.item, .key, .value, .blockEnd] then pure absent else read fuel true false
      return n :: (← shallowItems fuel)
    else return []

/-- Reads the entries of a mapping by indentation, and its end. -/
def entries (fuel : Nat) : Read (List (Node × Node)) := do
  match fuel with
  | 0 => throw .unexpectedToken
  | fuel + 1 =>
    let isKey ← accept .key
    let isValue := (← peek?) == some .value
    if isKey then
      let k ← if ← comes [.key, .value, .blockEnd] then pure absent else read fuel true true
      let v ←
        if ← accept .value then
          if ← comes [.key, .value, .blockEnd] then pure absent else read fuel true true
        else pure absent
      return (k, v) :: (← entries fuel)
    else if isValue then throw .unexpectedToken
    else
      expect .blockEnd
      return []

/-- Reads the elements of a list in brackets, and its end. A single entry without braces is a mapping. -/
def flowItems (fuel : Nat) (isFirst : Bool) : Read (List Node) := do
  match fuel with
  | 0 => throw .unexpectedToken
  | fuel + 1 =>
    if ← accept .flowListEnd then return []
    if !isFirst then expect .comma
    if ← accept .flowListEnd then return []
    if ← accept .key then
      let k ← if ← comes [.value, .comma, .flowListEnd] then pure absent else read fuel false false
      let v ←
        if ← accept .value then
          if ← comes [.comma, .flowListEnd] then pure absent else read fuel false false
        else pure absent
      return map none [(k, v)] :: (← flowItems fuel false)
    else
      let n ← read fuel false false
      return n :: (← flowItems fuel false)

/-- Reads the entries of a mapping in brackets, and its end. A key without a colon has no value. -/
def flowEntries (fuel : Nat) (isFirst : Bool) : Read (List (Node × Node)) := do
  match fuel with
  | 0 => throw .unexpectedToken
  | fuel + 1 =>
    if ← accept .flowMapEnd then return []
    if !isFirst then expect .comma
    if ← accept .flowMapEnd then return []
    if ← accept .key then
      let k ← if ← comes [.value, .comma, .flowMapEnd] then pure absent else read fuel false false
      let v ←
        if ← accept .value then
          if ← comes [.comma, .flowMapEnd] then pure absent else read fuel false false
        else pure absent
      return (k, v) :: (← flowEntries fuel false)
    else
      let k ← read fuel false false
      return (k, absent) :: (← flowEntries fuel false)

end

/-! ### Documents -/

/-- Reads the directives of a document: at most one version, which has to be the first, and handles for tags. -/
def directives (fuel : Nat) (versions : Nat) (declared : List String) : Read Unit := do
  match fuel, ← peek? with
  | fuel + 1, some (.version major) =>
    if versions != 0 then throw .badDirective
    if major != 1 then throw .unknownVersion
    advance
    directives fuel (versions + 1) declared
  | fuel + 1, some (.handle h stem) =>
    if declared.contains h then throw .badDirective
    advance
    modify fun r => { r with handles := Entries.set r.handles h stem }
    directives fuel versions (h :: declared)
  | fuel + 1, some .otherDirective =>
    advance
    directives fuel versions declared
  | _, _ => return

/-- Reads the only document of a text, if there is one. -/
def document : Read (Option Node) := do
  let fuel := 2 * (← get).tokens.length + 2
  match ← peek? with
  | none => return none
  | some t =>
    let isDirective := match t with
      | .version _ | .handle .. | .otherDirective => true
      | _ => false
    let n ←
      if isDirective || t == .documentStart then
        directives fuel 0 []
        expect .documentStart
        match ← peek? with
        | none | some .documentStart | some .documentEnd | some (.version _) | some (.handle ..)
        | some .otherDirective => pure absent
        | _ => read fuel true false
      else read fuel true false
    if (← get).tokens.all (· == .documentEnd) then return some n else throw .severalDocuments

/-- The node of the only document of a text, if there is one. -/
def ofText? (s : String) : Except Fault (Option Node) := do
  let (n, _) ← document.run { tokens := ← tokens s }
  return n

end Node

end PathAccess.Yaml
