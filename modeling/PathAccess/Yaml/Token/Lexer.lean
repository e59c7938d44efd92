import PathAccess.Yaml.Token.Property
import PathAccess.Yaml.Token.Scalar
/-!
# From a text to tokens

Tokens are cut off the text one after the other. What makes YAML harder than that is the key: whether a
scalar is one shows only at the colon after it. So the place of everything that could be a key is remembered,
and when a colon follows on the same line and near enough, the token for the key is put in at that place, and
before it the beginning of a mapping if the key is indented deeper than what is around it.
-/

namespace PathAccess.Yaml

/-- Something that is a key if a colon follows. -/
structure KeyCandidate where
  /-- The number of tokens before it. -/
  tokens : Nat
  /-- Whether it has to be a key, by its indentation. -/
  isRequired : Bool
  /-- Where it begins. -/
  start : Cursor

/-- How far a text has been cut into tokens. -/
structure Lexer where
  /-- The text that is left. -/
  cursor : Cursor
  /-- The tokens so far. -/
  tokens : Array Token := #[]
  /-- The column of the innermost list or mapping by indentation; `-1` outside of all. -/
  indent : Int := -1
  /-- The columns of those around it, from the inside out. -/
  outer : List Int := []
  /-- The candidates for keys, one for each open bracket from the inside out, and last the one outside of all
  brackets. -/
  candidates : List (Option KeyCandidate) := [none]
  /-- Whether a key can begin here. -/
  keyAllowed : Bool := true

/-- A step of cutting a text into tokens. -/
abbrev Lex := StateT Lexer (Except Fault)

namespace Lexer

/-- Whether the place is inside brackets. -/
def inFlow (l : Lexer) : Bool := 1 < l.candidates.length

/-- Takes up a token that was read, with the text after it. -/
def take (t : Token) (cursor : Cursor) : Lex Unit :=
  modify fun l => { l with tokens := l.tokens.push t, cursor }

/-- Sets whether a key can begin at the next place. -/
def allowKey (keyAllowed : Bool) : Lex Unit :=
  modify ({ · with keyAllowed })

/-- Skips blanks, comments and breaks up to the next token. Outside of brackets, a key can begin after a
break. -/
def skipGap (fuel : Nat) (c : Cursor) (keyAllowed inFlow : Bool) : Cursor × Bool :=
  match fuel with
  | 0 => (c, keyAllowed)
  | fuel + 1 =>
    let c := c.skipBlanks
    let c := if c.peek? == some '#' then (c.span (!isBreak ·)).2 else c
    match c.lineBreak? with
    | some (_, c) => skipGap fuel c (keyAllowed || !inFlow) inFlow
    | none => (c, keyAllowed)

/-- Drops a candidate that can no longer be a key, for it is on an earlier line or too far back. -/
def dropIfStale (c : Cursor) : Option KeyCandidate → Except Fault (Option KeyCandidate)
  | none => .ok none
  | some k =>
    if k.start.line == c.line && c.index ≤ k.start.index + 1024 then .ok (some k)
    else if k.isRequired then .error .missingColon
    else .ok none

/-- Drops all candidates that can no longer be a key. -/
def dropStale (c : Cursor) (ks : List (Option KeyCandidate)) : Except Fault (List (Option KeyCandidate)) :=
  ks.mapM (dropIfStale c)

/-- Drops the innermost candidate, which must not be one that has to be a key. -/
def dropCandidate : Lex Unit := do
  match (← get).candidates with
  | [] => return
  | k :: ks =>
    if k.any (·.isRequired) then throw .missingColon
    modify ({ · with candidates := none :: ks })

/-- Remembers the present place as one where a key may begin. -/
def addCandidate : Lex Unit := do
  let l ← get
  if l.keyAllowed then
    dropCandidate
    let isRequired := !l.inFlow && l.indent == l.cursor.column
    modify fun l => { l with
      candidates := some ⟨l.tokens.size, isRequired, l.cursor⟩ :: l.candidates.drop 1 }

/-- Ends all lists and mappings that are indented deeper than a column. -/
def unindent (column : Int) : List Int → Lexer → Lexer
  | [], l => l
  | i :: outer, l =>
    if l.indent ≤ column then l
    else unindent column outer { l with indent := i, outer, tokens := l.tokens.push .blockEnd }

/-- Ends all lists and mappings that are indented deeper than a column, outside of brackets. -/
def unindentTo (column : Int) : Lex Unit :=
  modify fun l => if l.inFlow then l else unindent column l.outer l

/-- Begins a list or mapping at a column if that is deeper than what is around it; its token goes to the
given place. -/
def indentTo (column : Nat) (place : Nat) (t : Token) : Lex Unit :=
  modify fun l =>
    if l.inFlow || (column : Int) ≤ l.indent then l
    else { l with
      indent := column, outer := l.indent :: l.outer, tokens := l.tokens.insertIdxIfInBounds place t }

/-- Fails outside of brackets where no key can begin. -/
def requireKeyAllowed : Lex Unit := do
  let l ← get
  if !l.inFlow && !l.keyAllowed then throw .misplacedIndicator

/-! ### One token -/

/-- Ends everything before a directive or a marker between documents. -/
def endDocument : Lex Unit := do
  unindentTo (-1)
  dropCandidate
  allowKey false

/-- Takes up an indicator of so many characters. -/
def takeIndicator (t : Token) (length : Nat) : Lex Unit := do
  take t ((← get).cursor.skip length)

/-- An opening bracket. -/
def openFlow (t : Token) : Lex Unit := do
  addCandidate
  modify fun l => { l with candidates := none :: l.candidates, keyAllowed := true }
  takeIndicator t 1

/-- A closing bracket. -/
def closeFlow (t : Token) : Lex Unit := do
  dropCandidate
  if !(← get).inFlow then throw .unexpectedToken
  modify fun l => { l with candidates := l.candidates.drop 1, keyAllowed := false }
  takeIndicator t 1

/-- A comma inside brackets, or where it is an error. -/
def comma : Lex Unit := do
  allowKey true
  dropCandidate
  takeIndicator .comma 1

/-- The hyphen of an element of a list, or the question mark of a key. -/
def blockIndicator (start t : Token) (keyAfter : Bool) : Lex Unit := do
  requireKeyAllowed
  let l ← get
  indentTo l.cursor.column l.tokens.size start
  allowKey keyAfter
  dropCandidate
  takeIndicator t 1

/-- The colon before a value, which makes the last candidate a key. -/
def colon : Lex Unit := do
  let l ← get
  match l.candidates with
  | some k :: ks =>
    modify fun l => { l with
      candidates := none :: ks, keyAllowed := false, tokens := l.tokens.insertIdxIfInBounds k.tokens .key }
    indentTo k.start.column k.tokens .mapStart
  | _ =>
    requireKeyAllowed
    indentTo l.cursor.column l.tokens.size .mapStart
    allowKey !l.inFlow
    dropCandidate
  takeIndicator .value 1

/-- Something that may be a key, with how it is read. -/
def content (read : Cursor → Except Fault (Token × Cursor)) : Lex Unit := do
  addCandidate
  allowKey false
  let (t, c) ← read (← get).cursor
  take t c

/-- A plain scalar. -/
def plainContent : Lex Unit := do
  addCandidate
  let l ← get
  let (text, endsLine, c) := plainScalar l.inFlow (l.indent + 1) l.cursor.rest.length [] [] false l.cursor
  allowKey endsLine
  take (.scalar (String.ofList text) true) c

/-- A block of text. -/
def blockContent (isFolded : Bool) : Lex Unit := do
  allowKey true
  dropCandidate
  let l ← get
  let (text, c) ← blockScalar isFolded l.indent l.cursor.next
  take (.scalar (String.ofList text) false) c

/-- A quoted scalar. -/
def quotedContent (isDouble : Bool) (c : Cursor) : Except Fault (Token × Cursor) := do
  let (text, c) ← quotedScalar isDouble c.rest.length [] c.next
  return (.scalar (String.ofList text) false, c)

/-- Whether a plain scalar can begin with `c` before a next character. -/
def beginsPlain (inFlow : Bool) (c : Char) (next : Option Char) : Bool :=
  !(isGap (some c) || "-?:,[]\x7b\x7d#&*!|>'\"%@\x60".toList.contains c)
    || (!isGap next && (c == '-' || (!inFlow && (c == '?' || c == ':'))))

/-- Cuts off the next token, which begins with `c`. -/
def token (c : Char) : Lex Unit := do
  let l ← get
  let next := l.cursor.peekAt? 1
  let atLineStart := l.cursor.column == 0
  if c == '%' && atLineStart then
    endDocument
    let (t, cursor) ← directive l.cursor
    take t cursor
  else if atLineStart && l.cursor.atMarker then
    endDocument
    takeIndicator (if c == '-' then .documentStart else .documentEnd) 3
  else if c == '[' then openFlow .flowListStart
  else if c == '\x7b' then openFlow .flowMapStart
  else if c == ']' then closeFlow .flowListEnd
  else if c == '\x7d' then closeFlow .flowMapEnd
  else if c == ',' then comma
  else if c == '-' && isGap next then blockIndicator .listStart .item true
  else if c == '?' && (l.inFlow || isGap next) then blockIndicator .mapStart .key !l.inFlow
  else if c == ':' && (l.inFlow || isGap next) then colon
  else if c == '*' then content fun c => do
    let (name, c) ← anchorName c.next
    return (.alias name, c)
  else if c == '&' then content fun c => do
    let (name, c) ← anchorName c.next
    return (.anchor name, c)
  else if c == '!' then content tag
  else if (c == '|' || c == '>') && !l.inFlow then blockContent (c == '>')
  else if c == '\'' || c == '"' then content (quotedContent (c == '"'))
  else if beginsPlain l.inFlow c next then plainContent
  else throw .unexpectedCharacter

/-- Cuts the text that is left into tokens, of which each takes at least one character. -/
def run (fuel : Nat) : Lex Unit :=
  match fuel with
  | 0 => return
  | fuel + 1 => do
    let l ← get
    let (cursor, keyAllowed) := skipGap (l.cursor.rest.length + 1) l.cursor l.keyAllowed l.inFlow
    let candidates ← dropStale cursor l.candidates
    set { l with cursor, keyAllowed, candidates }
    unindentTo cursor.column
    match cursor.peek? with
    | none =>
      unindentTo (-1)
      dropCandidate
    | some c =>
      token c
      run fuel

end Lexer

/-- The tokens of a text. -/
def tokens (s : String) : Except Fault (List Token) :=
  if !s.toList.all isAllowed then .error .forbiddenCharacter
  else
    let text := match s.toList with
      | c :: cs => if c.toNat == 0xFEFF then cs else c :: cs
      | [] => []
    match (Lexer.run (text.length + 1)).run { cursor := { rest := text } } with
    | .ok (_, l) => .ok l.tokens.toList
    | .error e => .error e

end PathAccess.Yaml
