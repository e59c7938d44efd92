import PathAccess.Yaml.Token.Basic
import PathAccess.Yaml.Token.Cursor
/-!
# Directives, anchors and tags in a text

The tokens that say something about a document or about the value that follows.
-/

namespace PathAccess.Yaml

/-- Whether `c` may stand in a name. -/
def isNameChar (c : Char) : Bool :=
  ('0' ≤ c && c ≤ '9') || ('A' ≤ c && c ≤ 'Z') || ('a' ≤ c && c ≤ 'z') || c == '-' || c == '_'

/-- Whether nothing, a blank or a break follows, but no tab. -/
def isWordEnd (c? : Option Char) : Bool :=
  c?.all fun c => c == ' ' || isBreak c

/-- Reads the name of an anchor or alias after its indicator. -/
def anchorName (c : Cursor) : Except Fault (String × Cursor) :=
  let (name, c) := c.span isNameChar
  if name.isEmpty || !(isGap c.peek? || c.peek?.any "?:,]\x7d%@\x60".toList.contains) then .error .badAnchor
  else .ok (String.ofList name, c)

/-- Whether `c` may stand in the address of a tag. -/
def isAddressChar (c : Char) : Bool :=
  isNameChar c || ";/?:@&=+$,.!~*'()[]%".toList.contains c

/-- Reads the address of a tag; an escape stands for one byte of ASCII. -/
def address (fuel : Nat) (read : List Char) (c : Cursor) : Except Fault (String × Cursor) :=
  match fuel, c.rest with
  | fuel + 1, '%' :: x :: y :: _ =>
    let value (c : Char) : Nat := if c.isDigit then c.toNat - 48 else c.toLower.toNat - 87
    let isHex (c : Char) : Bool := c.isDigit || ('a' ≤ c.toLower && c.toLower ≤ 'f')
    if isHex x && isHex y && value x < 8 then
      address fuel (read ++ [Char.ofNat (16 * value x + value y)]) (c.skip 3)
    else .error .badTag
  | fuel + 1, ch :: _ =>
    if ch != '%' && isAddressChar ch then address fuel (read ++ [ch]) c.next
    else if ch == '%' || read.isEmpty then .error .badTag
    else .ok (String.ofList read, c)
  | _, _ => if read.isEmpty then .error .badTag else .ok (String.ofList read, c)

/-- Reads the handle of a tag: an exclamation mark, or a name between two of them. -/
def tagHandle (c : Cursor) : Except Fault (String × Cursor) :=
  if c.peek? != some '!' then .error .badTag
  else if c.peekAt? 1 == some ' ' then .ok ("!", c.next)
  else
    let (name, c) := c.next.span isNameChar
    if c.peek? == some '!' then .ok ("!" ++ String.ofList name ++ "!", c.next) else .error .badTag

/-- Reads a tag after its exclamation mark is seen. -/
def tag (c : Cursor) : Except Fault (Token × Cursor) := do
  let (token, c) ←
    if c.peekAt? 1 == some '<' then do
      let (suffix, c) ← address c.rest.length [] (c.skip 2)
      if c.peek? == some '>' then .ok (Token.tag none suffix, c.next) else .error .badTag
    else if isGap (c.peekAt? 1) then .ok (Token.tag none "!", c.next)
    else do
      let word := c.next.rest.takeWhile fun ch => ch != ' ' && !isBreak ch
      let (handle, c) ← if word.contains '!' then tagHandle c else .ok ("!", c.next)
      let (suffix, c) ← address (c.rest.length + 1) [] c
      .ok (Token.tag (some handle) suffix, c)
  if isWordEnd c.peek? then return (token, c) else throw .badTag

/-- Reads a whole number. -/
def versionNumber (c : Cursor) : Except Fault (Nat × Cursor) :=
  let (ds, c) := c.span Char.isDigit
  if ds.isEmpty then .error .badDirective
  else .ok (ds.foldl (fun n d => 10 * n + (d.toNat - 48)) 0, c)

/-- Reads a directive after its percent sign is seen, with the end of its line. -/
def directive (c : Cursor) : Except Fault (Token × Cursor) := do
  let (name, c) := c.next.span isNameChar
  if name.isEmpty || !isWordEnd c.peek? then throw .badDirective
  let (token, c) ←
    if name == "YAML".toList then do
      let (major, c) ← versionNumber c.skipBlanks
      if c.peek? != some '.' then throw .badDirective
      let (_, c) ← versionNumber c.next
      if !isWordEnd c.peek? then throw .badDirective
      pure (Token.version major, c)
    else if name == "TAG".toList then do
      let (handle, c) ← tagHandle c.skipBlanks
      if c.peek? != some ' ' then throw .badDirective
      let (stem, c) ← address c.rest.length [] c.skipBlanks
      if !isWordEnd c.peek? then throw .badDirective
      pure (Token.handle handle stem, c)
    else pure (Token.otherDirective, (c.span (!isBreak ·)).2)
  match c.skipComment? with
  | some c => return (token, ((c.lineBreak?).map (·.2)).getD c)
  | none => throw .badDirective

end PathAccess.Yaml
