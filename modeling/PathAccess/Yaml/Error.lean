/-!
# Errors in YAML

Why a text is no YAML, or holds what has no value here.
-/

namespace PathAccess.Yaml

/-- What is wrong with a text. -/
inductive Fault where
  /-- A character that may not stand in a text as it is. -/
  | forbiddenCharacter
  /-- A character with which nothing can begin. -/
  | unexpectedCharacter
  /-- An element of a list, a key or a colon where none is allowed. -/
  | misplacedIndicator
  /-- A key without a colon after it. -/
  | missingColon
  /-- A directive that is not well formed. -/
  | badDirective
  /-- An anchor or an alias without a name, or with more than a name. -/
  | badAnchor
  /-- A tag that is not well formed. -/
  | badTag
  /-- The head of a block of text that is not well formed. -/
  | badBlockHeader
  /-- An unknown escape. -/
  | badEscape
  /-- A quoted text without an end. -/
  | unclosedQuote
  /-- Something else where a value, a comma or an end is expected. -/
  | unexpectedToken
  /-- More than one document. -/
  | severalDocuments
  /-- A version that is not known. -/
  | unknownVersion
  /-- A tag whose handle is not declared. -/
  | undeclaredHandle
  /-- An alias of nothing. -/
  | undefinedAlias
  /-- A second anchor of the same name. -/
  | repeatedAnchor
  /-- A key that is a list or a mapping. -/
  | compoundKey
  /-- A merge of something that is no mapping. -/
  | badMerge
  /-- A value that does not fit its tag, or a tag without values. -/
  | unreadableValue
  /-- A number, a date or a moment that does not exist, for the given reason. -/
  | impossibleValue (reason : String)

/-- The message of a fault. -/
def Fault.message : Fault → String
  | forbiddenCharacter => "special characters are not allowed"
  | unexpectedCharacter => "found character that cannot start any token"
  | misplacedIndicator => "entries, keys or values are not allowed here"
  | missingColon => "could not find expected ':'"
  | badDirective => "malformed directive"
  | badAnchor => "malformed anchor or alias"
  | badTag => "malformed tag"
  | badBlockHeader => "malformed block scalar"
  | badEscape => "unknown escape"
  | unclosedQuote => "found unexpected end of a quoted scalar"
  | unexpectedToken => "did not find what was expected here"
  | severalDocuments => "expected a single document"
  | unknownVersion => "found incompatible YAML document"
  | undeclaredHandle => "found undefined tag handle"
  | undefinedAlias => "found undefined alias"
  | repeatedAnchor => "found duplicate anchor"
  | compoundKey => "found unhashable key"
  | badMerge => "expected a mapping or list of mappings for merging"
  | unreadableValue => "could not determine the value of a scalar"
  | impossibleValue reason => reason

end PathAccess.Yaml
