import ForgeQuery.Text.Blank

/-!
# YAML tokens

The tokens of a YAML stream. Block collections have no closing character of their own: their ends
follow from the indentation and are tokens all the same, and so are the starts of block
collections and the keys of mappings, which are put in front of what has been read already as soon
as a colon tells that it was a key.
-/

namespace ForgeQuery

namespace Yaml

/-- A tag, split at its handle. -/
structure Tag where
  /-- the handle, from its first to its last exclamation mark -/
  handle : String
  /-- what follows the handle -/
  suffix : String
  deriving DecidableEq

/-- A token of a YAML stream. -/
inductive Token where
  /-- the end of the stream -/
  | streamEnd
  /-- a directive line -/
  | directive
  /-- the marker `---` -/
  | documentStart
  /-- the marker `...` -/
  | documentEnd
  /-- the start of a sequence by indentation -/
  | blockSequenceStart
  /-- the start of a mapping by indentation -/
  | blockMappingStart
  /-- the end of a collection by indentation -/
  | blockEnd
  /-- an opening bracket -/
  | flowSequenceStart
  /-- a closing bracket -/
  | flowSequenceEnd
  /-- an opening brace -/
  | flowMappingStart
  /-- a closing brace -/
  | flowMappingEnd
  /-- the dash of an item -/
  | blockEntry
  /-- the comma between items -/
  | flowEntry
  /-- what follows is a key -/
  | key
  /-- what follows is the value of a key -/
  | value
  /-- a reference to an anchored node -/
  | alias (name : Text)
  /-- an anchor on the node that follows -/
  | anchor (name : Text)
  /-- a tag on the node that follows -/
  | tag (t : Tag)
  /-- a scalar; whether it is plain, that is, neither quoted nor a block -/
  | scalar (plain : Bool) (text : String)
  deriving DecidableEq

/-! ## Character classes -/

/-- The character that stands for the end of the stream. -/
def endMark : Char := '\x00'

/-- A line feed or a carriage return. -/
def isBreak (c : Char) : Bool := c == '\n' || c == '\r'

/-- A space or a tab. -/
def isSpace (c : Char) : Bool := c == ' ' || c == '\t'

/-- A line break or the end of the stream. -/
def isBreakOrEnd (c : Char) : Bool := isBreak c || c == endMark

/-- A space, a tab, a line break or the end of the stream. -/
def isGap (c : Char) : Bool := isSpace c || isBreakOrEnd c

/-- The characters that structure flow collections. -/
def isFlowIndicator (c : Char) : Bool :=
  c == ',' || c == '[' || c == ']' || c == '\x7b' || c == '\x7d'

/-- Letters and digits of ASCII, the low line and the dash. -/
def isWordChar (c : Char) : Bool := c.isAlphanum || c == '_' || c == '-'

end Yaml

end ForgeQuery
