import HistogramMonitor.Text.Utf8
import HistogramMonitor.Yaml.Characters

/-!
# Tokens

The words of a document once its layout has been read. Where the layout of a block shows that a collection
begins or ends, or that what stands before a colon is a key, there is a token for it, although the text
holds no sign for it in that place.
-/

namespace HistogramMonitor.Yaml

/-- How a scalar is written. -/
inductive Style
  | plain
  | singleQuoted
  | doubleQuoted
  | literal
  | folded
  deriving DecidableEq, Repr

/-- The name of a type: octets, since a tag may spell any of them. -/
abbrev Tag := Bytes

namespace Tag

/-- The tag of integers. -/
def integer : Tag := Utf8.ofString "tag:yaml.org,2002:int"

/-- The tag of the word for nothing. -/
def null : Tag := Utf8.ofString "tag:yaml.org,2002:null"

/-- The tag that names no type. -/
def unspecific : Tag := Utf8.ofString "!"

end Tag

/-- A word of a document. -/
inductive Token
  /-- the version that a directive asks for -/
  | version (major minor : Nat)
  /-- what a directive lets a handle stand for -/
  | handle (name : String) (stem : Tag)
  | documentStart
  | documentEnd
  /-- the start of a sequence in block layout -/
  | sequenceStart
  /-- the start of a mapping in block layout -/
  | mappingStart
  /-- the end of a collection in block layout -/
  | blockEnd
  /-- the dash before an item -/
  | item
  | key
  | value
  | openBracket
  | closeBracket
  | openBrace
  | closeBrace
  | comma
  | anchor (name : String)
  | aliased (name : String)
  /-- a tag as a handle and what follows it; without a handle, all of the tag follows -/
  | tag (handle : String) (rest : Tag)
  | scalar (text : String) (style : Style)
  deriving DecidableEq, Repr

end HistogramMonitor.Yaml
