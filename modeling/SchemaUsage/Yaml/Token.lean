import SchemaUsage.Yaml.Property

/-!
# Tokens of YAML

The marks and scalars of a text, with the starts and ends of block collections, which are written by
indentation alone, and the keys, which are known by the colon behind them. The end of the text is
the end of the tokens.
-/

namespace SchemaUsage.Yaml

/-- A token. -/
inductive Token where
  | directive (d : Directive)
  | documentStart
  | documentEnd
  | blockSequenceStart
  | blockMappingStart
  | blockEnd
  | flowSequenceStart
  | flowSequenceEnd
  | flowMappingStart
  | flowMappingEnd
  | blockEntry
  | flowEntry
  | key
  | value
  | anchor (name : String)
  | reference (name : String)
  | tag (t : Tag)
  | scalar (plain : Bool) (text : String)
  deriving Repr, DecidableEq

end SchemaUsage.Yaml
