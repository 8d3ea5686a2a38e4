import SurrealZod.Text.Basic

/-!
# Tokens of YAML

The tokens that a YAML text is made of. Besides those that are written there are the beginnings and ends of blocks,
which indentation shows, and keys, which the colons behind them show.
-/

namespace SurrealZod

inductive YamlToken where
  | documentStart
  | documentEnd
  | blockSequence
  | blockMapping
  | blockEnd
  | flowSequence
  | flowSequenceEnd
  | flowMapping
  | flowMappingEnd
  | comma
  | item
  | key
  | value
  | scalar (plain : Bool) (text : Text)
  deriving DecidableEq

end SurrealZod
