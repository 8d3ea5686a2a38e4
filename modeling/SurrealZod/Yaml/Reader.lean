import SurrealZod.Yaml.Layout
import SurrealZod.Yaml.Node

/-!
# Reading YAML

A node is a scalar, a flow collection in brackets, or a block of indented items or entries. What is not written where a
node is expected is a blank node. A text holds one document at most.
-/

namespace SurrealZod

namespace YamlNode

open YamlToken

mutual

/-- Reads a node. Blocks begin only inside of blocks, and below a key the items of a sequence need no block of their
own. Every step takes one unit of fuel. -/
def read (block ofKey : Bool) : Nat → List YamlToken → Option (YamlNode × List YamlToken)
  | 0, _ => none
  | fuel + 1, tokens =>
    match tokens with
    | .scalar plain text :: rest => some (.scalar plain text, rest)
    | flowSequence :: rest => (readFlowItems fuel rest).map fun (items, behind) => (sequence items, behind)
    | flowMapping :: rest => (readFlowEntries fuel rest).map fun (entries, behind) => (mapping entries, behind)
    | blockSequence :: rest =>
      if block then (readItems fuel rest).map fun (items, behind) => (sequence items, behind) else none
    | blockMapping :: rest =>
      if block then (readEntries fuel rest).map fun (entries, behind) => (mapping entries, behind) else none
    | item :: _ =>
      if ofKey then (readOpenItems fuel tokens).map fun (items, behind) => (sequence items, behind) else none
    | _ => none

/-- Reads a node, or a blank one if a token stands here that ends the place of a node. -/
def readUnless (ends : List YamlToken) (block ofKey : Bool) : Nat → List YamlToken → Option (YamlNode × List YamlToken)
  | 0, _ => none
  | fuel + 1, tokens => if tokens.head?.any (· ∈ ends) then some (blank, tokens) else read block ofKey fuel tokens

/-- Reads the items of a block sequence up to its end. -/
def readItems : Nat → List YamlToken → Option (List YamlNode × List YamlToken)
  | 0, _ => none
  | fuel + 1, tokens =>
    match tokens with
    | item :: rest => do
      let (node, rest) ← readUnless [item, blockEnd] true false fuel rest
      let (items, rest) ← readItems fuel rest
      return (node :: items, rest)
    | blockEnd :: rest => some ([], rest)
    | _ => none

/-- Reads the items of a block sequence that is not indented deeper than its key. -/
def readOpenItems : Nat → List YamlToken → Option (List YamlNode × List YamlToken)
  | 0, _ => none
  | fuel + 1, tokens =>
    match tokens with
    | item :: rest => do
      let (node, rest) ← readUnless [item, key, value, blockEnd] true false fuel rest
      let (items, rest) ← readOpenItems fuel rest
      return (node :: items, rest)
    | _ => some ([], tokens)

/-- Reads the entries of a block mapping up to its end. -/
def readEntries : Nat → List YamlToken → Option (List (YamlNode × YamlNode) × List YamlToken)
  | 0, _ => none
  | fuel + 1, tokens =>
    match tokens with
    | key :: rest => do
      let (name, rest) ← readUnless [key, value, blockEnd] true true fuel rest
      let (node, rest) ← readValue [key, value, blockEnd] true fuel rest
      let (entries, rest) ← readEntries fuel rest
      return ((name, node) :: entries, rest)
    | blockEnd :: rest => some ([], rest)
    | _ => none

/-- Reads the value of an entry behind its colon, or a blank one if there is no colon. -/
def readValue (ends : List YamlToken) (block : Bool) : Nat → List YamlToken → Option (YamlNode × List YamlToken)
  | 0, _ => none
  | fuel + 1, tokens =>
    match tokens with
    | value :: rest => readUnless ends block block fuel rest
    | _ => some (blank, tokens)

/-- Reads the items of a flow sequence up to its closing bracket. An item with a key is a mapping of one entry. Where a
question mark has no key, the token behind it is passed over. -/
def readFlowItems : Nat → List YamlToken → Option (List YamlNode × List YamlToken)
  | 0, _ => none
  | fuel + 1, tokens =>
    match tokens with
    | flowSequenceEnd :: rest => some ([], rest)
    | _ => do
      let (node, rest) ← match tokens with
        | key :: rest => do
          let (name, rest) ←
            if rest.head?.any (· ∈ [value, comma, flowSequenceEnd]) then some (blank, rest.drop 1)
            else read false false fuel rest
          let (node, rest) ← readValue [comma, flowSequenceEnd] false fuel rest
          some (mapping [(name, node)], rest)
        | _ => read false false fuel tokens
      match rest with
      | comma :: rest => do
        let (items, rest) ← readFlowItems fuel rest
        return (node :: items, rest)
      | flowSequenceEnd :: rest => some ([node], rest)
      | _ => none

/-- Reads the entries of a flow mapping up to its closing brace. A node without a colon is a key without a value. -/
def readFlowEntries : Nat → List YamlToken → Option (List (YamlNode × YamlNode) × List YamlToken)
  | 0, _ => none
  | fuel + 1, tokens =>
    match tokens with
    | flowMappingEnd :: rest => some ([], rest)
    | _ => do
      let (entry, rest) ← match tokens with
        | key :: rest => do
          let (name, rest) ← readUnless [value, comma, flowMappingEnd] false false fuel rest
          let (node, rest) ← readValue [comma, flowMappingEnd] false fuel rest
          some ((name, node), rest)
        | _ => (read false false fuel tokens).map fun (name, rest) => ((name, blank), rest)
      match rest with
      | comma :: rest => do
        let (entries, rest) ← readFlowEntries fuel rest
        return (entry :: entries, rest)
      | flowMappingEnd :: rest => some ([entry], rest)
      | _ => none

end

/-- The node of the only document of the tokens, or a blank one if there is none. -/
def ofTokens? (tokens : List YamlToken) : Option YamlNode := do
  let fuel := 3 * tokens.length + 3
  let (node, rest) ← match tokens with
    | [] => some (blank, [])
    | documentStart :: [] => some (blank, [])
    | documentStart :: rest => readUnless [documentStart, documentEnd] true false fuel rest
    | _ => read true false fuel tokens
  if rest.all (· = documentEnd) then some node else none

def ofText? (t : Text) : Option YamlNode := (Yaml.tokens? t).bind ofTokens?

end YamlNode

end SurrealZod
