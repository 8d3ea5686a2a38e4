import SurrealZod.Disk.StoreAccess
import SurrealZod.Main
import SurrealZod.Proofs.Text.Ascending
import SurrealZod.Proofs.Text.Lexing
import SurrealZod.Proofs.Text.NameCharacters
import SurrealZod.Proofs.Text.Nesting
import SurrealZod.Proofs.Text.Words
import SurrealZod.Proofs.Text.PaddedParts
import SurrealZod.Proofs.Text.Spacing
import SurrealZod.Proofs.Text.StringLiterals
import SurrealZod.Proofs.Field.RoundTrip
import SurrealZod.Proofs.Field.Scopes
import SurrealZod.Proofs.Script.NormalForm
import SurrealZod.Proofs.Script.Grouping
import SurrealZod.Proofs.Script.Lines
import SurrealZod.Proofs.Tree.Lookup
import SurrealZod.Proofs.Tree.Complete
import SurrealZod.Proofs.Tree.Descent
import SurrealZod.Proofs.Tree.Links
import SurrealZod.Proofs.Tree.Meaning
import SurrealZod.Proofs.Tree.Equality
import SurrealZod.Proofs.Tree.Growth
import SurrealZod.Proofs.Tree.Insertion
import SurrealZod.Proofs.Tree.Representation
import SurrealZod.Proofs.Tree.Declared
import SurrealZod.Proofs.Tree.Order
import SurrealZod.Proofs.Tree.Refusal
import SurrealZod.Proofs.Tree.Rebuild
import SurrealZod.Proofs.Tree.Observation
import SurrealZod.Proofs.Field.Paths
import SurrealZod.Proofs.Zod.TypeReading
import SurrealZod.Proofs.Zod.Pruning
import SurrealZod.Proofs.Zod.Solidity
import SurrealZod.Proofs.Zod.Levels
import SurrealZod.Proofs.Zod.PropertyKeys
import SurrealZod.Proofs.Zod.Clauses
import SurrealZod.Proofs.Output.References
import SurrealZod.Proofs.Disk.Paths
import SurrealZod.Proofs.Disk.Walks
import SurrealZod.Proofs.Disk.Folders
import SurrealZod.Proofs.Disk.Reading
import SurrealZod.Proofs.Generation.Tables
import SurrealZod.Proofs.Generation.Kept
import SurrealZod.Proofs.Generation.Isolation
import SurrealZod.Proofs.Generation.Untouched
import SurrealZod.Proofs.CommandLine.Preview
import SurrealZod.Proofs.Disk.Refusals
import SurrealZod.Proofs.Disk.Effects
import SurrealZod.Proofs.Generation.Steady
import SurrealZod.Proofs.Generation.Again
import SurrealZod.Proofs.Text.LetterCase
import SurrealZod.Proofs.Zod.TypeGrammar
import SurrealZod.Proofs.Zod.Optionality
import SurrealZod.Proofs.Zod.Literals
import SurrealZod.Proofs.Zod.ArrayTypes
