/-!
# Where an array lies

An array lies in the memory of the host or on a device. The two compute by different
rules, and show themselves differently.
-/

namespace Stationary

/-- Where an array lies. -/
inductive ArrayHome
  | host
  | device
  deriving DecidableEq

end Stationary
