import Campaign.Machine.Basic

/-! A cycle is one pass of the five stages over a plan, on one machine, by one instance of the
campaign. Its stamp names the machine, the instance and the iteration; its text is
`machine #instance (iter n)`.
-/

namespace Campaign

/-- The stamp of one cycle. -/
structure Cycle where
  /-- The index of the instance running the cycle. -/
  index : Nat
  machine : MachineId
  iter : Nat
  deriving DecidableEq, Repr, Inhabited

/-- The text of a cycle stamp. -/
def Cycle.display (c : Cycle) : String :=
  c.machine.text ++ " #" ++ toString c.index ++ " (iter " ++ toString c.iter ++ ")"

end Campaign
