import Campaign.Instance.Error

/-! A campaign cannot start without machines, inputs, a planner, a stage factory, an output
directory and a positive time limit, or when the stages of a machine cannot be built. Once
started it fails when planning fails or misses a machine, or when an instance stops or dies.
A failure is a cancellation when the campaign's context ended, directly or in an instance.
-/

namespace Campaign

/-- A collaborator the campaign needs but was not given. -/
inductive EnvError where
  | missing (what : String)
  deriving DecidableEq, Repr

/-- The text of a missing collaborator. -/
def EnvError.message : EnvError → String
  | .missing what => "environment has no " ++ what

/-- Check that the collaborators of a campaign are present: the planner first. -/
def EnvError.check (planner stages : Bool) : Except EnvError Unit :=
  if !planner then .error (.missing "planner")
  else if !stages then .error (.missing "stage factory")
  else .ok ()

/-- Why a campaign failed. -/
inductive DirectorError where
  | noMachines
  | noInputs
  | noOutDir
  | zeroTimeout
  | env (e : EnvError)
  | stages (machine : MachineId) (source : Cause)
  | plan (source : Cause)
  | missingPlan (machine : MachineId)
  | instance (machine : MachineId) (source : InstanceError)
  | panicked (machine : MachineId)
  | cancelled (reason : Cancelled)
  deriving DecidableEq, Repr, Inhabited

namespace DirectorError

/-- The failure with its causes. -/
def cause : DirectorError → Cause
  | .noMachines => .plain "no machines configured"
  | .noInputs => .plain "no input files given"
  | .noOutDir => .plain "no output directory configured"
  | .zeroTimeout => .plain "global timeout must be positive"
  | .env e => .plain e.message
  | .stages m src => Cause.causedBy ("cannot build stages for " ++ m.text) src
  | .plan src => Cause.causedBy "planning failed" src
  | .missingPlan m => .plain ("planner returned no plan for " ++ m.text)
  | .instance m src => Cause.causedBy ("instance for " ++ m.text ++ " stopped") src.cause
  | .panicked m => .plain ("instance for " ++ m.text ++ " panicked")
  | .cancelled r => .plain r.message

/-- The text of the failure. -/
def message (e : DirectorError) : String := e.cause.text

/-- Whether the campaign ended because a context ended. -/
def isCancellation : DirectorError → Bool
  | .cancelled _ => true
  | .instance _ src => src.isCancellation
  | _ => false

end DirectorError

end Campaign
