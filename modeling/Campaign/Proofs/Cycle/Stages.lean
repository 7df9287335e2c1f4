import Campaign.Command.Stages
import Campaign.Proofs.Async.Runs

/-! `runStages` asks its context before each stage and threads the plan through the stages in order;
its runs are exactly those `StagesRan` describes (`runStages_runs_iff`). The stage set that runs
programs lists perturb, fuzz, lift, invoke and analyse in that order (`commandStages_kinds`).
-/

namespace Campaign

open Async

variable {ω ν : Type}

/-- How a chain of stages can run over a plan: the effects of the run and its result. -/
inductive StagesRan (cx : Context) : List (Stage ω ν) → Plan → List (Effect ω ν) →
    Except CycleError Plan → Prop where
  /-- With no stage left, the chain returns the plan it holds. -/
  | finish (plan : Plan) : StagesRan cx [] plan [] (.ok plan)
  /-- The context was done before the stage, which does not run. -/
  | cancelled {stage : Stage ω ν} {rest : List (Stage ω ν)} {plan : Plan} (reply : Reply ν)
      {r : Cancelled} (done : reply.asEnded = some r) :
      StagesRan cx (stage :: rest) plan [.order (.err cx) reply] (.error (.cancelled r))
  /-- The stage failed, and the failure names its kind. -/
  | failed {stage : Stage ω ν} {rest : List (Stage ω ν)} {plan : Plan} (reply : Reply ν)
      {es : List (Effect ω ν)} {e : Cause} (going : reply.asEnded = none)
      (ran : (stage.run cx plan).Runs es (.error (.failed e))) :
      StagesRan cx (stage :: rest) plan (.order (.err cx) reply :: es)
        (.error (.stage stage.kind e))
  /-- The stage's task died. -/
  | panicked {stage : Stage ω ν} {rest : List (Stage ω ν)} {plan : Plan} (reply : Reply ν)
      {es : List (Effect ω ν)} (going : reply.asEnded = none)
      (ran : (stage.run cx plan).Runs es (.error .panicked)) :
      StagesRan cx (stage :: rest) plan (.order (.err cx) reply :: es) (.error .panicked)
  /-- The stage passed: the rest of the chain runs over the plan it returned. -/
  | passed {stage : Stage ω ν} {rest : List (Stage ω ν)} {plan next : Plan} (reply : Reply ν)
      {es more : List (Effect ω ν)} {r : Except CycleError Plan} (going : reply.asEnded = none)
      (ran : (stage.run cx plan).Runs es (.ok next)) (after : StagesRan cx rest next more r) :
      StagesRan cx (stage :: rest) plan (.order (.err cx) reply :: (es ++ more)) r

variable {cx : Context}

theorem runStages_cons (stage : Stage ω ν) (rest : List (Stage ω ν)) (plan : Plan) :
    runStages cx (stage :: rest) plan = (Proc.err cx >>= fun ended =>
      match ended with
      | some r => pure (.error (.cancelled r))
      | none => stage.run cx plan >>= fun out =>
        match out with
        | .ok next => runStages cx rest next
        | .error (.failed e) => pure (.error (.stage stage.kind e))
        | .error .panicked => pure (.error .panicked)) := rfl

/-- What follows a stage's outcome: the rest of the chain, or the failure it ends with. -/
theorem after_stage {stage : Stage ω ν} {rest : List (Stage ω ν)} {plan : Plan} {reply : Reply ν}
    (going : reply.asEnded = none) {out : Except Halt Plan} {es more : List (Effect ω ν)}
    {r : Except CycleError Plan} (ran : (stage.run cx plan).Runs es out)
    (next : (match out with
      | .ok next => runStages cx rest next
      | .error (.failed e) => pure (.error (.stage stage.kind e))
      | .error .panicked => pure (.error .panicked) : Proc ω ν _).Runs more r)
    (ih : ∀ {plan : Plan} {es : List (Effect ω ν)} {r : Except CycleError Plan},
      (runStages cx rest plan).Runs es r → StagesRan cx rest plan es r) :
    StagesRan cx (stage :: rest) plan (.order (.err cx) reply :: (es ++ more)) r := by
  match out with
  | .ok plan' => exact .passed reply going ran (ih next)
  | .error (.failed e) =>
    obtain ⟨rfl, rfl⟩ := Proc.runs_pure_iff.mp next
    rw [List.append_nil]
    exact .failed reply going ran
  | .error .panicked =>
    obtain ⟨rfl, rfl⟩ := Proc.runs_pure_iff.mp next
    rw [List.append_nil]
    exact .panicked reply going ran

/-- Every run of the chain is one `StagesRan` describes; by induction on the stages. -/
theorem StagesRan.of_runs {stages : List (Stage ω ν)} {plan : Plan} {es : List (Effect ω ν)}
    {r : Except CycleError Plan} (h : (runStages cx stages plan).Runs es r) :
    StagesRan cx stages plan es r := by
  induction stages generalizing plan es r with
  | nil =>
    obtain ⟨rfl, rfl⟩ := Proc.runs_pure_iff.mp h
    exact .finish plan
  | cons stage rest ih =>
    rw [runStages_cons] at h
    obtain ⟨asked, after, ended, rfl, hask, h⟩ := Proc.runs_bind_iff.mp h
    obtain ⟨reply, rfl, rfl⟩ := Proc.runs_err_iff.mp hask
    cases hended : reply.asEnded with
    | some reason =>
      -- the context was done: the chain ends before the stage
      rw [hended] at h
      obtain ⟨rfl, rfl⟩ := Proc.runs_pure_iff.mp h
      exact .cancelled reply hended
    | none =>
      rw [hended] at h
      obtain ⟨es, more, out, rfl, ran, next⟩ := Proc.runs_bind_iff.mp h
      rw [List.singleton_append]
      exact after_stage hended ran next ih

/-- Every run `StagesRan` describes is a run of the chain; by induction on the description. -/
theorem StagesRan.runs {stages : List (Stage ω ν)} {plan : Plan} {es : List (Effect ω ν)}
    {r : Except CycleError Plan} (h : StagesRan cx stages plan es r) :
    (runStages cx stages plan).Runs es r := by
  have asked : ∀ reply : Reply ν,
      (Proc.err cx : Proc ω ν _).Runs [.order (.err cx) reply] reply.asEnded :=
    fun reply => Proc.runs_err_iff.mpr ⟨reply, rfl, rfl⟩
  induction h with
  | finish plan => exact .pure _
  | cancelled reply done =>
    rw [runStages_cons]
    refine Proc.runs_bind_iff.mpr ⟨_, [], _, rfl, asked reply, ?_⟩
    rw [done]
    exact .pure _
  | failed reply going ran =>
    rw [runStages_cons]
    refine Proc.runs_bind_iff.mpr ⟨_, _, _, rfl, asked reply, ?_⟩
    rw [going]
    exact Proc.runs_bind_iff.mpr ⟨_, [], _, (List.append_nil _).symm, ran, .pure _⟩
  | panicked reply going ran =>
    rw [runStages_cons]
    refine Proc.runs_bind_iff.mpr ⟨_, _, _, rfl, asked reply, ?_⟩
    rw [going]
    exact Proc.runs_bind_iff.mpr ⟨_, [], _, (List.append_nil _).symm, ran, .pure _⟩
  | passed reply going ran _ ih =>
    rw [runStages_cons]
    refine Proc.runs_bind_iff.mpr ⟨_, _, _, rfl, asked reply, ?_⟩
    rw [going]
    exact Proc.runs_bind_iff.mpr ⟨_, _, _, rfl, ran, ih⟩

/-- The runs of a chain of stages, against any context and any stage behaviour, are exactly the
runs `StagesRan` describes: each stage is asked for after the context, over the plan of the
stage before it, and the first done context or failing stage ends the chain. -/
theorem runStages_runs_iff {stages : List (Stage ω ν)} {plan : Plan} {es : List (Effect ω ν)}
    {r : Except CycleError Plan} :
    (runStages cx stages plan).Runs es r ↔ StagesRan cx stages plan es r :=
  ⟨StagesRan.of_runs, StagesRan.runs⟩

/-- The stages the program-running stage set builds for a cycle are of the five kinds, in the
order they run. -/
theorem commandStages_kinds {ω : Type} (files : Files ω) (specs : Table StageKind CommandSpec)
    (env : CycleEnv ω) : ((commandStages files specs).stages env).map Stage.kind = StageKind.all :=
  rfl

end Campaign
