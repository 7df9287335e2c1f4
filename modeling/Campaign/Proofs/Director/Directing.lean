import Campaign.Director.Run
import Campaign.Proofs.Instance.Outcome

/-! Directing a campaign over every run: what stops it before any instance runs, and how the
reports of its watched instance tasks, a panic being one of them, decide its result.
-/

namespace Campaign

open Async

namespace Director

variable {ω : Type}

/-! ## The verdict on what arrived -/

/-- The campaign's verdict on the failures that arrived, in the order they arrived: the first
that is not a cancellation, or else the first cancellation; with no failure, success. -/
def verdict (fails : List DirectorError) : Except DirectorError Unit :=
  match fails.find? (fun e => !e.isCancellation), fails.find? (·.isCancellation) with
  | some e, _ => .error e
  | none, some e => .error e
  | none, none => .ok ()

/-- The campaign succeeds exactly when no failure arrived. -/
theorem verdict_eq_ok_iff {fails : List DirectorError} : verdict fails = .ok () ↔ fails = [] := by
  cases fails with
  | nil => simp [verdict]
  | cons e rest =>
    -- the first failure is found by one of the two searches
    have found : (e :: rest).find? (fun e => !e.isCancellation) = some e
        ∨ (e :: rest).find? (·.isCancellation) = some e := by
      cases hc : e.isCancellation <;> simp [hc]
    simp only [reduceCtorEq, iff_false]
    unfold verdict
    rcases found with found | found <;> rw [found] <;> split <;> simp_all

/-- Noting failures one by one keeps the first that is not a cancellation and the first
cancellation, by induction on the failures. -/
theorem Outcomes.foldl_add (fails : List DirectorError) (o : Outcomes)
    : fails.foldl Outcomes.add o
      = { fatal := o.fatal <|> fails.find? (fun e => !e.isCancellation)
          cancelled := o.cancelled <|> fails.find? (·.isCancellation) } := by
  induction fails generalizing o with
  | nil => cases o; simp
  | cons e rest ih =>
    rw [List.foldl_cons, ih]
    obtain ⟨fatal, cancelled⟩ := o
    cases hc : e.isCancellation <;> cases fatal <;> cases cancelled <;>
      simp [Outcomes.add, hc]

/-- Whatever order the failures arrive in, noting them gives the verdict on that order. -/
theorem Outcomes.result_foldl (fails : List DirectorError)
    : (fails.foldl Outcomes.add {}).result = verdict fails := by
  rw [Outcomes.foldl_add]
  rfl

/-! ## Plans -/

/-- The machine of the first instance, in order, that the planner did not plan. -/
def firstUnplanned (plans : Table MachineId Plan) (instances : List (Instance ω)) :
    Option MachineId :=
  (instances.find? fun inst => (plans.get? inst.machine.id).isNone).map (·.machine.id)

/-- Giving out plans fails exactly for the first instance, in order, without one. -/
theorem assignPlans_eq_error {plans : Table MachineId Plan} {id : MachineId}
    : ∀ {l : List (Instance ω)}, assignPlans plans l = .error id ↔ firstUnplanned plans l = some id
  | [] => by simp [assignPlans, firstUnplanned]
  | inst :: rest => by
    cases hp : plans.get? inst.machine.id with
    | none => simp [assignPlans, firstUnplanned, hp, eq_comm]
    | some plan =>
      have later := @assignPlans_eq_error plans id rest
      cases hr : assignPlans plans rest <;>
        simp_all [assignPlans, firstUnplanned, bind, Except.bind, pure, Except.pure]

/-- Giving out plans keeps one instance per instance. -/
theorem assignPlans_length {plans : Table MachineId Plan}
    : ∀ {l l' : List (Instance ω)}, assignPlans plans l = .ok l' → l'.length = l.length
  | [], l', h => by cases h; rfl
  | inst :: rest, l', h => by
    cases hp : plans.get? inst.machine.id with
    | none => simp [assignPlans, hp] at h
    | some plan =>
      cases hr : assignPlans plans rest with
      | error id => simp [assignPlans, hp, hr, bind, Except.bind] at h
      | ok rest' =>
        simp only [assignPlans, hp, hr, bind, Except.bind, pure, Except.pure, Except.ok.injEq] at h
        subst h
        simp [assignPlans_length hr]

/-! ## Running the instances -/

/-- The steps of one report on `results`: its receipt and, when it brings a failure, the raising
of `group` right after. -/
def arrivalSteps (results group : Nat) (it : Item) (rep : Reply Item) : List (Effect ω Item) :=
  .await [.recv results] 0 (.received (some it)) ::
    if (failureOf it).isSome then [.order (.raise group) rep] else []

/-- Receiving `left` reports: each report's steps in turn, one per report unless the channel
ends first, and the failures noted in the order they came, by induction on `left`. -/
theorem runs_collect {results group : Nat}
    : ∀ {left : Nat} {o : Outcomes} {es : List (Effect ω Item)} {x : Outcomes},
      (collect results group left o : Proc ω Item Outcomes).Runs es x
      → ∃ (got : List (Item × Reply Item)) (tail : List (Effect ω Item)),
        es = (got.map fun a => arrivalSteps results group a.1 a.2).flatten ++ tail
        ∧ ((got.length = left ∧ tail = [])
          ∨ (got.length < left ∧ tail = [.await [.recv results] 0 (.received none)]))
        ∧ x = (got.filterMap fun a => failureOf a.1).foldl Outcomes.add o := by
  intro left
  induction left with
  | zero =>
    intro o es x h
    obtain ⟨rfl, rfl⟩ := Proc.runs_pure_iff.mp h
    exact ⟨[], [], rfl, .inl ⟨rfl, rfl⟩, rfl⟩
  | succ left ih =>
    intro o es x h
    obtain ⟨first, rest, v, rfl, received, next⟩ := Proc.runs_bind_iff.mp h
    rw [Proc.runs_recv_iff] at received
    subst received
    rcases v with _ | it
    · -- the channel ended
      obtain ⟨rfl, rfl⟩ := Proc.runs_pure_iff.mp next
      exact ⟨[], _, by simp, .inr ⟨by simp, rfl⟩, rfl⟩
    cases failed : failureOf it with
    | some e =>
      -- a failure: the group is raised at once
      simp only [failed] at next
      obtain ⟨raised, more, u, rfl, hraise, later⟩ := Proc.runs_bind_iff.mp next
      obtain ⟨rep, rfl⟩ := Proc.runs_raise_iff.mp hraise
      obtain ⟨got, tail, rfl, counted, rfl⟩ := ih later
      refine ⟨(it, rep) :: got, tail, by simp [arrivalSteps, failed], ?_, by simp [failed]⟩
      rcases counted with ⟨hl, rfl⟩ | ⟨hl, rfl⟩
      · exact .inl ⟨by simp [hl], rfl⟩
      · exact .inr ⟨by simp; omega, rfl⟩
    | none =>
      -- any other report goes by
      simp only [failed] at next
      obtain ⟨got, tail, rfl, counted, rfl⟩ := ih next
      refine ⟨(it, .unit) :: got, tail, by simp [arrivalSteps, failed], ?_, by simp [failed]⟩
      rcases counted with ⟨hl, rfl⟩ | ⟨hl, rfl⟩
      · exact .inl ⟨by simp [hl], rfl⟩
      · exact .inr ⟨by simp; omega, rfl⟩

/-- The steps that start the task of `inst` as task `t`, and its watcher as task `u`. -/
def startSteps (files : Files ω) (cx : Context) (results : Nat) (inst : Instance ω) (t u : Nat) :
    List (Effect ω Item) :=
  [.spawn (instanceTask files cx inst) t, .spawn (watch results inst.machine.id t) u]

/-- Starting the instances spawns, in order, each instance's task and then its watcher, by
induction on the instances. -/
theorem runs_startAll {files : Files ω} {cx : Context} {results : Nat}
    : ∀ {l : List (Instance ω)} {es : List (Effect ω Item)},
      (l.forM fun inst => do
          let task ← Proc.start (instanceTask files cx inst)
          let _ ← Proc.start (watch results inst.machine.id task)).Runs es ()
      → ∃ tasks : List (Nat × Nat), tasks.length = l.length
        ∧ es = (List.zipWith (fun inst tu => startSteps files cx results inst tu.1 tu.2) l
          tasks).flatten := by
  intro l
  induction l with
  | nil =>
    intro es h
    obtain ⟨rfl, -⟩ := Proc.runs_pure_iff.mp h
    exact ⟨[], rfl, rfl⟩
  | cons inst rest ih =>
    intro es h
    obtain ⟨first, more, u, rfl, started, others⟩ := Proc.runs_bind_iff.mp h
    obtain ⟨spawned, after, t, rfl, hs, watched⟩ := Proc.runs_bind_iff.mp started
    rw [Proc.runs_start_iff] at hs
    subst hs
    obtain ⟨spawned', after', t', rfl, hw, done⟩ := Proc.runs_bind_iff.mp watched
    rw [Proc.runs_start_iff] at hw
    subst hw
    obtain ⟨rfl, -⟩ := Proc.runs_pure_iff.mp done
    obtain ⟨tasks, hl, rfl⟩ := ih others
    exact ⟨(t, t') :: tasks, by simp [hl], rfl⟩

/-- How the instances ran under `cx` in group `group`, with result `x`: the results channel is
made; for each instance in order, its task is started and then a watcher of that task, which
reports on the channel how it ended; the reports are received in the order they come, each
failure raising the group at once, one report per instance unless the channel ends; and `x` is
the verdict on the failures, in that order. -/
def RunsAll (files : Files ω) (cx : Context) (group : Nat) (instances : List (Instance ω))
    (es : List (Effect ω Item)) (x : Except DirectorError Unit) : Prop :=
  ∃ (ch : Reply Item) (tasks : List (Nat × Nat)) (got : List (Item × Reply Item))
    (tail : List (Effect ω Item)),
    tasks.length = instances.length
    ∧ es = .order (.channel instances.length) ch
        :: (List.zipWith (fun inst tu => startSteps files cx ch.asId inst tu.1 tu.2) instances
          tasks).flatten
        ++ (got.map fun a => arrivalSteps ch.asId group a.1 a.2).flatten ++ tail
    ∧ ((got.length = instances.length ∧ tail = [])
      ∨ (got.length < instances.length ∧ tail = [.await [.recv ch.asId] 0 (.received none)]))
    ∧ x = verdict (got.filterMap fun a => failureOf a.1)

theorem runs_runAll {files : Files ω} {cx : Context} {group : Nat} {instances : List (Instance ω)}
    {es : List (Effect ω Item)} {x : Except DirectorError Unit}
    (h : (runAll files cx group instances).Runs es x) : RunsAll files cx group instances es x := by
  obtain ⟨made, rest, results, rfl, hmade, h₁⟩ := Proc.runs_bind_iff.mp h
  obtain ⟨ch, rfl, rfl⟩ := Proc.runs_channel_iff.mp hmade
  obtain ⟨spawned, rest, u, rfl, hstart, h₂⟩ := Proc.runs_bind_iff.mp h₁
  obtain ⟨tasks, hl, rfl⟩ := runs_startAll hstart
  obtain ⟨received, after, o, rfl, hcollect, done⟩ := Proc.runs_bind_iff.mp h₂
  obtain ⟨rfl, rfl⟩ := Proc.runs_pure_iff.mp done
  obtain ⟨got, tail, rfl, counted, rfl⟩ := runs_collect hcollect
  exact ⟨ch, tasks, got, tail, hl, by simp, counted, Outcomes.result_foldl _⟩

/-- The scheduler hands the campaign only what the watchers report: every receive in the run
ends with a machine and how a task ended, and a task that ended with a value ended with what a
complete run of an instance returns. The campaign holds a sender of its results channel
throughout, so no receive finds the channel's end. -/
def HearsTasks (files : Files ω) (es : List (Effect ω Item)) : Prop :=
  ∀ ch v, .await [.recv ch] 0 (.received v) ∈ es →
    ∃ m o, v = some (.joined m o) ∧ ∀ it, o = .value it →
      ∃ (inst : Instance ω) (cx : Context) (evs : List (Effect ω Item))
        (y : Except InstanceError Unit × Machine),
        (inst.run files cx).Runs evs y ∧ it = .ended inst.machine.id y.1

/-- Every report the campaign hears is a failure: an instance never ends well, and a task
that ended without its instance's result panicked. -/
theorem HearsTasks.failure {files : Files ω} {es : List (Effect ω Item)} {ch : Nat} {it : Item}
    (hears : HearsTasks files es) (mem : .await [.recv ch] 0 (.received (some it)) ∈ es)
    : (failureOf it).isSome := by
  obtain ⟨m, o, same, valued⟩ := hears ch (some it) mem
  cases Option.some.inj same
  cases o with
  | value v =>
    obtain ⟨inst, cx, evs, y, ran, rfl⟩ := valued v rfl
    obtain ⟨e, failed⟩ := Instance.run_fails ran
    simp [failureOf, taskFailure, failed]
  | aborted | panicked => rfl

/-- Hearing only the watchers' reports, the campaign hears one for each instance, all
failures, and so it succeeds exactly when it has no instance. -/
theorem RunsAll.ok_iff {files : Files ω} {cx : Context} {group : Nat}
    {instances : List (Instance ω)} {es : List (Effect ω Item)} {x : Except DirectorError Unit}
    (ran : RunsAll files cx group instances es x) (hears : HearsTasks files es)
    : x = .ok () ↔ instances = [] := by
  obtain ⟨ch, ts, got, tail, -, rfl, counted, rfl⟩ := ran
  have failing : ∀ a ∈ got, (failureOf a.1).isSome := by
    intro a mem
    have arrived : .await [.recv ch.asId] 0 (.received (some a.1))
        ∈ (got.map fun a => (arrivalSteps ch.asId group a.1 a.2 : List (Effect ω Item))).flatten :=
      List.mem_flatten.mpr ⟨_, List.mem_map_of_mem mem, List.mem_cons_self⟩
    exact hears.failure
      (List.mem_cons_of_mem _ (List.mem_append_left _ (List.mem_append_right _ arrived)))
  -- the channel never ends, so every instance reported
  have full : got.length = instances.length := by
    rcases counted with ⟨same, -⟩ | ⟨-, rfl⟩
    · exact same
    · obtain ⟨_, _, ended, -⟩ := hears ch.asId none (by simp)
      cases ended
  rw [verdict_eq_ok_iff, List.filterMap_eq_nil_iff, ← List.length_eq_zero_iff, ← full,
    List.length_eq_zero_iff]
  constructor
  · intro quiet
    refine List.eq_nil_iff_forall_not_mem.mpr fun a mem => ?_
    simpa [quiet a mem] using failing a mem
  · rintro rfl a mem
    cases mem

/-! ## Directing -/

/-- How waiting for the planner ends a campaign before any instance runs, with the failure and
the steps that follow the wait: the context ended first, and the planner is stopped; the planner
failed; it stopped without plans and without a panic; or it missed a machine, the first in
instance order. -/
inductive Halts (d : Director ω) (planning : Nat) :
    Woke Item → DirectorError → List (Effect ω Item) → Prop
  | cancelled (r : Cancelled) (rep : Reply Item) :
      Halts d planning (.done r) (.cancelled r) [.order (.abort planning) rep]
  | failed (e : Cause) : Halts d planning (.joined (.value (.planned (.error e)))) (.plan e) []
  | stopped {w : Woke Item} (notDone : ∀ r, w ≠ .done r)
      (notPlanned : ∀ r, w ≠ .joined (.value (.planned r))) (notPanicked : w ≠ .joined .panicked) :
      Halts d planning w (.plan (.plain "planner stopped")) []
  | missed {plans : Table MachineId Plan} {id : MachineId}
      (first : firstUnplanned plans d.instances = some id) :
      Halts d planning (.joined (.value (.planned (.ok plans)))) (.missingPlan id) []

/-- Waiting for the plans, the context first: a context that ends first stops the planning
task; a planning task that ends with its plans or its failure gives them; a planner that panics
ends no run; anything else means the planner stopped. -/
theorem runs_awaitPlans {cx : Context} {planning : Nat} {es : List (Effect ω Item)}
    {planned : Except DirectorError (Table MachineId Plan)}
    (h : (awaitPlans cx planning : Proc ω Item _).Runs es planned)
    : ∃ j w after, es = .await [.done cx, .join planning] j w :: after
      ∧ ((∃ r rep, w = .done r ∧ after = [.order (.abort planning) rep]
            ∧ planned = .error (.cancelled r))
        ∨ (∃ r, w = .joined (.value (.planned r)) ∧ after = [] ∧ planned = r.mapError .plan)
        ∨ ((∀ r, w ≠ .done r) ∧ (∀ r, w ≠ .joined (.value (.planned r)))
            ∧ w ≠ .joined .panicked ∧ after = []
            ∧ planned = .error (.plan (.plain "planner stopped")))) := by
  obtain ⟨sel, after, jw, rfl, hsel, h₁⟩ := Proc.runs_bind_iff.mp h
  obtain ⟨j, w, -, rfl, rfl⟩ := Proc.runs_select_iff.mp hsel
  refine ⟨j, w, after, rfl, ?_⟩
  split at h₁
  · rename_i r same
    obtain ⟨-, rfl⟩ := Prod.mk.inj same
    obtain ⟨aborted, more, u, rfl, habort, done⟩ := Proc.runs_bind_iff.mp h₁
    obtain ⟨rep, rfl⟩ := Proc.runs_abort_iff.mp habort
    obtain ⟨rfl, rfl⟩ := Proc.runs_pure_iff.mp done
    exact .inl ⟨r, rep, rfl, rfl, rfl⟩
  · rename_i r same
    obtain ⟨-, rfl⟩ := Prod.mk.inj same
    obtain ⟨rfl, rfl⟩ := Proc.runs_pure_iff.mp h₁
    exact .inr (.inl ⟨r, rfl, rfl, rfl⟩)
  · exact absurd h₁ Proc.not_runs_panic
  · rename_i notDone notPlanned notPanicked
    obtain ⟨rfl, rfl⟩ := Proc.runs_pure_iff.mp h₁
    exact .inr (.inr ⟨fun r hw => notDone j r (by rw [hw]), fun r hw => notPlanned j r (by rw [hw]),
      fun hw => notPanicked j (by rw [hw]), rfl, rfl⟩)

/-- A campaign that fails before its instances run lets go of them, and fails so. -/
theorem runs_dropAll_fail {instances : List (Instance ω)} {e : DirectorError}
    {es : List (Effect ω Item)} {x : Except DirectorError Unit}
    (h : (dropAll instances >>= fun _ => (pure (.error e) : Proc ω Item _)).Runs es x)
    : (dropAll instances).Runs es () ∧ x = .error e := by
  obtain ⟨first, rest, u, rfl, dropped, done⟩ := Proc.runs_bind_iff.mp h
  obtain ⟨rfl, rfl⟩ := Proc.runs_pure_iff.mp done
  exact ⟨by simpa using dropped, rfl⟩

/-- Directing a campaign, over every run: the planner is started and waited for together with
the context, the context first. A context that ends first, a planner that fails or stops, or a
machine it missed ends the campaign with that failure before any instance runs, and the
instances are let go of. Otherwise the observers are told, the clock is read for the time
limit, the group is made and the instances run in it as `RunsAll` says: every failure reported
raises the group at once, one report per instance is awaited, and the campaign ends with the
verdict on the failures in the order they came. Since an instance never ends well, and a task
that ends without its instance's result panicked, a campaign that hears only its watchers'
reports succeeds exactly when it has no instance. -/
theorem direct_outcome {d : Director ω} {files : Files ω} {cx : Context}
    {es : List (Effect ω Item)} {x : Except DirectorError Unit} (h : (d.direct files cx).Runs es x)
    (hears : HearsTasks files es)
    : ∃ planning j w rest,
      es = .spawn (Item.planned <$> d.planner.plan d.machines d.inputs) planning
        :: .await [.done cx, .join planning] j w :: rest
      ∧ ((∃ e pre drop, Halts d planning w e pre ∧ rest = pre ++ drop
            ∧ (dropAll d.instances).Runs drop () ∧ x = .error e)
        ∨ ∃ plans instances clock sig more, w = .joined (.value (.planned (.ok plans)))
            ∧ assignPlans plans d.instances = .ok instances
            ∧ rest = .touch :: .order .now clock :: .order .signal sig :: more
            ∧ RunsAll files ((d.limitFrom cx clock.asId).withSignal sig.asId) sig.asId instances
                more x
            ∧ (x = .ok () ↔ d.instances = [])) := by
  obtain ⟨started, rest₁, planning, rfl, hstart, h₁⟩ := Proc.runs_bind_iff.mp h
  rw [Proc.runs_start_iff] at hstart
  subst hstart
  obtain ⟨waited, rest₂, planned, rfl, hwait, h₂⟩ := Proc.runs_bind_iff.mp h₁
  obtain ⟨j, w, after, rfl, outcome⟩ := runs_awaitPlans hwait
  refine ⟨planning, j, w, after ++ rest₂, by simp, ?_⟩
  rcases outcome with ⟨r, rep, rfl, rfl, rfl⟩ | ⟨r, rfl, rfl, rfl⟩
    | ⟨notDone, notPlanned, notPanicked, rfl, rfl⟩
  · -- the context ended first
    obtain ⟨dropped, rfl⟩ := runs_dropAll_fail h₂
    exact .inl ⟨_, _, rest₂, .cancelled r rep, rfl, dropped, rfl⟩
  · rcases r with e | plans
    · -- the planner failed
      obtain ⟨dropped, rfl⟩ := runs_dropAll_fail h₂
      exact .inl ⟨_, _, rest₂, .failed e, rfl, dropped, rfl⟩
    cases hassign : assignPlans plans d.instances with
    | error id =>
      -- a machine without a plan
      simp only [Except.mapError, Except.bind, hassign] at h₂
      obtain ⟨dropped, rfl⟩ := runs_dropAll_fail h₂
      exact .inl ⟨_, _, rest₂, .missed (assignPlans_eq_error.mp hassign), rfl, dropped, rfl⟩
    | ok instances =>
      -- every machine planned: the instances run
      simp only [Except.mapError, Except.bind, hassign] at h₂
      refine .inr ⟨plans, instances, ?_⟩
      obtain ⟨told, rest₃, u, rfl, htold, h₃⟩ := Proc.runs_bind_iff.mp h₂
      obtain ⟨v, rest', rfl, hv⟩ := Proc.runs_touch_iff.mp htold
      obtain ⟨rfl, -⟩ := Proc.runs_pure_iff.mp hv
      obtain ⟨read, rest₄, now, rfl, hnow, h₄⟩ := Proc.runs_bind_iff.mp h₃
      obtain ⟨clock, rfl, rfl⟩ := Proc.runs_now_iff.mp hnow
      obtain ⟨made, more, group, rfl, hsig, h₅⟩ := Proc.runs_bind_iff.mp h₄
      obtain ⟨sig, rfl, rfl⟩ := Proc.runs_signal_iff.mp hsig
      have ran := runs_runAll h₅
      -- the watchers' reports are all the campaign hears after starting the instances
      have heard : HearsTasks files more := fun ch v mem => hears ch v (by simp [mem])
      refine ⟨clock, sig, more, rfl, hassign, rfl, ran, ?_⟩
      rw [ran.ok_iff heard, ← List.length_eq_zero_iff, assignPlans_length hassign,
        List.length_eq_zero_iff]
  · -- the planner stopped without plans
    obtain ⟨dropped, rfl⟩ := runs_dropAll_fail h₂
    exact .inl ⟨_, _, rest₂, .stopped notDone notPlanned notPanicked, rfl, dropped, rfl⟩

/-- The instance of machine `p`, second in machine order, whose plan has no mutants like that of
`m`, and whose one observer panics at the first event it is shown. -/
def panicky : Instance Unit :=
  { Instance.mutantless with
    index := 1
    machine := { Instance.mutantless.machine with id := ⟨"p"⟩ }
    observers := [{ observe := fun _ => Proc.panic }] }

/-- A campaign of machines `m` and `p`, whose planner gives both at once the plan of a mutation
test without mutants. -/
def pair : Director Unit where
  planner := ⟨fun _ _ => pure (.ok (Table.ofList [(⟨"m"⟩, Instance.mutantless.machine.initialPlan),
    (⟨"p"⟩, Instance.mutantless.machine.initialPlan)]))⟩
  machines := Table.ofList [(⟨"m"⟩, {}), (⟨"p"⟩, {})]
  inputs := [⟨"in"⟩]
  instances := [Instance.mutantless, panicky]
  observers := []
  quantities := {}
  timeLimit := none

/-- The files of the campaign, which it never touches. -/
def pairFiles : Files Unit := ⟨fun _ => {}, fun _ w => w⟩

/-- The group context of the campaign: the background, stopped by signal 0. -/
def pairGroup : Context := (pair.limitFrom .background 0).withSignal 0

/-- A run of the campaign: both machines are planned, each instance's task and its watcher are
started, the task of `p` is reported panicked, and then `m` is reported to have failed for
want of mutants; each report raises the group. -/
def pairRun : List (Effect Unit Item) :=
  [.spawn (Item.planned <$> pair.planner.plan pair.machines pair.inputs) 0,
    .await [.done .background, .join 0] 1 (.joined (.value (.planned (.ok (Table.ofList
      [(⟨"m"⟩, Instance.mutantless.machine.initialPlan),
        (⟨"p"⟩, Instance.mutantless.machine.initialPlan)]))))),
    .touch, .order .now (.id 0), .order .signal (.id 0), .order (.channel 2) (.id 0),
    .spawn (instanceTask pairFiles pairGroup Instance.mutantless) 1,
    .spawn (watch 0 ⟨"m"⟩ 1) 2,
    .spawn (instanceTask pairFiles pairGroup panicky) 3,
    .spawn (watch 0 ⟨"p"⟩ 3) 4,
    .await [.recv 0] 0 (.received (some (.joined ⟨"p"⟩ .panicked))),
    .order (.raise 0) .unit,
    .await [.recv 0] 0 (.received (some (.joined ⟨"m"⟩
      (.value (.ended ⟨"m"⟩ (.error (.mutation .noMutants))))))),
    .order (.raise 0) .unit]

theorem direct_outcome_pair
    : (pair.direct pairFiles .background).Runs pairRun (.error (.panicked ⟨"p"⟩))
      ∧ HearsTasks pairFiles pairRun
      ∧ ∃ planning j w rest,
        pairRun = .spawn (Item.planned <$> pair.planner.plan pair.machines pair.inputs)
            planning :: .await [.done .background, .join planning] j w :: rest
        ∧ ((∃ e pre drop, Halts pair planning w e pre ∧ rest = pre ++ drop
              ∧ (dropAll pair.instances).Runs drop ()
              ∧ (.error (.panicked ⟨"p"⟩) : Except DirectorError Unit) = .error e)
          ∨ ∃ plans instances clock sig more, w = .joined (.value (.planned (.ok plans)))
              ∧ assignPlans plans pair.instances = .ok instances
              ∧ rest = .touch :: .order .now clock :: .order .signal sig :: more
              ∧ RunsAll pairFiles ((pair.limitFrom .background clock.asId).withSignal sig.asId)
                  sig.asId instances more (.error (.panicked ⟨"p"⟩))
              ∧ ((.error (.panicked ⟨"p"⟩) : Except DirectorError Unit) = .ok ()
                ↔ pair.instances = [])) := by
  have ran : (pair.direct pairFiles .background).Runs pairRun (.error (.panicked ⟨"p"⟩)) :=
    .spawn 0 (.await 1 _ ⟨_, rfl, trivial⟩ (.touch () (.order _ (.order _ (.order _
      (.spawn 1 (.spawn 2 (.spawn 3 (.spawn 4
        (.await 0 _ ⟨_, rfl, trivial⟩ (.order _
          (.await 0 _ ⟨_, rfl, trivial⟩ (.order _ (.pure _))))))))))))))
  -- the instance of `m` stops at once: its automator has no mutants
  have stopped : (Instance.mutantless.run pairFiles pairGroup).Runs []
      (.error (.mutation .noMutants), Instance.mutantless.machine) := .pure _
  have hears : HearsTasks pairFiles pairRun := by
    intro ch v mem
    simp only [pairRun, List.mem_cons, Effect.await.injEq, List.cons.injEq, reduceCtorEq,
      and_false, List.not_mem_nil, or_false, false_or] at mem
    rcases mem with ⟨-, -, -, rfl⟩ | ⟨-, -, -, rfl⟩
    · exact ⟨_, _, rfl, fun it same => by cases same⟩
    · refine ⟨_, _, rfl, fun it same => ?_⟩
      cases same
      exact ⟨_, _, _, _, stopped, rfl⟩
  exact ⟨ran, hears, direct_outcome ran hears⟩

end Director

end Campaign
