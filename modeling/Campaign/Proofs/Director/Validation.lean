import Campaign.Proofs.Director.Building
import Campaign.Observer.Forward

/-! Building a campaign makes its checks in a fixed order and fails with the first that fails,
telling its observers nothing; a campaign that builds announces its machines and instances in
key order. The configuration's own checks bound the forwarder buffer from below only, so a
buffer too large for any channel passes them and making the forwarder panics
(`forwarder_of_validate`).
-/

namespace Campaign

namespace Director

variable {ω : Type}

/-- The checks made before any instance is built, in the order they are made: each gives the
failure of a campaign that fails it. -/
def preflight (env : Environment ω) (machines : Table MachineId MachineConfig)
    (inputs : List Path) (opts : DirectorOptions) : List (Option DirectorError) :=
  [if machines.size = 0 then some .noMachines else none,
   if inputs = [] then some .noInputs else none,
   if env.planner.isNone then some (.env (.missing "planner")) else none,
   if env.factory.isNone then some (.env (.missing "stage factory")) else none,
   if opts.outDir.isNone then some .noOutDir else none,
   if opts.globalTimeout.map (·.nanos) = some 0 then some .zeroTimeout else none]

/-- The check of each machine's stages, in the order of `entries`: the failure of a machine
whose stages the factory refuses. -/
def stageChecks (factory : StageFactory ω) (out : Path) (opts : DirectorOptions)
    (entries : List (MachineId × MachineConfig)) : List (Option DirectorError) :=
  entries.map fun (id, config) =>
    match factory.forMachine (Machine.create id config (Pathset.ofMachine out id) opts.quantities)
    with
    | .error src => some (.stages id src)
    | .ok _ => none

/-- All checks of a campaign, in order; the stages are checked once there are a factory and an
output directory. -/
def checks (env : Environment ω) (machines : Table MachineId MachineConfig) (inputs : List Path)
    (opts : DirectorOptions) : List (Option DirectorError) :=
  preflight env machines inputs opts ++
    match env.factory, opts.outDir with
    | some factory, some out => stageChecks factory out opts machines.entries
    | _, _ => []

/-- `e` is the failure of the first check that fails. -/
def FirstFault (checks : List (Option DirectorError)) (e : DirectorError) : Prop :=
  ∃ pre post, checks = pre ++ some e :: post ∧ ∀ c ∈ pre, c = none

theorem firstFault_iff {cs : List (Option DirectorError)} {e : DirectorError} :
    FirstFault cs e ↔ cs.findSome? id = some e := by
  rw [List.findSome?_eq_some_iff]
  constructor
  · rintro ⟨pre, post, rfl, passed⟩
    exact ⟨pre, some e, post, rfl, rfl, passed⟩
  · rintro ⟨pre, c, post, rfl, failed, passed⟩
    exact ⟨pre, post, by rw [show c = some e from failed], passed⟩

section

variable {env : Environment ω} {machines : Table MachineId MachineConfig} {inputs : List Path}
  {opts : DirectorOptions} {observers : List (DirectorObserver ω)}
  {mint : Option (Nat → MachineId → List (Observer ω))}
  {factory : StageFactory ω} {out : Path}

/-- A machine whose stages the factory refuses gets no instance. -/
theorem instanceOf_refused {id : MachineId} {config : MachineConfig} {index : Nat} {src : Cause}
    (refused : factory.forMachine
      (Machine.create id config (Pathset.ofMachine out id) opts.quantities) = .error src) :
    instanceOf factory out opts mint ((id, config), index) = .error (.stages id src) := by
  simp [instanceOf, refused, Except.mapError, bind, Except.bind]

/-- A machine whose stages are built gets the instance of its place. -/
theorem instanceOf_built (mint : Option (Nat → MachineId → List (Observer ω))) (index : Nat)
    {id : MachineId} {config : MachineConfig} {stages : StageSet ω}
    (built : factory.forMachine
      (Machine.create id config (Pathset.ofMachine out id) opts.quantities) = .ok stages) :
    ∃ inst, instanceOf factory out opts mint ((id, config), index) = .ok inst ∧
      inst.machine.id = id ∧ inst.index = index := by
  have made : instanceOf factory out opts mint ((id, config), index) =
      .ok { index, machine := Machine.create id config (Pathset.ofMachine out id) opts.quantities,
            stages, observers := (mint.map fun f => f index id).getD [],
            fuzzer := opts.fuzzer, filters := opts.filters } := by
    cases mint <;> simp [instanceOf, built, Except.mapError, bind, Except.bind, pure, Except.pure]
  exact ⟨_, made, rfl, rfl⟩

/-- Building the instances of `entries`, numbered from `n`, fails with the first machine whose
stages the factory refuses. -/
theorem mapM_instanceOf_eq_error_iff (entries : List (MachineId × MachineConfig)) (n : Nat)
    {e : DirectorError} :
    (entries.zipIdx n).mapM (instanceOf factory out opts mint) = .error e ↔
      (stageChecks factory out opts entries).findSome? id = some e := by
  induction entries generalizing n with
  | nil => simp [stageChecks, pure, Except.pure]
  | cons entry rest ih =>
    obtain ⟨id, config⟩ := entry
    rw [List.zipIdx_cons, List.mapM_cons]
    cases made : factory.forMachine
        (Machine.create id config (Pathset.ofMachine out id) opts.quantities) with
    | error src => simp [instanceOf_refused made, stageChecks, made, bind, Except.bind]
    | ok stages =>
      -- a machine whose stages are built passes, so the first failure is among the rest
      obtain ⟨inst, built, -, -⟩ := instanceOf_built mint n made
      have passes : stageChecks factory out opts ((id, config) :: rest) =
          none :: stageChecks factory out opts rest := by
        simp [stageChecks, made]
      rw [passes, List.findSome?_cons_of_isNone rfl, ← ih (n + 1)]
      cases (rest.zipIdx (n + 1)).mapM (instanceOf factory out opts mint) <;>
        simp [built, bind, Except.bind, pure, Except.pure]

/-- The instances built for `entries`, numbered from `n`, are one per machine in order, each
numbered by its place. -/
theorem mapM_instanceOf_places (entries : List (MachineId × MachineConfig)) (n : Nat)
    {insts : List (Instance ω)}
    (built : (entries.zipIdx n).mapM (instanceOf factory out opts mint) = .ok insts) :
    insts.map (fun inst => (inst.machine.id, inst.index)) = (entries.map Prod.fst).zipIdx n := by
  induction entries generalizing n insts with
  | nil =>
    simp only [List.zipIdx_nil, List.mapM_nil, pure, Except.pure, Except.ok.injEq] at built
    simp [← built]
  | cons entry rest ih =>
    obtain ⟨id, config⟩ := entry
    rw [List.zipIdx_cons, List.mapM_cons] at built
    cases made : factory.forMachine
        (Machine.create id config (Pathset.ofMachine out id) opts.quantities) with
    | error src => simp [instanceOf_refused made, bind, Except.bind] at built
    | ok stages =>
      obtain ⟨inst, first_built, same_id, same_index⟩ := instanceOf_built mint n made
      cases rest_built : (rest.zipIdx (n + 1)).mapM (instanceOf factory out opts mint) with
      | error e => simp [first_built, rest_built, bind, Except.bind] at built
      | ok rest_insts =>
        simp only [first_built, rest_built, bind, Except.bind, pure, Except.pure,
          Except.ok.injEq] at built
        subst built
        simp [same_id, same_index, ih (n + 1) rest_built]

/-- A campaign that passes the checks made before its instances are built builds them, one per
machine in key order, and keeps its machines and observers. -/
theorem create_of_cleared {planner : Planner ω}
    (some_given : machines.size ≠ 0) (inputs_given : inputs ≠ [])
    (planned : env.planner = some planner) (made : env.factory = some factory)
    (placed : opts.outDir = some out) (limited : opts.globalTimeout.map (·.nanos) ≠ some 0) :
    create env machines inputs opts observers mint =
      (machines.entries.zipIdx.mapM (instanceOf factory out opts mint)).map fun instances =>
        ⟨planner, machines, inputs, instances, observers, opts.quantities, limitMs opts⟩ := by
  unfold create
  simp only [bind, Except.bind, throw, throwThe, MonadExceptOf.throw, pure, Except.pure,
    some_given, List.isEmpty_iff, inputs_given, Environment.resolve, planned, made,
    Except.mapError, placed, beq_iff_eq, limited, if_false]
  cases machines.entries.zipIdx.mapM (instanceOf factory out opts mint) <;> rfl

/-- Building a campaign fails exactly with the failure of the first check it fails. -/
theorem create_eq_error_iff {e : DirectorError} :
    create env machines inputs opts observers mint = .error e ↔
      (checks env machines inputs opts).findSome? id = some e := by
  unfold create checks preflight
  simp only [bind, Except.bind, throw, throwThe, MonadExceptOf.throw, pure, Except.pure,
    List.isEmpty_iff, beq_iff_eq, List.findSome?_append, List.findSome?_cons, id]
  -- the checks in the order they are made
  by_cases none_given : machines.size = 0
  · simp [none_given]
  by_cases no_inputs : inputs = []
  · simp [none_given, no_inputs]
  cases planned : env.planner with
  | none => simp [none_given, no_inputs, planned, Environment.resolve, Except.mapError]
  | some planner =>
    cases made : env.factory with
    | none => simp [none_given, no_inputs, planned, made, Environment.resolve, Except.mapError]
    | some factory =>
      cases placed : opts.outDir with
      | none => simp [none_given, no_inputs, planned, made, Environment.resolve, Except.mapError]
      | some out =>
        by_cases zero : opts.globalTimeout.map (·.nanos) = some 0
        · simp [none_given, no_inputs, planned, made, zero, Environment.resolve, Except.mapError]
        · simp only [none_given, no_inputs, planned, made, zero, Environment.resolve,
            Except.mapError, if_false, Option.isNone_some, Bool.false_eq_true, List.findSome?_nil,
            Option.none_or]
          rw [← mapM_instanceOf_eq_error_iff machines.entries 0]
          cases machines.entries.zipIdx.mapM (instanceOf factory out opts mint) <;> simp

/-- A campaign that passes the checks made before its instances are built has a planner, a
stage factory and an output directory. -/
theorem preflight_passed (passed : ∀ c ∈ preflight env machines inputs opts, c = none) :
    machines.size ≠ 0 ∧ inputs ≠ [] ∧ opts.globalTimeout.map (·.nanos) ≠ some 0 ∧
      ∃ planner factory out, env.planner = some planner ∧ env.factory = some factory ∧
        opts.outDir = some out := by
  obtain ⟨some_given, inputs_given, planner_given, factory_given, out_given, limited⟩ := by
    simpa [preflight] using passed
  obtain ⟨planner, planned⟩ := Option.ne_none_iff_exists'.mp planner_given
  obtain ⟨factory, made⟩ := Option.ne_none_iff_exists'.mp factory_given
  obtain ⟨out, placed⟩ := Option.ne_none_iff_exists'.mp out_given
  exact ⟨some_given, inputs_given, by simpa using limited, planner, factory, out, planned, made,
    placed⟩

/-- A campaign that builds passed every check; it keeps its machines and observers, and holds
one instance per machine, in key order, each numbered by its machine's place. -/
theorem create_eq_ok {d : Director ω}
    (built : create env machines inputs opts observers mint = .ok d) :
    (∀ c ∈ checks env machines inputs opts, c = none) ∧ d.machines = machines ∧
      d.observers = observers ∧
      d.instances.map (fun inst => (inst.machine.id, inst.index)) = machines.keys.zipIdx := by
  have passed : ∀ c ∈ checks env machines inputs opts, c = none := by
    cases first : (checks env machines inputs opts).findSome? id with
    | none => simpa using List.findSome?_eq_none_iff.mp first
    | some e =>
      have failed : create env machines inputs opts observers mint = .error e :=
        create_eq_error_iff.mpr first
      rw [built] at failed
      cases failed
  obtain ⟨some_given, inputs_given, limited, planner, factory, out, planned, made, placed⟩ :=
    preflight_passed fun c mem => passed c (List.mem_append_left _ mem)
  rw [create_of_cleared some_given inputs_given planned made placed limited] at built
  cases instances_built : machines.entries.zipIdx.mapM (instanceOf factory out opts mint) with
  | error e => simp [instances_built, Except.map] at built
  | ok insts =>
    simp only [instances_built, Except.map, Except.ok.injEq] at built
    subst built
    exact ⟨passed, rfl, rfl, mapM_instanceOf_places machines.entries 0 instances_built⟩

end

/-- Building a campaign makes its checks in order: machines, inputs, planner, stage factory,
output directory and time limit, then the stages of each machine in key order. It fails with the
failure of the first check that fails, and its observers then hear nothing. A campaign that
builds passed every check; it holds one instance per machine, numbered by the machine's place in
key order, and each of its observers in turn hears the start of the machines with their number,
each machine with its place, their end, and the number of instances. -/
theorem build_checks_then_announces (env : Environment ω)
    (machines : Table MachineId MachineConfig) (inputs : List Path) (opts : DirectorOptions)
    (observers : List (DirectorObserver ω)) (mint : Option (Nat → MachineId → List (Observer ω)))
    (w : ω) :
    (∀ e, create env machines inputs opts observers mint = .error e ↔
        FirstFault (checks env machines inputs opts) e) ∧
    (∀ e, create env machines inputs opts observers mint = .error e →
        announce (create env machines inputs opts observers mint) w = w) ∧
    ((∃ d, create env machines inputs opts observers mint = .ok d) ↔
        ∀ c ∈ checks env machines inputs opts, c = none) ∧
    ∀ d, create env machines inputs opts observers mint = .ok d →
      d.instances.map (fun inst => (inst.machine.id, inst.index)) = machines.keys.zipIdx ∧
      announce (create env machines inputs opts observers mint) w =
        DirectorObserver.tellAll observers
          ([.machines (.start machines.size)] ++
            machines.entries.zipIdx.map (fun ((id, config), i) => .machines (.step i ⟨id, config⟩)) ++
            [.machines .done, .prepare (.instances machines.size)]) w := by
  refine ⟨fun e => create_eq_error_iff.trans firstFault_iff.symm, ?_, ⟨?_, ?_⟩, ?_⟩
  · intro e failed
    rw [failed]
    rfl
  · rintro ⟨d, built⟩
    exact (create_eq_ok built).1
  · intro passed
    cases built : create env machines inputs opts observers mint with
    | ok d => exact ⟨d, rfl⟩
    | error e =>
      have first := create_eq_error_iff.mp built
      have none_failed : (checks env machines inputs opts).findSome? id = none :=
        List.findSome?_eq_none_iff.mpr passed
      rw [none_failed] at first
      cases first
  · intro d built
    obtain ⟨-, kept_machines, kept_observers, places⟩ := create_eq_ok built
    have counted : d.instances.length = machines.size := by
      simpa [Table.keys, Table.size] using congrArg List.length places
    refine ⟨places, ?_⟩
    rw [built]
    show DirectorObserver.tellAll d.observers d.announcements w = _
    rw [announcements, kept_machines, kept_observers, counted]

end Director

/-! ## The configuration's checks -/

namespace CampaignConfig

/-- What validation accepts: a positive forwarder buffer, a time limit that is not zero if there
is one, and no stage with an empty program. -/
theorem validate_eq_ok_iff (c : CampaignConfig) :
    c.validate = .ok () ↔
      0 < c.forwardBuffer ∧ c.globalTimeoutSecs ≠ some 0 ∧ c.emptyProgram? = none := by
  unfold validate
  -- the checks in the order they are made
  by_cases no_buffer : c.forwardBuffer = 0
  · simp [no_buffer]
  by_cases zero_limit : c.globalTimeoutSecs = some 0
  · simp [no_buffer, zero_limit]
  cases program : c.emptyProgram? <;>
    simp [no_buffer, zero_limit, Nat.pos_iff_ne_zero]

/-- A configuration that validation accepts makes its forwarder whenever its buffer fits the
largest channel there is; a larger buffer passes validation too, and making its channel then
panics. The forwarder's own refusal of an empty buffer never arises. -/
theorem forwarder_of_validate (c : CampaignConfig) (hs : List Handler)
    (valid : c.validate = .ok ()) :
    Forwarder.create c.forwardBuffer hs =
      if c.forwardBuffer ≤ Forwarder.maxCapacity then .ok ⟨c.forwardBuffer, hs⟩
      else .error (.panic Forwarder.capacityPanic) := by
  obtain ⟨positive, -, -⟩ := (validate_eq_ok_iff c).mp valid
  have nonzero : c.forwardBuffer ≠ 0 := Nat.pos_iff_ne_zero.mp positive
  by_cases fits : c.forwardBuffer ≤ Forwarder.maxCapacity
  · simp [Forwarder.create, nonzero, fits]
  · simp [Forwarder.create, nonzero, fits, Nat.lt_of_not_le fits]

theorem forwarder_of_validate_defaults :
    ({} : CampaignConfig).validate = .ok () ∧
      Forwarder.create ({} : CampaignConfig).forwardBuffer [.log, .stats] =
        .ok ⟨defaultForwardBuffer, [.log, .stats]⟩ :=
  ⟨rfl, (forwarder_of_validate {} [.log, .stats] rfl).trans (if_pos (by decide))⟩

/-- Validation lets a buffer of `2 ^ 61` messages through, one more than the largest channel
there is, and making the forwarder with it panics. -/
theorem validated_buffer_panics :
    ({ forwardBuffer := 2 ^ 61 } : CampaignConfig).validate = .ok () ∧
      Forwarder.create (2 ^ 61) [.log, .stats] = .error (.panic Forwarder.capacityPanic) :=
  ⟨rfl, rfl⟩

end CampaignConfig

end Campaign
