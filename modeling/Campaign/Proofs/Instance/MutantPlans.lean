import Campaign.Proofs.Instance.Turns
import Campaign.Proofs.Mutation.Stream

/-! Each cycle is launched over the initial plan with the mutant of the last MutantChanged shown
before its Started (`Picks`, checked once per turn and carried over the loop). For a mutation
test the first mutant taken is the automator's first send, the mutant under test.
-/

namespace Campaign

namespace Instance

open Async

variable {ω : Type}

/-- The mutant a step selects: the mutant of a MutantChanged shown to the observers. -/
def mutantOf : Step ω → Option Mutation.Mutant
  | .call (.emit _ ⟨_, .inst (.mutantChanged mu)⟩) _ => some mu
  | _ => none

/-- Whether a step shows Started. -/
def startsCycle : Step ω → Bool
  | .call (.emit _ ⟨_, .cycle .started⟩) _ => true
  | _ => false

/-- The mutant of the last MutantChanged among the steps. -/
def lastMutant (evs : List (Step ω)) : Option Mutation.Mutant :=
  (evs.filterMap mutantOf).getLast?

/-- The plan a cycle launched after `evs` runs under: `p` with the mutant last selected in
`evs`, or `p` itself when none was. -/
def underMutants (p : Plan) (evs : List (Step ω)) : Plan :=
  { p with mutant := (lastMutant evs).or p.mutant }

variable (files : Files ω) (inst : Instance ω) (cx : Context)

/-- The launch rule over steps `evs` from plan `p`: each Started is followed at once by the
start of a cycle task over `p` with the mutant last selected before it. -/
def Launches (p : Plan) (evs : List (Step ω)) : Prop :=
  ∀ pre obs c rest, evs = pre ++ .call (.emit obs ⟨c, .cycle .started⟩) () :: rest →
    ∃ env t rest',
      rest = .effect (.spawn (cycleTask files inst cx env (underMutants p pre)) t) :: rest'

/-- Steps `evs` keep to the launch rule from plan `p`, and leave plan `p'`. -/
def Picks (p : Plan) (evs : List (Step ω)) (p' : Plan) : Prop :=
  Launches files inst cx p evs ∧ p' = underMutants p evs

variable {files inst cx}

section Plans

@[simp] theorem mutantOf_effect (e : Effect ω Item) : mutantOf (.effect e) = none := rfl

@[simp] theorem startsCycle_effect (e : Effect ω Item) : startsCycle (.effect e) = false := rfl

theorem lastMutant_append (l₁ l₂ : List (Step ω))
    : lastMutant (l₁ ++ l₂) = (lastMutant l₂).or (lastMutant l₁) := by
  simp [lastMutant, List.filterMap_append, List.getLast?_append]

@[simp] theorem lastMutant_effects (es : List (Effect ω Item))
    : lastMutant (es.map Routine.Event.effect) = none := by
  simp [lastMutant, List.filterMap_map, Function.comp_def]

@[simp] theorem underMutants_nil (p : Plan) : underMutants p ([] : List (Step ω)) = p := rfl

theorem underMutants_append (p : Plan) (l₁ l₂ : List (Step ω))
    : underMutants p (l₁ ++ l₂) = underMutants (underMutants p l₁) l₂ := by
  simp [underMutants, lastMutant_append, Option.or_assoc]

/-- A step that neither shows Started nor selects a mutant keeps the plan. -/
theorem underMutants_cons {a : Step ω} (quiet : mutantOf a = none) (p : Plan)
    (l : List (Step ω)) : underMutants p (a :: l) = underMutants p l := by
  rw [← List.singleton_append, underMutants_append]
  simp [underMutants, lastMutant, quiet]

end Plans

namespace Picks

variable {p p' p'' : Plan} {l l' : List (Step ω)}

/-- Two stretches of a run, one after the other. A Started of the second stretch comes after
all of the first, whose selections it sees; one of the first is answered within it. -/
theorem append (h : Picks files inst cx p l p') (h' : Picks files inst cx p' l' p'')
    : Picks files inst cx p (l ++ l') p'' := by
  obtain ⟨launches, rfl⟩ := h
  obtain ⟨launches', rfl⟩ := h'
  refine ⟨fun pre obs c rest split => ?_, (underMutants_append p l l').symm⟩
  rcases List.append_eq_append_iff.mp split with ⟨mid, rfl, hl'⟩ | ⟨mid, hl, hrest⟩
  · -- the Started is in the second stretch
    rw [underMutants_append]
    exact launches' mid obs c rest hl'
  · cases mid with
    | nil =>
      -- the Started opens the second stretch
      simp only [List.append_nil] at hl
      subst hl
      simpa using launches' [] obs c rest (by simpa using hrest.symm)
    | cons a mid =>
      -- the Started is in the first stretch, and so is the launch after it
      obtain ⟨rfl, rfl⟩ := List.cons_eq_cons.mp hrest
      obtain ⟨env, t, rest', hmid⟩ := launches pre obs c mid hl
      exact ⟨env, t, rest' ++ l', by simp [hmid]⟩

/-- A step that neither shows Started nor selects a mutant. -/
theorem cons {a : Step ω} (quiet : startsCycle a = false) (kept : mutantOf a = none)
    (h : Picks files inst cx p l p') : Picks files inst cx p (a :: l) p' := by
  obtain ⟨launches, rfl⟩ := h
  refine ⟨fun pre obs c rest split => ?_, (underMutants_cons kept p l).symm⟩
  cases pre with
  | nil =>
    obtain ⟨rfl, -⟩ := List.cons_eq_cons.mp split
    cases quiet
  | cons b pre =>
    obtain ⟨rfl, rest_split⟩ := List.cons_eq_cons.mp (by simpa only [List.cons_append] using split)
    rw [underMutants_cons kept]
    exact launches pre obs c rest rest_split

theorem nil : Picks files inst cx p ([] : List (Step ω)) p :=
  ⟨fun pre _ _ _ split => by simp at split, rfl⟩

/-- A routine's own effects keep the plan. -/
theorem effects (es : List (Effect ω Item))
    : Picks files inst cx p (es.map .effect) p := by
  induction es with
  | nil => exact .nil
  | cons e es ih => exact .cons rfl rfl ih

/-- MutantChanged selects its mutant. -/
theorem select {obs : List (Observer ω)} {c : Cycle} {mu : Mutation.Mutant}
    : Picks files inst cx p [.call (.emit obs ⟨c, .inst (.mutantChanged mu)⟩) ()]
        (p.setMutant mu) := by
  refine ⟨fun pre obs' c' rest split => ?_, rfl⟩
  cases pre with
  | nil => cases split
  | cons b pre => simp at split

/-- A launch over the plan held. -/
theorem launch {obs : List (Observer ω)} {c : Cycle} {env : CycleEnv ω} {t : Nat}
    : Picks files inst cx p [.call (.emit obs ⟨c, .cycle .started⟩) (),
        .effect (.spawn (cycleTask files inst cx env p) t)] p := by
  refine ⟨fun pre obs' c' rest split => ?_, rfl⟩
  cases pre with
  | nil =>
    obtain ⟨-, rfl⟩ := List.cons_eq_cons.mp split
    exact ⟨env, t, [], rfl⟩
  | cons b pre =>
    obtain ⟨-, rest_split⟩ := List.cons_eq_cons.mp (by simpa only [List.cons_append] using split)
    cases pre with
    | nil => cases rest_split
    | cons b' pre => simp at rest_split

end Picks

variable {obs : List (Observer ω)}

/-- A turn that goes on keeps to the launch rule from the machine's plan, and leaves the plan
the next state's machine holds. -/
theorem picks_turn_next {st st' : LoopState} {evs : List (Step ω)}
    (h : (turn files inst cx obs st).Runs evs (.next st'))
    : Picks files inst cx st.machine.initialPlan evs st'.machine.initialPlan := by
  obtain ⟨j, w, rest, rfl, branch⟩ := runs_turn h
  refine .cons rfl rfl ?_
  rcases branch with ⟨r, x, -, -, -, hout⟩ | ⟨ch, v, -, -, -, hm⟩ | ⟨c, t, o, -, -, -, hr⟩
    | ⟨b, -, -, -, hb⟩
  · cases hout
  · rcases runs_onMutant hm with ⟨mu, -, rfl, hout⟩ | ⟨es, -, rfl, hout⟩
    · cases hout
      exact .select
    · cases hout
      exact .effects es
  · obtain ⟨es₀, r, more, -, rfl, branch⟩ := runs_onResult hr
    refine (Picks.effects es₀).append (.cons rfl rfl ?_)
    rcases branch with ⟨c, -, -, hout⟩ | ⟨-, first, more, res, rfl, settled, reported⟩
    · cases hout
    obtain ⟨es, rfl, -, -⟩ := runs_settle settled
    refine (Picks.effects es).append ?_
    rcases runs_report reported with ⟨p, es', t, -, -, rfl, hout⟩ | ⟨e, clock, armed, -, rfl, hout⟩
    · -- a success: Finished, then the next iteration launched over the same plan
      cases hout
      exact (Picks.cons rfl rfl (.effects es')).append .launch
    · cases hout
      exact .cons rfl rfl (.cons rfl rfl (.cons rfl rfl .nil))
  · obtain ⟨es, es', t, -, -, rfl, hout⟩ := runs_onBackoff hb
    cases hout
    exact ((Picks.effects es).append (.effects es')).append .launch

/-- A turn that stops launches nothing, and leaves the machine as it was: it gives up the
cycle in flight, or discards its outcome. -/
theorem picks_turn_stop {st st' : LoopState} {r : Except InstanceError Unit}
    {evs : List (Step ω)} (h : (turn files inst cx obs st).Runs evs (.stop r st'))
    : Picks files inst cx st.machine.initialPlan evs st.machine.initialPlan
      ∧ st'.machine = st.machine := by
  obtain ⟨j, w, rest, rfl, branch⟩ := runs_turn h
  rcases branch with ⟨r, x, -, -, halted, hout⟩ | ⟨ch, v, -, -, -, hm⟩ | ⟨c, t, o, -, -, -, hr⟩
    | ⟨b, -, -, -, hb⟩
  · obtain ⟨es, -, rfl, rfl⟩ := runs_halt halted
    cases hout
    exact ⟨.cons rfl rfl (.effects es), rfl⟩
  · rcases runs_onMutant hm with ⟨mu, -, -, hout⟩ | ⟨es, -, -, hout⟩ <;> cases hout
  · obtain ⟨es, r, more, -, rfl, branch⟩ := runs_onResult hr
    rcases branch with ⟨c, -, rfl, hout⟩ | ⟨-, first, more, res, rfl, settled, reported⟩
    · cases hout
      exact ⟨.cons rfl rfl ((Picks.effects es).append (.cons rfl rfl .nil)), rfl⟩
    rcases runs_report reported with ⟨p, es', t, -, -, -, hout⟩ | ⟨e, clock, armed, -, -, hout⟩
      <;> cases hout
  · obtain ⟨es, es', t, -, -, -, hout⟩ := runs_onBackoff hb
    cases hout

/-- The loop ends with its machine holding plan `p`. -/
def EndsHolding (p : Plan) (x : Except InstanceError Unit × LoopState) : Prop :=
  x.2.machine.initialPlan = p

/-- Over the whole loop, launches keep to the rule from the plan of the state it starts in,
and the loop hands back a machine holding the plan with the mutant last selected. -/
theorem picks_loop {fuel : Nat} {st : LoopState} {evs : List (Step ω)}
    {x : Except InstanceError Unit × LoopState}
    (h : (loop files inst cx obs fuel st).Runs evs x)
    : Picks files inst cx st.machine.initialPlan evs x.2.machine.initialPlan := by
  obtain ⟨p', picks, rfl⟩ : ∃ p', Picks files inst cx st.machine.initialPlan evs p'
      ∧ EndsHolding p' x := by
    refine loop_moves Picks.append (fun _ _ => trivial) (fun _ turned => picks_turn_next turned)
      ?_ ?_ trivial h
    · intro st r st' evs _ turned
      obtain ⟨picks, kept⟩ := picks_turn_stop turned
      exact ⟨_, picks, congrArg Machine.initialPlan kept⟩
    · intro st reason evs x _ halted
      obtain ⟨es, -, rfl, rfl⟩ := runs_halt halted
      exact ⟨_, .cons rfl rfl (.effects es), rfl⟩
  exact picks

/-- Waiting for the first mutant selects it, if one comes, for the machine handed on. -/
theorem picks_firstMutant (files : Files ω) {m : Machine} {mutants : Option Nat} {evs : List (Step ω)}
    {y : Except Cancelled (Machine × Option Nat)}
    (h : (firstMutant inst cx obs m mutants).Runs evs y)
    : ∃ p', Picks files inst cx m.initialPlan evs p'
      ∧ ∀ m' mutants', y = .ok (m', mutants') → m'.initialPlan = p' := by
  rcases runs_firstMutant h with ⟨-, rfl, rfl⟩ | ⟨ch, j, w, -, -, taken⟩
  · exact ⟨_, .nil, by rintro _ _ ⟨⟩; rfl⟩
  rcases taken with ⟨r, -, -, rfl, rfl⟩ | ⟨mu, -, rfl, rfl⟩ | ⟨got, -, -, r, rfl, rfl⟩
  · exact ⟨_, .cons rfl rfl .nil, by rintro _ _ ⟨⟩⟩
  · exact ⟨_, .cons rfl rfl .select, by rintro _ _ ⟨⟩; rfl⟩
  · exact ⟨_, .cons rfl rfl (.cons rfl rfl .nil), by rintro _ _ ⟨⟩; rfl⟩

/-- The run loop launches cycle 0 over the plan the first mutant left, then loops. -/
theorem picks_runLoop {m : Machine} {mutants : Option Nat} {evs : List (Step ω)}
    {x : Except InstanceError Unit × Machine}
    (h : (runLoop files inst cx obs m mutants).Runs evs x)
    : ∃ p', Picks files inst cx m.initialPlan evs p' := by
  obtain ⟨es, prepared, rest, rfl, -, branch⟩ := runs_runLoop h
  rcases branch with ⟨e, es', -, -, rfl, -⟩ | ⟨-, first, y, more, rfl, taken, branch⟩
  · exact ⟨_, (Picks.effects es).append (.effects es')⟩
  obtain ⟨p', picked, handed⟩ := picks_firstMutant files taken
  rcases branch with ⟨r, es', -, -, rfl, -⟩
    | ⟨m', mutants', t, looped, r, st, es₀, es₁, es₂, handed_ok, -, looping, -, -, rfl, -⟩
  · exact ⟨_, (Picks.effects es).append (picked.append (.effects es'))⟩
  · -- cycle 0 is launched over the plan the first mutant left
    rw [← handed m' mutants' handed_ok] at picked
    exact ⟨_, (Picks.effects es).append (picked.append
      (((((Picks.effects es₀).append Picks.launch).append (picks_loop looping)).append
        (.effects es₁)).append (.effects es₂)))⟩

/-- A whole run of the instance keeps to the launch rule from its initial plan. -/
theorem picks_script {evs : List (Step ω)} {x : Except InstanceError Unit × Machine}
    (h : (script files inst cx).Runs evs x)
    : ∃ p', Picks files inst cx inst.machine.initialPlan evs p' := by
  obtain ⟨es, started, rest, rfl, -, branch⟩ := runs_script h
  have closes : ∀ {obs m automation closing z} {p : Plan},
      (close inst obs m automation).Runs closing z → Picks files inst cx p closing p := by
    intro obs m automation closing z p closed
    obtain ⟨closed, es, rfl, -⟩ := runs_close closed
    exact .cons rfl rfl (.cons rfl rfl (.effects es))
  rcases branch with ⟨e, y, -, closed, -⟩ | ⟨s, looped, y, closing, z, -, rfl, ran, closed, -⟩
  · exact ⟨_, (Picks.effects es).append (closes closed)⟩
  · obtain ⟨p', picks⟩ := picks_runLoop ran
    exact ⟨_, (Picks.effects es).append (picks.append (closes closed))⟩

/-! ## The first mutant -/

section FirstMutant

variable {cfg : Mutation.Config} {m₀ : Mutation.Mutant} {ms : List Mutation.Mutant}

/-- The automator of a mutation test whose expansion is `m₀ :: ms`, as the instance starts it. -/
def firstAutomator (cfg : Mutation.Config) (m₀ : Mutation.Mutant) (ms : List Mutation.Mutant)
    : Mutation.Automator :=
  ⟨m₀ :: ms, 0, cfg.auto.changeAfter, cfg.auto.changeKill⟩

/-- Once its channels are made, starting the automator makes the signal and spawns it. -/
theorem runs_spawnAutomator {a : Mutation.Automator} {out : Nat} {kills : Option Nat}
    {es : List (Effect ω Item)} {started : Except InstanceError (Option (Automation × Nat))}
    (h : (Proc.signal >>= fun sig =>
      Proc.start (a.run ⟨out, kills, cx.withSignal sig⟩ Item.mutant .done) >>= fun task =>
        (pure (.ok (some (⟨task, sig, kills⟩, out))) : Proc ω Item _)).Runs es started)
    : ∃ (sig : Reply Item) (t : Nat), es = [.order .signal sig,
        .spawn (a.run ⟨out, kills, cx.withSignal sig.asId⟩ Item.mutant .done) t]
      ∧ started = .ok (some (⟨t, sig.asId, kills⟩, out)) := by
  obtain ⟨signalled, rest, sig, rfl, hs, spawning⟩ := Proc.runs_bind_iff.mp h
  obtain ⟨r, rfl, rfl⟩ := Proc.runs_signal_iff.mp hs
  obtain ⟨spawned, rest, t, rfl, ht, done⟩ := Proc.runs_bind_iff.mp spawning
  obtain ⟨rfl, rfl⟩ := Proc.runs_pure_iff.mp done
  obtain rfl := Proc.runs_start_iff.mp ht
  exact ⟨r, t, rfl, rfl⟩

/-- For a mutation test, starting the automator makes the stream, then the kill input when
kills rotate, then the signal, and spawns the automator over them, at the expansion's first
mutant. -/
theorem runs_startMutation_testing (config : inst.machine.initialPlan.mutation = some cfg)
    (enabled : cfg.enabled = true) (expansion : cfg.mutants = m₀ :: ms)
    {es : List (Effect ω Item)} {started : Except InstanceError (Option (Automation × Nat))}
    (h : (startMutation inst cx).Runs es started)
    : ∃ (out sig : Reply Item) (kills : Option Nat) (opened : List (Effect ω Item)) (t : Nat),
      es = .order (.channel 1) out :: opened ++ [.order .signal sig,
        .spawn ((firstAutomator cfg m₀ ms).run ⟨out.asId, kills, cx.withSignal sig.asId⟩
          Item.mutant .done) t]
      ∧ ((opened = [] ∧ kills = none) ∨ ∃ r, opened = [.order (.channel 1) r] ∧ kills = some r.asId)
      ∧ started = .ok (some (⟨t, sig.asId, kills⟩, out.asId)) := by
  have testing : inst.machine.initialPlan.isMutationTest = true := by
    simp [Plan.isMutationTest, config, enabled]
  have automator : Mutation.Automator.ofConfig cfg = .ok (firstAutomator cfg m₀ ms) := by
    simp [Mutation.Automator.ofConfig, firstAutomator, expansion]
  unfold startMutation at h
  simp only [config, testing, automator, if_true] at h
  obtain ⟨made, rest, out, rfl, hm, h⟩ := Proc.runs_bind_iff.mp h
  obtain ⟨r₁, rfl, rfl⟩ := Proc.runs_channel_iff.mp hm
  -- the kill input is made only when kills rotate the mutant
  cases hkill : (firstAutomator cfg m₀ ms).killInput <;>
    simp only [hkill, Bool.false_eq_true, if_false, if_true] at h
  · obtain ⟨opened, rest, kills, rfl, hk, h⟩ := Proc.runs_bind_iff.mp h
    obtain ⟨rfl, rfl⟩ := Proc.runs_pure_iff.mp hk
    obtain ⟨sig, t, rfl, rfl⟩ := runs_spawnAutomator h
    exact ⟨r₁, sig, none, [], t, rfl, .inl ⟨rfl, rfl⟩, rfl⟩
  · obtain ⟨opened, rest, kills, rfl, hk, h⟩ := Proc.runs_bind_iff.mp h
    obtain ⟨made, more, k, rfl, hm, hk⟩ := Proc.runs_bind_iff.mp hk
    obtain ⟨r₂, rfl, rfl⟩ := Proc.runs_channel_iff.mp hm
    obtain ⟨rfl, rfl⟩ := Proc.runs_pure_iff.mp hk
    obtain ⟨sig, t, rfl, rfl⟩ := runs_spawnAutomator h
    exact ⟨r₁, sig, some r₂.asId, _, t, by simp, .inr ⟨r₂, rfl, rfl⟩, rfl⟩

/-- Preparing the saved directories works on no channel and spawns nothing. -/
theorem prepareSaved_inert (p : Pathset)
    : (files.prepareSaved p).Only fun e => e.act = none ∧ ∀ b t, e ≠ .spawn b t :=
  createDirs_only (fun _ => ⟨rfl, fun _ _ => nofun⟩) ⟨rfl, fun _ _ => nofun⟩ _

/-- A routine's own effects show no Started. -/
theorem quiet_effects (es : List (Effect ω Item))
    : ∀ e ∈ es.map Routine.Event.effect, startsCycle e = false := by
  simp

/-- A stretch with no Started cannot be cut at one. -/
theorem not_started_of_quiet {l pre rest : List (Step ω)} {a : Step ω}
    (ha : startsCycle a = true) (quiet : ∀ e ∈ l, startsCycle e = false)
    (split : l = pre ++ a :: rest) : False := by
  have := quiet a (by simp [split])
  rw [ha] at this
  cases this

/-- A stretch with no Started, ahead of a cut at a Started, lies wholly before the cut. -/
theorem cut_after_quiet {A l pre rest : List (Step ω)} {b : Step ω} (hb : startsCycle b = true)
    (quiet : ∀ e ∈ A, startsCycle e = false) (split : A ++ l = pre ++ b :: rest)
    : ∃ pre', pre = A ++ pre' ∧ l = pre' ++ b :: rest := by
  rcases List.append_eq_append_iff.mp split with ⟨pre', rfl, hl⟩ | ⟨mid, rfl, hmid⟩
  · exact ⟨pre', rfl, hl⟩
  · cases mid with
    | nil => exact ⟨[], by simp, by simpa using hmid.symm⟩
    | cons e mid =>
      obtain ⟨rfl, -⟩ := List.cons_eq_cons.mp hmid
      exact (not_started_of_quiet hb quiet rfl).elim

/-- A cut at the first Started of a stretch that opens with a Started is at its start. -/
theorem cut_at_start {a b : Step ω} {l pre rest : List (Step ω)} (ha : startsCycle a = true)
    (first : ∀ e ∈ pre, startsCycle e = false) (split : a :: l = pre ++ b :: rest) : pre = [] := by
  cases pre with
  | nil => rfl
  | cons e pre =>
    obtain ⟨opens, -⟩ := List.cons_eq_cons.mp (by simpa only [List.cons_append] using split)
    have := first e List.mem_cons_self
    rw [← opens, ha] at this
    cases this

/-- Before its first Started, a run of a mutation test's instance has started the automator,
prepared the saved directories and received once from the stream; a mutant received is
selected, and anything else lets go of the stream; then cycle 0's environment takes its
senders. -/
theorem runs_before_first_launch (config : inst.machine.initialPlan.mutation = some cfg)
    (enabled : cfg.enabled = true) (expansion : cfg.mutants = m₀ :: ms)
    {evs : List (Step ω)} {x : Except InstanceError Unit × Machine}
    (h : (script files inst cx).Runs evs x) {pre rest : List (Step ω)} {obs : List (Observer ω)}
    {c : Cycle} (split : evs = pre ++ .call (.emit obs ⟨c, .cycle .started⟩) () :: rest)
    (first : ∀ e ∈ pre, startsCycle e = false)
    : ∃ (out sig : Reply Item) (kills : Option Nat) (opened prepared : List (Effect ω Item))
        (t : Nat) (got : Option Item) (after : List (Step ω)),
      pre = (Effect.order (.channel 1) out :: opened ++ [Effect.order .signal sig,
          Effect.spawn ((firstAutomator cfg m₀ ms).run ⟨out.asId, kills, cx.withSignal sig.asId⟩
            Item.mutant .done) t] ++ prepared).map Routine.Event.effect
        ++ .effect (.await [.done cx, .recv out.asId] 1 (.received got)) :: after
      ∧ ((opened = [] ∧ kills = none) ∨ ∃ r, opened = [.order (.channel 1) r] ∧ kills = some r.asId)
      ∧ (∀ e ∈ prepared, e.act = none ∧ ∀ b t, e ≠ .spawn b t)
      ∧ ∃ held : List (Effect ω Item), (∀ e ∈ held, ∃ ch r, e = .order (.cloneSender ch) r)
        ∧ ((∃ mu o c', got = some (.mutant mu)
            ∧ after = .call (.emit o ⟨c', .inst (.mutantChanged mu)⟩) () :: held.map .effect)
          ∨ ((∀ mu, got ≠ some (.mutant mu))
            ∧ ∃ r, after = .effect (.order (.dropReceiver out.asId) r) :: held.map .effect)) := by
  obtain ⟨es, started, rest₀, rfl, hstart, branch⟩ := runs_script h
  obtain ⟨out, sig, kills, opened, t, rfl, hopened, rfl⟩ :=
    runs_startMutation_testing config enabled expansion hstart
  rcases branch with ⟨e, y, hstarted, -, -⟩ | ⟨s, looped, y, closing, z, hs, rfl, ran, closed, -⟩
  · cases hstarted
  cases hs
  -- closing shows no Started
  have closes : ∀ e ∈ closing, startsCycle e = false := by
    obtain ⟨closed, es, rfl, -⟩ := runs_close closed
    simp [startsCycle]
  obtain ⟨prepared, res, restL, rfl, prep, branch⟩ := runs_runLoop ran
  have inert := prepareSaved_inert _ prepared res prep
  rcases branch with ⟨e, es', -, -, rfl, -⟩ | ⟨-, waited, y', more, rfl, hy, branch⟩
  · -- a failed preparation launches nothing
    refine (not_started_of_quiet rfl ?_ split).elim
    simp only [List.forall_mem_append]
    exact ⟨quiet_effects _, ⟨quiet_effects _, quiet_effects _⟩, closes⟩
  have waits : ∀ e ∈ waited, startsCycle e = false := by
    rcases runs_firstMutant hy with ⟨-, rfl, -⟩ | ⟨ch, j, w, -, -, taken⟩
    · simp
    rcases taken with ⟨r, -, -, rfl, -⟩ | ⟨mu, -, rfl, -⟩ | ⟨got, -, -, r, rfl, -⟩ <;>
      simp [startsCycle]
  rcases branch with ⟨r, es', rfl, -, rfl, -⟩
    | ⟨m', mutants', t', looped, r, st, held, es₁, es₂, hok, retained, -, -, -, rfl, -⟩
  · -- nor does a context that ends before the first mutant
    refine (not_started_of_quiet rfl ?_ split).elim
    simp only [List.forall_mem_append]
    exact ⟨quiet_effects _, ⟨quiet_effects _, waits, quiet_effects _⟩, closes⟩
  -- the first Started is the launch of cycle 0, right after the first receive
  simp only [List.append_assoc, List.cons_append, List.nil_append] at split
  obtain ⟨pre₁, rfl, started₁⟩ := cut_after_quiet rfl (quiet_effects _) split
  obtain ⟨pre₂, rfl, started₂⟩ := cut_after_quiet rfl (quiet_effects _) started₁
  obtain ⟨pre₃, rfl, started₃⟩ := cut_after_quiet rfl waits started₂
  obtain ⟨pre₄, rfl, started₄⟩ := cut_after_quiet rfl (quiet_effects _) started₃
  obtain rfl := cut_at_start rfl (fun e he => first e (by simp [he])) started₄
  rcases runs_firstMutant hy with ⟨hm, -, -⟩ | ⟨ch, j, w, hm, ends, taken⟩
  · cases hm
  cases hm
  -- a receive ends the wait on its second branch
  have second : ∀ {got : Option Item}, Wait.Ends [.done cx, .recv out.asId] j (.received got)
      → j = 1 := by
    rintro got ⟨b, hb, fits⟩
    rcases j with _ | _ | j
    · cases hb
      cases fits
    · rfl
    · simp at hb
  rcases taken with ⟨r, -, -, rfl, rfl⟩ | ⟨mu, rfl, rfl, -⟩ | ⟨got, rfl, other, r, rfl, -⟩
  · cases hok
  · obtain rfl := second ends
    refine ⟨out, sig, kills, opened, prepared, t, _, _, ?_, hopened, inert, held,
      retain_clones retained, .inl ⟨mu, inst.observersOf cx (some (⟨t, sig.asId, kills⟩, out.asId)),
        inst.stamp (inst.machine.setMutant mu), rfl, rfl⟩⟩
    simp [firstAutomator]
  · obtain rfl := second ends
    exact ⟨out, sig, kills, opened, prepared, t, _, _, by simp [firstAutomator], hopened,
      inert, held, retain_clones retained, .inr ⟨other, r, rfl⟩⟩

/-- A mutation test's first cycle runs under the first mutant of its expansion, unless the
automator's context ends before its first offer: the last MutantChanged before the first
Started selects that mutant. The automator is the task spawned before the first launch, and
what it and the instance did to the stream it feeds is a history the stream allows. -/
theorem first_launch_selects_first_mutant (config : inst.machine.initialPlan.mutation = some cfg)
    (enabled : cfg.enabled = true) (expansion : cfg.mutants = m₀ :: ms)
    {evs : List (Step ω)} {x : Except InstanceError Unit × Machine}
    (h : (script files inst cx).Runs evs x) {pre rest : List (Step ω)} {obs : List (Observer ω)}
    {c : Cycle} (split : evs = pre ++ .call (.emit obs ⟨c, .cycle .started⟩) () :: rest)
    (first : ∀ e ∈ pre, startsCycle e = false)
    {body : Proc ω Item Item} {t : Nat} (spawned : .effect (.spawn body t) ∈ pre)
    {evsA : List (Effect ω Item)} {y : Item} (ran : body.Runs evsA y)
    (offered : ∀ ws j r, evsA.head? ≠ some (.await ws j (.done r)))
    (fed : ∀ a ∈ evsA.filterMap Effect.act, a.sends
      → Between a.channel (evs.filterMap Routine.Event.act) (evsA.filterMap Effect.act))
    : lastMutant pre = some m₀ := by
  obtain ⟨out, sig, kills, opened, prepared, t₀, got, after, rfl, hopened, inert, held, clones,
    received⟩ := runs_before_first_launch config enabled expansion h split first
  -- the task spawned before the first launch is the automator
  have automator : body = (firstAutomator cfg m₀ ms).run ⟨out.asId, kills, cx.withSignal sig.asId⟩
      Item.mutant .done := by
    rcases List.mem_append.mp spawned with spawned | spawned
    · obtain ⟨e, he, same⟩ := List.mem_map.mp spawned
      cases same
      simp only [List.mem_append, List.mem_cons, List.not_mem_nil, or_false] at he
      rcases he with ((he | he) | he | he) | he
      · cases he
      · rcases hopened with ⟨rfl, -⟩ | ⟨r, rfl, -⟩ <;> simp at he
      · cases he
      · cases he
        rfl
      · exact absurd rfl ((inert _ he).2 body t)
    · -- what follows the receive spawns nothing: a selection, or letting go, and senders taken
      have unspawned : ∀ e ∈ held, e ≠ .spawn body t := by
        intro e he same
        obtain ⟨ch, r, rfl⟩ := clones e he
        cases same
      rcases received with ⟨mu, o, c', -, rfl⟩ | ⟨-, r, rfl⟩ <;> simp at spawned <;>
        exact (unspawned _ spawned rfl).elim
  subst automator
  -- the automator's first step is a send of the mutant under test on the stream
  obtain ⟨ok, restA, rfl⟩ := Mutation.automator_sends_first ran offered
  have between : Between out.asId (evs.filterMap Routine.Event.act)
      ((Effect.await _ 1 (.sent ok) :: restA).filterMap Effect.act) :=
    fed (.send out.asId (Item.mutant m₀) ok)
      (by simp [Wait.act, firstAutomator, Mutation.Automator.current]) trivial
  -- the instance made the stream and received from it before doing anything else to it
  have prepares : prepared.filterMap Effect.act = [] :=
    List.filterMap_eq_nil_iff.mpr fun e he => (inert e he).1
  obtain ⟨L, apart, own⟩ : ∃ L, kills ≠ some out.asId
      ∧ (evs.filterMap Routine.Event.act).filter (·.channel = out.asId)
        = .make out.asId :: .recv out.asId got :: L := by
    rcases hopened with ⟨rfl, rfl⟩ | ⟨r, rfl, rfl⟩
    · exact ⟨_, (Option.some_ne_none _).symm, by
        simp [split, List.filterMap_cons, List.filterMap_append, List.filterMap_map,
          Function.comp_def, prepares, Order.act, Wait.act, Act.channel]
        rfl⟩
    · by_cases same : r.asId = out.asId
      · -- a kill input under the stream's name would make the stream a second time
        obtain ⟨L, twice⟩ : ∃ L, (evs.filterMap Routine.Event.act).filter (·.channel = out.asId)
            = .make out.asId :: .make out.asId :: L := ⟨_, by
          simp [split, List.filterMap_cons, List.filterMap_append, List.filterMap_map,
            Function.comp_def, prepares, Order.act, Wait.act, Act.channel, same]
          rfl⟩
        obtain ⟨history, merged, allowed⟩ := between
        rw [twice] at merged
        exact (not_allows_made_twice merged (fun a ha c =>
          (Mutation.automator_acts_feed ran a (List.mem_filter.mp ha).1).not_make c) allowed).elim
      · exact ⟨_, fun hk => same (Option.some.inj hk), by
          simp [split, List.filterMap_cons, List.filterMap_append, List.filterMap_map,
            Function.comp_def, prepares, Order.act, Wait.act, Act.channel, same]
          rfl⟩
  -- so the instance received the mutant under test, and selected it
  have taken := Mutation.first_receive_gets_current ran offered apart own between
  rcases received with ⟨mu, o, c', hgot, rfl⟩ | ⟨other, r, rfl⟩
  · rw [hgot] at taken
    cases taken
    have unselected : (held.map Routine.Event.effect).reverse.findSome? mutantOf = none :=
      List.findSome?_eq_none_iff.mpr (by simp)
    rw [lastMutant_append]
    simp [lastMutant, mutantOf, List.findSome?_cons, unselected, firstAutomator, Mutation.Automator.current]
  · exact absurd taken (other _)

end FirstMutant

/-! ## Each cycle's plan -/

/-- Every complete run of an instance launches each cycle over its initial plan with the
mutant of the last MutantChanged shown before the cycle's Started, the initial plan's own
mutant when there was none; so a mutant selected while a cycle is in flight reaches only the
cycles launched after it. And when the initial plan is an enabled mutation test with mutants
`m₀ :: ms`, the first Started comes after a MutantChanged that selects `m₀`, unless the
automator's context ends before its first offer: the automator being the task spawned before
that Started, run to its end, with every channel it sends on holding a history, between it and
the instance, that a channel allows. -/
theorem launches_under_selected_mutant {evs : List (Step ω)}
    {x : Except InstanceError Unit × Machine} (h : (script files inst cx).Runs evs x)
    : Launches files inst cx inst.machine.initialPlan evs
      ∧ ∀ (cfg : Mutation.Config) (m₀ : Mutation.Mutant) (ms : List Mutation.Mutant),
        inst.machine.initialPlan.mutation = some cfg → cfg.enabled = true
        → cfg.mutants = m₀ :: ms
        → ∀ (pre rest : List (Step ω)) (obs : List (Observer ω)) (c : Cycle),
          evs = pre ++ .call (.emit obs ⟨c, .cycle .started⟩) () :: rest
        → (∀ e ∈ pre, startsCycle e = false)
        → ∀ (body : Proc ω Item Item) (t : Nat), .effect (.spawn body t) ∈ pre
        → ∀ (evsA : List (Effect ω Item)) (y : Item), body.Runs evsA y
        → (∀ ws j r, evsA.head? ≠ some (.await ws j (.done r)))
        → (∀ a ∈ evsA.filterMap Effect.act, a.sends
            → Between a.channel (evs.filterMap Routine.Event.act) (evsA.filterMap Effect.act))
        → lastMutant pre = some m₀ := by
  obtain ⟨p', picks⟩ := picks_script h
  refine ⟨picks.1, ?_⟩
  intro cfg m₀ ms config enabled expansion pre rest obs c split first body t spawned evsA y ran
    offered fed
  exact first_launch_selects_first_mutant config enabled expansion h split first spawned ran
    offered fed

/-- A mutation test of mutant 7 alone. -/
def oneMutant : Mutation.Config := { enabled := true, ranges := [⟨7, none⟩] }

/-- An instance whose plan is that test, with nothing to watch it. -/
def testingOne : Instance Unit where
  index := 0
  machine :=
    { id := ⟨"m"⟩, initialPlan := { mutation := some oneMutant },
      pathset := ⟨⟨"/out"⟩⟩, quantities := {}, config := {} }
  stages := { build := fun _ w => (w, .ok ()), stages := fun _ => [], close := pure (.ok ()) }

/-- Files that hold nothing and take every save. -/
def noFiles : Files Unit := ⟨fun _ => {}, fun _ w => w⟩

/-- The automator such an instance starts: stream 1, no kill input, signal 2. -/
def testingOneAutomator : Proc Unit Item Item :=
  (firstAutomator oneMutant ⟨7⟩ []).run ⟨1, none, Context.background.withSignal 2⟩ Item.mutant .done

/-- Saving the five paths of the output set. -/
def testingOnePrepares : List (Effect Unit Item) :=
  [.await [.file] 0 .ready, .touch, .await [.file] 0 .ready, .touch, .await [.file] 0 .ready, .touch,
   .await [.file] 0 .ready, .touch, .await [.file] 0 .ready, .touch]

/-- A run up to Started: the automator is started, the paths are saved, and mutant 7 is
taken from the stream and selected. -/
def testingOneStart : List (Step Unit) :=
  [.effect (.order (.channel 1) (.id 1)), .effect (.order .signal (.id 2)),
    .effect (.spawn testingOneAutomator 3)]
  ++ testingOnePrepares.map .effect ++
  [.effect (.await [.done .background, .recv 1] 1 (.received (some (.mutant ⟨7⟩)))),
    .call (.emit [] ⟨testingOne.stamp testingOne.machine, .inst (.mutantChanged ⟨7⟩)⟩) ()]

/-- After Started: cycle 0 is launched under mutant 7; the context ends at the first turn,
the cycle is given up, and the instance closes and stops its automator. -/
def testingOneRest : List (Step Unit) :=
  [.effect (.spawn (cycleTask noFiles testingOne .background
      (testingOne.cycleEnv [] (testingOne.machine.setMutant ⟨7⟩))
      (testingOne.machine.setMutant ⟨7⟩).initialPlan) 4),
    .effect (.await (loopWaits .background ⟨testingOne.machine.setMutant ⟨7⟩, some 1,
      some (testingOne.stamp testingOne.machine, 4), none⟩) 0 (.done .cancelled)),
    .effect (.order (.abort 4) .unit),
    .effect (.await [.join 4] 0 (.joined .aborted)),
    .effect (.order (.dropReceiver 1) .unit),
    .call (.emit [] ⟨testingOne.stamp testingOne.machine, .inst .closed⟩) (),
    .call (.closeStages testingOne.stages) (.ok ()),
    .effect (.order (.raise 2) .unit),
    .effect (.await [.join 3] 0 (.joined (.value .done)))]

/-- The automator's side: it sends mutant 7, is stopped, and drops its sender. -/
def testingOneAutomating : List (Effect Unit Item) :=
  [.await [.done (Context.background.withSignal 2), .send 1 (.mutant ⟨7⟩)] 1 (.sent true),
    .await [.done (Context.background.withSignal 2), .never, .never] 0 (.done .cancelled),
    .order (.dropSender 1) .unit]

/-- The instance's whole run: cycle 0 starts after mutant 7 is selected. -/
def testingOneRun : List (Step Unit) :=
  testingOneStart ++ .call (.emit [] ⟨testingOne.stamp testingOne.machine, .cycle .started⟩) ()
    :: testingOneRest

theorem runs_startMutation_testingOne : (startMutation testingOne .background).Runs
    [.order (.channel 1) (.id 1), .order .signal (.id 2), .spawn testingOneAutomator 3]
    (.ok (some (⟨3, 2, none⟩, 1))) :=
  .order (.id 1) (.order (.id 2) (.spawn 3 (.pure _)))

theorem runs_prepareSaved_testingOne
    : (noFiles.prepareSaved testingOne.machine.pathset).Runs testingOnePrepares (.ok ()) :=
  .await 0 .ready ⟨_, rfl, trivial⟩ (.touch (.ok ())
    (.await 0 .ready ⟨_, rfl, trivial⟩ (.touch (.ok ())
    (.await 0 .ready ⟨_, rfl, trivial⟩ (.touch (.ok ())
    (.await 0 .ready ⟨_, rfl, trivial⟩ (.touch (.ok ())
    (.await 0 .ready ⟨_, rfl, trivial⟩ (.touch (.ok ()) (.pure _))))))))))

/-- The instance runs through `testingOneRun`, ending when its context does. -/
theorem runs_script_testingOne : (script noFiles testingOne .background).Runs testingOneRun
    (.error (.cancelled .cancelled), testingOne.machine.setMutant ⟨7⟩) := by
  refine .run runs_startMutation_testingOne ?_
  refine .run runs_prepareSaved_testingOne ?_
  -- the first mutant arrives and is selected
  refine .run (show Proc.Runs _ [.await [.done .background, .recv 1] 1
      (.received (some (Item.mutant ⟨7⟩)))] _ from
    .await 1 _ (by exact ⟨_, rfl, trivial⟩) (.pure _)) ?_
  refine .call () ?_
  -- cycle 0 is launched; the observers hold no sender to retain
  refine .run (.pure _) (.call () (.run (.spawn 4 (.pure _)) ?_))
  -- the context ends at the first turn, and the cycle is given up
  refine .run (show Proc.Runs _ [.await (loopWaits .background ⟨testingOne.machine.setMutant ⟨7⟩,
      some 1, some (testingOne.stamp testingOne.machine, 4), none⟩) 0 (.done .cancelled)] _ from
    .await 0 _ (by exact ⟨_, rfl, trivial⟩) (.pure _)) ?_
  refine .run (show Proc.Runs _ [.order (.abort 4) .unit, .await [.join 4] 0 (.joined .aborted)] _
    from .order .unit (.await 0 _ (by exact ⟨_, rfl, trivial⟩) (.pure _))) ?_
  refine .run (.pure _) (.run ((Proc.runs_dropReceiver_iff (u := ())).mpr ⟨.unit, rfl⟩) ?_)
  -- closing, and stopping the automator
  refine .call () ?_
  refine .call (Except.ok ()) ?_
  refine .run (.pure _) ?_
  exact .run (show Proc.Runs _ [.order (.raise 2) .unit,
      .await [.join 3] 0 (.joined (.value Item.done))] _
    from .order .unit (.await 0 _ (by exact ⟨_, rfl, trivial⟩) (.pure _))) (.pure _)

theorem runs_automator_testingOne : testingOneAutomator.Runs testingOneAutomating .done :=
  .await 1 (.sent true) ⟨_, rfl, trivial⟩
    (.await 0 (.done .cancelled) ⟨_, rfl, trivial⟩ (.order .unit (.pure _)))

/-- The two sides of stream 1 make one history the stream allows. -/
theorem between_testingOne : Between 1 (testingOneRun.filterMap Routine.Event.act)
    (testingOneAutomating.filterMap Effect.act) := by
  have acts : testingOneRun.filterMap Routine.Event.act
      = [.make 1, .recv 1 (some (.mutant ⟨7⟩)), .dropReceiver 1] := rfl
  rw [acts]
  exact ⟨_, .left (.right (.left (.left (.right .nil)))),
    .cons .make (.cons (.sent rfl) (.cons .received (.cons .dropReceiver (.cons .dropSender .nil))))⟩

/-- In that run cycle 0 is launched under the initial plan with mutant 7, the first mutant. -/
theorem launches_under_selected_mutant_testingOne :
    Launches noFiles testingOne .background testingOne.machine.initialPlan testingOneRun
      ∧ lastMutant testingOneStart = some ⟨7⟩ := by
  have first : ∀ e ∈ testingOneStart, startsCycle e = false := by
    simp [testingOneStart, testingOnePrepares, startsCycle]
  have spawned : .effect (.spawn testingOneAutomator 3) ∈ testingOneStart := by
    simp [testingOneStart]
  have offered : ∀ ws j r, testingOneAutomating.head? ≠ some (.await ws j (.done r)) := by
    simp [testingOneAutomating]
  have fed : ∀ a ∈ testingOneAutomating.filterMap Effect.act, a.sends →
      Between a.channel (testingOneRun.filterMap Routine.Event.act)
        (testingOneAutomating.filterMap Effect.act) := by
    intro a mem _
    -- the automator sends on stream 1 only
    have onStream : a.channel = 1 := by
      simp [testingOneAutomating, Wait.act, Order.act] at mem
      rcases mem with rfl | rfl <;> rfl
    rw [onStream]
    exact between_testingOne
  exact ⟨(launches_under_selected_mutant runs_script_testingOne).1,
    (launches_under_selected_mutant runs_script_testingOne).2 oneMutant ⟨7⟩ [] rfl rfl rfl _ _ [] _
      rfl first _ _ spawned _ _ runs_automator_testingOne offered fed⟩

end Instance

end Campaign
