import Campaign.Proofs.Instance.MutantPlans
import Campaign.Proofs.Async.Counting

/-! Every mutant an instance takes from its stream is shown once, as one MutantChanged right after
it is taken (`Heeds.echoes`), and the instance puts nothing into any channel and shows every
event to the same observers (`heeds_script`). `Heeds` is proved per turn and carried over the
loop by `loop_moves`.
-/

namespace Campaign

/-- The mutant an item carries, if it carries one. -/
def Item.asMutant : Item → Option Mutation.Mutant
  | .mutant m => some m
  | _ => none

namespace Instance

open Async

variable {ω : Type}

/-- The mutant a step took from a channel, if it took one. -/
def takenMutant (e : Step ω) : Option Mutation.Mutant :=
  (e.act.bind Act.got).bind Item.asMutant

/-- The mutants taken by a run are the items it took, read as mutants. -/
theorem filterMap_takenMutant (evs : List (Step ω))
    : evs.filterMap takenMutant
      = ((evs.filterMap Routine.Event.act).filterMap Act.got).filterMap Item.asMutant := by
  simp only [List.filterMap_filterMap]
  rfl

/-- A step that shows an event shows it to `obs`. -/
def ShowsTo (obs : List (Observer ω)) : Step ω → Prop
  | .call (.emit o _) _ => o = obs
  | _ => True

/-- An effect that puts nothing into a channel and takes nothing out. -/
def Idle (e : Effect ω Item) : Prop :=
  e.ActsWithin fun a => a.put = none ∧ a.got = none

theorem idle_of_act {e : Effect ω Item} (none_act : e.act = none) : Idle e := by
  intro a ha
  rw [none_act] at ha
  cases ha

/-- What the steps `evs` of an instance keep to, with observers `obs` and mutant stream
`out`. -/
structure Heeds (obs : List (Observer ω)) (out : Nat) (evs : List (Step ω)) : Prop where
  /-- Every event shown goes to `obs`. -/
  shows : ∀ e ∈ evs, ShowsTo obs e
  /-- Nothing is put into a channel, and items are taken only from the stream. -/
  keeps : ∀ a ∈ evs.filterMap Routine.Event.act, a.put = none ∧ ∀ v, a.got = some v → a.channel = out
  /-- The MutantChanged events carry the mutants taken, in order. -/
  echoes : evs.filterMap mutantOf = evs.filterMap takenMutant

namespace Heeds

variable {obs : List (Observer ω)} {out : Nat} {l l' : List (Step ω)}

theorem nil : Heeds obs out ([] : List (Step ω)) :=
  ⟨fun _ none => absurd none List.not_mem_nil, fun _ none => absurd none List.not_mem_nil, rfl⟩

theorem append (h : Heeds obs out l) (h' : Heeds obs out l') : Heeds obs out (l ++ l') := by
  refine ⟨fun e he => ?_, fun a ha => ?_, ?_⟩
  · rcases List.mem_append.mp he with he | he
    · exact h.shows e he
    · exact h'.shows e he
  · rw [List.filterMap_append] at ha
    rcases List.mem_append.mp ha with ha | ha
    · exact h.keeps a ha
    · exact h'.keeps a ha
  · rw [List.filterMap_append, List.filterMap_append, h.echoes, h'.echoes]

/-- An effect of the routine's own keeps to it when it puts nothing in and takes nothing out. -/
theorem effect {e : Effect ω Item} (idle : Idle e) : Heeds obs out [.effect e] := by
  refine ⟨by simp [ShowsTo], fun a ha => ?_, ?_⟩
  · obtain ⟨put, got⟩ := idle a (by simpa using ha)
    exact ⟨put, fun v same => by rw [got] at same; cases same⟩
  · cases hact : e.act with
    | none => simp [takenMutant, hact]
    | some a =>
      obtain ⟨-, got⟩ := idle a hact
      simp [takenMutant, hact, got]

/-- The routine's own effects keep to it when each puts nothing in and takes nothing out. -/
theorem effects {es : List (Effect ω Item)} (idle : ∀ e ∈ es, Idle e)
    : Heeds obs out (es.map .effect) := by
  induction es with
  | nil => exact nil
  | cons e es ih =>
    exact (effect (idle e List.mem_cons_self)).append
      (ih fun e' he' => idle e' (List.mem_cons_of_mem _ he'))

/-- An event other than MutantChanged, shown to `obs`. -/
theorem shown {c : Cycle} {e : Event} (other : ∀ mu, e ≠ .inst (.mutantChanged mu))
    : Heeds obs out [.call (.emit obs ⟨c, e⟩) ()] := by
  refine ⟨by simp [ShowsTo], by simp, ?_⟩
  cases e with
  | inst m =>
    cases m with
    | closed => rfl
    | mutantChanged mu => exact absurd rfl (other mu)
  | cycle _ | analysis _ | compilerConfig _ | save _ | build _ | copy _ => rfl

/-- Closing the stages shows nothing and works on no channel. -/
theorem closeStages {stages : StageSet ω} {r : Except Cause Unit}
    : Heeds obs out [.call (.closeStages stages) r] :=
  ⟨by simp [ShowsTo], by simp, rfl⟩

/-- A mutant taken from the stream, shown at once as MutantChanged. -/
theorem taken {ws : List (Wait Item)} {j : Nat} {mu : Mutation.Mutant} {c : Cycle}
    (on : ws[j]? = some (.recv out))
    : Heeds obs out [.effect (.await ws j (.received (some (.mutant mu)))),
        .call (.emit obs ⟨c, .inst (.mutantChanged mu)⟩) ()] := by
  refine ⟨by simp [ShowsTo], fun a ha => ?_, ?_⟩
  · simp [on, Wait.act, List.filterMap_cons] at ha
    subst ha
    exact ⟨rfl, fun _ _ => rfl⟩
  · simp [on, Wait.act, List.filterMap_cons, mutantOf, takenMutant, Act.got, Item.asMutant]

/-- Anything else taken from the stream, or its end, is shown as nothing. -/
theorem passed {ws : List (Wait Item)} {j : Nat} {got : Option Item}
    (on : ws[j]? = some (.recv out)) (other : ∀ mu, got ≠ some (.mutant mu))
    : Heeds obs out [.effect (.await ws j (.received got))] := by
  refine ⟨by simp [ShowsTo], fun a ha => ?_, ?_⟩
  · simp [on, Wait.act] at ha
    subst ha
    exact ⟨rfl, fun _ _ => rfl⟩
  · rcases got with _ | ⟨_ | _ | _ | _ | _ | _ | _⟩
    · simp [on, Wait.act, List.filterMap_cons, takenMutant, Act.got]
    · exact absurd rfl (other _)
    all_goals simp [on, Wait.act, List.filterMap_cons, takenMutant, Act.got, Item.asMutant]

end Heeds

/-! ## The pieces of a run -/

variable {files : Files ω} {inst : Instance ω} {cx : Context} {obs : List (Observer ω)}
  {out : Nat}

/-- Taking a mutant applies it, and shows it as MutantChanged. -/
theorem runs_onMutant_mutant {st : LoopState} {mu : Mutation.Mutant} {evs : List (Step ω)}
    {o : Turn} (h : (onMutant inst obs st (.received (some (.mutant mu)))).Runs evs o)
    : evs = [.call (.emit obs ⟨inst.stamp (st.machine.setMutant mu), .inst (.mutantChanged mu)⟩) ()] := by
  simp only [onMutant, Routine.bind_eq, Routine.pure_eq] at h
  obtain ⟨first, rest, m, rfl, change, done⟩ := Routine.runs_bind_iff.mp h
  obtain ⟨rfl, rfl⟩ := runs_changeMutant change
  obtain ⟨rfl, -⟩ := Routine.runs_pure_iff.mp done
  rfl

/-- Taking a hold of the observers' senders puts nothing in and takes nothing out. -/
theorem idle_retain {es : List (Effect ω Item)} (h : (retain obs : Proc ω Item Unit).Runs es ())
    : ∀ e ∈ es, Idle e :=
  retain_only (fun _ _ a ha => by cases ha; exact ⟨rfl, rfl⟩) obs _ _ h

/-- Letting go of the observers' senders puts nothing in and takes nothing out. -/
theorem idle_release {es : List (Effect ω Item)} (h : (release obs : Proc ω Item Unit).Runs es ())
    : ∀ e ∈ es, Idle e :=
  release_only (fun _ _ a ha => by cases ha; exact ⟨rfl, rfl⟩) obs _ _ h

/-- Giving up the cycle in flight stops and joins its task, then lets go of its hold of the
observers. -/
theorem idle_abandon {running : Option (Cycle × Nat)} {es : List (Effect ω Item)}
    (h : (abandon obs running : Proc ω Item Unit).Runs es ()) : ∀ e ∈ es, Idle e := by
  rcases runs_abandon h with ⟨-, rfl⟩ | ⟨c, t, r, o, rest, -, released, rfl⟩
  · intro e he
    cases he
  · intro e he
    simp only [List.mem_cons] at he
    rcases he with rfl | rfl | he
    · exact idle_of_act rfl
    · exact idle_of_act rfl
    · exact idle_release released e he

/-- Giving up the cycle in flight keeps to `Heeds`. -/
theorem heeds_halt {st : LoopState} {reason : Cancelled} {evs : List (Step ω)}
    {x : Except InstanceError Unit × LoopState}
    (h : (halt obs st reason : Routine (Outcall ω) ω Item _).Runs evs x) : Heeds obs out evs := by
  obtain ⟨es, aborted, rfl, -⟩ := runs_halt h
  exact Heeds.effects (idle_abandon aborted)

/-- Letting go of the stream drops its receiver, which takes nothing out. -/
theorem idle_dropStream {mutants : Option Nat} {es : List (Effect ω Item)}
    (h : (dropStream mutants : Proc ω Item Unit).Runs es ()) : ∀ e ∈ es, Idle e := by
  rcases runs_dropStream h with ⟨-, rfl⟩ | ⟨ch, r, -, rfl⟩
  · intro e he
    cases he
  · intro e he a ha
    simp only [List.mem_singleton] at he
    subst he
    cases ha
    exact ⟨rfl, rfl⟩

/-- Letting go of the back-off drops its timer. -/
theorem idle_dropBackoff {backoff : Option Nat} {es : List (Effect ω Item)}
    (h : (dropBackoff backoff : Proc ω Item Unit).Runs es ()) : ∀ e ∈ es, Idle e := by
  rcases runs_dropBackoff h with ⟨-, rfl⟩ | ⟨b, r, -, rfl⟩
  · intro e he
    cases he
  · intro e he
    simp only [List.mem_singleton] at he
    subst he
    exact idle_of_act rfl

/-- Cleaning up is file work. -/
theorem idle_settle {m : Machine} {result res : Except CycleError Plan} {evs : List (Step ω)}
    (h : (settle files m result).Runs evs res)
    : ∃ es : List (Effect ω Item), evs = es.map .effect ∧ ∀ e ∈ es, Idle e := by
  match result with
  | .ok p =>
    simp only [settle, Routine.bind_eq, Routine.lift_bind, Routine.runs_run_iff] at h
    obtain ⟨es, rest, b, rfl, cleaned, done⟩ := h
    refine ⟨es, ?_, cleanupScratch_only (P := Idle) (fun _ => idle_of_act rfl) (idle_of_act rfl)
      _ _ _ cleaned⟩
    cases b <;> simp_all [Routine.runs_pure_iff]
  | .error e =>
    obtain ⟨rfl, rfl⟩ := Routine.runs_pure_iff.mp h
    exact ⟨[], rfl, fun _ none => absurd none List.not_mem_nil⟩

/-- The cycle's branch checks the context, cleans up and reports: it shows what it shows to
`obs`, and works on no channel. -/
theorem heeds_onResult {st : LoopState} {w : Woke Item} {evs : List (Step ω)} {o : Turn}
    (h : (onResult files inst cx obs st w).Runs evs o) : Heeds obs out evs := by
  obtain ⟨released, r, rest, hr, rfl, branch⟩ := runs_onResult h
  refine (Heeds.effects (idle_release hr)).append ((Heeds.effect (idle_of_act rfl)).append ?_)
  rcases branch with ⟨c, -, rfl, -⟩ | ⟨-, first, more, res, rfl, settled, reported⟩
  · exact Heeds.nil
  obtain ⟨es, rfl, idle⟩ := idle_settle settled
  refine (Heeds.effects idle).append ?_
  rcases runs_report reported with ⟨p, es', t, -, retained, rfl, -⟩ | ⟨e, clock, armed, -, rfl, -⟩
  · exact ((Heeds.shown (by simp)).append (Heeds.effects (idle_retain retained))).append
      ((Heeds.shown (by simp)).append (Heeds.effect (idle_of_act rfl)))
  · exact (Heeds.shown (by simp)).append ((Heeds.effect (idle_of_act rfl)).append
      (Heeds.effect (idle_of_act rfl)))

/-- The back-off's branch drops the timer and launches again. -/
theorem heeds_onBackoff {st : LoopState} {evs : List (Step ω)} {o : Turn}
    (h : (onBackoff files inst cx obs st).Runs evs o) : Heeds obs out evs := by
  obtain ⟨es, es', t, dropped, retained, rfl, -⟩ := runs_onBackoff h
  exact ((Heeds.effects (idle_dropBackoff dropped)).append (Heeds.effects (idle_retain retained))).append
    ((Heeds.shown (by simp)).append (Heeds.effect (idle_of_act rfl)))

/-- A receive of the stream ends the first mutant's wait on its second branch. -/
theorem received_second {ch j : Nat} {got : Option Item}
    (ends : Wait.Ends [.done cx, .recv ch] j (.received got)) : j = 1 := by
  obtain ⟨b, hb, fits⟩ := ends
  match j, hb with
  | 0, hb =>
    cases hb
    cases fits
  | 1, _ => rfl

/-- Letting go of a channel end puts nothing in and takes nothing out. -/
theorem idle_letGo {o : Order Item} (letting : ∀ r a, o.act r = some a → a.put = none ∧ a.got = none)
    (r : Reply Item) : Idle (.order o r : Effect ω Item) :=
  letting r

/-- Only the stream's branch of the loop's wait works on a channel. -/
theorem act_loopWait {st : LoopState} {j : Nat} (other : j ≠ 1) (w : Woke Item)
    : (Effect.await (loopWaits cx st) j w : Effect ω Item).act = none := by
  match j, other with
  | 0, _ => rfl
  | 2, _ =>
    rcases hr : st.running with _ | ⟨c, t⟩ <;> simp [loopWaits, hr, Wait.act]
  | 3, _ =>
    cases hb : st.backoff <;> simp [loopWaits, hb, Wait.act]
  | n + 4, _ => rfl

theorem idle_loopWait {st : LoopState} {j : Nat} (other : j ≠ 1) (w : Woke Item)
    : Idle (.await (loopWaits cx st) j w : Effect ω Item) :=
  idle_of_act (act_loopWait other w)

/-- The loop holds its stream `out`, or has let go of it. -/
def Streams (out : Nat) (st : LoopState) : Prop :=
  st.mutants = some out ∨ st.mutants = none

/-- A stream still held where the loop keeps to `out` is `out` itself. -/
theorem stream_eq_of_held {mutants : Option Nat} {ch : Nat} (hm : mutants = some ch)
    (held : mutants = some out ∨ mutants = none) : ch = out := by
  rcases held with held | held <;> rw [held] at hm <;> cases hm
  rfl

/-- One turn keeps to `Heeds` while the loop holds its stream or has let go of it. -/
theorem heeds_turn {st : LoopState} {evs : List (Step ω)} {o : Turn} (held : Streams out st)
    (h : (turn files inst cx obs st).Runs evs o) : Heeds obs out evs := by
  obtain ⟨j, w, rest, rfl, branch⟩ := runs_turn h
  rcases branch with ⟨r, x, rfl, rfl, halted, -⟩ | ⟨ch, v, rfl, hm, rfl, hmut⟩
    | ⟨c, t, o', rfl, -, rfl, hr⟩ | ⟨b, rfl, -, rfl, hb⟩
  · exact (Heeds.effect (idle_loopWait (by decide) _)).append (heeds_halt halted)
  · -- the stream's branch: the loop still holds `out`
    obtain rfl := stream_eq_of_held hm held
    have on : (loopWaits cx st)[1]? = some (.recv ch) := by simp [loopWaits, hm]
    by_cases taken : ∃ mu, v = some (.mutant mu)
    · obtain ⟨mu, rfl⟩ := taken
      rw [runs_onMutant_mutant hmut]
      exact Heeds.taken on
    · have other : ∀ mu, v ≠ some (.mutant mu) := fun mu same => taken ⟨mu, same⟩
      rcases runs_onMutant hmut with ⟨mu, same, -, -⟩ | ⟨es, dropped, rfl, -⟩
      · cases same
        exact absurd rfl (other mu)
      · exact (Heeds.passed on other).append (Heeds.effects (idle_dropStream dropped))
  · exact (Heeds.effect (idle_loopWait (by decide) _)).append (heeds_onResult hr)
  · exact (Heeds.effect (idle_loopWait (by decide) _)).append (heeds_onBackoff hb)

/-- A turn that goes on keeps the stream or lets go of it. -/
theorem turn_streams {st st' : LoopState} {evs : List (Step ω)} (held : Streams out st)
    (h : (turn files inst cx obs st).Runs evs (.next st')) : Streams out st' := by
  obtain ⟨j, w, rest, -, branch⟩ := runs_turn h
  rcases branch with ⟨r, x, -, -, -, hout⟩ | ⟨ch, v, -, -, -, hm⟩ | ⟨c, t, o, -, -, -, hr⟩
    | ⟨b, -, -, -, hb⟩
  · cases hout
  · rcases runs_onMutant hm with ⟨mu, -, -, hout⟩ | ⟨es, -, -, hout⟩ <;> cases hout
    · exact held
    · exact .inr rfl
  · obtain ⟨released, r, more, -, -, branch⟩ := runs_onResult hr
    rcases branch with ⟨c', -, -, hout⟩ | ⟨-, first, more, res, -, -, reported⟩
    · cases hout
    · rcases runs_report reported with ⟨p, es, t', -, -, -, hout⟩ | ⟨e, clock, armed, -, -, hout⟩ <;>
        cases hout <;> exact held
  · obtain ⟨es, es', t, -, -, -, hout⟩ := runs_onBackoff hb
    cases hout
    exact held

/-- The whole loop keeps to `Heeds`, by `loop_moves` with the stream held or let go of as the
invariant. -/
theorem heeds_loop {fuel : Nat} {st : LoopState} {evs : List (Step ω)}
    {x : Except InstanceError Unit × LoopState} (held : Streams out st)
    (h : (loop files inst cx obs fuel st).Runs evs x) : Heeds obs out evs := by
  obtain ⟨-, heeds, -⟩ := @loop_moves ω files inst cx obs Unit (fun _ evs _ => Heeds obs out evs)
    (fun h h' => h.append h') (Streams out) (fun _ => ()) (fun _ _ => True)
    turn_streams (fun held turned => heeds_turn held turned)
    (fun held turned => ⟨(), heeds_turn held turned, trivial⟩)
    (fun _ halted => ⟨(), (Heeds.effect (idle_of_act rfl)).append (heeds_halt halted), trivial⟩)
    fuel st evs x held h
  exact heeds

/-- Waiting for the first mutant keeps to `Heeds`: a mutant taken is shown, anything else lets
go of the stream. -/
theorem heeds_firstMutant {m : Machine} {mutants : Option Nat} {evs : List (Step ω)}
    {y : Except Cancelled (Machine × Option Nat)} (held : mutants = some out ∨ mutants = none)
    (h : (firstMutant inst cx obs m mutants).Runs evs y) : Heeds obs out evs := by
  rcases runs_firstMutant h with ⟨-, rfl, -⟩ | ⟨ch, j, w, hm, ends, taken⟩
  · exact Heeds.nil
  obtain rfl := stream_eq_of_held hm held
  rcases taken with ⟨r, rfl, rfl, rfl, -⟩ | ⟨mu, rfl, rfl, -⟩ | ⟨got, rfl, other, r, rfl, -⟩
  · exact Heeds.effect (idle_of_act rfl)
  · obtain rfl := received_second ends
    exact Heeds.taken rfl
  · obtain rfl := received_second ends
    exact (Heeds.passed rfl other).append
      (Heeds.effect (idle_letGo (fun _ a ha => by cases ha; exact ⟨rfl, rfl⟩) r))

/-- After the first mutant the loop holds the stream it was given, or none. -/
theorem firstMutant_streams {m m' : Machine} {mutants mutants' : Option Nat}
    {evs : List (Step ω)} {y : Except Cancelled (Machine × Option Nat)}
    (held : mutants = some out ∨ mutants = none)
    (h : (firstMutant inst cx obs m mutants).Runs evs y) (handed : y = .ok (m', mutants'))
    : mutants' = some out ∨ mutants' = none := by
  subst handed
  rcases runs_firstMutant h with ⟨-, -, same⟩ | ⟨ch, j, w, hm, -, taken⟩
  · cases same
    exact .inr rfl
  rcases taken with ⟨r, -, -, -, same⟩ | ⟨mu, -, -, same⟩ | ⟨got, -, -, r, -, same⟩ <;>
    cases same
  · rw [← hm]
    exact held
  · exact .inr rfl

/-- The frame around the loop keeps to `Heeds`. -/
theorem heeds_runLoop {m : Machine} {mutants : Option Nat} {evs : List (Step ω)}
    {x : Except InstanceError Unit × Machine} (held : mutants = some out ∨ mutants = none)
    (h : (runLoop files inst cx obs m mutants).Runs evs x) : Heeds obs out evs := by
  obtain ⟨es, prepared, rest, rfl, prep, branch⟩ := runs_runLoop h
  refine (Heeds.effects fun e he => idle_of_act (prepareSaved_inert _ _ _ prep e he).1).append ?_
  rcases branch with ⟨e, es', -, dropped, rfl, -⟩ | ⟨-, first, y, more, rfl, taken, branch⟩
  · exact Heeds.effects (idle_dropStream dropped)
  refine (heeds_firstMutant held taken).append ?_
  rcases branch with ⟨r, es', -, dropped, rfl, -⟩
    | ⟨m', mutants', t, looped, r, st, es₀, es₁, es₂, handed, retained, looping, dropped₁,
      dropped₂, rfl, -⟩
  · exact Heeds.effects (idle_dropStream dropped)
  · have streams : Streams out ⟨m', mutants', some (inst.stamp m', t), none⟩ :=
      firstMutant_streams held taken handed
    exact ((((Heeds.effects (idle_retain retained)).append
      ((Heeds.shown (by simp)).append (Heeds.effect (idle_of_act rfl)))).append
      (heeds_loop streams looping)).append (Heeds.effects (idle_dropBackoff dropped₁))).append
      (Heeds.effects (idle_dropStream dropped₂))

/-- Closing shows Closed to `obs`, closes the stages and only lets go afterwards. -/
theorem heeds_close {m : Machine} {automation : Option Automation} {evs : List (Step ω)}
    {x : Except InstanceError Unit} (h : (close inst obs m automation).Runs evs x)
    : Heeds obs out evs := by
  obtain ⟨closed, es, rfl, idle⟩ := runs_close_only (P := Idle)
    (fun _ => idle_letGo fun _ a ha => by cases ha; exact ⟨rfl, rfl⟩)
    (fun _ _ => idle_of_act rfl) (fun _ _ => idle_of_act rfl) h
  exact ((Heeds.shown (by simp)).append Heeds.closeStages).append (Heeds.effects idle)

section KillOnly

variable {cfg : Mutation.Config} {m₀ : Mutation.Mutant} {ms : List Mutation.Mutant}

/-- For a mutation test whose kills rotate the mutant, starting the automator makes the stream,
then the kill input, then the signal, and spawns the automator over them. -/
theorem runs_startMutation_killing (config : inst.machine.initialPlan.mutation = some cfg)
    (enabled : cfg.enabled = true) (expansion : cfg.mutants = m₀ :: ms)
    (killing : cfg.auto.changeKill = true) {es : List (Effect ω Item)}
    {started : Except InstanceError (Option (Automation × Nat))}
    (h : (startMutation inst cx).Runs es started)
    : ∃ (out kr sig : Reply Item) (t : Nat),
      es = [.order (.channel 1) out, .order (.channel 1) kr, .order .signal sig,
        .spawn ((firstAutomator cfg m₀ ms).run ⟨out.asId, some kr.asId, cx.withSignal sig.asId⟩
          Item.mutant .done) t]
      ∧ started = .ok (some (⟨t, sig.asId, some kr.asId⟩, out.asId)) := by
  have testing : inst.machine.initialPlan.isMutationTest = true := by
    simp [Plan.isMutationTest, config, enabled]
  have automator : Mutation.Automator.ofConfig cfg = .ok (firstAutomator cfg m₀ ms) := by
    simp [Mutation.Automator.ofConfig, firstAutomator, expansion]
  have kills : (firstAutomator cfg m₀ ms).killInput = true := killing
  unfold startMutation at h
  simp only [config, testing, automator, kills, if_true] at h
  obtain ⟨made, rest, out, rfl, hm, h⟩ := Proc.runs_bind_iff.mp h
  obtain ⟨r₁, rfl, rfl⟩ := Proc.runs_channel_iff.mp hm
  obtain ⟨opened, rest, k, rfl, hk, h⟩ := Proc.runs_bind_iff.mp h
  obtain ⟨made, more, k', rfl, hm, hk⟩ := Proc.runs_bind_iff.mp hk
  obtain ⟨r₂, rfl, rfl⟩ := Proc.runs_channel_iff.mp hm
  obtain ⟨rfl, rfl⟩ := Proc.runs_pure_iff.mp hk
  obtain ⟨sig, t, rfl, rfl⟩ := runs_spawnAutomator h
  exact ⟨r₁, r₂, sig, t, by simp, rfl⟩

/-- A whole run of a mutation test whose kills rotate the mutant opens with the stream, the kill
input, the signal and the automator, and keeps to `Heeds` with the instance's observers followed
by the kill observer, on the stream it made first. -/
theorem heeds_script (config : inst.machine.initialPlan.mutation = some cfg)
    (enabled : cfg.enabled = true) (expansion : cfg.mutants = m₀ :: ms)
    (killing : cfg.auto.changeKill = true) {evs : List (Step ω)}
    {x : Except InstanceError Unit × Machine} (h : (script files inst cx).Runs evs x)
    : ∃ (out kr sig : Reply Item) (t : Nat) (rest : List (Step ω)),
      evs = .effect (.order (.channel 1) out) :: .effect (.order (.channel 1) kr)
        :: .effect (.order .signal sig)
        :: .effect (.spawn ((firstAutomator cfg m₀ ms).run
          ⟨out.asId, some kr.asId, cx.withSignal sig.asId⟩ Item.mutant .done) t) :: rest
      ∧ Heeds (inst.observers ++ [killObserver kr.asId (cx.withSignal sig.asId)]) out.asId evs := by
  obtain ⟨es, started, rest, rfl, hstart, branch⟩ := runs_script h
  obtain ⟨out, kr, sig, t, rfl, rfl⟩ :=
    runs_startMutation_killing config enabled expansion killing hstart
  rcases branch with ⟨e, y, hstarted, -, -⟩ | ⟨s, looped, y, closing, z, hs, rfl, ran, closed, -⟩
  · cases hstarted
  cases hs
  refine ⟨out, kr, sig, t, looped ++ closing, rfl, ?_⟩
  refine (Heeds.effects fun e he => ?_).append
    ((heeds_runLoop (.inl rfl) ran).append (heeds_close closed))
  -- the stream and the kill input are made, the signal and the automator's task start
  simp only [List.mem_cons, List.not_mem_nil, or_false] at he
  rcases he with rfl | rfl | rfl | rfl
  · exact idle_letGo (fun _ a ha => by cases ha; exact ⟨rfl, rfl⟩) out
  · exact idle_letGo (fun _ a ha => by cases ha; exact ⟨rfl, rfl⟩) kr
  · exact idle_of_act rfl
  · exact idle_of_act rfl

end KillOnly

end Instance

end Campaign
