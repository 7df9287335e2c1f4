import Campaign.Proofs.Instance.KillRotation
import Campaign.Proofs.Mutation.Stopping

/-! Each cycle the instance launches takes senders of the kill input through its observers' holds
and gives them back once its task is seen to end or is joined, and closing gives back the
instance's own before it waits for the automator. So the kill input then has no sender left,
and the automator's drain, which ignores its context, ends (`closing_lets_automator_finish`).
-/

namespace Campaign

namespace Async

variable {ν τ : Type}

/-- The senders channel `k` has after operation `a`, from `n` before it: taking a sender of `k`
adds one, letting one go takes one away. -/
def Act.senders (k n : Nat) : Act ν → Nat
  | .clone ch => if ch = k then n + 1 else n
  | .dropSender ch => if ch = k then n - 1 else n
  | _ => n

namespace Act

theorem senders_of_spares {a : Act ν} (takes : a.makesSender = false)
    (gives : a.dropsSender = false) (k n : Nat) : a.senders k n = n := by
  cases a <;> simp_all [senders, makesSender, dropsSender]

theorem senders_of_ne {a : Act ν} {k : Nat} (other : a.channel ≠ k) (n : Nat)
    : a.senders k n = n := by
  cases a <;> simp_all [senders, channel]

/-- A receiver's operation takes and lets go of no sender. -/
theorem spares_of_receives {a : Act ν} (receives : a.receives)
    : a.makesSender = false ∧ a.dropsSender = false := by
  cases a <;> first | exact ⟨rfl, rfl⟩ | exact receives.elim

/-- Operations that neither take nor let go of a sender keep every count. -/
theorem foldl_senders_of_spares {acts : List (Act ν)}
    (spares : ∀ a ∈ acts, a.makesSender = false ∧ a.dropsSender = false) (k n : Nat)
    : acts.foldl (senders k) n = n := by
  induction acts with
  | nil => rfl
  | cons a acts ih =>
    obtain ⟨takes, gives⟩ := spares a List.mem_cons_self
    rw [List.foldl_cons, senders_of_spares takes gives]
    exact ih fun b mem => spares b (List.mem_cons_of_mem _ mem)

end Act

/-- A wait sends or receives at most, and takes and lets go of no sender. -/
theorem Wait.spares {b : Wait ν} {r : Woke ν} {a : Act ν} (acted : b.act r = some a)
    : a.makesSender = false ∧ a.dropsSender = false := by
  cases b <;> cases r <;> simp only [Wait.act, reduceCtorEq, Option.some.injEq] at acted <;>
    subst acted <;> exact ⟨rfl, rfl⟩

namespace Line

/-- One operation on channel `k` moves its senders as `Act.senders` counts. -/
theorem Step.senders_eq {l l' : Line ν} {a : Act ν} {k : Nat} (step : Step (some l) a (some l'))
    (on : a.channel = k) : l'.senders = a.senders k l.senders := by
  cases step <;> simp_all [Act.senders, Act.channel]

/-- Over a stretch of operations on channel `k`, its senders move as `Act.senders` counts them
one by one, by induction on the stretch. -/
theorem Reaches.senders_eq {l l' : Line ν} {hist : List (Act ν)} {k : Nat}
    (reached : Reaches (some l) hist (some l')) (on : ∀ a ∈ hist, a.channel = k)
    : l'.senders = hist.foldl (Act.senders k) l.senders := by
  induction hist generalizing l with
  | nil =>
    cases reached
    rfl
  | cons a hist ih =>
    cases reached with
    | cons step rest =>
      obtain ⟨-, l₁, rfl⟩ := step.of_made
      rw [List.foldl_cons, ← step.senders_eq (on a List.mem_cons_self)]
      exact ih rest fun b mem => on b (List.mem_cons_of_mem _ mem)

/-- A channel reached from before it was made has the sender it was made with, moved by every
operation since. -/
theorem Reaches.senders_of_none {l : Line ν} {hist : List (Act ν)} {k : Nat}
    (reached : Reaches none hist (some l)) (on : ∀ a ∈ hist, a.channel = k)
    : l.senders = hist.foldl (Act.senders k) 1 := by
  cases reached with
  | cons step rest =>
    -- only making the channel moves it from not made, and it is made with one sender
    cases step
    exact rest.senders_eq fun b mem => on b (List.mem_cons_of_mem _ mem)

/-- A history that does anything to a channel from before it is made makes it. -/
theorem Reaches.made_of_none {hist : List (Act ν)} {s : Option (Line ν)}
    (reached : Reaches none hist s) (acted : hist ≠ []) : ∃ l, s = some l := by
  cases reached with
  | nil => exact absurd rfl acted
  | cons step rest =>
    cases step
    exact rest.made

end Line

/-- Counting a channel's senders off its own operations is counting them off the whole
history. -/
theorem foldl_senders_onChannel (k n : Nat) (h : List (τ × Act ν))
    : (onChannel k h).foldl (Act.senders k) n = (h.map (·.2)).foldl (Act.senders k) n := by
  induction h generalizing n with
  | nil => rfl
  | cons x h ih =>
    unfold onChannel at ih ⊢
    by_cases on : x.2.channel = k
    · rw [List.map_cons, List.filter_cons_of_pos (by simpa using on), List.foldl_cons,
        List.foldl_cons, ih]
    · rw [List.map_cons, List.filter_cons_of_neg (by simpa using on), List.foldl_cons,
        Act.senders_of_ne on, ih]

/-- When no party but `t` takes or lets go of a sender of `k`, its senders are counted off
`t`'s side alone. -/
theorem foldl_senders_sideOf [DecidableEq τ] {t : τ} {k : Nat} {h : List (τ × Act ν)}
    (others : ∀ x ∈ h, x.1 ≠ t → ∀ n, x.2.senders k n = n) (n : Nat)
    : (h.map (·.2)).foldl (Act.senders k) n = (sideOf t h).foldl (Act.senders k) n := by
  induction h generalizing n with
  | nil => rfl
  | cons x h ih =>
    obtain ⟨u, a⟩ := x
    have rest := ih fun y mem => others y (List.mem_cons_of_mem _ mem)
    by_cases same : u = t
    · subst same
      simp [rest]
    · have spare : ∀ n, a.senders k n = n := others _ List.mem_cons_self same
      simp only [sideOf_cons_of_ne _ _ same, List.map_cons, List.foldl_cons, spare, rest]

end Async

/-- The loop state a turn leaves. -/
def Turn.state : Turn → LoopState
  | .next st => st
  | .stop _ st => st

namespace Instance

open Async

variable {ω : Type} {files : Files ω} {inst : Instance ω} {cx : Context}
  {obs : List (Observer ω)}

/-- The senders channel `k` has after the steps `evs`, from `n` before them. -/
def sendersAfter (k n : Nat) (evs : List (Step ω)) : Nat :=
  (evs.filterMap Routine.Event.act).foldl (Act.senders k) n

/-- How many senders of channel `k` a hold of the observers `obs` takes. -/
def heldBy (k : Nat) (obs : List (Observer ω)) : Nat :=
  (obs.flatMap (·.holds)).count k

/-- The senders of `k` that the loop's cycle in flight holds, if one is in flight. -/
def pending (k : Nat) (obs : List (Observer ω)) (st : LoopState) : Nat :=
  if st.running.isSome then heldBy k obs else 0

/-! ## Counting senders along a run -/

section Counting

variable {k : Nat}

@[simp] theorem sendersAfter_nil (n : Nat) : sendersAfter k n ([] : List (Step ω)) = n := rfl

@[simp] theorem sendersAfter_append (n : Nat) (l l' : List (Step ω))
    : sendersAfter k n (l ++ l') = sendersAfter k (sendersAfter k n l) l' := by
  simp [sendersAfter, List.filterMap_append, List.foldl_append]

@[simp] theorem sendersAfter_cons_of_act {s : Step ω} (quiet : s.act = none) (n : Nat)
    (l : List (Step ω)) : sendersAfter k n (s :: l) = sendersAfter k n l := by
  simp [sendersAfter, quiet]

@[simp] theorem sendersAfter_cons_of_act_eq_some {s : Step ω} {a : Act Item} (acted : s.act = some a)
    (n : Nat) (l : List (Step ω)) : sendersAfter k n (s :: l) = sendersAfter k (a.senders k n) l := by
  simp [sendersAfter, acted]

/-- Showing an event and starting a task take and give back no sender. -/
@[simp] theorem sendersAfter_call_spawn (n : Nat) (c : Outcall ω Unit) (body : Proc ω Item Item)
    (t : Nat) : sendersAfter k n [.call c (), .effect (.spawn body t)] = n := rfl

@[simp] theorem sendersAfter_await_cons (n : Nat) (ws : List (Wait Item)) (j : Nat) (w : Woke Item)
    (l : List (Step ω)) : sendersAfter k n (.effect (.await ws j w) :: l) = sendersAfter k n l := by
  unfold sendersAfter
  rcases hact : (Effect.await ws j w : Effect ω Item).act with _ | a
  · simp [hact]
  · obtain ⟨takes, gives⟩ :=
      Effect.actsWithin_await (fun _ _ _ _ acted => Wait.spares acted) j w a hact
    simp [hact, Act.senders_of_spares takes gives]

theorem sendersAfter_effects (n : Nat) (es : List (Effect ω Item))
    : sendersAfter k n (es.map .effect : List (Step ω))
      = (es.filterMap Effect.act).foldl (Act.senders k) n := by
  simp [sendersAfter, List.filterMap_map, Function.comp_def]

/-- Steps that work on no channel keep every count. -/
theorem sendersAfter_quiet {evs : List (Step ω)} (quiet : ∀ s ∈ evs, s.act = none) (n : Nat)
    : sendersAfter k n evs = n := by
  rw [sendersAfter, List.filterMap_eq_nil_iff.mpr quiet]
  rfl

/-- Taking senders one channel at a time takes one of `k` for each time `k` is listed. -/
theorem senders_forM_clone : ∀ (L : List Nat) {es : List (Effect ω Item)},
    (L.forM Proc.cloneSender : Proc ω Item Unit).Runs es () → ∀ n,
      (es.filterMap Effect.act).foldl (Act.senders k) n = n + L.count k
  | [], _, h, n => by
    obtain ⟨rfl, -⟩ := Proc.runs_pure_iff.mp h
    rfl
  | ch :: L, _, h, n => by
    obtain ⟨first, rest, u, rfl, cloned, later⟩ := Proc.runs_bind_iff.mp h
    obtain ⟨r, rfl⟩ := Proc.runs_cloneSender_iff.mp cloned
    rw [List.filterMap_append, List.foldl_append, senders_forM_clone L later, List.count_cons]
    by_cases same : ch = k
    · simp [Order.act, Act.senders, same]
      omega
    · simp [Order.act, Act.senders, same]

/-- Letting go of senders one channel at a time lets go of one of `k` for each time `k` is
listed. -/
theorem senders_forM_drop : ∀ (L : List Nat) {es : List (Effect ω Item)},
    (L.forM Proc.dropSender : Proc ω Item Unit).Runs es () → ∀ n,
      (es.filterMap Effect.act).foldl (Act.senders k) n = n - L.count k
  | [], _, h, n => by
    obtain ⟨rfl, -⟩ := Proc.runs_pure_iff.mp h
    rfl
  | ch :: L, _, h, n => by
    obtain ⟨first, rest, u, rfl, dropped, later⟩ := Proc.runs_bind_iff.mp h
    obtain ⟨r, rfl⟩ := Proc.runs_dropSender_iff.mp dropped
    rw [List.filterMap_append, List.foldl_append, senders_forM_drop L later, List.count_cons]
    by_cases same : ch = k
    · simp [Order.act, Act.senders, same]
      omega
    · simp [Order.act, Act.senders, same]

theorem senders_retain {es : List (Effect ω Item)} (h : (retain obs : Proc ω Item Unit).Runs es ())
    (n : Nat) : (es.filterMap Effect.act).foldl (Act.senders k) n = n + heldBy k obs :=
  senders_forM_clone _ h n

theorem senders_release {es : List (Effect ω Item)} (h : (release obs : Proc ω Item Unit).Runs es ())
    (n : Nat) : (es.filterMap Effect.act).foldl (Act.senders k) n = n - heldBy k obs :=
  senders_forM_drop _ h n

/-- Letting go of a list of senders that ends with `k`'s lets go of `k`'s last. -/
theorem runs_forM_dropSender_last : ∀ (L : List Nat) {es : List (Effect ω Item)},
    ((L ++ [k]).forM Proc.dropSender : Proc ω Item Unit).Runs es ()
      → ∃ es' r, es = es' ++ [.order (.dropSender k) r]
  | [], _, h => by
    obtain ⟨first, rest, u, rfl, dropped, done⟩ := Proc.runs_bind_iff.mp h
    obtain ⟨r, rfl⟩ := Proc.runs_dropSender_iff.mp dropped
    obtain ⟨rfl, -⟩ := Proc.runs_pure_iff.mp done
    exact ⟨[], r, rfl⟩
  | ch :: L, _, h => by
    obtain ⟨first, rest, u, rfl, dropped, later⟩ := Proc.runs_bind_iff.mp h
    obtain ⟨es', r, rfl⟩ := runs_forM_dropSender_last L later
    exact ⟨first ++ es', r, by simp⟩

/-- Giving up a cycle in flight gives back the senders its task held. -/
theorem senders_abandon {running : Option (Cycle × Nat)} {es : List (Effect ω Item)}
    (h : (abandon obs running : Proc ω Item Unit).Runs es ()) (n : Nat)
    : (es.filterMap Effect.act).foldl (Act.senders k)
        (n + if running.isSome then heldBy k obs else 0) = n := by
  rcases runs_abandon h with ⟨rfl, rfl⟩ | ⟨c, t, r, o, rest, rfl, released, rfl⟩
  · rfl
  · -- stopping and joining the task work on no channel
    show (rest.filterMap Effect.act).foldl (Act.senders k) (n + heldBy k obs) = n
    rw [senders_release released, Nat.add_sub_cancel]

theorem sendersAfter_halt {st : LoopState} {reason : Cancelled} {evs : List (Step ω)}
    {x : Except InstanceError Unit × LoopState}
    (h : (halt obs st reason : Routine (Outcall ω) ω Item _).Runs evs x) (n : Nat)
    : sendersAfter k (n + pending k obs st) evs = n + pending k obs x.2 := by
  obtain ⟨es, aborted, rfl, rfl⟩ := runs_halt h
  rw [sendersAfter_effects, pending, senders_abandon aborted]
  simp [pending]

theorem quiet_dropBackoff {backoff : Option Nat} {es : List (Effect ω Item)}
    (h : (dropBackoff backoff : Proc ω Item Unit).Runs es ())
    : ∀ e ∈ (es.map .effect : List (Step ω)), e.act = none := by
  rcases runs_dropBackoff h with ⟨-, rfl⟩ | ⟨b, r, -, rfl⟩ <;> simp [Order.act]

theorem senders_dropStream {mutants : Option Nat} {es : List (Effect ω Item)}
    (h : (dropStream mutants : Proc ω Item Unit).Runs es ()) (n : Nat)
    : sendersAfter k n (es.map .effect : List (Step ω)) = n := by
  rcases runs_dropStream h with ⟨-, rfl⟩ | ⟨ch, r, -, rfl⟩ <;> rfl

/-- Cleaning up is file work, on no channel. -/
theorem quiet_settle {m : Machine} {result res : Except CycleError Plan} {evs : List (Step ω)}
    (h : (settle files m result).Runs evs res) : ∀ e ∈ evs, e.act = none := by
  match result with
  | .ok p =>
    simp only [settle, Routine.bind_eq, Routine.lift_bind, Routine.runs_run_iff] at h
    obtain ⟨es, rest, b, rfl, cleaned, done⟩ := h
    have none_act : ∀ e ∈ es, e.act = none :=
      cleanupScratch_only (P := fun e => e.act = none) (fun _ => rfl) rfl _ _ _ cleaned
    cases b <;> simp_all [Routine.runs_pure_iff]
  | .error e =>
    obtain ⟨rfl, rfl⟩ := Routine.runs_pure_iff.mp h
    simp

/-- Taking a cycle's result gives back the senders its task held; a success launches the next
cycle, which takes them again. -/
theorem sendersAfter_onResult {st : LoopState} {w : Woke Item} {evs : List (Step ω)} {out : Turn}
    (h : (onResult files inst cx obs st w).Runs evs out) (n : Nat)
    : sendersAfter k (n + heldBy k obs) evs = n + pending k obs out.state := by
  obtain ⟨es, r, rest, released, rfl, branch⟩ := runs_onResult h
  rw [sendersAfter_append, sendersAfter_effects, senders_release released, Nat.add_sub_cancel,
    sendersAfter_cons_of_act rfl]
  rcases branch with ⟨c, -, rfl, rfl⟩ | ⟨-, first, more, res, rfl, settled, reported⟩
  · simp [pending, Turn.state]
  rw [sendersAfter_append, sendersAfter_quiet (quiet_settle settled)]
  rcases runs_report reported with ⟨p, es', t, -, retained, rfl, rfl⟩
    | ⟨e, clock, armed, -, rfl, rfl⟩
  · rw [sendersAfter_append,
      sendersAfter_cons_of_act (s := .call (.emit obs ⟨inst.inFlight st, .cycle .finished⟩) ()) rfl,
      sendersAfter_effects, senders_retain retained]
    simp [pending, Turn.state]
  · simp [pending, Turn.state]
    rfl

/-- An elapsed back-off launches the cycle again, which takes the senders of the observers'
holds. -/
theorem sendersAfter_onBackoff {st : LoopState} {evs : List (Step ω)} {out : Turn}
    (h : (onBackoff files inst cx obs st).Runs evs out) (n : Nat)
    : sendersAfter k n evs = n + pending k obs out.state := by
  obtain ⟨es, es', t, dropped, retained, rfl, rfl⟩ := runs_onBackoff h
  rw [sendersAfter_append, sendersAfter_append, sendersAfter_quiet (quiet_dropBackoff dropped),
    sendersAfter_effects, senders_retain retained]
  simp [pending, Turn.state]

/-- A mutant taken, or the stream let go of, takes and gives back no sender. -/
theorem sendersAfter_onMutant {st : LoopState} {w : Woke Item} {evs : List (Step ω)} {out : Turn}
    (h : (onMutant inst obs st w).Runs evs out) (n : Nat) : sendersAfter k n evs = n := by
  rcases runs_onMutant h with ⟨mu, -, rfl, -⟩ | ⟨es, dropped, rfl, -⟩
  · rfl
  · exact senders_dropStream dropped n

/-- One turn moves the senders held by the cycle in flight from those of the state it starts
in to those of the state it leaves. -/
theorem sendersAfter_turn {st : LoopState} {evs : List (Step ω)} {out : Turn}
    (steady : Steady inst st) (h : (turn files inst cx obs st).Runs evs out) (n : Nat)
    : sendersAfter k (n + pending k obs st) evs = n + pending k obs out.state := by
  obtain ⟨j, w, rest, rfl, branch⟩ := runs_turn h
  rw [sendersAfter_await_cons]
  rcases branch with ⟨r, x, -, -, halted, rfl⟩ | ⟨ch, v, -, -, -, hm⟩
    | ⟨c, t, o, -, hr, -, hres⟩ | ⟨b, -, hb, -, hback⟩
  · exact sendersAfter_halt halted n
  · -- the cycle in flight stays as it was
    rw [sendersAfter_onMutant hm]
    rcases runs_onMutant hm with ⟨mu, -, -, rfl⟩ | ⟨es, -, -, rfl⟩ <;> rfl
  · have held : pending k obs st = heldBy k obs := by simp [pending, hr]
    rw [held]
    exact sendersAfter_onResult hres n
  · -- a steady loop with a back-off armed has no cycle in flight
    have idle : pending k obs st = 0 := by simp [pending, steady.of_backoff hb]
    rw [idle, Nat.add_zero]
    exact sendersAfter_onBackoff hback n

/-- The loop gives back every sender its cycles took: by `loop_moves`, with the senders held by
the cycle in flight as the abstract state and a steady loop as the invariant, it ends with no
cycle in flight. -/
theorem sendersAfter_loop {fuel : Nat} {st : LoopState} {evs : List (Step ω)}
    {x : Except InstanceError Unit × LoopState} (steady : Steady inst st)
    (h : (loop files inst cx obs fuel st).Runs evs x) (n : Nat)
    : sendersAfter k (n + pending k obs st) evs = n := by
  obtain ⟨s, moved, rfl⟩ := @loop_moves ω files inst cx obs Nat
    (fun a evs b => ∀ n, sendersAfter k (n + a) evs = n + b)
    (fun moved moved' n => by rw [sendersAfter_append, moved, moved'])
    (Steady inst) (pending k obs) (fun s _ => s = 0)
    (fun steady turned => steady.turn turned)
    (fun steady turned n => sendersAfter_turn steady turned n)
    (fun steady turned => ⟨_, fun n => sendersAfter_turn steady turned n, by
      obtain ⟨rfl, -⟩ := runs_turn_stop turned
      simp [pending, Turn.state]⟩)
    (fun _ halted => ⟨_, fun n => by rw [sendersAfter_await_cons]; exact sendersAfter_halt halted n,
      by
        obtain ⟨es, -, -, rfl⟩ := runs_halt halted
        simp [pending]⟩)
    fuel st evs x steady h
  exact moved n

/-- Waiting for the first mutant takes and gives back no sender. -/
theorem sendersAfter_firstMutant {m : Machine} {mutants : Option Nat} {evs : List (Step ω)}
    {y : Except Cancelled (Machine × Option Nat)} (h : (firstMutant inst cx obs m mutants).Runs evs y)
    (n : Nat) : sendersAfter k n evs = n := by
  rcases runs_firstMutant h with ⟨-, rfl, -⟩ | ⟨ch, j, w, -, -, taken⟩
  · rfl
  rcases taken with ⟨r, -, -, rfl, -⟩ | ⟨mu, -, rfl, -⟩ | ⟨got, -, -, r, rfl, -⟩ <;>
    rw [sendersAfter_await_cons] <;> rfl

/-- The frame around the loop gives back every sender it takes: the first launch takes the
cycle's, and the loop gives them back. -/
theorem sendersAfter_runLoop {m : Machine} {mutants : Option Nat} {evs : List (Step ω)}
    {x : Except InstanceError Unit × Machine} (h : (runLoop files inst cx obs m mutants).Runs evs x)
    (n : Nat) : sendersAfter k n evs = n := by
  obtain ⟨es, prepared, rest, rfl, prep, branch⟩ := runs_runLoop h
  have made : sendersAfter k n (es.map .effect : List (Step ω)) = n :=
    sendersAfter_quiet (by simpa using fun e he => (prepareSaved_inert _ _ _ prep e he).1) n
  rw [sendersAfter_append, made]
  rcases branch with ⟨e, es', -, dropped, rfl, -⟩ | ⟨-, first, y, more, rfl, taken, branch⟩
  · exact senders_dropStream dropped n
  rw [sendersAfter_append, sendersAfter_firstMutant taken]
  rcases branch with ⟨r, es', -, dropped, rfl, -⟩
    | ⟨m', mutants', t, looped, r, st, es₀, es₁, es₂, -, retained, looping, dropped₁, dropped₂,
      rfl, -⟩
  · exact senders_dropStream dropped n
  have steady : Steady inst ⟨m', mutants', some (inst.stamp m', t), none⟩ := .inl ⟨t, rfl, rfl⟩
  have loop := sendersAfter_loop (k := k) steady looping n
  simp only [pending, Option.isSome_some, if_true] at loop
  rw [sendersAfter_append, senders_dropStream dropped₂, sendersAfter_append,
    sendersAfter_quiet (quiet_dropBackoff dropped₁), sendersAfter_append, sendersAfter_append,
    sendersAfter_call_spawn, sendersAfter_effects, senders_retain retained, loop]

/-- Starting the automator takes and gives back no sender. -/
theorem sendersAfter_startMutation {es : List (Effect ω Item)}
    {started : Except InstanceError (Option (Automation × Nat))}
    (h : (startMutation inst cx).Runs es started) (n : Nat)
    : sendersAfter k n (es.map .effect : List (Step ω)) = n := by
  have spares : ∀ e ∈ es, e.ActsWithin fun a => a.makesSender = false ∧ a.dropsSender = false :=
    startMutation_only (fun _ _ a made => by cases made; exact ⟨rfl, rfl⟩)
      (fun _ _ made => by cases made) (fun _ _ _ made => by cases made) _ _ h
  rw [sendersAfter_effects]
  refine Act.foldl_senders_of_spares (fun a mem => ?_) k n
  obtain ⟨e, he, hact⟩ := List.mem_filterMap.mp mem
  exact spares e he a hact

/-- Closing shows Closed, closes the stages and gives back the senders of the observers' holds;
stopping the automator then raises its signal and joins its task. -/
theorem runs_close_stopping {m : Machine} {t sig k : Nat} {evs : List (Step ω)}
    {x : Except InstanceError Unit} (h : (close inst obs m (some ⟨t, sig, some k⟩)).Runs evs x)
    : ∃ (closed : Except Cause Unit) (es : List (Effect ω Item)) (r : Reply Item) (o : Joined Item),
      (release obs : Proc ω Item Unit).Runs es ()
      ∧ evs = [.call (.emit obs ⟨inst.stamp m, .inst .closed⟩) (),
          .call (.closeStages inst.stages) closed] ++ es.map .effect
        ++ [.effect (.order (.raise sig) r), .effect (.await [.join t] 0 (.joined o))] := by
  simp only [close, announce, Routine.bind_eq, Routine.invoke_bind, Routine.runs_call_iff,
    Routine.lift_bind, Routine.runs_run_iff, Routine.pure_eq, Routine.runs_pure_iff] at h
  obtain ⟨_, _, rfl, closed, _, rfl, es₁, _, _, rfl, released, es₂, _, _, rfl, stopped, rfl, -⟩ := h
  -- stopping the automator raises its signal, then joins its task
  obtain ⟨raised, joined, _, rfl, hr, hj⟩ := Proc.runs_bind_iff.mp stopped
  obtain ⟨r, rfl⟩ := Proc.runs_raise_iff.mp hr
  obtain ⟨waited, rest, o, rfl, hw, done⟩ := Proc.runs_bind_iff.mp hj
  obtain rfl : rest = [] := by cases o <;> cases done <;> rfl
  exact ⟨closed, es₁, r, o, released, by simp [Proc.runs_join_iff.mp hw]⟩

theorem sendersAfter_close_stopping {m : Machine} {t sig k' : Nat} {evs : List (Step ω)}
    {x : Except InstanceError Unit} (h : (close inst obs m (some ⟨t, sig, some k'⟩)).Runs evs x)
    (n : Nat) : sendersAfter k n evs = n - heldBy k obs := by
  obtain ⟨closed, es, r, o, released, rfl⟩ := runs_close_stopping h
  rw [sendersAfter_append, sendersAfter_append, sendersAfter_effects, senders_release released]
  rfl

end Counting

section KillOnly

variable {cfg : Mutation.Config} {m₀ : Mutation.Mutant} {ms : List Mutation.Mutant}

/-- A whole run of a mutation test whose kills rotate the mutant opens with the stream, the
kill input, the signal and the automator, and ends by letting go of a sender of the kill input,
raising the automator's signal and waiting for its task. Over the run the instance gives back
every sender of the kill input it takes, and the one the channel is made with. -/
theorem runs_script_letting_go (config : inst.machine.initialPlan.mutation = some cfg)
    (enabled : cfg.enabled = true) (expansion : cfg.mutants = m₀ :: ms)
    (killing : cfg.auto.changeKill = true) {evs : List (Step ω)}
    {x : Except InstanceError Unit × Machine} (h : (script files inst cx).Runs evs x)
    : ∃ (out kr sig : Reply Item) (t : Nat) (rest pre : List (Step ω)) (r₁ r₂ : Reply Item)
        (o : Joined Item),
      evs = .effect (.order (.channel 1) out) :: .effect (.order (.channel 1) kr)
        :: .effect (.order .signal sig)
        :: .effect (.spawn ((firstAutomator cfg m₀ ms).run
          ⟨out.asId, some kr.asId, cx.withSignal sig.asId⟩ Item.mutant .done) t) :: rest
      ∧ rest = pre ++ [.effect (.order (.dropSender kr.asId) r₁),
          .effect (.order (.raise sig.asId) r₂), .effect (.await [.join t] 0 (.joined o))]
      ∧ sendersAfter kr.asId 1 evs = 0 := by
  obtain ⟨es, started, rest, rfl, hstart, branch⟩ := runs_script h
  obtain ⟨out, kr, sig, t, opened, rfl⟩ :=
    runs_startMutation_killing config enabled expansion killing hstart
  rcases branch with ⟨e, y, hstarted, -, -⟩ | ⟨s, looped, y, closing, z, hs, rfl, ran, closed, -⟩
  · cases hstarted
  cases hs
  -- the instance's own observers hold what they hold; the kill observer, last, holds the kill
  -- input's sender
  have holds : (observersOf inst cx (some (⟨t, sig.asId, some kr.asId⟩, out.asId))).flatMap
      (·.holds) = inst.observers.flatMap (·.holds) ++ [kr.asId] := by
    simp [observersOf, killObserver]
  -- the opening takes no sender, the loop gives back those its cycles take, and closing gives
  -- back the instance's own
  have counted : sendersAfter kr.asId 1 (es.map .effect ++ (looped ++ closing)) = 0 := by
    rw [sendersAfter_append, sendersAfter_startMutation hstart, sendersAfter_append,
      sendersAfter_runLoop ran, sendersAfter_close_stopping closed]
    simp [heldBy, holds]
  obtain ⟨shut, es', r₂, o, released, rfl⟩ := runs_close_stopping closed
  have dropping : ((inst.observers.flatMap (·.holds) ++ [kr.asId]).forM Proc.dropSender
      : Proc ω Item Unit).Runs es' () := by
    rw [← holds]
    exact released
  obtain ⟨es'', r₁, rfl⟩ := runs_forM_dropSender_last _ dropping
  subst opened
  exact ⟨out, kr, sig, t, _, looped ++ [.call (.emit (observersOf inst cx
      (some (⟨t, sig.asId, some kr.asId⟩, out.asId))) ⟨inst.stamp y.2, .inst .closed⟩) (),
    .call (.closeStages inst.stages) shut] ++ es''.map .effect, r₁, r₂, o, rfl, by simp, counted⟩

end KillOnly

/-! ## The kill input when the instance waits for its automator -/

/-- How an instance lets go of its automator, which takes kills on `kr`, is cancelled by signal
`sig` and runs as task `t`, in run `evs` interleaved with the other parties as `h`. -/
structure LetsGo (evs : List (Step ω)) (h : List (Agent × Act Item)) (kr sig t : Nat) : Prop where
  /-- The instance's last steps let go of a sender of the kill input, raise the automator's
  signal and wait for its task. -/
  last : ∃ (pre : List (Step ω)) (r₁ r₂ : Reply Item) (o : Joined Item),
    evs = pre ++ [.effect (.order (.dropSender kr) r₁), .effect (.order (.raise sig) r₂),
      .effect (.await [.join t] 0 (.joined o))]
  /-- Over its run the instance gives back every sender of the kill input it takes for its
  cycles, and the one the channel is made with: counted from that one, none is left. -/
  gives_back : (sideOf .host h).foldl (Act.senders kr) 1 = 0
  /-- No other party takes or lets go of a sender of the kill input. -/
  spares : ∀ x ∈ h, x.1 ≠ .host → ∀ n, x.2.senders kr n = n
  /-- Once the instance has done its channel operations, the kill input has no sender left. -/
  none_left : ∀ p q, h = p ++ q → sideOf .host q = []
    → ∃ l, Line.Reaches none (onChannel kr p) (some l) ∧ l.senders = 0

section Kills

variable {h : List (Agent × Act Item)} {out kr : Nat}

/-- No party but the instance takes or lets go of a sender of the kill input: the automator
works on the stream, or receives on the kill input, and the kill observer only sends. -/
theorem spares_of_plays (plays : ∀ x ∈ h, Plays out kr x) (apart : kr ≠ out)
    : ∀ x ∈ h, x.1 ≠ .host → ∀ n, x.2.senders kr n = n := by
  rintro ⟨party, a⟩ mem other n
  cases party with
  | host => exact absurd rfl other
  | automator =>
    rcases plays _ mem with ⟨onOut, -⟩ | ⟨-, receives⟩
    · exact Act.senders_of_ne (fun same => apart (same.symm.trans onOut)) n
    · obtain ⟨takes, gives⟩ := Act.spares_of_receives receives
      exact Act.senders_of_spares takes gives kr n
  | observer i =>
    obtain ⟨ok, rfl⟩ := plays _ mem
    rfl

/-- Once the instance, which made the kill input, has done its channel operations, the kill
input has the senders the instance left it, as no other party takes or lets go of one. -/
theorem none_left_of_gives_back (allowed : Line.Allows none (onChannel kr h))
    (gives_back : (sideOf .host h).foldl (Act.senders kr) 1 = 0)
    (spares : ∀ x ∈ h, x.1 ≠ .host → ∀ n, x.2.senders kr n = n)
    (made : Act.make kr ∈ sideOf .host h)
    : ∀ p q, h = p ++ q → sideOf .host q = []
      → ∃ l, Line.Reaches none (onChannel kr p) (some l) ∧ l.senders = 0 := by
  intro p q split done
  have whole : sideOf .host h = sideOf .host p := by
    rw [split, sideOf_append, done, List.append_nil]
  rw [split, onChannel_append] at allowed
  obtain ⟨s, reached, -⟩ := allowed.split
  -- the instance made the kill input before its last channel operation
  have acted : onChannel kr p ≠ [] := by
    rw [whole] at made
    exact List.ne_nil_of_mem (List.mem_filter.mpr
      ⟨List.mem_map.mpr ⟨_, mem_of_mem_sideOf made, rfl⟩, decide_eq_true rfl⟩)
  obtain ⟨l, rfl⟩ := reached.made_of_none acted
  have spared : ∀ x ∈ p, x.1 ≠ .host → ∀ n, x.2.senders kr n = n :=
    fun x mem => spares x (split ▸ List.mem_append_left q mem)
  refine ⟨l, reached, ?_⟩
  rw [reached.senders_of_none fun a mem => of_decide_eq_true (List.mem_filter.mp mem).2,
    foldl_senders_onChannel, foldl_senders_sideOf spared, ← whole, gives_back]

end Kills

section Main

variable {evs : List (Step ω)} {aes : List (Effect ω Item)}
  {calls : List (Message × List (Effect ω Item))} {h : List (Agent × Act Item)}
  {cfg : Mutation.Config} {m₀ : Mutation.Mutant} {ms : List Mutation.Mutant}

theorem closing_lets_automator_finish (config : inst.machine.initialPlan.mutation = some cfg)
    (enabled : cfg.enabled = true) (expansion : cfg.mutants = m₀ :: ms)
    (killing : cfg.auto.changeKill = true) (run : KillRun files inst cx evs aes calls h)
    : ∃ (out kr sig : Reply Item) (t : Nat),
      (∃ rest, evs = .effect (.order (.channel 1) out) :: .effect (.order (.channel 1) kr)
        :: .effect (.order .signal sig)
        :: .effect (.spawn ((firstAutomator cfg m₀ ms).run
          ⟨out.asId, some kr.asId, cx.withSignal sig.asId⟩ Item.mutant .done) t) :: rest)
      ∧ LetsGo evs h kr.asId sig.asId t
      ∧ (∀ s : Scheduler ω Item, s.isRaised sig.asId = true
          → s.errOf (cx.withSignal sig.asId) = some .cancelled)
      ∧ Mutation.Wiring.Stops ω Item ⟨out.asId, some kr.asId, cx.withSignal sig.asId⟩ kr.asId := by
  obtain ⟨x, hosted⟩ := run.host
  obtain ⟨out, kr, sig, t, rest, pre, r₁, r₂, o, opening, closing, counted⟩ :=
    runs_script_letting_go config enabled expansion killing hosted
  -- the same opening, read with what each party keeps to on the two channels
  obtain ⟨out', kr', sig', t', rest', opening', heeds⟩ :=
    heeds_script config enabled expansion killing hosted
  rw [opening] at opening'
  simp only [List.cons.injEq, Routine.Event.effect.injEq, Effect.order.injEq,
    Effect.spawn.injEq] at opening'
  obtain ⟨⟨-, rfl⟩, ⟨-, rfl⟩, ⟨-, rfl⟩, ⟨-, rfl⟩, rfl⟩ := opening'
  obtain ⟨body, y, first, ran⟩ := run.automator
  rw [opening] at first
  cases first
  have apart : kr.asId ≠ out.asId := run.apart (by rw [opening]; rfl)
  have gives_back : (sideOf .host h).foldl (Act.senders kr.asId) 1 = 0 := by
    rw [run.host_side]
    exact counted
  have spares := spares_of_plays (run.plays heeds ran) apart
  have made : Act.make kr.asId ∈ sideOf .host h := by
    rw [run.host_side, opening]
    simp [Order.act]
  refine ⟨out, kr, sig, t, ⟨rest, opening⟩,
    ⟨⟨_ :: _ :: _ :: _ :: pre, r₁, r₂, o, by rw [opening, closing]; rfl⟩, gives_back, spares,
      none_left_of_gives_back (run.allowed _) gives_back spares made⟩,
    fun s raised => Scheduler.errOf_withSignal raised cx, Mutation.Wiring.stops _ _⟩

end Main

/-- In the kill-only run, whose cycles each took a sender of kill input 2 and gave it back, the
instance lets go of its own and raises signal 3 before it waits for its automator, task 4. -/
theorem closing_lets_automator_finish_killingPair
    : KillRun Files.alone killingPair .background killingPairRun killingPairAutomating
        killingPairCalls killingPairHistory
      ∧ ∃ (out kr sig : Reply Item) (t : Nat),
        (∃ rest, killingPairRun = .effect (.order (.channel 1) out)
          :: .effect (.order (.channel 1) kr) :: .effect (.order .signal sig)
          :: .effect (.spawn ((firstAutomator killPair ⟨7⟩ [⟨8⟩]).run
            ⟨out.asId, some kr.asId, Context.background.withSignal sig.asId⟩ Item.mutant .done) t)
          :: rest)
        ∧ LetsGo killingPairRun killingPairHistory kr.asId sig.asId t
        ∧ (∀ s : Scheduler Tree Item, s.isRaised sig.asId = true
            → s.errOf (Context.background.withSignal sig.asId) = some .cancelled)
        ∧ Mutation.Wiring.Stops Tree Item
          ⟨out.asId, some kr.asId, Context.background.withSignal sig.asId⟩ kr.asId :=
  ⟨killRun_killingPair, closing_lets_automator_finish rfl rfl rfl rfl killRun_killingPair⟩

end Instance

end Campaign
