import Campaign.Proofs.Async.Lineage
import Campaign.Proofs.Command.Progress
import Campaign.Async.Scheduler

/-! A stage races its program's end against the end of the program's context, its caller's limited
by a deadline `t` seconds after the start when the program has a limit of `t` seconds
(`limitOf`); the context's end stops the stage, with a timeout when the reason is a passed
deadline and the program has a limit (`stopError`). Over every run timed as the scheduler times
it, the program is stopped by a timeout only once it has run for its limit or its caller's
deadline has passed (`stage_program_stops`), and it ends on its own only once it has run its
whole length.
-/

namespace Campaign

open Async

/-! ### Waits ended at one clock -/

namespace Async

variable {ω ν : Type}

/-- Whether a branch of a wait may end with answer `w` at clock `clock`, with the signals
`raised` raised: a context's end only once the context is done, for its reason, and a time only
once it has come. Other branches are not judged. -/
def Wait.ReadyAt (raised : Nat → Bool) (clock : Nat) : Wait ν → Woke ν → Prop
  | .done cx, w => ∃ r, w = .done r ∧ cx.err raised clock = some r
  | .sleepUntil d, _ => d ≤ clock
  | _, _ => True

/-- Whether a branch of a wait is not ready at clock `clock`: a context not yet done, a time not
yet come. Other branches are not judged. -/
def Wait.IdleAt (raised : Nat → Bool) (clock : Nat) : Wait ν → Prop
  | .done cx => cx.err raised clock = none
  | .sleepUntil d => clock < d
  | _ => True

/-- A wait ends on branch `i` at clock `clock` as the scheduler ends it: that branch is ready
then, and no earlier one is. -/
def Wait.EndsAt (raised : Nat → Bool) (clock : Nat) (ws : List (Wait ν)) (i : Nat) (w : Woke ν) :
    Prop :=
  (∀ b, ws[i]? = some b → b.ReadyAt raised clock w) ∧
    ∀ j < i, ∀ b, ws[j]? = some b → b.IdleAt raised clock

/-- A file operation's wait may end at any clock. -/
theorem Wait.endsAt_file {raised : Nat → Bool} {clock : Nat} :
    Wait.EndsAt raised clock ([.file] : List (Wait ν)) 0 .ready := by
  refine ⟨fun b found => ?_, fun j below => absurd below (Nat.not_lt_zero j)⟩
  simp only [List.getElem?_cons_zero, Option.some.injEq] at found
  subst found
  trivial

namespace Scheduler

/-- A branch the scheduler takes is ready at its clock. -/
theorem probe_readyAt {s s' : Scheduler ω ν} {t : Nat} {b : Wait ν} {w : Woke ν}
    (taken : s.probe t b = some (w, s')) : b.ReadyAt s.isRaised s.now w := by
  cases b with
  | done cx =>
    obtain ⟨r, done, same⟩ := Option.map_eq_some_iff.mp taken
    exact ⟨r, (Prod.mk.inj same).1.symm, done⟩
  | sleepUntil d =>
    simp only [probe] at taken
    split at taken
    · assumption
    · cases taken
  | _ => trivial

/-- A branch the scheduler passes over is not ready at its clock. -/
theorem probe_idleAt {s : Scheduler ω ν} {t : Nat} {b : Wait ν} (passed : s.probe t b = none) :
    b.IdleAt s.isRaised s.now := by
  cases b with
  | done cx => exact Option.map_eq_none_iff.mp passed
  | sleepUntil d =>
    simp only [probe] at passed
    split at passed
    · cases passed
    · exact Nat.lt_of_not_le ‹_›
  | _ => trivial

/-- The scheduler ends a wait on the first branch ready at its clock; by induction on the
branches from place `j` on. -/
theorem probeAll_endsAt {s : Scheduler ω ν} {t : Nat} :
    ∀ (ws : List (Wait ν)) (j i : Nat) (w : Woke ν) (s' : Scheduler ω ν),
      s.probeAll t j ws = some (i, w, s') → j ≤ i ∧ Wait.EndsAt s.isRaised s.now ws (i - j) w
  | [], _, _, _, _, ended => by cases ended
  | b :: ws, j, i, w, s', ended => by
    simp only [probeAll] at ended
    cases taken : s.probe t b with
    | some x =>
      obtain ⟨w', s''⟩ := x
      rw [taken] at ended
      obtain ⟨rfl, rfl, rfl⟩ : j = i ∧ w' = w ∧ s'' = s' := by simpa using ended
      refine ⟨le_refl _, fun b' found => ?_, fun k below => absurd below (by omega)⟩
      simp only [Nat.sub_self, List.getElem?_cons_zero, Option.some.injEq] at found
      exact found ▸ probe_readyAt taken
    | none =>
      rw [taken] at ended
      obtain ⟨later, ready, idle⟩ := probeAll_endsAt ws (j + 1) i w s' ended
      refine ⟨by omega, fun b' found => ready b' ?_, fun k below b' found => ?_⟩
      · rwa [show i - j = i - (j + 1) + 1 by omega, List.getElem?_cons_succ] at found
      · rcases k with _ | k
        · simp only [List.getElem?_cons_zero, Option.some.injEq] at found
          exact found ▸ probe_idleAt taken
        · exact idle k (by omega) b' (by simpa using found)

end Scheduler

/-- The waits among some effects ended as the scheduler ends them at clock `clock`, with the
signals `raised` raised (`Scheduler.probeAll_endsAt`). -/
def EndedAt (raised : Nat → Bool) (clock : Nat) (es : List (Effect ω ν)) : Prop :=
  ∀ ws i w, Effect.await ws i w ∈ es → Wait.EndsAt raised clock ws i w

end Async

namespace CommandStages

variable {ω : Type}

/-- A run of a stage program timed as the scheduler times it: the clock reads `start` as the
program starts, and its waits end as they do at clock `clock` with the signals `raised`
raised. -/
structure Timed (raised : Nat → Bool) (start clock : Nat) (es : List (Effect ω Item)) : Prop where
  starts : es.head? = some (.order .now (.id start))
  waits : EndedAt raised clock es

/-- The stage started its program at `start` and raced it against the program's context. -/
def Raced (cx : Context) (spec : CommandSpec) (start : Nat) (es : List (Effect ω Item)) : Prop :=
  ∃ length i w, Effect.await (race cx spec start length) i w ∈ es

/-- A stage's end that is neither a timeout nor a cancellation. -/
def Unstopped (result : Except CommandError Plan) : Prop :=
  (∀ q d, result ≠ .error (.timeout q d)) ∧ ∀ r, result ≠ .error (.cancelled r)

/-- A program's own outcome is neither a timeout nor a cancellation. -/
theorem Ended.unstopped {program : String} {result : Except CommandError Plan}
    (ended : Ended program result) : Unstopped result := by
  rcases ended with ⟨e, rfl⟩ | ⟨done, rfl⟩
  · exact ⟨nofun, nofun⟩
  · unfold handOn
    split
    · exact ⟨nofun, nofun⟩
    · split <;> exact ⟨nofun, nofun⟩

/-- The limited context is done at `clock` exactly when its caller is, for the caller's reason,
or, with a limit of `t` seconds, once `t` seconds have passed since the start. -/
theorem limitOf_err (cx : Context) (spec : CommandSpec) (raised : Nat → Bool) (start clock : Nat) :
    (limitOf cx spec start).err raised clock =
      match spec.timeoutSecs with
      | some t => (cx.err raised clock).or
          (if start + t * 1000 ≤ clock then some .deadlineExceeded else none)
      | none => cx.err raised clock := by
  unfold limitOf
  cases spec.timeoutSecs with
  | none => rfl
  | some t => exact Context.err_withDeadline cx _ raised clock

/-- A timed run of a stage program: the program is not started, and the stage fails to start
it; or the stage raced it, and then stops for the limited context's reason at the race's clock
when the context was done then, and otherwise ends with the program's own outcome, the program
having run its whole length by then. -/
theorem runs_execute_timed {files : Files ω} {cx : Context} {spec : CommandSpec}
    {vars : List (String × String)} {plan : Plan} {es : List (Effect ω Item)}
    {result : Except CommandError Plan} {raised : Nat → Bool} {start clock : Nat}
    (runs : Proc.Runs (execute files cx spec vars plan) es result)
    (timed : Timed raised start clock es) :
    (¬ Raced cx spec start es ∧ ∃ e, result = .error (.spawn spec.program e)) ∨
    Raced cx spec start es ∧
      (∀ r, (limitOf cx spec start).err raised clock = some r →
        result = .error (stopError spec r)) ∧
      ((limitOf cx spec start).err raised clock = none → Unstopped result ∧
        ∃ length, Effect.await (race cx spec start length) 1 .elapsed ∈ es ∧
          start + length ≤ clock) := by
  obtain ⟨reading, rest, rfl, cases⟩ := runs_execute_cases files runs
  obtain rfl : reading = .id start := by simpa using timed.starts
  rcases cases with ⟨e, rfl, failed⟩ | ⟨length, i, w, raced, ends, stopped⟩
  · refine .inl ⟨?_, e, failed⟩
    rintro ⟨length, i, w, mem⟩
    simp [race] at mem
  · have mem : Effect.await (race cx spec start length) i w ∈ .order .now (.id start) :: rest :=
      List.mem_cons_of_mem _ raced
    obtain ⟨ready, idle⟩ := timed.waits _ _ _ mem
    refine .inr ⟨⟨length, i, w, mem⟩, ?_⟩
    rcases stopped with ⟨rfl, r, rfl, failed⟩ | ⟨rfl, rfl, ended⟩
    · -- the context's end won the race: it was done at the race's clock, for `r`
      obtain ⟨r', same, done⟩ := ready _ rfl
      cases same
      refine ⟨fun r'' done' => ?_, fun going => ?_⟩
      · rw [done] at done'
        cases done'
        exact failed
      · rw [done] at going
        cases going
    · -- the program's end won: its time had come, and the context was not done
      have idle₀ : (limitOf cx spec start).err raised clock = none := idle 0 Nat.one_pos _ rfl
      refine ⟨fun r done => ?_, fun _ => ⟨ended.unstopped, length, mem, ready _ rfl⟩⟩
      rw [idle₀] at done
      cases done

/-- A stage told `stop` about its program's context ends with a timeout exactly when the
program has a limit and the context is done for a passed deadline. -/
theorem timeout_iff_of_stop {spec : CommandSpec} {stop : Option Cancelled}
    {result : Except CommandError Plan}
    (stops : ∀ r, stop = some r → result = .error (stopError spec r))
    (going : stop = none → Unstopped result) (q : String) (d : Duration) :
    result = .error (.timeout q d) ↔
      q = spec.program ∧ ∃ t, spec.timeoutSecs = some t ∧ d = Duration.ofSecs t ∧
        stop = some .deadlineExceeded := by
  cases stop with
  | none => simp [(going rfl).1 q d]
  | some r =>
    rw [stops r rfl]
    cases r <;> cases limit : spec.timeoutSecs <;> simp [stopError, limit, eq_comm]

/-- A stage told `stop` about its program's context ends with a cancellation for `r` exactly
when the context is done for `r`, a passed deadline counting only for a program without a
limit. -/
theorem cancelled_iff_of_stop {spec : CommandSpec} {stop : Option Cancelled}
    {result : Except CommandError Plan}
    (stops : ∀ r, stop = some r → result = .error (stopError spec r))
    (going : stop = none → Unstopped result) (r : Cancelled) :
    result = .error (.cancelled r) ↔
      stop = some r ∧ (r = .deadlineExceeded → spec.timeoutSecs = none) := by
  cases stop with
  | none => simp [(going rfl).2 r]
  | some r' =>
    rw [stops r' rfl]
    cases r' <;> cases r <;> cases limit : spec.timeoutSecs <;> simp [stopError, limit]

/-- How a stage program is stopped, over every run timed as the scheduler times it: started at
`start`, its race ended at `clock` with the signals `raised` raised. A program that is not
started fails the stage with its failure to start. A started program is stopped by a timeout
exactly when it has a limit `t` and either its caller's deadline has passed or its caller is
not done and `t` seconds have passed since the start; it is stopped by a cancellation exactly
when its caller's context is done for that reason, a passed deadline counting only for a
program without a limit; and it ends on its own only once it has run its whole length, its
context not done. -/
theorem stage_program_stops {files : Files ω} {cx : Context} {spec : CommandSpec}
    {vars : List (String × String)} {plan : Plan} {es : List (Effect ω Item)}
    {result : Except CommandError Plan} {raised : Nat → Bool} {start clock : Nat}
    (runs : Proc.Runs (execute files cx spec vars plan) es result)
    (timed : Timed raised start clock es) :
    (¬ Raced cx spec start es → ∃ e, result = .error (.spawn spec.program e)) ∧
    (∀ q d, result = .error (.timeout q d) ↔ Raced cx spec start es ∧ q = spec.program ∧
      ∃ t, spec.timeoutSecs = some t ∧ d = Duration.ofSecs t ∧
        (cx.err raised clock = some .deadlineExceeded ∨
          cx.err raised clock = none ∧ start + t * 1000 ≤ clock)) ∧
    (∀ r, result = .error (.cancelled r) ↔ Raced cx spec start es ∧ cx.err raised clock = some r ∧
      (r = .deadlineExceeded → spec.timeoutSecs = none)) ∧
    (Raced cx spec start es → Unstopped result →
      ∃ length, Effect.await (race cx spec start length) 1 .elapsed ∈ es ∧
        start + length ≤ clock ∧ (limitOf cx spec start).err raised clock = none) := by
  rcases runs_execute_timed runs timed with ⟨unraced, e, failed⟩ | ⟨raced, stops, going⟩
  · refine ⟨fun _ => ⟨e, failed⟩, fun q d => ?_, fun r => ?_, fun raced => absurd raced unraced⟩ <;>
      simp [failed, unraced]
  · -- the answer is the limited context's state at the race's clock, read off the caller's
    have limited := limitOf_err cx spec raised start clock
    refine ⟨fun unraced => absurd raced unraced, fun q d => ?_, fun r => ?_, fun _ unstopped => ?_⟩
    · rw [timeout_iff_of_stop stops (fun none => (going none).1), limited]
      cases limit : spec.timeoutSecs with
      | none => simp
      | some t =>
        rcases reason : cx.err raised clock with _ | (_ | _) <;>
          by_cases come : start + t * 1000 ≤ clock <;> simp [raced, come]
    · rw [cancelled_iff_of_stop stops (fun none => (going none).1), limited]
      cases limit : spec.timeoutSecs with
      | none => simp [raced]
      | some t =>
        rcases reason : cx.err raised clock with _ | (_ | _) <;>
          by_cases come : start + t * 1000 ≤ clock <;> cases r <;> simp [raced, come]
    · -- an unstopped end: the context was not done, so the program's own end won the race
      cases stop : (limitOf cx spec start).err raised clock with
      | none =>
        obtain ⟨-, length, mem, ran⟩ := going stop
        exact ⟨length, mem, ran, rfl⟩
      | some r =>
        have failed := stops r stop
        unfold stopError at failed
        split at failed
        · exact absurd failed (unstopped.1 _ _)
        · exact absurd failed (unstopped.2 _)

/-- A stage whose program's context is done at `clock` can be stopped so, the program started
at `start` and its race ended at `clock`. -/
theorem runs_execute_stopped (files : Files ω) (cx : Context) (spec : CommandSpec)
    (vars : List (String × String)) (plan : Plan) {raised : Nat → Bool} {start clock : Nat}
    (length : Nat) {r : Cancelled} (done : (limitOf cx spec start).err raised clock = some r) :
    ∃ es, Proc.Runs (execute files cx spec vars plan) es (.error (stopError spec r)) ∧
      Timed raised start clock es ∧ Raced cx spec start es := by
  refine ⟨[.order .now (.id start), .await [.file] 0 .ready, .touch,
    .await (race cx spec start length) 0 (.done r), .order .now (.id clock),
    .await [.file] 0 .ready, .touch], ?_, ⟨rfl, ?_⟩, ⟨length, 0, .done r, by simp⟩⟩
  · exact .order (.id start) (.await 0 .ready ⟨_, rfl, trivial⟩ (.touch (.ok length)
      (.await 0 (.done r) ⟨_, rfl, trivial⟩ (.order (.id clock)
        (.await 0 .ready ⟨_, rfl, trivial⟩ (.touch () (.pure _)))))))
  · intro ws i w mem
    simp only [List.mem_cons, List.not_mem_nil, or_false, reduceCtorEq, false_or,
      Effect.await.injEq] at mem
    rcases mem with ⟨rfl, rfl, rfl⟩ | ⟨rfl, rfl, rfl⟩ | ⟨rfl, rfl, rfl⟩
    · exact Wait.endsAt_file
    · refine ⟨fun b found => ?_, fun j below => absurd below (Nat.not_lt_zero j)⟩
      simp only [race, List.getElem?_cons_zero, Option.some.injEq] at found
      exact found ▸ ⟨r, rfl, done⟩
    · exact Wait.endsAt_file

/-! ### A slow program, and a caller whose deadline has passed -/

/-- Files kept as the whole state. -/
def wholeTree : Files Tree := ⟨id, fun t _ => t⟩

/-- A program given a second, which would take half a minute. -/
def slowProgram : CommandSpec := { program := "sh", args := ["-c", "sleep 30"], timeoutSecs := some 1 }

/-- A program given a second, started at 0 under a caller that never ends, is stopped by its
timeout once the second has passed, its race ending at 1000. -/
theorem stage_program_stops_slowProgram :
    ∃ es, Proc.Runs (execute wholeTree .background slowProgram [] {}) es
        (.error (.timeout "sh" (Duration.ofSecs 1))) ∧
      Timed (fun _ => false) 0 1000 es ∧
      ∃ t, slowProgram.timeoutSecs = some t ∧ 0 + t * 1000 ≤ 1000 := by
  obtain ⟨es, runs, timed, -⟩ := runs_execute_stopped wholeTree .background slowProgram [] {} 30000
    (by decide : (limitOf .background slowProgram 0).err (fun _ => false) 1000 =
      some .deadlineExceeded)
  obtain ⟨-, -, t, limit, -, came⟩ :=
    ((stage_program_stops runs timed).2.1 "sh" (Duration.ofSecs 1)).mp rfl
  refine ⟨es, runs, timed, t, limit, ?_⟩
  rcases came with caller | ⟨-, ran⟩
  · exact absurd caller (by decide)
  · exact ran

/-- A program given a minute, which would take two. -/
def sleeper : CommandSpec := { program := "sh", args := ["-c", "sleep 120"], timeoutSecs := some 60 }

/-- A caller whose deadline passed at time 0, as its program started with a limit of a minute,
sees the stage stopped by the program's timeout at 0, though the program ran for no time at
all. -/
theorem caller_deadline_reads_as_timeout :
    Context.err { deadline := some 0 } (fun _ => false) 0 = some .deadlineExceeded ∧
    ∃ es, Proc.Runs (execute wholeTree { deadline := some 0 } sleeper [] {}) es
        (.error (.timeout "sh" (Duration.ofSecs 60))) ∧
      Timed (fun _ => false) 0 0 es ∧ Raced { deadline := some 0 } sleeper 0 es :=
  ⟨by decide, runs_execute_stopped wholeTree _ sleeper [] {} 120000
    (by decide : (limitOf { deadline := some 0 } sleeper 0).err (fun _ => false) 0 =
      some .deadlineExceeded)⟩

end CommandStages

end Campaign
