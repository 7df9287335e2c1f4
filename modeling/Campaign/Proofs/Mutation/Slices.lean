import Campaign.Proofs.Mutation.RoundRobin
import Campaign.Proofs.Async.Timers

/-! An automator with a period gives each mutant a slice: its runs read the clock and set the
timer as `Slices` says, so each turn on the timer comes no earlier than a period after the
start of the slice in force (`slices_follow_the_clock`). An automator without a period never
reads the clock and sets no timer.
-/

namespace Campaign

namespace Mutation

open Async

variable {ω : Type}

/-- What a run of the automator shows of its time slices. -/
inductive Clocked where
  /-- An offer ended, delivered or not. -/
  | offer (delivered : Bool)
  /-- A turn on a kill. -/
  | kill
  /-- A turn on the timer `timer`. -/
  | tick (timer : Nat)
  /-- The loop saw its context end. -/
  | stop
  /-- The clock read `t`. -/
  | clock (t : Nat)
  /-- The timer `timer` made or set, due at `due`. -/
  | arm (timer due : Nat)
  deriving DecidableEq

/-- What the loop's wait shows on branch `j` with answer `r`, `tw` being its branch for the
period: the end of its context, a kill, or a tick of the timer it waits on. -/
def loopClocked : Wait Item → Nat → Woke Item → Option Clocked
  | _, 0, _ => some .stop
  | _, 1, .received (some _) => some .kill
  | .timer i, 2, _ => some (.tick i)
  | _, _, _ => none

/-- What an effect of the automator wired to `w` shows of its time slices: an offer of a mutant
on its stream, a wait of its loop, a reading of the clock or a timer set. -/
def Wiring.clocked (w : Wiring) : Effect ω Item → Option Clocked
  | .await [.done cx, .send ch _] j r =>
    if cx = w.cx ∧ ch = w.out then some (.offer (decide (Outcome.of j r = .delivered))) else none
  | .await [.done cx, _, tw] j r => if cx = w.cx then loopClocked tw j r else none
  | .order .now r => some (.clock r.asId)
  | .order (.timer d) r => some (.arm r.asId d)
  | .order (.resetTimer i d _) _ => some (.arm i d)
  | _ => none

/-- A reading that an automator without a period may show: an offer, a kill or the end of its
context; no clock, no timer and no tick. -/
def Clocked.Untimed : Clocked → Prop
  | .offer _ | .kill | .stop => True
  | .tick _ | .clock _ | .arm _ _ => False

/-- What a turn on the timer saw: when the slice in force ends (a period after it started), when
the timer was due, and what the clock read once the tick was noticed. -/
structure Tick where
  floor : Nat
  due : Nat
  noticed : Nat

/-- The readings of the loop of an automator with period `p` and timer `i`, in a slice that ends
at `floor` while the timer is due at `due`, with the ticks it saw. The loop may run out of
waits, see its context end, or turn: on a kill the next mutant is offered and, once delivered,
a slice starts at the clock then; on a tick the clock is read, the timer is set to the next
deadline (`Ticker.following`), and the next mutant is offered. -/
inductive Slices (p i : Nat) : Nat → Nat → List Clocked → List Tick → Prop
  | idle {floor due : Nat} : Slices p i floor due [] []
  | stop {floor due : Nat} : Slices p i floor due [.stop] []
  | killRefused {floor due : Nat} : Slices p i floor due [.kill, .offer false] []
  | kill {floor due t : Nat} {rest : List Clocked} {ts : List Tick} :
      Slices p i (t + p) (t + p) rest ts →
      Slices p i floor due (.kill :: .offer true :: .clock t :: .arm i (t + p) :: rest) ts
  | tickRefused {floor due n : Nat} :
      Slices p i floor due [.tick i, .clock n, .arm i (Ticker.following p due n), .offer false]
        [⟨floor, due, n⟩]
  | tick {floor due n : Nat} {rest : List Clocked} {ts : List Tick} :
      Slices p i floor (Ticker.following p due n) rest ts →
      Slices p i floor due
        (.tick i :: .clock n :: .arm i (Ticker.following p due n) :: .offer true :: rest)
        (⟨floor, due, n⟩ :: ts)

/-! ## What the slices keep -/

/-- A tick's successor is due a period or more after it. -/
theorem Ticker.le_following (p due n : Nat) : due + p ≤ Ticker.following p due n := by
  unfold Ticker.following
  split <;> omega

/-- A tick noticed in time leaves no drift: its successor is due exactly a period after it. -/
theorem Ticker.following_of_prompt {p due n : Nat} (prompt : n ≤ due + 5) :
    Ticker.following p due n = due + p := by
  unfold Ticker.following
  rw [if_neg (by omega)]

namespace Slices

variable {p i : Nat}

/-- Every tick comes with the timer due no earlier than the end of the slice in force, by
induction on the slices: a slice starts with the timer due at its end, and each tick only moves
the deadline later. -/
theorem floor_le_due {floor due : Nat} {cs : List Clocked} {ts : List Tick}
    (sliced : Slices p i floor due cs ts) (below : floor ≤ due) : ∀ x ∈ ts, x.floor ≤ x.due := by
  induction sliced with
  | idle | stop | killRefused => exact fun _ mem => absurd mem List.not_mem_nil
  | kill _ ih => exact ih (Nat.le_refl _)
  | tickRefused =>
    intro x mem
    rw [List.mem_singleton.mp mem]
    exact below
  | @tick floor due n rest ts _ ih =>
    intro x mem
    rcases List.mem_cons.mp mem with rfl | mem
    · exact below
    · exact ih (Nat.le_trans below (Nat.le_trans (Nat.le_add_right _ _)
        (Ticker.le_following p due n))) x mem

/-- With a clock that reads no earlier than `s`, every slice ends at least a period after `s`:
each slice starts at a reading of the clock. -/
theorem start_le_floor {floor due s : Nat} {cs : List Clocked} {ts : List Tick}
    (sliced : Slices p i floor due cs ts) (first : s + p ≤ floor)
    (later : ∀ t, Clocked.clock t ∈ cs → s ≤ t) : ∀ x ∈ ts, s + p ≤ x.floor := by
  induction sliced with
  | idle | stop | killRefused => exact fun _ mem => absurd mem List.not_mem_nil
  | @kill floor due t rest ts _ ih =>
    have read : s ≤ t := later t (by simp)
    exact ih (by omega) fun t' mem => later t' (by simp [mem])
  | tickRefused =>
    intro x mem
    rw [List.mem_singleton.mp mem]
    exact first
  | @tick floor due n rest ts _ ih =>
    intro x mem
    rcases List.mem_cons.mp mem with rfl | mem
    · exact first
    · exact ih first (fun t' mem' => later t' (by simp [mem'])) x mem

/-- Without kills, and with every tick noticed within 5 ms of its deadline, the ticks are due a
period apart from the first: the `k`-th at `due + k * p`. -/
theorem dues_of_prompt {floor due : Nat} {cs : List Clocked} {ts : List Tick}
    (sliced : Slices p i floor due cs ts) (noKill : Clocked.kill ∉ cs)
    (prompt : ∀ x ∈ ts, x.noticed ≤ x.due + 5) :
    ts.map Tick.due = (List.range ts.length).map fun k => due + k * p := by
  induction sliced with
  | idle | stop => rfl
  | killRefused | kill => simp at noKill
  | tickRefused => simp
  | @tick floor due n rest ts _ ih =>
    have now : n ≤ due + 5 := prompt ⟨floor, due, n⟩ List.mem_cons_self
    have rest_due := ih (fun mem => noKill (by simp [mem]))
      fun x mem => prompt x (List.mem_cons_of_mem _ mem)
    rw [Ticker.following_of_prompt now] at rest_due
    rw [List.map_cons, rest_due, List.length_cons, List.range_succ_eq_map, List.map_cons,
      List.map_map]
    simp only [Nat.zero_mul, Nat.add_zero, List.cons.injEq, true_and]
    refine List.map_congr_left fun k _ => ?_
    simp only [Function.comp_apply, Nat.succ_mul]
    omega

end Slices

/-! ## What each part of a run shows -/

variable {w : Wiring}

theorem clocked_offerWait (m : Mutant) (j : Nat) (r : Woke Item) :
    w.clocked (.await [.done w.cx, .send w.out (.mutant m)] j r : Effect ω Item)
      = some (.offer (decide (Outcome.of j r = .delivered))) := by
  simp [Wiring.clocked]

theorem clocked_loopWait (kw tw : Wait Item) (j : Nat) (r : Woke Item) :
    w.clocked (.await [.done w.cx, kw, tw] j r : Effect ω Item) = loopClocked tw j r := by
  simp [Wiring.clocked]

/-- An offer shows whether it delivered its mutant. -/
theorem offerMutant_clocked {m : Mutant} {es : List (Effect ω Item)} {ok : Bool}
    (h : (offerMutant w Item.mutant m).Runs es ok) : es.filterMap w.clocked = [.offer ok] := by
  rcases runs_offerMutant_cases h with ⟨c, rfl, rfl⟩ | rfl
  · -- the context ended first
    simp [clocked_offerWait, Outcome.of]
  · cases ok <;> simp [clocked_offerWait, Outcome.of]

/-- A part none of whose effects shows anything of the slices. -/
def Wiring.Unclocked (w : Wiring) (e : Effect ω Item) : Prop := w.clocked e = none

theorem unclocked_runs {α : Type} {p : Proc ω Item α} (quiet : p.Only w.Unclocked)
    {es : List (Effect ω Item)} {a : α} (ran : p.Runs es a) : es.filterMap w.clocked = [] :=
  List.filterMap_eq_nil_iff.mpr fun e mem => quiet es a ran e mem

/-- Draining the kill input shows nothing: its waits have a single branch. -/
theorem drainKills_unclocked (k fuel : Nat) :
    (drainKills k fuel : Proc ω Item Unit).Only w.Unclocked :=
  drainKills_only k (fun _ => rfl) fuel

/-- Dropping the period's timer, draining the kill input and letting go show nothing. -/
theorem release_unclocked (kills : Option Nat) (result : Item) :
    (match kills with
      | some k => do
        drainKills k loopFuel
        Proc.dropReceiver k
        Proc.dropSender w.out
        pure result
      | none => do
        Proc.dropSender w.out
        pure result : Proc ω Item Item).Only w.Unclocked := by
  cases kills with
  | some k =>
    exact .bind (drainKills_unclocked k _) fun _ => .bind (.bind (.ask fun _ => rfl) fun _ =>
      .pure _) fun _ => .bind (.bind (.ask fun _ => rfl) fun _ => .pure _) fun _ => .pure _
  | none => exact .bind (.bind (.ask fun _ => rfl) fun _ => .pure _) fun _ => .pure _

/-- Reading the clock and giving an order, as the ticker does when it is made or set. -/
theorem clock_order_runs {α : Type} {o : Nat → Order Item} {K : Nat → Reply Item → Proc ω Item α}
    {es : List (Effect ω Item)} {y : α}
    (h : (Proc.now >>= fun now => Proc.ask (o now) >>= fun r => K now r).Runs es y) :
    ∃ r₁ r₂ rest, es = .order .now r₁ :: .order (o r₁.asId) r₂ :: rest ∧
      (K r₁.asId r₂).Runs rest y := by
  obtain ⟨clock, more, now, rfl, hnow, hmore⟩ := Proc.runs_bind_iff.mp h
  obtain ⟨r₁, rfl, rfl⟩ := Proc.runs_now_iff.mp hnow
  obtain ⟨set, rest, r, rfl, hset, hrest⟩ := Proc.runs_bind_iff.mp hmore
  obtain ⟨r₂, rfl, rfl⟩ := Proc.runs_ask_iff.mp hset
  exact ⟨r₁, _, rest, rfl, hrest⟩

/-! ## The loop and the run -/

/-- Every run of the loop of an automator with period `p` whose timer is `tk` reads as slices,
whatever slice is in force. By induction on the fuel, one case per branch of the loop's
wait. -/
theorem rotationLoop_slices {p : Nat} (fuel : Nat) {b : Automator} {kills : Option Nat}
    {tk : Ticker} {es : List (Effect ω Item)} {y : Option Nat} (floor : Nat)
    (h : (rotationLoop w Item.mutant (some p) fuel b kills (some tk)).Runs es y) :
    ∃ ts, Slices p tk.timer floor tk.due (es.filterMap w.clocked) ts := by
  induction fuel generalizing b kills tk es y floor with
  | zero =>
    obtain ⟨rfl, -⟩ := Proc.runs_pure_iff.mp h
    exact ⟨[], .idle⟩
  | succ fuel ih =>
    unfold rotationLoop at h
    dsimp only at h
    obtain ⟨selected, rest, x, rfl, hsel, hk⟩ := Proc.runs_bind_iff.mp h
    obtain ⟨j, v, ends, rfl, rfl⟩ := Proc.runs_select_iff.mp hsel
    rw [List.singleton_append, List.filterMap_cons, clocked_loopWait]
    rcases rotationWaits_ends _ (some tk) ends with ⟨r, rfl, rfl⟩ | ⟨k, got, rfl, rfl, rfl⟩
      | ⟨_, rfl, -, rfl⟩
    · -- the context ended: the loop stops
      obtain ⟨rfl, -⟩ := Proc.runs_pure_iff.mp hk
      exact ⟨[], .stop⟩
    · cases got with
      | some signal =>
        -- a kill: the next mutant is offered, and once delivered a slice starts
        obtain ⟨offered, more, ok, rfl, hoffer, hnext⟩ := Proc.runs_bind_iff.mp hk
        rw [List.filterMap_append, offerMutant_clocked hoffer]
        cases ok with
        | false =>
          obtain ⟨rfl, -⟩ := Proc.runs_pure_iff.mp hnext
          exact ⟨[], .killRefused⟩
        | true =>
          obtain ⟨r₁, r₂, rest', rfl, hloop⟩ := clock_order_runs hnext
          obtain ⟨ts, sliced⟩ := ih (r₁.asId + p) hloop
          exact ⟨ts, .kill sliced⟩
      | none =>
        -- the kill input ended: it is let go of, and the loop goes on without it
        obtain ⟨dropped, looped, u, rfl, hdrop, hloop⟩ := Proc.runs_bind_iff.mp hk
        obtain ⟨r, rfl⟩ := Proc.runs_dropReceiver_iff.mp hdrop
        obtain ⟨ts, sliced⟩ := ih floor hloop
        have unread : w.clocked (.order (.dropReceiver k) r : Effect ω Item) = none := rfl
        rw [List.singleton_append, List.filterMap_cons_none unread]
        exact ⟨ts, sliced⟩
    · -- a tick: the timer is set to its next deadline, then the next mutant is offered
      simp only at hk
      obtain ⟨r₁, r₂, rest', rfl, hset⟩ := clock_order_runs hk
      obtain ⟨none', after, t, rfl, hpure, hoffer⟩ := Proc.runs_bind_iff.mp hset
      obtain ⟨rfl, rfl⟩ := Proc.runs_pure_iff.mp hpure
      obtain ⟨offered, more, ok, rfl, hsent, hnext⟩ := Proc.runs_bind_iff.mp hoffer
      simp only [loopClocked, List.filterMap_cons, Wiring.clocked, List.filterMap_append,
        offerMutant_clocked hsent]
      cases ok with
      | false =>
        obtain ⟨rfl, -⟩ := Proc.runs_pure_iff.mp hnext
        exact ⟨_, .tickRefused⟩
      | true =>
        obtain ⟨ts, sliced⟩ := ih floor hnext
        exact ⟨_, .tick sliced⟩

/-- Every run of the loop of an automator without a period shows only offers, kills and the end
of its context: its wait never ends on a timer, and it reads no clock. By induction on the
fuel. -/
theorem rotationLoop_untimed (fuel : Nat) {b : Automator} {kills : Option Nat}
    {es : List (Effect ω Item)} {y : Option Nat}
    (h : (rotationLoop w Item.mutant none fuel b kills none).Runs es y) :
    ∀ c ∈ es.filterMap w.clocked, c.Untimed := by
  induction fuel generalizing b kills es y with
  | zero =>
    obtain ⟨rfl, -⟩ := Proc.runs_pure_iff.mp h
    exact fun _ mem => absurd mem List.not_mem_nil
  | succ fuel ih =>
    unfold rotationLoop at h
    dsimp only at h
    obtain ⟨selected, rest, x, rfl, hsel, hk⟩ := Proc.runs_bind_iff.mp h
    obtain ⟨j, v, ends, rfl, rfl⟩ := Proc.runs_select_iff.mp hsel
    rw [List.singleton_append, List.filterMap_cons, clocked_loopWait]
    -- the period's branch is never ready
    rcases rotationWaits_ends _ none ends with ⟨r, rfl, rfl⟩ | ⟨k, got, rfl, rfl, rfl⟩
      | ⟨tk, rfl, ⟨⟩, -⟩
    · obtain ⟨rfl, -⟩ := Proc.runs_pure_iff.mp hk
      simp [loopClocked, Clocked.Untimed]
    · cases got with
      | some signal =>
        -- a kill: the next mutant is offered, and the loop goes on with no timer to set
        obtain ⟨offered, more, ok, rfl, hoffer, hnext⟩ := Proc.runs_bind_iff.mp hk
        rw [List.filterMap_append, offerMutant_clocked hoffer]
        have rest : ∀ c ∈ more.filterMap w.clocked, c.Untimed := by
          cases ok with
          | false =>
            obtain ⟨rfl, -⟩ := Proc.runs_pure_iff.mp hnext
            exact fun _ mem => absurd mem List.not_mem_nil
          | true => exact ih hnext
        simpa [loopClocked, Clocked.Untimed] using rest
      | none =>
        obtain ⟨dropped, looped, u, rfl, hdrop, hloop⟩ := Proc.runs_bind_iff.mp hk
        obtain ⟨r, rfl⟩ := Proc.runs_dropReceiver_iff.mp hdrop
        have unread : w.clocked (.order (.dropReceiver k) r : Effect ω Item) = none := rfl
        rw [List.singleton_append, List.filterMap_cons_none unread]
        simpa [loopClocked] using ih hloop

/-- Every run of an automator with period `secs` seconds: its first offer was not delivered, or
it was, and the clock read at once starts the first slice, whose end the timer is due at, and
the loop's readings are slices of the period. -/
theorem run_slices {a : Automator} {secs : Nat} (timed : a.period = some secs) {result y : Item}
    {es : List (Effect ω Item)} (ran : (a.run w Item.mutant result).Runs es y) :
    es.filterMap w.clocked = [.offer false] ∨
      ∃ s i rest ts, es.filterMap w.clocked =
          .offer true :: .clock s :: .arm i (s + secs * 1000) :: rest ∧
        Slices (secs * 1000) i (s + secs * 1000) (s + secs * 1000) rest ts := by
  unfold Automator.run at ran
  obtain ⟨offered, rest, ok, rfl, hoffer, h⟩ := Proc.runs_bind_iff.mp ran
  rw [List.filterMap_append, offerMutant_clocked hoffer]
  cases ok with
  | false =>
    -- the first offer was not delivered: letting go shows nothing more
    simp only [Bool.false_eq_true, if_false] at h
    exact .inl (by rw [unclocked_runs (release_unclocked w.kills result) h]; rfl)
  | true =>
    simp only [if_true] at h
    split at h
    · rename_i p period
      rw [timed] at period
      cases period
      -- the timer is made from the clock, the loop runs, and the rest shows nothing
      obtain ⟨r₁, r₂, more, rfl, made⟩ := clock_order_runs h
      obtain ⟨_, after, t, rfl, hpure, going⟩ := Proc.runs_bind_iff.mp made
      obtain ⟨rfl, rfl⟩ := Proc.runs_pure_iff.mp hpure
      obtain ⟨looped, tail, kills, rfl, hloop, htail⟩ := Proc.runs_bind_iff.mp going
      rw [timed] at hloop
      obtain ⟨ts, sliced⟩ := rotationLoop_slices loopFuel (r₁.asId + secs * 1000) hloop
      have quiet : tail.filterMap w.clocked = [] := by
        refine unclocked_runs ?_ htail
        exact .bind (.bind (.ask fun _ => rfl) fun _ => .pure _) fun _ =>
          release_unclocked kills result
      refine .inr ⟨r₁.asId, r₂.asId, _, ts, ?_, sliced⟩
      simp [List.filterMap_append, quiet, Wiring.clocked]
    · rename_i period
      rw [timed] at period
      cases period

/-- Every run of an automator without a period shows only offers, kills and the end of its
context. -/
theorem run_untimed {a : Automator} (untimed : a.period = none) {result y : Item}
    {es : List (Effect ω Item)} (ran : (a.run w Item.mutant result).Runs es y) :
    ∀ c ∈ es.filterMap w.clocked, c.Untimed := by
  unfold Automator.run at ran
  obtain ⟨offered, rest, ok, rfl, hoffer, h⟩ := Proc.runs_bind_iff.mp ran
  rw [List.filterMap_append, offerMutant_clocked hoffer]
  have shown : ∀ c ∈ rest.filterMap w.clocked, c.Untimed := by
    cases ok with
    | false =>
      simp only [Bool.false_eq_true, if_false] at h
      rw [unclocked_runs (release_unclocked w.kills result) h]
      exact fun _ mem => absurd mem List.not_mem_nil
    | true =>
      simp only [if_true] at h
      split at h
      · rename_i period
        rw [untimed] at period
        cases period
      · obtain ⟨_, after, t, rfl, hpure, going⟩ := Proc.runs_bind_iff.mp h
        obtain ⟨rfl, rfl⟩ := Proc.runs_pure_iff.mp hpure
        obtain ⟨looped, tail, kills, rfl, hloop, htail⟩ := Proc.runs_bind_iff.mp going
        have quiet := unclocked_runs (release_unclocked kills result) htail
        rw [untimed] at hloop
        simpa [quiet] using rotationLoop_untimed loopFuel hloop
  simpa [Clocked.Untimed] using shown

/-- Every run of an automator, whatever its kills, consumer and clock: without a period it shows
only offers, kills and the end of its context, so no turn is on a timer. With a period of `secs`
seconds (`p` ms), once its first mutant was delivered it reads the clock (`s`) and makes its
timer due at `s + p`, and its loop reads as slices: each turn on the timer comes with the timer
due no earlier than a period after the start of the slice in force (the first delivery, or the
delivery after the latest kill); with a clock that never reads earlier than `s`, no earlier than
`s + p`; and without kills, with each tick noticed within 5 ms of its deadline, the `k`-th tick
is due at `s + k * p`. On the scheduler every fired timer is due in every state a run reaches,
a wait on a timer ends only once the clock has reached the timer's deadline, and moving the
clock never carries it past a pending deadline. -/
theorem slices_follow_the_clock {a : Automator} (w : Wiring) (result : Item)
    {es : List (Effect ω Item)} {y : Item} (ran : (a.run w Item.mutant result).Runs es y) :
    (a.period = none → ∀ c ∈ es.filterMap w.clocked, c.Untimed) ∧
    (∀ secs, a.period = some secs →
      es.filterMap w.clocked = [.offer false] ∨
      ∃ s i rest ts, es.filterMap w.clocked =
          .offer true :: .clock s :: .arm i (s + secs * 1000) :: rest ∧
        Slices (secs * 1000) i (s + secs * 1000) (s + secs * 1000) rest ts ∧
        (∀ x ∈ ts, x.floor ≤ x.due) ∧
        ((∀ t, Clocked.clock t ∈ rest → s ≤ t) → ∀ x ∈ ts, s + secs * 1000 ≤ x.floor) ∧
        (Clocked.kill ∉ rest → (∀ x ∈ ts, x.noticed ≤ x.due + 5) →
          ts.map Tick.due = (List.range ts.length).map fun k => s + (k + 1) * (secs * 1000))) ∧
    (∀ (world : ω) (main : Proc ω Item Item) (n : Nat),
      (Scheduler.run n (Scheduler.launch world main)).Timely) ∧
    (∀ (sch : Scheduler ω Item) (t fuel : Nat) (p : Proc ω Item Item) (owned : List (Nat × Nat)),
      sch.Timely → (sch.step t fuel p owned).Timely) ∧
    (∀ (sch sch' : Scheduler ω Item) (t i : Nat) (r : Woke Item), sch.Timely →
      sch.probe t (.timer i) = some (r, sch') →
      ∃ tm, sch.timers[i]? = some tm ∧ tm.deadline ≤ sch.now) ∧
    (∀ (sch sch' : Scheduler ω Item) (i : Nat) (tm : Timer), sch.park = some sch' →
      sch.timers[i]? = some tm → tm.Pending → sch'.now ≤ max sch.now tm.deadline) := by
  refine ⟨fun untimed => run_untimed untimed ran, fun secs timed => ?_,
    fun world main n => Scheduler.Timely.run n _ (Scheduler.timely_launch world main),
    fun sch t fuel p owned timely => Scheduler.Timely.step t fuel sch p owned timely,
    fun _ _ _ _ _ timely h => Scheduler.probe_timer_due timely h,
    fun _ _ _ _ h found pending => Scheduler.park_within_deadline h found pending⟩
  rcases run_slices timed ran with refused | ⟨s, i, rest, ts, shown, sliced⟩
  · exact .inl refused
  refine .inr ⟨s, i, rest, ts, shown, sliced, sliced.floor_le_due (Nat.le_refl _),
    fun later => sliced.start_le_floor (Nat.le_refl _) later, fun noKill prompt => ?_⟩
  -- the first slice starts at `s`, so the `k`-th tick is due `k` periods after it
  rw [sliced.dues_of_prompt noKill prompt]
  refine List.map_congr_left fun k _ => ?_
  rw [Nat.succ_mul]
  omega

/-- Mutants 10 and 11, rotated every minute. -/
def everyMinute : Automator := ⟨[⟨10⟩, ⟨11⟩], 0, some 60, false⟩

/-- The automator's stream is channel 1; it has no kill input. -/
def everyMinuteWiring : Wiring := ⟨1, none, .background⟩

/-- A run: mutant 10 is delivered at time 0, the timer made due at 60000 ms ticks and is
noticed at once, then set due at 120000, mutant 11 is delivered, the context ends, and the
automator drops its timer and its stream. -/
def everyMinuteRun : List (Effect ω Item) :=
  [.await [.done .background, .send 1 (.mutant ⟨10⟩)] 1 (.sent true),
   .order .now (.id 0),
   .order (.timer 60000) (.id 0),
   .await [.done .background, .never, .timer 0] 2 .elapsed,
   .order .now (.id 60000),
   .order (.resetTimer 0 120000 false) .unit,
   .await [.done .background, .send 1 (.mutant ⟨11⟩)] 1 (.sent true),
   .await [.done .background, .never, .timer 0] 0 (.done .cancelled),
   .order (.dropTimer 0) .unit,
   .order (.dropSender 1) .unit]

theorem runs_everyMinute :
    (everyMinute.run everyMinuteWiring Item.mutant .done).Runs
      (everyMinuteRun : List (Effect ω Item)) .done :=
  .await 1 (.sent true) (by exact ⟨_, rfl, trivial⟩) <|
  .order (.id 0) <| .order (.id 0) <|
  .await 2 .elapsed (by exact ⟨_, rfl, trivial⟩) <|
  .order (.id 60000) <| .order .unit <|
  .await 1 (.sent true) (by exact ⟨_, rfl, trivial⟩) <|
  .await 0 (.done .cancelled) (by exact ⟨_, rfl, trivial⟩) <|
  .order .unit <| .order .unit <| .pure _

/-- The run reads as the first slice, from time 0, with one tick noticed at its deadline. -/
example : (everyMinuteRun : List (Effect Unit Item)).filterMap everyMinuteWiring.clocked
    = [.offer true, .clock 0, .arm 0 60000, .tick 0, .clock 60000, .arm 0 120000, .offer true,
      .stop] := by
  decide

theorem slices_follow_the_clock_everyMinute :
    (everyMinute.run everyMinuteWiring Item.mutant .done).Runs
      (everyMinuteRun : List (Effect Unit Item)) .done ∧
    ((everyMinute.period = none →
      ∀ c ∈ (everyMinuteRun : List (Effect Unit Item)).filterMap everyMinuteWiring.clocked,
        c.Untimed) ∧
    (∀ secs, everyMinute.period = some secs →
      (everyMinuteRun : List (Effect Unit Item)).filterMap everyMinuteWiring.clocked
        = [.offer false] ∨
      ∃ s i rest ts, (everyMinuteRun : List (Effect Unit Item)).filterMap everyMinuteWiring.clocked
          = .offer true :: .clock s :: .arm i (s + secs * 1000) :: rest ∧
        Slices (secs * 1000) i (s + secs * 1000) (s + secs * 1000) rest ts ∧
        (∀ x ∈ ts, x.floor ≤ x.due) ∧
        ((∀ t, Clocked.clock t ∈ rest → s ≤ t) → ∀ x ∈ ts, s + secs * 1000 ≤ x.floor) ∧
        (Clocked.kill ∉ rest → (∀ x ∈ ts, x.noticed ≤ x.due + 5) →
          ts.map Tick.due = (List.range ts.length).map fun k => s + (k + 1) * (secs * 1000))) ∧
    (∀ (world : Unit) (main : Proc Unit Item Item) (n : Nat),
      (Scheduler.run n (Scheduler.launch world main)).Timely) ∧
    (∀ (sch : Scheduler Unit Item) (t fuel : Nat) (p : Proc Unit Item Item)
      (owned : List (Nat × Nat)), sch.Timely → (sch.step t fuel p owned).Timely) ∧
    (∀ (sch sch' : Scheduler Unit Item) (t i : Nat) (r : Woke Item), sch.Timely →
      sch.probe t (.timer i) = some (r, sch') →
      ∃ tm, sch.timers[i]? = some tm ∧ tm.deadline ≤ sch.now) ∧
    (∀ (sch sch' : Scheduler Unit Item) (i : Nat) (tm : Timer), sch.park = some sch' →
      sch.timers[i]? = some tm → tm.Pending → sch'.now ≤ max sch.now tm.deadline)) :=
  ⟨runs_everyMinute, slices_follow_the_clock everyMinuteWiring .done runs_everyMinute⟩

end Mutation

end Campaign
