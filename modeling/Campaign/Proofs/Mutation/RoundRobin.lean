import Campaign.Proofs.Mutation.Rotation
import Campaign.Proofs.Async.Cancellation

/-! Whatever its period, its kills and the answers of its context and stream, the automator's
offers read as beats are the mutants of its rotation in order, each offer but the last
delivered and followed by exactly one turn (`RoundRobin`). For a configuration with `n` mutants
the `i`-th offer is of mutant `i % n` (`run_round_robin`).
-/

namespace Campaign

namespace Mutation

open Async

variable {ω : Type}

/-- How an offer of a mutant on the stream ended. -/
inductive Outcome where
  | delivered
  | refused
  | cancelled
  deriving DecidableEq, Repr

/-- How the offer's wait ended on branch `j` with answer `r`: the stream took the mutant or was
gone, or the context ended first. -/
def Outcome.of : Nat → Woke Item → Outcome
  | 1, .sent true => .delivered
  | 1, .sent false => .refused
  | _, _ => .cancelled

/-- What a run of the automator shows of its round robin. -/
inductive Beat where
  /-- An offer of a mutant on the stream, and how it ended. -/
  | offer (m : Mutant) (o : Outcome)
  /-- A kill or a tick: the turn to the next mutant. -/
  | turn
  /-- The loop saw its context end. -/
  | stop
  deriving DecidableEq, Repr

/-- The item a beat put on the stream: the mutant of a delivered offer. -/
def Beat.put : Beat → Option Item
  | .offer m .delivered => some (.mutant m)
  | _ => none

/-- The beat an offer's wait shows on branch `j` with answer `r`: the offer of a mutant on the
stream, and how it ended. -/
def Wiring.offerBeat (w : Wiring) : Wait Item → Nat → Woke Item → Option Beat
  | .send ch (.mutant m), j, r => if ch = w.out then some (.offer m (Outcome.of j r)) else none
  | _, _, _ => none

/-- The beat the loop's wait shows on branch `j` with answer `r`: the context's end, or a turn
on a kill received or a tick. -/
def loopBeat : Nat → Woke Item → Option Beat
  | 0, _ => some .stop
  | 1, .received (some _) => some .turn
  | 2, .elapsed => some .turn
  | _, _ => none

/-- The beat an effect of the automator wired to `w` shows: a wait for its context or for room
on the stream is an offer, and a wait for its context, a kill or a tick is the loop's. -/
def Wiring.beat (w : Wiring) : Effect ω Item → Option Beat
  | .await [.done cx, b] j r => if cx = w.cx then w.offerBeat b j r else none
  | .await [.done cx, _, _] j r => if cx = w.cx then loopBeat j r else none
  | _ => none

/-- The beats of a round robin that offered `ms` in turn: each offer but the last was
delivered and followed by one turn, and the last ended `last`. -/
def Beat.rounds : List Mutant → Outcome → List Beat
  | [], _ => []
  | [m], last => [.offer m last]
  | m :: m' :: ms, last => .offer m .delivered :: .turn :: rounds (m' :: ms) last

/-- `bs` are the beats of a round robin from `b`: the offers are those of the rotation from `b`,
each but the last delivered and followed by one turn, and the loop's end on its context may
follow only a delivered last offer. -/
def RoundRobin (b : Automator) (bs : List Beat) : Prop :=
  ∃ k last tail, bs = Beat.rounds (b.rotation (k + 1)) last ++ tail
    ∧ (tail = [] ∨ (tail = [.stop] ∧ last = .delivered))

theorem Automator.rotation_succ_cons (b : Automator) (k : Nat) :
    b.rotation (k + 1) = b.current :: b.rotate.rotation k := by
  simp only [Automator.rotation, List.range_succ_eq_map, List.map_cons, List.map_map]
  congr 1

namespace RoundRobin

/-- A single offer, however it ended, is a round robin. -/
theorem single (b : Automator) (o : Outcome) : RoundRobin b [.offer b.current o] :=
  ⟨0, o, [], rfl, .inl rfl⟩

/-- A delivered offer and the loop's end on its context. -/
theorem stopped (b : Automator) : RoundRobin b [.offer b.current .delivered, .stop] :=
  ⟨0, .delivered, [.stop], rfl, .inr ⟨rfl, rfl⟩⟩

/-- A delivered offer, a turn, and a round robin from the next mutant. -/
theorem turn {b : Automator} {bs : List Beat} (next : RoundRobin b.rotate bs) :
    RoundRobin b (.offer b.current .delivered :: .turn :: bs) := by
  obtain ⟨k, last, tail, rfl, ended⟩ := next
  refine ⟨k + 1, last, tail, ?_, ended⟩
  rw [Automator.rotation_succ_cons b (k + 1), Automator.rotation_succ_cons b.rotate k]
  rfl

end RoundRobin

/-! ## What each part of a run shows -/

/-- An effect puts on a channel exactly the item its beat puts on the stream. -/
def Wiring.Shows (w : Wiring) (e : Effect ω Item) : Prop :=
  e.act.bind Act.put = (w.beat e).bind Beat.put

/-- An effect that shows no beat and puts nothing on any channel. -/
def Wiring.Quiet (w : Wiring) (e : Effect ω Item) : Prop :=
  w.beat e = none ∧ e.act.bind Act.put = none

/-- The effects `es` show the beats `bs`, and each puts on a channel what its beat puts. -/
def Wiring.Shown (w : Wiring) (es : List (Effect ω Item)) (bs : List Beat) : Prop :=
  es.filterMap w.beat = bs ∧ ∀ e ∈ es, w.Shows e

variable {w : Wiring}

theorem Wiring.Quiet.shows {e : Effect ω Item} (quiet : w.Quiet e) : w.Shows e := by
  rw [Wiring.Shows, quiet.1, quiet.2]
  rfl

theorem Wiring.Shown.nil : w.Shown ([] : List (Effect ω Item)) [] :=
  ⟨rfl, fun e mem => by cases mem⟩

/-- One effect shows its own beat. -/
theorem Wiring.Shown.single {e : Effect ω Item} (shows : w.Shows e) :
    w.Shown [e] (w.beat e).toList := by
  refine ⟨?_, List.forall_mem_singleton.mpr shows⟩
  cases h : w.beat e
  · rw [List.filterMap_cons_none h]
    rfl
  · rw [List.filterMap_cons_some h]
    rfl

/-- Effects one after the other show their beats one after the other. -/
theorem Wiring.Shown.append {es es' : List (Effect ω Item)} {bs bs' : List Beat}
    (first : w.Shown es bs) (second : w.Shown es' bs') : w.Shown (es ++ es') (bs ++ bs') :=
  ⟨by rw [List.filterMap_append, first.1, second.1],
    List.forall_mem_append.mpr ⟨first.2, second.2⟩⟩

/-- What effects that show their beats put on channels are the delivered offers among their
beats. -/
theorem Wiring.Shown.puts {es : List (Effect ω Item)} {bs : List Beat} (shown : w.Shown es bs) :
    (es.filterMap Effect.act).filterMap Act.put = bs.filterMap Beat.put := by
  rw [← shown.1, List.filterMap_filterMap, List.filterMap_filterMap]
  exact List.filterMap_congr shown.2

/-- A run of a part made of quiet effects shows no beat. -/
theorem quiet_runs {α : Type} {p : Proc ω Item α} (quiet : p.Only w.Quiet)
    {es : List (Effect ω Item)} {a : α} (ran : p.Runs es a) : w.Shown es [] :=
  ⟨List.filterMap_eq_nil_iff.mpr fun e mem => (quiet es a ran e mem).1,
    fun e mem => (quiet es a ran e mem).shows⟩

theorem quiet_ask {o : Order Item} (nothing : ∀ r, (o.act r).bind Act.put = none) :
    (Proc.ask o : Proc ω Item _).Only w.Quiet :=
  .ask fun r => ⟨rfl, nothing r⟩

/-- Draining the kill input shows nothing: its receives are no beats and put nothing. -/
theorem drainKills_silent (k fuel : Nat) : (drainKills k fuel : Proc ω Item Unit).Only w.Quiet :=
  drainKills_only k (fun r => ⟨rfl, by cases r <;> rfl⟩) fuel

/-- An offer's wait shows the offer of its mutant, ended as its branch and answer say. -/
theorem beat_offerWait (m : Mutant) (j : Nat) (r : Woke Item) :
    w.beat (.await [.done w.cx, .send w.out (.mutant m)] j r : Effect ω Item) =
      some (Beat.offer m (Outcome.of j r)) := by
  show (if w.cx = w.cx then w.offerBeat (.send w.out (.mutant m)) j r else none) = _
  rw [if_pos rfl]
  show (if w.out = w.out then some (Beat.offer m (Outcome.of j r)) else none) = _
  rw [if_pos rfl]

/-- An offer shows one beat, the offer of its mutant, delivered exactly when the offer
returns true; what it puts on the stream is that mutant when delivered. -/
theorem offerMutant_shown {m : Mutant} {es : List (Effect ω Item)} {ok : Bool}
    (h : (offerMutant w Item.mutant m).Runs es ok) :
    ∃ o, w.Shown es [.offer m o] ∧ (ok = true ↔ o = .delivered) := by
  -- the one wait shows the offer, and puts the mutant on the stream as the offer's beat does
  have shown : ∀ j v o, Outcome.of j v = o →
      (Effect.await [.done w.cx, .send w.out (.mutant m)] j v : Effect ω Item).act.bind Act.put
        = (Beat.offer m o).put →
      w.Shown ([.await [.done w.cx, .send w.out (.mutant m)] j v] : List (Effect ω Item))
        [.offer m o] := by
    intro j v o outcome puts
    have single := Wiring.Shown.single (w := w)
      (e := (.await [.done w.cx, .send w.out (.mutant m)] j v : Effect ω Item))
      (by rw [Wiring.Shows, beat_offerWait, outcome]; exact puts)
    rwa [beat_offerWait, outcome] at single
  rcases runs_offerMutant_cases h with ⟨c, rfl, rfl⟩ | rfl
  · -- the context ended first: the offer is cancelled
    exact ⟨.cancelled, shown _ _ _ rfl rfl, by simp⟩
  · cases ok
    · exact ⟨.refused, shown _ _ _ rfl rfl, by simp⟩
    · exact ⟨.delivered, shown _ _ _ rfl rfl, by simp⟩

/-- Reading the clock shows nothing. -/
theorem now_silent : (Proc.now : Proc ω Item Nat).Only w.Quiet :=
  .bind (quiet_ask fun _ => rfl) fun _ => .pure _

/-- A wait that is no send puts nothing on a channel. -/
theorem put_of_not_send {b : Wait Item} (noSend : ∀ ch v, b ≠ .send ch v) (r : Woke Item) :
    (b.act r).bind Act.put = none := by
  cases b <;> cases r <;> first | rfl | exact absurd rfl (noSend _ _)

theorem beat_loopWait (kw tw : Wait Item) (j : Nat) (r : Woke Item) :
    w.beat (.await [.done w.cx, kw, tw] j r : Effect ω Item) = loopBeat j r := by
  simp [Wiring.beat]

/-- The loop's wait puts nothing on a channel, and its beat puts nothing on the stream. -/
theorem loopWait_shows {kw tw : Wait Item} (kill : ∀ ch v, kw ≠ .send ch v)
    (tick : ∀ ch v, tw ≠ .send ch v) (j : Nat) (r : Woke Item) :
    w.Shows (.await [.done w.cx, kw, tw] j r : Effect ω Item) := by
  have heard : (loopBeat j r).bind Beat.put = none := by
    unfold loopBeat
    split <;> rfl
  rw [Wiring.Shows, beat_loopWait, heard]
  show ([Wait.done w.cx, kw, tw][j]?.bind (·.act r)).bind Act.put = none
  rcases j with _ | _ | _ | j
  · rfl
  · exact put_of_not_send kill r
  · exact put_of_not_send tick r
  · rfl

/-- The loop's wait shows the loop's beat. -/
theorem loopWait_shown {kw tw : Wait Item} (kill : ∀ ch v, kw ≠ .send ch v)
    (tick : ∀ ch v, tw ≠ .send ch v) (j : Nat) (r : Woke Item) :
    w.Shown [(.await [.done w.cx, kw, tw] j r : Effect ω Item)] (loopBeat j r).toList := by
  have shown := Wiring.Shown.single (loopWait_shows (w := w) (ω := ω) kill tick j r)
  rwa [beat_loopWait] at shown

/-- Reading the clock and giving an order that puts nothing, as the ticker does when it is made
or moves on, shows nothing before what follows. -/
theorem clocked_runs {α : Type} {o : Nat → Order Item} {K : Nat → Reply Item → Proc ω Item α}
    {es : List (Effect ω Item)} {y : α} (noPut : ∀ n r, ((o n).act r).bind Act.put = none)
    (h : (Proc.now >>= fun now => Proc.ask (o now) >>= fun r => K now r).Runs es y) :
    ∃ quiet rest now r, es = quiet ++ rest ∧ w.Shown quiet [] ∧ (K now r).Runs rest y := by
  obtain ⟨clock, more, now, rfl, hnow, hmore⟩ := Proc.runs_bind_iff.mp h
  obtain ⟨reset, rest, r, rfl, hreset, hrest⟩ := Proc.runs_bind_iff.mp hmore
  have silent : w.Shown (clock ++ reset) [] :=
    (quiet_runs now_silent hnow).append (quiet_runs (quiet_ask (noPut now)) hreset)
  exact ⟨clock ++ reset, rest, now, r, (List.append_assoc _ _ _).symm, silent, hrest⟩

/-- A turn of the loop offers the next mutant, and only a delivered offer lets the loop go on,
as `next`: a round robin from the mutant before, whether the offer ended the loop or not. -/
theorem turn_shown {b : Automator} {kills : Option Nat} {next : Proc ω Item (Option Nat)}
    {es : List (Effect ω Item)} {y : Option Nat}
    (h : (offerMutant w Item.mutant b.rotate.current >>= fun ok =>
      if (!ok) = true then pure kills else next).Runs es y)
    (going : ∀ {es y}, next.Runs es y →
      ∃ bs, RoundRobin b.rotate (.offer b.rotate.current .delivered :: bs) ∧ w.Shown es bs) :
    ∃ bs, RoundRobin b (.offer b.current .delivered :: .turn :: bs) ∧ w.Shown es bs := by
  obtain ⟨offered, more, ok, rfl, hoffer, hnext⟩ := Proc.runs_bind_iff.mp h
  obtain ⟨o, shown, delivered⟩ := offerMutant_shown hoffer
  cases ok
  · -- the offer was refused or cancelled: the loop ends
    obtain ⟨rfl, -⟩ := Proc.runs_pure_iff.mp hnext
    exact ⟨_, .turn (.single b.rotate o), by rwa [List.append_nil]⟩
  · obtain rfl := delivered.mp rfl
    obtain ⟨bs, round, rest⟩ := going hnext
    exact ⟨_, .turn round, shown.append rest⟩

/-- The rotation loop's wait, on the context, the kill input while it is held and the ticker
while there is one, shows the loop's beat. -/
theorem rotationLoop_waitShown (kills : Option Nat) (ticker : Option Ticker) (j : Nat)
    (v : Woke Item) :
    w.Shown [(Effect.await [.done w.cx, match kills with
        | some k => .recv k
        | none => .never, match ticker with
        | some tk => .timer tk.timer
        | none => .never] j v : Effect ω Item)] (loopBeat j v).toList :=
  loopWait_shown (by cases kills <;> simp) (by cases ticker <;> simp) j v

/-- The rotation loop after the mutant of `b` was delivered shows a round robin from `b`: the
end of its context, or a turn on a kill or a tick followed at once by the offer of the next
mutant, the loop going on from there only when that offer was delivered. By induction on the
fuel, one case per branch of the loop's wait. -/
theorem rotationLoop_shown {period : Option Nat} (fuel : Nat) {b : Automator}
    {kills : Option Nat} {ticker : Option Ticker} {es : List (Effect ω Item)} {y : Option Nat}
    (h : (rotationLoop w Item.mutant period fuel b kills ticker).Runs es y) :
    ∃ bs, RoundRobin b (.offer b.current .delivered :: bs) ∧ w.Shown es bs := by
  induction fuel generalizing b kills ticker es y with
  | zero =>
    obtain ⟨rfl, -⟩ := Proc.runs_pure_iff.mp h
    exact ⟨[], .single b .delivered, .nil⟩
  | succ fuel ih =>
    unfold rotationLoop at h
    dsimp only at h
    obtain ⟨selected, rest, x, rfl, hsel, hk⟩ := Proc.runs_bind_iff.mp h
    obtain ⟨j, v, ends, rfl, rfl⟩ := Proc.runs_select_iff.mp hsel
    have waited := rotationLoop_waitShown (w := w) (ω := ω) kills ticker
    rcases rotationWaits_ends _ _ ends with ⟨r, rfl, rfl⟩ | ⟨k, got, rfl, rfl, rfl⟩
      | ⟨tk, rfl, rfl, rfl⟩
    · -- the context ended: the loop stops
      obtain ⟨rfl, -⟩ := Proc.runs_pure_iff.mp hk
      exact ⟨[.stop], .stopped b, by rw [List.append_nil]; exact waited 0 _⟩
    · cases got with
      | some signal =>
        -- a kill: the next mutant is offered at once, and once it was delivered the ticker,
        -- when there is one, reads the clock and is reset before the loop goes on
        obtain ⟨bs, round, shown⟩ := turn_shown hk fun hnext => by
          split at hnext
          · obtain ⟨quiet, looped, now, r, rfl, silent, hloop⟩ :=
              clocked_runs (fun _ _ => rfl) hnext
            obtain ⟨bs, round, shown⟩ := ih hloop
            exact ⟨bs, round, silent.append shown⟩
          · exact ih hnext
        exact ⟨.turn :: bs, round, (waited 1 _).append shown⟩
      | none =>
        -- the kill input ended: it is let go of, and the loop goes on without it
        obtain ⟨dropped, looped, u, rfl, hdrop, hloop⟩ := Proc.runs_bind_iff.mp hk
        obtain ⟨r, rfl⟩ := Proc.runs_dropReceiver_iff.mp hdrop
        obtain ⟨bs, round, shown⟩ := ih hloop
        have letGo : w.Shown [(.order (.dropReceiver k) r : Effect ω Item)] [] :=
          .single (e := .order (.dropReceiver k) r) rfl
        exact ⟨bs, round, (waited 1 _).append (letGo.append shown)⟩
    · -- a tick: the ticker moves on, then the next mutant is offered
      have retimed : ∃ quiet offering, rest = quiet ++ offering ∧ w.Shown quiet []
          ∧ ∃ t, (offerMutant w Item.mutant b.rotate.current >>= fun ok =>
            if (!ok) = true then pure kills
            else rotationLoop w Item.mutant period fuel b.rotate kills t).Runs offering y := by
        simp only at hk
        split at hk
        · obtain ⟨quiet, offering, now, r, rfl, silent, hoffer⟩ := clocked_runs (fun _ _ => rfl) hk
          exact ⟨quiet, offering, rfl, silent, _, hoffer⟩
        · exact ⟨[], rest, rfl, .nil, _, hk⟩
      obtain ⟨quiet, offering, rfl, silent, t, hnext⟩ := retimed
      obtain ⟨bs, round, shown⟩ := turn_shown hnext fun hloop => ih hloop
      exact ⟨.turn :: bs, round, (waited 2 _).append (silent.append shown)⟩

/-- An order that puts nothing, given for its effect alone, shows nothing. -/
theorem order_silent {o : Order Item} (nothing : ∀ r, (o.act r).bind Act.put = none) :
    (Proc.ask o >>= fun _ => (pure () : Proc ω Item Unit)).Only w.Quiet :=
  .bind (quiet_ask nothing) fun _ => .pure _

/-- Letting go of the kill input and of the stream shows nothing. -/
theorem release_silent (kills : Option Nat) (result : Item) :
    (match kills with
      | some k => do
        drainKills k loopFuel
        Proc.dropReceiver k
        Proc.dropSender w.out
        pure result
      | none => do
        Proc.dropSender w.out
        pure result : Proc ω Item Item).Only w.Quiet := by
  cases kills with
  | some k =>
    exact .bind (drainKills_silent k _) fun _ => .bind (order_silent fun _ => rfl) fun _ =>
      .bind (order_silent fun _ => rfl) fun _ => .pure _
  | none => exact .bind (order_silent fun _ => rfl) fun _ => .pure _

/-- A run of the automator shows a round robin from the automator it started as: the first
offer, then, when it was delivered, the rotation loop; making and dropping the ticker and
letting go show nothing. -/
theorem run_shown {a : Automator} {result y : Item} {es : List (Effect ω Item)}
    (h : (a.run w Item.mutant result).Runs es y) :
    ∃ bs, RoundRobin a bs ∧ w.Shown es bs := by
  unfold Automator.run at h
  obtain ⟨offered, rest, ok, rfl, hoffer, h⟩ := Proc.runs_bind_iff.mp h
  obtain ⟨o, shown, delivered⟩ := offerMutant_shown hoffer
  cases ok
  · -- the first offer was not delivered: letting go shows nothing more
    simp only [Bool.false_eq_true, if_false] at h
    exact ⟨_, .single a o, shown.append (quiet_runs (release_silent w.kills result) h)⟩
  · -- delivered: the period's timer is made, the loop runs, and the rest shows nothing
    obtain rfl := delivered.mp rfl
    simp only [if_true] at h
    have looped : ∃ quiet more tail t kills, rest = quiet ++ (more ++ tail) ∧ w.Shown quiet []
        ∧ (rotationLoop w Item.mutant (a.period.map (· * 1000)) loopFuel a w.kills t).Runs more
          kills
        ∧ w.Shown tail [] := by
      split at h
      · obtain ⟨quiet, rest', now, r, rfl, silent, h⟩ := clocked_runs (fun _ _ => rfl) h
        obtain ⟨_, h', t, rfl, hpure, h⟩ := Proc.runs_bind_iff.mp h
        obtain ⟨rfl, rfl⟩ := Proc.runs_pure_iff.mp hpure
        obtain ⟨more, tail, kills, rfl, hloop, htail⟩ := Proc.runs_bind_iff.mp h
        exact ⟨quiet, more, tail, _, kills, rfl, silent, hloop, quiet_runs
          (.bind (order_silent fun _ => rfl) fun _ => release_silent kills result) htail⟩
      · obtain ⟨_, h', t, rfl, hpure, h⟩ := Proc.runs_bind_iff.mp h
        obtain ⟨rfl, rfl⟩ := Proc.runs_pure_iff.mp hpure
        obtain ⟨more, tail, kills, rfl, hloop, htail⟩ := Proc.runs_bind_iff.mp h
        exact ⟨[], more, tail, _, kills, rfl, .nil, hloop,
          quiet_runs (release_silent kills result) htail⟩
    obtain ⟨quiet, more, tail, t, kills, rfl, silent, hloop, tailSilent⟩ := looped
    obtain ⟨bs, round, loopShown⟩ := rotationLoop_shown _ hloop
    have all := shown.append (silent.append (loopShown.append tailSilent))
    rw [List.append_nil] at all
    exact ⟨_, round, all⟩

/-- What a round robin puts on the stream: its delivered offers, so every offered mutant but a
last one that was not delivered. -/
theorem Beat.rounds_puts : ∀ (ms : List Mutant) (last : Outcome),
    (Beat.rounds ms last).filterMap Beat.put
      = (if last = .delivered then ms else ms.dropLast).map Item.mutant
  | [], last => by simp [Beat.rounds]
  | [m], last => by cases last <;> simp [Beat.rounds, Beat.put]
  | m :: m' :: ms, last => by
    have first : (Beat.offer m .delivered).put = some (.mutant m) := rfl
    have turned : Beat.turn.put = none := rfl
    rw [Beat.rounds, List.filterMap_cons_some first, List.filterMap_cons_none turned,
      Beat.rounds_puts (m' :: ms) last]
    by_cases delivered : last = .delivered <;> simp [delivered]

theorem Automator.ofConfig_ok {c : Config} {a : Automator} (built : Automator.ofConfig c = .ok a) :
    a.mutants = c.mutants ∧ a.slot = 0 ∧ 0 < c.mutants.length := by
  unfold Automator.ofConfig at built
  split at built
  · cases built
  · rename_i nonempty
    cases built
    exact ⟨rfl, rfl, List.length_pos_iff.mpr nonempty⟩

/-- The rotation from an automator whose slot is in range reads the mutants from its slot on,
round the list. -/
theorem Automator.rotation_map_some (a : Automator) (inside : a.slot < a.mutants.length)
    (n : Nat) : (a.rotation n).map some
      = (List.range n).map fun i => a.mutants[(a.slot + i) % a.mutants.length]? := by
  simp only [Automator.rotation, List.map_map]
  refine List.map_congr_left fun i _ => ?_
  have within : (a.slot + i) % a.mutants.length < a.mutants.length := Nat.mod_lt _ (by omega)
  simp [Automator.iterate_rotate_current a inside, List.getD_eq_getElem?_getD,
    List.getElem?_eq_getElem within]

/-- Every run of an automator built from a configuration with mutants `M` of length `n`,
whatever its kills, ticks and stream and whenever its context ends: it offers `M[0]`,
`M[1 % n]`, `M[2 % n]`, … in turn, each offer but the last delivered and followed by exactly one
turn, and it may see its context end in its loop only after a delivered last offer; what it puts
on any channel is exactly the delivered mutants; and the slot it reads stays below `n`. Its
offers wait on the end of its context first, and on the scheduler such a wait ends on that
branch as soon as the context is done, so nothing is delivered once it is. -/
theorem run_round_robin {c : Config} {a : Automator} (built : Automator.ofConfig c = .ok a)
    (w : Wiring) (result : Item) {es : List (Effect ω Item)} {y : Item}
    (ran : (a.run w Item.mutant result).Runs es y) :
    (∀ i, (Automator.rotate^[i] a).slot < c.mutants.length) ∧
    ∃ (offered : List Mutant) (last : Outcome) (tail : List Beat),
      0 < offered.length
      ∧ offered.map some
        = (List.range offered.length).map (fun i => c.mutants[i % c.mutants.length]?)
      ∧ es.filterMap w.beat = Beat.rounds offered last ++ tail
      ∧ (tail = [] ∨ (tail = [.stop] ∧ last = .delivered))
      ∧ (es.filterMap Effect.act).filterMap Act.put
        = (if last = .delivered then offered else offered.dropLast).map Item.mutant
      ∧ ∀ (s : Scheduler ω Item) (t fuel : Nat) (ws : List (Wait Item))
          (k : Nat → Woke Item → Proc ω Item Item) (owned : List (Nat × Nat)) (r : Cancelled),
          s.errOf w.cx = some r →
          s.step t (fuel + 1) (.await (.done w.cx :: ws) k) owned
            = (s.disarmAll t (.done w.cx :: ws) owned).step t fuel (k 0 (.done r)) [] := by
  obtain ⟨mutants, start, nonempty⟩ := Automator.ofConfig_ok built
  have inside : a.slot < a.mutants.length := by
    rw [mutants, start]
    exact nonempty
  obtain ⟨bs, round, shown⟩ := run_shown ran
  obtain ⟨k, last, tail, rfl, ended⟩ := round
  refine ⟨fun i => ?_, a.rotation (k + 1), last, tail, by simp [Automator.rotation], ?_, shown.1,
    ended, ?_, fun s t fuel ws k owned r done => Scheduler.step_await_done_first done⟩
  · -- the slot moves on round the list
    rw [Automator.iterate_rotate_slot a inside, ← mutants]
    exact Nat.mod_lt _ (by omega)
  · rw [Automator.rotation_map_some a inside, mutants, start]
    simp [Automator.rotation]
  · -- a stop puts nothing, so the puts are those of the offers
    have stopPut : tail.filterMap Beat.put = [] := by
      rcases ended with rfl | ⟨rfl, -⟩ <;> rfl
    rw [shown.puts, List.filterMap_append, stopPut, List.append_nil, Beat.rounds_puts]

/-- Mutants 3 and 4, rotated on kills. -/
def killedTwice : Config := { enabled := true, ranges := [⟨3, some 5⟩], auto := { changeKill := true } }

/-- The automator of `killedTwice`. -/
def killedTwiceAutomator : Automator := ⟨[⟨3⟩, ⟨4⟩], 0, none, true⟩

/-- The automator's stream is channel 1, its kill input channel 7. -/
def killedTwiceWiring : Wiring := ⟨1, some 7, .background⟩

/-- A run of the automator: mutant 3 is delivered, a kill comes, mutant 4 is delivered, the
context ends, and the automator drains its kill input and lets go. -/
def killedTwiceRun : List (Effect ω Item) :=
  [.await [.done .background, .send 1 (.mutant ⟨3⟩)] 1 (.sent true),
   .await [.done .background, .recv 7, .never] 1 (.received (some .kill)),
   .await [.done .background, .send 1 (.mutant ⟨4⟩)] 1 (.sent true),
   .await [.done .background, .recv 7, .never] 0 (.done .cancelled),
   .await [.recv 7] 0 (.received none),
   .order (.dropReceiver 7) .unit,
   .order (.dropSender 1) .unit]

theorem runs_killedTwice :
    (killedTwiceAutomator.run killedTwiceWiring Item.mutant .done).Runs
      (killedTwiceRun : List (Effect ω Item)) .done :=
  .await 1 (.sent true) (by exact ⟨_, rfl, trivial⟩) <|
  .await 1 (.received (some Item.kill)) (by exact ⟨_, rfl, trivial⟩) <|
  .await 1 (.sent true) (by exact ⟨_, rfl, trivial⟩) <|
  .await 0 (.done .cancelled) (by exact ⟨_, rfl, trivial⟩) <|
  .await 0 (.received none) (by exact ⟨_, rfl, trivial⟩) <|
  .order .unit <| .order .unit <| .pure _

/-- The run of `killedTwice` shows mutant 3 delivered, a turn, mutant 4 delivered, and the
loop's end on its context. -/
example : (killedTwiceRun : List (Effect Unit Item)).filterMap killedTwiceWiring.beat
    = [.offer ⟨3⟩ .delivered, .turn, .offer ⟨4⟩ .delivered, .stop] := by decide

theorem run_round_robin_killedTwice :
    Automator.ofConfig killedTwice = .ok killedTwiceAutomator
    ∧ (killedTwiceAutomator.run killedTwiceWiring Item.mutant .done).Runs
        (killedTwiceRun : List (Effect Unit Item)) .done
    ∧ ((∀ i, (Automator.rotate^[i] killedTwiceAutomator).slot < killedTwice.mutants.length) ∧
      ∃ (offered : List Mutant) (last : Outcome) (tail : List Beat),
        0 < offered.length
        ∧ offered.map some = (List.range offered.length).map
            (fun i => killedTwice.mutants[i % killedTwice.mutants.length]?)
        ∧ (killedTwiceRun : List (Effect Unit Item)).filterMap killedTwiceWiring.beat
          = Beat.rounds offered last ++ tail
        ∧ (tail = [] ∨ (tail = [.stop] ∧ last = .delivered))
        ∧ ((killedTwiceRun : List (Effect Unit Item)).filterMap Effect.act).filterMap Act.put
          = (if last = .delivered then offered else offered.dropLast).map Item.mutant
        ∧ ∀ (s : Scheduler Unit Item) (t fuel : Nat) (ws : List (Wait Item))
            (k : Nat → Woke Item → Proc Unit Item Item) (owned : List (Nat × Nat)) (r : Cancelled),
            s.errOf killedTwiceWiring.cx = some r →
            s.step t (fuel + 1) (.await (.done killedTwiceWiring.cx :: ws) k) owned
              = (s.disarmAll t (.done killedTwiceWiring.cx :: ws) owned).step t fuel
                (k 0 (.done r)) []) :=
  ⟨rfl, runs_killedTwice, run_round_robin rfl killedTwiceWiring .done runs_killedTwice⟩

end Mutation

end Campaign
