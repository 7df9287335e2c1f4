import Campaign.Mutation.Run
import Campaign.Proofs.Async.Channels

/-! The automator is the sender of its mutant stream and the receiver of its kill input, and
nothing more: whatever it does to a channel is a sender's operation on the stream, or a
receiver's on the kill input. Before anything else it offers the mutant under test, waiting
for room on the stream or for its context to end.
-/

namespace Campaign

namespace Mutation

open Async

variable {ω ν : Type}

/-- What the automator may do to a channel: a sender's operation on its stream, or a
receiver's on its kill input. -/
def Wiring.Feeds (w : Wiring) (a : Act ν) : Prop :=
  (a.channel = w.out ∧ a.sends) ∨ (some a.channel = w.kills ∧ a.receives)

variable {w : Wiring} {item : Mutant → ν}

/-- Draining the kill input keeps to whatever its receives keep to; by induction on the fuel. -/
theorem drainKills_only {P : Effect ω ν → Prop} (k : Nat) (recv : ∀ r, P (.await [.recv k] 0 r))
    (fuel : Nat) : (drainKills k fuel : Proc ω ν Unit).Only P := by
  induction fuel with
  | zero => exact .pure _
  | succ fuel ih =>
    refine .bind (.bind (.wait recv) fun _ => ?_) fun _ => ?_
    · split <;> exact .pure _
    · split
      · exact ih
      · exact .pure _

section Feeds

/-- An order that works on no channel. -/
theorem quiet_feeds {o : Order ν} (quiet : ∀ r, o.act r = none)
    : (Proc.ask o : Proc ω ν _).Only (Effect.ActsWithin w.Feeds) :=
  .ask (Effect.actsWithin_order fun r a ha => by rw [quiet r] at ha; cases ha)

theorem now_feeds : (Proc.now : Proc ω ν Nat).Only (Effect.ActsWithin w.Feeds) :=
  .bind (quiet_feeds fun _ => rfl) fun _ => .pure _

theorem dropKills_feeds {k : Nat} (hk : some k = w.kills)
    : (Proc.dropReceiver k : Proc ω ν Unit).Only (Effect.ActsWithin w.Feeds) :=
  .bind (.ask (Effect.actsWithin_order fun _ a ha => by cases ha; exact .inr ⟨hk, trivial⟩))
    fun _ => .pure _

theorem dropStream_feeds
    : (Proc.dropSender w.out : Proc ω ν Unit).Only (Effect.ActsWithin w.Feeds) :=
  .bind (.ask (Effect.actsWithin_order fun _ a ha => by cases ha; exact .inl ⟨rfl, trivial⟩))
    fun _ => .pure _

/-- Offering waits for the context's end or for room on the stream. -/
theorem offerMutant_feeds (m : Mutant)
    : (offerMutant w item m : Proc ω ν Bool).Only (Effect.ActsWithin w.Feeds) := by
  refine .bind (.await (fun j r _ => Effect.actsWithin_await ?_ j r) fun _ _ => .pure _)
    fun _ => ?_
  · intro b hb r a ha
    simp only [List.mem_cons, List.not_mem_nil, or_false] at hb
    rcases hb with rfl | rfl <;> cases r <;> cases ha
    exact .inl ⟨rfl, trivial⟩
  · split <;> exact .pure _

/-- Draining the kill input receives from it and nothing else. -/
theorem drainKills_feeds {k : Nat} (hk : some k = w.kills) (fuel : Nat)
    : (drainKills k fuel : Proc ω ν Unit).Only (Effect.ActsWithin w.Feeds) := by
  refine drainKills_only k (fun r a ha => ?_) fuel
  cases r <;> cases ha
  exact .inr ⟨hk, trivial⟩

/-- The rotation loop keeps to the stream and to the kill input it still holds. -/
theorem rotationLoop_feeds {period : Option Nat} (fuel : Nat) (a : Automator)
    (kills : Option Nat) (ticker : Option Ticker) (held : kills = w.kills ∨ kills = none)
    : (rotationLoop w item period fuel a kills ticker : Proc ω ν _).Only
        (Effect.ActsWithin w.Feeds) := by
  induction fuel generalizing a kills ticker with
  | zero => exact .pure _
  | succ fuel ih =>
    unfold rotationLoop
    refine .bind (.await (fun j r _ => Effect.actsWithin_await ?_ j r) fun _ _ => .pure _)
      fun _ => ?_
    · -- the loop waits for the context, the kill input and the ticker
      intro b hb r act hact
      simp only [List.mem_cons, List.not_mem_nil, or_false] at hb
      rcases hb with rfl | rfl | rfl
      · cases r <;> cases hact
      · cases kills with
        | none => cases r <;> cases hact
        | some k =>
          cases r <;> cases hact
          exact .inr ⟨held.resolve_right nofun, trivial⟩
      · cases ticker <;> cases r <;> cases hact
    · split
      · -- a kill: the next mutant is offered, then the ticker restarts
        dsimp only
        refine .bind (offerMutant_feeds _) fun _ => ?_
        split
        · exact .pure _
        · split
          · exact .bind now_feeds fun _ => .bind (quiet_feeds fun _ => rfl) fun _ =>
              .bind (.pure _) fun _ => ih _ _ _ held
          · exact .bind (.pure _) fun _ => ih _ _ _ held
      · -- the kill input ended, and is let go
        split
        · exact .bind (dropKills_feeds (held.resolve_right nofun)) fun _ => ih _ _ _ (.inr rfl)
        · exact ih _ _ _ (.inr rfl)
      · -- a tick: the ticker moves on, then the next mutant is offered
        dsimp only
        have offered : ∀ ticker', (offerMutant w item a.rotate.current >>= fun ok =>
            if (!ok) = true then pure kills
            else rotationLoop w item period fuel a.rotate kills ticker' : Proc ω ν _).Only
              (Effect.ActsWithin w.Feeds) := fun _ =>
          .bind (offerMutant_feeds _) fun _ => by
            split
            · exact .pure _
            · exact ih _ _ _ held
        split
        · exact .bind now_feeds fun _ => .bind (quiet_feeds fun _ => rfl) fun _ =>
            .bind (.pure _) fun _ => offered _
        · exact .bind (.pure _) fun _ => offered _
      · exact .pure _

/-- The rotation loop hands back the kill input it was given, or none once it let go of it. -/
theorem rotationLoop_yields {period : Option Nat} (fuel : Nat) (a : Automator)
    (kills : Option Nat) (ticker : Option Ticker) (held : kills = w.kills ∨ kills = none)
    : (rotationLoop w item period fuel a kills ticker : Proc ω ν _).Yields
        fun k => k = w.kills ∨ k = none := by
  induction fuel generalizing a kills ticker with
  | zero => exact .pure held
  | succ fuel ih =>
    unfold rotationLoop
    refine .bind (.any _) fun _ _ => ?_
    split
    · dsimp only
      refine .bind (.any _) fun _ _ => ?_
      split
      · exact .pure held
      · split
        · exact .bind (.any _) fun _ _ => .bind (.any _) fun _ _ => .bind (.any _) fun _ _ =>
            ih _ _ _ held
        · exact .bind (.any _) fun _ _ => ih _ _ _ held
    · split
      · exact .bind (.any _) fun _ _ => ih _ _ _ (.inr rfl)
      · exact ih _ _ _ (.inr rfl)
    · dsimp only
      have offered : ∀ ticker', (offerMutant w item a.rotate.current >>= fun ok =>
          if (!ok) = true then pure kills
          else rotationLoop w item period fuel a.rotate kills ticker' : Proc ω ν _).Yields
            fun k => k = w.kills ∨ k = none := fun _ =>
        .bind (.any _) fun _ _ => by
          split
          · exact .pure held
          · exact ih _ _ _ held
      split
      · exact .bind (.any _) fun _ _ => .bind (.any _) fun _ _ => .bind (.any _) fun _ _ =>
          offered _
      · exact .bind (.any _) fun _ _ => offered _
    · exact .pure held

/-- Letting go, whatever the loop hands back: the kill input while it is still held, then the
stream. -/
theorem release_feeds {f : Option Nat → Proc ω ν ν} (kills : Option Nat)
    (held : kills = w.kills ∨ kills = none)
    (draining : ∀ k, some k = w.kills → (f (some k)).Only (Effect.ActsWithin w.Feeds))
    (dropping : (f none).Only (Effect.ActsWithin w.Feeds))
    : (f kills).Only (Effect.ActsWithin w.Feeds) := by
  cases kills with
  | some k => exact draining k (held.resolve_right nofun)
  | none => exact dropping

/-- Every operation of the automator on a channel is a sender's on its stream or a receiver's
on its kill input. -/
theorem automator_feeds (a : Automator) (result : ν)
    : (a.run w item result : Proc ω ν ν).Only (Effect.ActsWithin w.Feeds) := by
  have draining : ∀ k, some k = w.kills → (drainKills k loopFuel >>= fun _ =>
      Proc.dropReceiver k >>= fun _ => Proc.dropSender w.out >>= fun _ =>
        (pure result : Proc ω ν ν)).Only (Effect.ActsWithin w.Feeds) := fun _ hk =>
    .bind (drainKills_feeds hk _) fun _ => .bind (dropKills_feeds hk) fun _ =>
      .bind dropStream_feeds fun _ => .pure _
  have dropping : (Proc.dropSender w.out >>= fun _ =>
      (pure result : Proc ω ν ν)).Only (Effect.ActsWithin w.Feeds) :=
    .bind dropStream_feeds fun _ => .pure _
  unfold Automator.run
  refine .bind (offerMutant_feeds _) fun _ => ?_
  split
  · -- the first offer went through: rotate until the loop ends, then stop the ticker
    split
    · refine .bind now_feeds fun _ => .bind (quiet_feeds fun _ => rfl) fun _ =>
        .bind (.pure _) fun ticker => ?_
      refine .bind_yields (rotationLoop_feeds _ _ _ _ (.inl rfl))
        (rotationLoop_yields _ _ _ _ (.inl rfl)) fun kills held => ?_
      cases ticker with
      | some tk =>
        refine .bind (.bind (quiet_feeds fun _ => rfl) fun _ => .pure _) fun _ => ?_
        dsimp only
        apply release_feeds kills held <;> first | exact draining | exact dropping
      | none => apply release_feeds kills held <;> first | exact draining | exact dropping
    · refine .bind (.pure _) fun ticker => ?_
      refine .bind_yields (rotationLoop_feeds _ _ _ _ (.inl rfl))
        (rotationLoop_yields _ _ _ _ (.inl rfl)) fun kills held => ?_
      cases ticker with
      | some tk =>
        refine .bind (.bind (quiet_feeds fun _ => rfl) fun _ => .pure _) fun _ => ?_
        dsimp only
        apply release_feeds kills held <;> first | exact draining | exact dropping
      | none => apply release_feeds kills held <;> first | exact draining | exact dropping
  · refine .bind_yields (.pure _) (.pure (Q := fun k => k = w.kills ∨ k = none) (.inl rfl))
      fun kills held => ?_
    dsimp only
    apply release_feeds kills held <;> first | exact draining | exact dropping

end Feeds

/-! ## How the automator's waits end -/

/-- An offer's wait ends on the context or on room on the stream, each with its own kind of
answer. -/
theorem offerWaits_ends {v : ν} {j : Nat} {r : Woke ν}
    (ends : Wait.Ends [.done w.cx, .send w.out v] j r)
    : (∃ c, j = 0 ∧ r = .done c) ∨ (∃ ok, j = 1 ∧ r = .sent ok) := by
  obtain ⟨b, hb, fits⟩ := ends
  rcases j with _ | _ | j
  · cases hb
    cases r <;> simp_all [Wait.Fits]
  · cases hb
    cases r <;> simp_all [Wait.Fits]
  · simp at hb

/-- An offer is one wait: it ends with the context, delivering nothing, or with its send,
delivered or refused. -/
theorem runs_offerMutant_cases {m : Mutant} {es : List (Effect ω ν)} {ok : Bool}
    (h : (offerMutant w item m).Runs es ok)
    : (∃ c, es = [.await [.done w.cx, .send w.out (item m)] 0 (.done c)] ∧ ok = false)
      ∨ es = [.await [.done w.cx, .send w.out (item m)] 1 (.sent ok)] := by
  obtain ⟨selected, rest, x, rfl, hsel, hk⟩ := Proc.runs_bind_iff.mp h
  obtain ⟨j, v, ends, rfl, rfl⟩ := Proc.runs_select_iff.mp hsel
  rcases offerWaits_ends ends with ⟨c, rfl, rfl⟩ | ⟨sent, rfl, rfl⟩
  · obtain ⟨rfl, rfl⟩ := Proc.runs_pure_iff.mp hk
    exact .inl ⟨c, rfl, rfl⟩
  · obtain ⟨rfl, rfl⟩ := Proc.runs_pure_iff.mp hk
    exact .inr rfl

/-- The rotation loop's wait ends on the context, on the kill input while it is held, or on
the ticker while there is one, each with its own kind of answer. -/
theorem rotationWaits_ends (kills : Option Nat) (ticker : Option Ticker) {j : Nat}
    {v : Woke ν}
    (ends : Wait.Ends [.done w.cx, match kills with
        | some k => .recv k
        | none => .never, match ticker with
        | some tk => .timer tk.timer
        | none => .never] j v)
    : (∃ r, j = 0 ∧ v = .done r)
      ∨ (∃ k got, j = 1 ∧ kills = some k ∧ v = .received got)
      ∨ (∃ tk, j = 2 ∧ ticker = some tk ∧ v = .elapsed) := by
  obtain ⟨b, hb, fits⟩ := ends
  rcases j with _ | _ | _ | j
  · cases hb
    cases v <;> simp_all [Wait.Fits]
  · cases kills <;> cases hb <;> cases v <;> simp_all [Wait.Fits]
  · cases ticker <;> cases hb <;> cases v <;> simp_all [Wait.Fits]
  · simp at hb

/-- The automator's first step is the offer of the mutant under test: a wait for its context
to end or for room on the stream. -/
theorem automator_offers_first {a : Automator} {result y : ν} {es : List (Effect ω ν)}
    (h : (a.run w item result).Runs es y)
    : ∃ j r rest, es = .await [.done w.cx, .send w.out (item a.current)] j r :: rest
      ∧ Wait.Ends [.done w.cx, .send w.out (item a.current)] j r := by
  unfold Automator.run at h
  obtain ⟨first, more, offer, rfl, offered, -⟩ := Proc.runs_bind_iff.mp h
  obtain ⟨waited, rest, x, rfl, selected, -⟩ := Proc.runs_bind_iff.mp offered
  obtain ⟨j, r, ends, rfl, -⟩ := Proc.runs_select_iff.mp selected
  exact ⟨j, r, _, rfl, ends⟩

/-- The automator makes no channel. -/
theorem Wiring.Feeds.not_make {a : Act ν} (feeds : w.Feeds a) (c : Nat) : a ≠ .make c := by
  rintro rfl
  rcases feeds with ⟨-, made⟩ | ⟨-, made⟩ <;> exact False.elim made

/-- Each operation of a run of the automator on a channel is one it may do. -/
theorem automator_acts_feed {a : Automator} {result y : ν} {es : List (Effect ω ν)}
    (ran : (a.run w item result).Runs es y) : ∀ act ∈ es.filterMap Effect.act, w.Feeds act := by
  intro act hact
  obtain ⟨e, he, hact⟩ := List.mem_filterMap.mp hact
  exact automator_feeds a result es y ran e he act hact

/-- Unless its context ends first, the automator's first step is a send of the mutant under
test on its stream. -/
theorem automator_sends_first {a : Automator} {result y : ν} {es : List (Effect ω ν)}
    (ran : (a.run w item result).Runs es y)
    (offered : ∀ ws j r, es.head? ≠ some (.await ws j (.done r)))
    : ∃ ok rest, es = .await [.done w.cx, .send w.out (item a.current)] 1 (.sent ok) :: rest := by
  obtain ⟨j, r, rest, rfl, ends⟩ := automator_offers_first ran
  rcases offerWaits_ends ends with ⟨c, rfl, rfl⟩ | ⟨ok, rfl, rfl⟩
  · exact absurd rfl (offered _ _ _)
  · exact ⟨ok, rest, rfl⟩

/-- The first item taken from the stream is the mutant under test. The consumer made the
stream and received from it before doing anything else to it; the automator's first step was
a send of the mutant under test, and all it did to the stream afterwards was a sender's, as
its kill input is another channel. A history of the stream the channel allows then delivers
that send to that receive. -/
theorem first_receive_gets_current {a : Automator} {result y : ν} {es : List (Effect ω ν)}
    (ran : (a.run w item result).Runs es y)
    (offered : ∀ ws j r, es.head? ≠ some (.await ws j (.done r)))
    (apart : w.kills ≠ some w.out) {l₁ l : List (Act ν)} {got : Option ν}
    (own : l₁.filter (·.channel = w.out) = .make w.out :: .recv w.out got :: l)
    (between : Between w.out l₁ (es.filterMap Effect.act)) : got = some (item a.current) := by
  have feeds := automator_acts_feed ran
  obtain ⟨ok, rest, rfl⟩ := automator_sends_first ran offered
  have later : ∀ b ∈ (rest.filterMap Effect.act).filter (·.channel = w.out), b.sends := by
    intro b hb
    obtain ⟨hb, on⟩ := List.mem_filter.mp hb
    obtain ⟨e, he, hact⟩ := List.mem_filterMap.mp hb
    rcases feeds b (List.mem_filterMap.mpr ⟨e, List.mem_cons_of_mem _ he, hact⟩)
      with ⟨-, sends⟩ | ⟨kills, -⟩
    · exact sends
    · exact absurd (by rw [← kills, of_decide_eq_true on]) apart
  obtain ⟨h, merged, allowed⟩ := between
  rw [own] at merged
  simp only [List.filterMap_cons, Effect.act, List.getElem?_cons_succ, List.getElem?_cons_zero,
    Option.bind_some, Wait.act, List.filter_cons, Act.channel, decide_true, if_true] at merged
  exact (first_receive_takes_first_send merged later allowed).2

end Mutation

end Campaign
