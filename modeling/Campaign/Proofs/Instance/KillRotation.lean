import Campaign.Proofs.Instance.Echoes
import Campaign.Proofs.Mutation.Rotation

/-! Kills rotate the mutant under test: over every interleaving of the instance, its automator and
the calls of its kill observer that the channels allow (`KillRun`), kills are heard in order,
each is answered by the next mutant, and the MutantChanged events carry the mutants in round
robin. Each party keeps to its part of the two channels (`Plays`), so the order a channel
keeps and the automator's rotation chain (`kills_rotate_mutants`).
-/

namespace Campaign

/-- Whether a message is an analysis that killed the mutant under test. -/
def Message.kills (msg : Message) : Bool :=
  match msg.event with
  | .analysis a => a.mutation.hasKills
  | _ => false

namespace Instance

open Async

variable {ω : Type}

/-! ## The kill observer -/

/-- The kill observer signals on exactly the messages that kill. -/
theorem observe_killObserver (k : Nat) (c : Context) (msg : Message)
    : (killObserver k c : Observer ω).observe msg
      = if msg.kills then Mutation.signalKill k c Item.kill else pure () := by
  obtain ⟨cyc, e⟩ := msg
  cases e <;> rfl

/-- What one call of the kill observer does with `msg`: on an analysis that killed the mutant
it waits to send one kill on `k`, and gives up only when `c` ends first; on anything else it
does nothing. It never offers, so a full channel holds the kill back and never drops it. -/
def Signals (k : Nat) (c : Context) (msg : Message) (es : List (Effect ω Item)) : Prop :=
  if msg.kills then
    (∃ ok, es = [.await [.done c, .send k .kill] 1 (.sent ok)])
      ∨ ∃ r, es = [.await [.done c, .send k .kill] 0 (.done r)]
  else es = []

theorem signals_killObserver {k : Nat} {c : Context} {msg : Message} {es : List (Effect ω Item)}
    (h : ((killObserver k c : Observer ω).observe msg).Runs es ()) : Signals k c msg es := by
  rw [observe_killObserver] at h
  unfold Signals
  cases kills : msg.kills with
  | false =>
    rw [kills] at h
    exact (Proc.runs_pure_iff.mp h).1
  | true =>
    rw [kills, if_pos rfl] at h
    obtain ⟨first, rest, x, rfl, selected, done⟩ := Proc.runs_bind_iff.mp h
    obtain ⟨j, w, ⟨b, hb, fits⟩, rfl, rfl⟩ := Proc.runs_select_iff.mp selected
    obtain ⟨rfl, -⟩ := Proc.runs_pure_iff.mp done
    -- the wait ends on the context, or on the send
    match j, hb with
    | 0, hb =>
      cases hb
      cases w with
      | done r => exact .inr ⟨r, rfl⟩
      | _ => cases fits
    | 1, hb =>
      cases hb
      cases w with
      | sent ok => exact .inl ⟨ok, rfl⟩
      | _ => cases fits

/-- A call of the kill observer does at most one operation, a send of a kill. -/
theorem Signals.acts {k : Nat} {c : Context} {msg : Message} {es : List (Effect ω Item)}
    (signals : Signals k c msg es) : ∀ a ∈ es.filterMap Effect.act, ∃ ok, a = .send k .kill ok := by
  intro a mem
  unfold Signals at signals
  split at signals
  · rcases signals with ⟨ok, rfl⟩ | ⟨r, rfl⟩
    · simp only [List.filterMap_cons, Effect.act_await, List.filterMap_nil] at mem
      exact ⟨ok, (List.mem_singleton.mp mem)⟩
    · cases mem
  · subst signals
    cases mem

/-! ## Who does what on the two channels -/

/-- Who did an operation of a kill-only run: the instance's own task, its automator, or the
`i`-th call of the kill observer. -/
inductive Agent
  | host
  | automator
  | observer (i : Nat)
  deriving DecidableEq

/-- What each party may do on the stream `out` and the kill channel `kr`. The instance puts
nothing in, and takes items only from the stream; the automator sends on the stream and
receives on the kill channel; a call of the kill observer sends a kill. -/
def Plays (out kr : Nat) : Agent × Act Item → Prop
  | (.host, a) => a.put = none ∧ ∀ v, a.got = some v → a.channel = out
  | (.automator, a) => (a.channel = out ∧ a.sends) ∨ (a.channel = kr ∧ a.receives)
  | (.observer _, a) => ∃ ok, a = .send kr .kill ok

theorem Act.got_of_sends {a : Act Item} (sends : a.sends) : a.got = none := by
  cases a <;> first | rfl | exact sends.elim

theorem Act.put_of_receives {a : Act Item} (receives : a.receives) : a.put = none := by
  cases a <;> first | rfl | exact receives.elim

section Plays

variable {out kr : Nat} {p : List (Agent × Act Item)}

/-- What the stream hands out goes to the instance. -/
theorem taken_of_plays (apart : kr ≠ out) (plays : ∀ x ∈ p, Plays out kr x)
    : (onChannel out p).filterMap Act.got = (sideOf .host p).filterMap Act.got := by
  refine filterMap_onChannel_eq_sideOf fun ⟨t, a⟩ mem yields => ?_
  obtain ⟨v, got⟩ := Option.isSome_iff_exists.mp yields
  cases t with
  | host => simpa using (plays _ mem).2 v got
  | automator =>
    rcases plays _ mem with ⟨-, sends⟩ | ⟨on, -⟩
    · rw [Act.got_of_sends sends] at got
      cases got
    · simp [on, apart]
  | observer i =>
    obtain ⟨ok, rfl⟩ := plays _ mem
    cases got

/-- What goes into the stream comes from the automator. -/
theorem delivered_of_plays (apart : kr ≠ out) (plays : ∀ x ∈ p, Plays out kr x)
    : (onChannel out p).filterMap Act.put = (sideOf .automator p).filterMap Act.put := by
  refine filterMap_onChannel_eq_sideOf fun ⟨t, a⟩ mem yields => ?_
  obtain ⟨v, put⟩ := Option.isSome_iff_exists.mp yields
  cases t with
  | host =>
    rw [(plays _ mem).1] at put
    cases put
  | automator =>
    rcases plays _ mem with ⟨on, -⟩ | ⟨-, receives⟩
    · simp [on]
    · rw [Act.put_of_receives receives] at put
      cases put
  | observer i =>
    obtain ⟨ok, rfl⟩ := plays _ mem
    simp [Act.channel, apart]

/-- What the kill channel hands out goes to the automator. -/
theorem heard_of_plays (apart : kr ≠ out) (plays : ∀ x ∈ p, Plays out kr x)
    : (onChannel kr p).filterMap Act.got = (sideOf .automator p).filterMap Act.got := by
  refine filterMap_onChannel_eq_sideOf fun ⟨t, a⟩ mem yields => ?_
  obtain ⟨v, got⟩ := Option.isSome_iff_exists.mp yields
  cases t with
  | host => simp [(plays _ mem).2 v got, Ne.symm apart]
  | automator =>
    rcases plays _ mem with ⟨-, sends⟩ | ⟨on, -⟩
    · rw [Act.got_of_sends sends] at got
      cases got
    · simp [on]
  | observer i =>
    obtain ⟨ok, rfl⟩ := plays _ mem
    cases got

end Plays

/-! ## Runs of a kill-only test -/

/-- The body of the first task a run spawned. -/
def firstTask : List (Step ω) → Option (Proc ω Item Item)
  | [] => none
  | .effect (.spawn body _) :: _ => some body
  | _ :: evs => firstTask evs

/-- A run of an instance with the parties that work on its two channels. The instance ran
`script` for `evs`; the first task it spawned, its automator, ran for `aes`; the `i`-th call of
the kill observer ran on the message of `calls[i]` for its effects, a kill observer that closes
a list of observers the instance shows its events to. `h` tags each channel operation with who
did it: each party's side is what its run did, no other task works on these channels, and every
channel allows its part of `h` from before it is made. -/
structure KillRun (files : Files ω) (inst : Instance ω) (cx : Context) (evs : List (Step ω))
    (aes : List (Effect ω Item)) (calls : List (Message × List (Effect ω Item)))
    (h : List (Agent × Act Item)) : Prop where
  host : ∃ x, (script files inst cx).Runs evs x
  automator : ∃ body y, firstTask evs = some body ∧ body.Runs aes y
  observer : ∀ (i : Nat) (msg : Message) (es : List (Effect ω Item)), calls[i]? = some (msg, es)
    → ∃ (obs : List (Observer ω)) (shown : Message) (ko : Observer ω),
      (.call (.emit (obs ++ [ko]) shown) () : Step ω) ∈ evs ∧ (ko.observe msg).Runs es ()
  host_side : sideOf .host h = evs.filterMap Routine.Event.act
  automator_side : sideOf .automator h = aes.filterMap Effect.act
  observer_side : ∀ (i : Nat) (msg : Message) (es : List (Effect ω Item)), calls[i]? = some (msg, es)
    → sideOf (.observer i) h = es.filterMap Effect.act
  tagged : ∀ x ∈ h, ∀ (i : Nat), x.1 = .observer i → i < calls.length
  allowed : ∀ ch, Line.Allows none (onChannel ch h)

section Run

variable {files : Files ω} {inst : Instance ω} {cx : Context} {evs : List (Step ω)}
  {aes : List (Effect ω Item)} {calls : List (Message × List (Effect ω Item))}
  {h : List (Agent × Act Item)} {out kr : Nat} {c : Context}

/-- Every call of the kill observer is a call of the one the instance registered. -/
theorem KillRun.signals (run : KillRun files inst cx evs aes calls h)
    (heeds : Heeds (inst.observers ++ [killObserver kr c]) out evs) (i : Nat) (msg : Message)
    (es : List (Effect ω Item)) (call : calls[i]? = some (msg, es)) : Signals kr c msg es := by
  obtain ⟨obs, shown, ko, mem, ran⟩ := run.observer i msg es call
  have registered : obs ++ [ko] = inst.observers ++ [killObserver kr c] := heeds.shows _ mem
  obtain ⟨-, last⟩ := List.append_inj' registered rfl
  rw [List.singleton_inj.mp last] at ran
  exact signals_killObserver ran

/-- Each party keeps to its part of the two channels. -/
theorem KillRun.plays (run : KillRun files inst cx evs aes calls h)
    (heeds : Heeds (inst.observers ++ [killObserver kr c]) out evs) {a : Mutation.Automator}
    {result y : Item} (ran : (a.run ⟨out, some kr, c⟩ Item.mutant result).Runs aes y)
    : ∀ x ∈ h, Plays out kr x := by
  rintro ⟨t, act⟩ mem
  have side := mem_sideOf mem
  cases t with
  | host =>
    rw [run.host_side] at side
    exact heeds.keeps act side
  | automator =>
    rw [run.automator_side] at side
    rcases Mutation.automator_acts_feed ran act side with ⟨on, sends⟩ | ⟨on, receives⟩
    · exact .inl ⟨on, sends⟩
    · exact .inr ⟨Option.some.inj on, receives⟩
  | observer i =>
    have below : i < calls.length := run.tagged _ mem i rfl
    have call : calls[i]? = some calls[i] := List.getElem?_eq_getElem below
    rw [run.observer_side i _ _ call] at side
    exact (run.signals heeds i _ _ call).acts act side

/-- The kill channel is not the stream: the instance makes one after the other, and a channel
is made once. -/
theorem KillRun.apart {rest : List (Act Item)} (run : KillRun files inst cx evs aes calls h)
    (opens : evs.filterMap Routine.Event.act = .make out :: .make kr :: rest) : kr ≠ out := by
  intro same
  subst same
  have within := sideOf_filter_sublist Agent.host kr h
  rw [run.host_side, opens] at within
  simp only [List.filter_cons, Act.channel, decide_true, if_true] at within
  exact (run.allowed kr).not_made_twice kr kr _ within

end Run

section Main

variable {files : Files ω} {inst : Instance ω} {cx : Context} {evs : List (Step ω)}
  {aes : List (Effect ω Item)} {calls : List (Message × List (Effect ω Item))}
  {h : List (Agent × Act Item)} {cfg : Mutation.Config}

theorem kills_rotate_mutants (config : inst.machine.initialPlan.mutation = some cfg)
    (enabled : cfg.enabled = true) (nonempty : cfg.mutants ≠ [])
    (killing : cfg.auto.changeKill = true) (untimed : cfg.auto.changeAfterSecs = 0)
    (run : KillRun files inst cx evs aes calls h)
    : ∃ (out kr : Nat) (c : Context),
      (∀ (obs : List (Observer ω)) (msg : Message), (.call (.emit obs msg) () : Step ω) ∈ evs
        → obs = inst.observers ++ [killObserver kr c])
      ∧ (∀ (i : Nat) (msg : Message) (es : List (Effect ω Item)), calls[i]? = some (msg, es)
        → Signals kr c msg es)
      ∧ (∀ p q, h = p ++ q →
          (sideOf .automator p).filterMap Act.got <+: (onChannel kr p).filterMap Act.put
          ∧ ((sideOf .automator p).filterMap Act.put).length
            ≤ ((sideOf .automator p).filterMap Act.got).length + 1
          ∧ (sideOf .host p).filterMap Act.got <+: (sideOf .automator p).filterMap Act.put)
      ∧ (∀ p v q, aes = p ++ .await [.done c, .recv kr, .never] 1 (.received (some v)) :: q →
          ∃ mu j o q', cfg.mutants[((p.filterMap Effect.act).filterMap Act.put).length
              % cfg.mutants.length]? = some mu
            ∧ q = .await [.done c, .send out (.mutant mu)] j o :: q')
      ∧ (evs.filterMap mutantOf).map Item.mutant = (sideOf .host h).filterMap Act.got
      ∧ ∀ k mu, (evs.filterMap mutantOf)[k]? = some mu
        → cfg.mutants[k % cfg.mutants.length]? = some mu := by
  obtain ⟨m₀, ms, expansion⟩ := List.exists_cons_of_ne_nil nonempty
  obtain ⟨x, hosted⟩ := run.host
  obtain ⟨out, kr, sig, t, rest, opening, heeds⟩ :=
    heeds_script config enabled expansion killing hosted
  -- the automator is the first task the instance spawned
  obtain ⟨body, y, first, ran⟩ := run.automator
  rw [opening] at first
  cases first
  have period : (firstAutomator cfg m₀ ms).period = none := by
    simp [firstAutomator, Mutation.AutoConfig.changeAfter, untimed]
  have rotates := Mutation.rotates_on_kills period ran
  -- each kill heard while the context lasts is answered at once by the next offer
  have answers : ∀ p v q, aes = p ++ .await [.done (cx.withSignal sig.asId), .recv kr.asId, .never]
        1 (.received (some v)) :: q →
      ∃ mu j o q', cfg.mutants[((p.filterMap Effect.act).filterMap Act.put).length
          % cfg.mutants.length]? = some mu
        ∧ q = .await [.done (cx.withSignal sig.asId), .send out.asId (.mutant mu)] j o :: q' := by
    intro p v q split
    obtain ⟨j, o, q', answer⟩ := Mutation.answers_run period ran p kr.asId v q split
    have slot := Mutation.Automator.getElem?_iterate_rotate (a := firstAutomator cfg m₀ ms)
      (by simp [firstAutomator]) (Mutation.deliveries p)
    exact ⟨_, j, o, q', by simpa [firstAutomator, expansion, Mutation.deliveries] using slot,
      answer⟩
  have apart : kr.asId ≠ out.asId := run.apart (by rw [opening]; rfl)
  have plays := run.plays heeds ran
  have chain : ∀ p q, h = p ++ q →
      (sideOf .automator p).filterMap Act.got <+: (onChannel kr.asId p).filterMap Act.put
      ∧ ((sideOf .automator p).filterMap Act.put).length
        ≤ ((sideOf .automator p).filterMap Act.got).length + 1
      ∧ (sideOf .host p).filterMap Act.got <+: (sideOf .automator p).filterMap Act.put := by
    intro p q split
    have playsBefore : ∀ x ∈ p, Plays out.asId kr.asId x :=
      fun x mem => plays x (split ▸ List.mem_append_left q mem)
    have allowed : ∀ ch, Line.Allows none (onChannel ch p ++ onChannel ch q) := fun ch => by
      rw [← onChannel_append, ← split]
      exact run.allowed ch
    refine ⟨?_, rotates.2 _ _ (by rw [← run.automator_side, split, sideOf_append]), ?_⟩
    · rw [← heard_of_plays apart playsBefore]
      exact (allowed kr.asId).taken_prefix_put
    · rw [← taken_of_plays apart playsBefore, ← delivered_of_plays apart playsBefore]
      exact (allowed out.asId).taken_prefix_put
  -- over the whole run, the instance took the first mutants the automator delivered
  obtain ⟨n, delivered⟩ := rotates.1
  rw [← run.automator_side] at delivered
  obtain ⟨L, whole⟩ : ∃ L, (sideOf .host h).filterMap Act.got
      = (((firstAutomator cfg m₀ ms).rotation n).take L).map Item.mutant := by
    have taken := (chain h [] (List.append_nil h).symm).2.2
    rw [delivered, List.prefix_iff_eq_take, ← List.map_take] at taken
    exact ⟨_, taken⟩
  have shown : evs.filterMap mutantOf = ((firstAutomator cfg m₀ ms).rotation n).take L := by
    rw [heeds.echoes, filterMap_takenMutant, ← run.host_side, whole, List.filterMap_map]
    exact List.filterMap_some
  refine ⟨out.asId, kr.asId, cx.withSignal sig.asId, fun obs msg mem => heeds.shows _ mem,
    run.signals heeds, chain, answers, by rw [shown, ← whole], fun k mu found => ?_⟩
  rw [shown, List.getElem?_take] at found
  split at found
  · have slot := Mutation.Automator.getElem?_rotation (a := firstAutomator cfg m₀ ms)
      (by simp [firstAutomator]) found
    simpa [firstAutomator, expansion] using slot
  · cases found

end Main

/-! ## A kill-only run -/

/-- The automator's side of the kill-only run: it delivers mutant 7, hears a kill and delivers
mutant 8 at once, is stopped, drains the kill input once every sender is gone, and lets go of
both channels. -/
def killingPairAutomating : List (Effect Tree Item) :=
  [.await [.done killingPairContext, .send 1 (.mutant ⟨7⟩)] 1 (.sent true),
    .await [.done killingPairContext, .recv 2, .never] 1 (.received (some .kill)),
    .await [.done killingPairContext, .send 1 (.mutant ⟨8⟩)] 1 (.sent true),
    .await [.done killingPairContext, .recv 2, .never] 0 (.done .cancelled),
    .await [.recv 2] 0 (.received none),
    .order (.dropReceiver 2) .unit,
    .order (.dropSender 1) .unit]

/-- An analysis of cycle 0 that killed mutant 7: one flagged compilation hit it. -/
def killingAnalysis : Message :=
  ⟨killingPair.stamp killingPairFirst,
    .analysis { mutation := ({} : Mutation.MutantAnalysis).register ⟨7⟩ "s" "c" 1 .flagged }⟩

/-- The one call of the kill observer, on that analysis: it sends a kill. -/
def killingPairCalls : List (Message × List (Effect Tree Item)) :=
  [(killingAnalysis, [.await [.done killingPairContext, .send 2 .kill] 1 (.sent true)])]

/-- The three parties' operations on the two channels, interleaved as the channels allow: the
kill comes while cycle 0 runs, and mutant 8 reaches the instance before cycle 0 ends. -/
def killingPairHistory : List (Agent × Act Item) :=
  [(.host, .make 1), (.host, .make 2), (.automator, .send 1 (.mutant ⟨7⟩) true),
    (.host, .recv 1 (some (.mutant ⟨7⟩))), (.host, .clone 2), (.observer 0, .send 2 .kill true),
    (.automator, .recv 2 (some .kill)), (.automator, .send 1 (.mutant ⟨8⟩) true),
    (.host, .recv 1 (some (.mutant ⟨8⟩))), (.host, .dropSender 2), (.host, .clone 2),
    (.host, .dropSender 2), (.host, .clone 2), (.host, .dropSender 2), (.host, .dropReceiver 1),
    (.host, .dropSender 2), (.automator, .recv 2 none), (.automator, .dropReceiver 2),
    (.automator, .dropSender 1)]

theorem runs_automator_killingPair : killingPairAutomator.Runs killingPairAutomating .done := by
  refine .await 1 (.sent true) ⟨_, rfl, trivial⟩ ?_
  -- the kill is heard, and mutant 8 offered at once
  refine .await 1 (.received (some Item.kill)) ⟨_, rfl, trivial⟩ ?_
  refine .await 1 (.sent true) ⟨_, rfl, trivial⟩ ?_
  -- the context ends; the kill input is drained and both channels let go of
  refine .await 0 (.done .cancelled) ⟨_, rfl, trivial⟩ ?_
  exact .await 0 (.received none) ⟨_, rfl, trivial⟩ (.order .unit (.order .unit (.pure _)))

/-- The stream and the kill input allow their parts of the history; no other channel has
one. -/
theorem allowed_killingPairHistory (ch : Nat)
    : Line.Allows none (onChannel ch killingPairHistory) := by
  by_cases stream : ch = 1
  · subst stream
    exact .cons .make (.cons (.sent rfl) (.cons .received (.cons (.sent rfl) (.cons .received
      (.cons .dropReceiver (.cons .dropSender .nil))))))
  by_cases kills : ch = 2
  · subst kills
    exact .cons .make (.cons (.clone Nat.one_pos) (.cons (.sent rfl) (.cons .received
      (.cons .dropSender (.cons (.clone Nat.one_pos) (.cons .dropSender (.cons (.clone Nat.one_pos)
      (.cons .dropSender (.cons .dropSender (.cons .ended (.cons .dropReceiver .nil)))))))))))
  have untouched : onChannel ch killingPairHistory = [] := by
    simp [onChannel, killingPairHistory, Act.channel, Ne.symm stream, Ne.symm kills]
  rw [untouched]
  exact .nil

theorem killRun_killingPair : KillRun Files.alone killingPair .background killingPairRun
    killingPairAutomating killingPairCalls killingPairHistory where
  host := ⟨_, runs_script_killingPair⟩
  automator := ⟨_, _, rfl, runs_automator_killingPair⟩
  observer := fun i msg es call => by
    cases i with
    | zero =>
      simp only [killingPairCalls, List.getElem?_cons_zero, Option.some.injEq, Prod.mk.injEq] at call
      obtain ⟨rfl, rfl⟩ := call
      -- the kill observer is the last observer of every event the instance shows
      refine ⟨[], ⟨killingPair.stamp killingPairFirst, .inst (.mutantChanged ⟨7⟩)⟩,
        killObserver 2 killingPairContext, ?_, .await 1 (.sent true) ⟨_, rfl, trivial⟩ (.pure _)⟩
      simp [killingPairRun, killingPairLived, killingPairEarly, killingPairObservers]
    | succ i => simp [killingPairCalls] at call
  host_side := rfl
  automator_side := rfl
  observer_side := fun i msg es call => by
    cases i with
    | zero =>
      simp only [killingPairCalls, List.getElem?_cons_zero, Option.some.injEq, Prod.mk.injEq] at call
      obtain ⟨rfl, rfl⟩ := call
      rfl
    | succ i => simp [killingPairCalls] at call
  tagged := by
    intro x mem i tag
    simp only [killingPairHistory, List.mem_cons, List.not_mem_nil, or_false] at mem
    rcases mem with rfl | rfl | rfl | rfl | rfl | rfl | rfl | rfl | rfl | rfl | rfl | rfl | rfl | rfl
      | rfl | rfl | rfl | rfl | rfl <;> cases tag
    simp [killingPairCalls]
  allowed := allowed_killingPairHistory

/-- In the kill-only run the kill observer is registered last; the one kill is heard and
answered at once by mutant 8, and the two MutantChanged carry mutants 7 and 8 in turn. -/
theorem kills_rotate_mutants_killingPair
    : KillRun Files.alone killingPair .background killingPairRun killingPairAutomating
        killingPairCalls killingPairHistory
      ∧ ∃ (out kr : Nat) (c : Context),
        (∀ (obs : List (Observer Tree)) (msg : Message),
          (.call (.emit obs msg) () : Step Tree) ∈ killingPairRun
          → obs = killingPair.observers ++ [killObserver kr c])
        ∧ (∀ (i : Nat) (msg : Message) (es : List (Effect Tree Item)),
          killingPairCalls[i]? = some (msg, es) → Signals kr c msg es)
        ∧ (∀ p q, killingPairHistory = p ++ q →
            (sideOf .automator p).filterMap Act.got <+: (onChannel kr p).filterMap Act.put
            ∧ ((sideOf .automator p).filterMap Act.put).length
              ≤ ((sideOf .automator p).filterMap Act.got).length + 1
            ∧ (sideOf .host p).filterMap Act.got <+: (sideOf .automator p).filterMap Act.put)
        ∧ (∀ p v q, killingPairAutomating
            = p ++ .await [.done c, .recv kr, .never] 1 (.received (some v)) :: q →
            ∃ mu j o q', killPair.mutants[((p.filterMap Effect.act).filterMap Act.put).length
                % killPair.mutants.length]? = some mu
              ∧ q = .await [.done c, .send out (.mutant mu)] j o :: q')
        ∧ (killingPairRun.filterMap mutantOf).map Item.mutant
          = (sideOf .host killingPairHistory).filterMap Act.got
        ∧ ∀ k mu, (killingPairRun.filterMap mutantOf)[k]? = some mu
          → killPair.mutants[k % killPair.mutants.length]? = some mu :=
  ⟨killRun_killingPair,
    kills_rotate_mutants rfl rfl (by decide) rfl rfl killRun_killingPair⟩

end Instance

end Campaign
