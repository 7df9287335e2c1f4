import Campaign.Mutation.Automator
import Campaign.Async.Proc

/-! The automator as a task: it offers its first mutant, then rotates on each kill and each tick of
its period and offers the next one, waiting while the stream is full. When it stops it drains
its kill input until every kill sender is gone and drops both channel ends it holds.
-/

namespace Campaign

namespace Mutation

open Async

variable {ω ν : Type}

/-- The channel ends and context of a running automator: the channel it offers mutants on,
the kill channel whose receiver it holds, and the context that stops it. -/
structure Wiring where
  out : Nat
  kills : Option Nat
  cx : Context

/-- The period's timer and the deadline it is due at. -/
structure Ticker where
  timer : Nat
  due : Nat

/-- When the tick after one due at `due` and noticed at `now` is due: a period after `due`, or
a period after `now` when the tick was noticed more than 5 ms late. -/
def Ticker.following (period due now : Nat) : Nat :=
  if now > due + 5 then now + period else due + period

/-- How many waits an automator loop may go through. -/
def loopFuel : Nat := 1000000

/-- Offer a mutant, waiting for room; `false` when the context ends first or the consumer is
gone. -/
def offerMutant (w : Wiring) (item : Mutant → ν) (m : Mutant) : Proc ω ν Bool := do
  match ← Proc.select [.done w.cx, .send w.out (item m)] with
  | (_, .sent ok) => return ok
  | _ => return false

/-- Wait for kills and ticks, rotating on each, until the context ends or an offer fails.
Returns the kill input, which is gone once every kill sender has gone. -/
def rotationLoop (w : Wiring) (item : Mutant → ν) (period : Option Nat) :
    Nat → Automator → Option Nat → Option Ticker → Proc ω ν (Option Nat)
  | 0, _, kills, _ => return kills
  | fuel + 1, a, kills, ticker => do
    let killWait : Wait ν := match kills with
      | some k => .recv k
      | none => .never
    let tickWait : Wait ν := match ticker with
      | some tk => .timer tk.timer
      | none => .never
    match ← Proc.select [.done w.cx, killWait, tickWait] with
    | (1, .received (some _)) =>
      let a := a.rotate
      if !(← offerMutant w item a.current) then return kills
      let ticker ← match ticker, period with
        | some tk, some p => do
          let now ← Proc.now
          let _ ← Proc.ask (.resetTimer tk.timer (now + p) true)
          pure (some { tk with due := now + p })
        | _, _ => pure ticker
      rotationLoop w item period fuel a kills ticker
    | (1, _) =>
      match kills with
      | some k => do
        Proc.dropReceiver k
        rotationLoop w item period fuel a none ticker
      | none => rotationLoop w item period fuel a none ticker
    | (2, _) => do
      let ticker ← match ticker, period with
        | some tk, some p => do
          let now ← Proc.now
          let next := Ticker.following p tk.due now
          let _ ← Proc.ask (.resetTimer tk.timer next false)
          pure (some { tk with due := next })
        | _, _ => pure ticker
      let a := a.rotate
      if !(← offerMutant w item a.current) then return kills
      rotationLoop w item period fuel a kills ticker
    | _ => return kills

/-- Receive kills until every kill sender is gone. -/
def drainKills (k : Nat) : Nat → Proc ω ν Unit
  | 0 => return ()
  | fuel + 1 => do
    match ← Proc.recv k with
    | some _ => drainKills k fuel
    | none => return ()

/-- The automator's task: `item` makes a channel item of a mutant, and the task ends with
`result`. -/
def Automator.run (a : Automator) (w : Wiring) (item : Mutant → ν) (result : ν) :
    Proc ω ν ν := do
  let period := a.period.map (· * 1000)
  let kills ← if ← offerMutant w item a.current then do
      let ticker ← match period with
        | some p => do
          let now ← Proc.now
          let t ← Proc.ask (.timer (now + p))
          pure (some { timer := t.asId, due := now + p : Ticker })
        | none => pure none
      let kills ← rotationLoop w item period loopFuel a w.kills ticker
      match ticker with
      | some tk => Proc.dropTimer tk.timer
      | none => pure ()
      pure kills
    else pure w.kills
  match kills with
  | some k => do
    drainKills k loopFuel
    Proc.dropReceiver k
  | none => pure ()
  Proc.dropSender w.out
  return result

/-- Signal a kill to the automator, unless the context ends first. -/
def signalKill (kills : Nat) (cx : Context) (kill : ν) : Proc ω ν Unit := do
  let _ ← Proc.select [.done cx, .send kills kill]
  return ()

end Mutation

end Campaign
