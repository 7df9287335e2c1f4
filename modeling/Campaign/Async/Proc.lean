import Campaign.Async.Context

/-! A cooperative task as the tree of its effects, each followed by the rest of the task as a
function of its answer: touching the shared state, an order the scheduler answers at once,
starting a task, and a biased wait on several things.
-/

namespace Campaign

namespace Async

/-- How a task that was waited for ended: with its result, aborted before it finished, or
panicked. -/
inductive Joined (ν : Type) where
  | value (v : ν)
  | aborted
  | panicked
  deriving Repr

/-- Something a task can wait for. -/
inductive Wait (ν : Type) where
  /-- The next item of a channel, or its end once every sender is gone. -/
  | recv (ch : Nat)
  /-- Room in a channel for one item, which is then sent. -/
  | send (ch : Nat) (item : ν)
  /-- A timer made with `Order.timer`, which keeps its place among timers across waits. -/
  | timer (t : Nat)
  /-- A time, with a timer that lives as long as this wait. -/
  | sleepUntil (deadline : Nat)
  /-- The end of a context: one of its signals raised, or its deadline passed. -/
  | done (cx : Context)
  /-- The end of a task. -/
  | join (task : Nat)
  /-- The end of a file operation, which runs away from the task thread. -/
  | file
  /-- The scheduler's next turn: the task lets every ready task run first. -/
  | yield
  /-- Nothing: never ready. -/
  | never

/-- How a wait ended. -/
inductive Woke (ν : Type) where
  /-- An item, or `none` when the channel has ended. -/
  | received (item : Option ν)
  /-- Whether the item was sent; it is not when the receiver is gone. -/
  | sent (ok : Bool)
  | elapsed
  | done (reason : Cancelled)
  | joined (outcome : Joined ν)
  | ready

/-- The outcome of offering an item without waiting. -/
inductive Offer where
  | sent
  | full
  | closed
  deriving DecidableEq, Repr

/-- The outcome of taking an item without waiting. -/
inductive Take (ν : Type) where
  | item (v : ν)
  | empty
  | closed

/-- A request the scheduler answers at once. -/
inductive Order (ν : Type) where
  | now
  /-- Move the clock forward. -/
  | advanceClock (ms : Nat)
  /-- A channel holding at most `capacity` items, with one sender and its receiver. -/
  | channel (capacity : Nat)
  | cloneSender (ch : Nat)
  | dropSender (ch : Nat)
  | dropReceiver (ch : Nat)
  | offer (ch : Nat) (item : ν)
  | take (ch : Nat)
  /-- A fresh cancellation signal, not raised. -/
  | signal
  | raise (s : Nat)
  | isRaised (s : Nat)
  /-- A timer due at `deadline`, armed when first waited for. -/
  | timer (deadline : Nat)
  /-- Give a timer a new deadline; it is armed again at once for the asking task when `arm`
  holds, and otherwise when it is next waited for. -/
  | resetTimer (t : Nat) (deadline : Nat) (arm : Bool)
  /-- Drop a timer: it is disarmed for good. -/
  | dropTimer (t : Nat)
  /-- Ask a task to stop at its next turn. -/
  | abort (task : Nat)
  /-- Whether a context is done, and why. -/
  | err (cx : Context)
  /-- End the asking task at once as panicked. -/
  | panic

/-- The scheduler's answer to an order. -/
inductive Reply (ν : Type) where
  | unit
  | id (n : Nat)
  | offered (o : Offer)
  | taken (t : Take ν)
  | ended (reason : Option Cancelled)
  | flag (b : Bool)

namespace Reply

variable {ν : Type}

/-- The number answered, `0` for any other answer. -/
def asId : Reply ν → Nat
  | .id n => n
  | _ => 0

/-- The offer's outcome, `closed` for any other answer. -/
def asOffer : Reply ν → Offer
  | .offered o => o
  | _ => .closed

/-- The take's outcome, `closed` for any other answer. -/
def asTake : Reply ν → Take ν
  | .taken t => t
  | _ => .closed

/-- The reason a context ended, `none` for any other answer. -/
def asEnded : Reply ν → Option Cancelled
  | .ended r => r
  | _ => none

/-- The truth answered, `false` for any other answer. -/
def asFlag : Reply ν → Bool
  | .flag b => b
  | _ => false

end Reply

/-- A task's program over shared state `ω`, with channel items and task results of type `ν`,
returning an `α`. -/
inductive Proc (ω ν : Type) : Type → Type 1 where
  | pure {α : Type} (a : α) : Proc ω ν α
  | touch {α β : Type} (f : ω → ω × β) (k : β → Proc ω ν α) : Proc ω ν α
  | order {α : Type} (o : Order ν) (k : Reply ν → Proc ω ν α) : Proc ω ν α
  | spawn {α : Type} (body : Proc ω ν ν) (k : Nat → Proc ω ν α) : Proc ω ν α
  | await {α : Type} (ws : List (Wait ν)) (k : Nat → Woke ν → Proc ω ν α) : Proc ω ν α

namespace Proc

variable {ω ν : Type}

/-- Continue every leaf of a program with `f`. -/
def bind {α β : Type} : Proc ω ν α → (α → Proc ω ν β) → Proc ω ν β
  | .pure a, f => f a
  | .touch g k, f => .touch g fun b => (k b).bind f
  | .order o k, f => .order o fun r => (k r).bind f
  | .spawn body k, f => .spawn body fun i => (k i).bind f
  | .await ws k, f => .await ws fun i w => (k i w).bind f

instance : Monad (Proc ω ν) where
  pure := .pure
  bind := Proc.bind

theorem pure_bind {α β : Type} (a : α) (f : α → Proc ω ν β) : (Proc.pure a).bind f = f a := rfl

theorem bind_pure {α : Type} (p : Proc ω ν α) : p.bind .pure = p := by
  induction p with
  | pure a => rfl
  | touch g k ih => exact congrArg (Proc.touch g) (funext ih)
  | order o k ih => exact congrArg (Proc.order o) (funext ih)
  | spawn body k _ ih => exact congrArg (Proc.spawn body) (funext ih)
  | await ws k ih => exact congrArg (Proc.await ws) (funext fun i => funext (ih i))

/-- Update the shared state. -/
def modify (f : ω → ω) : Proc ω ν Unit := .touch (fun w => (f w, ())) .pure

/-- Read the shared state. -/
def read {β : Type} (f : ω → β) : Proc ω ν β := .touch (fun w => (w, f w)) .pure

/-- Update the shared state and read something from it. -/
def update {β : Type} (f : ω → ω × β) : Proc ω ν β := .touch f .pure

/-- Ask the scheduler. -/
def ask (o : Order ν) : Proc ω ν (Reply ν) := .order o .pure

/-- The current time. -/
def now : Proc ω ν Nat := return (← ask (.now)).asId

/-- Wait for the first ready of several things: its place in the list and how it ended. -/
def select (ws : List (Wait ν)) : Proc ω ν (Nat × Woke ν) := .await ws fun i w => .pure (i, w)

/-- Wait for one thing. -/
def wait (w : Wait ν) : Proc ω ν (Woke ν) := .await [w] fun _ r => .pure r

/-- Sleep until a time. -/
def sleepUntil (deadline : Nat) : Proc ω ν Unit := do
  let _ ← wait (.sleepUntil deadline)
  return ()

/-- Sleep for some milliseconds. -/
def sleep (ms : Nat) : Proc ω ν Unit := do sleepUntil ((← now) + ms)

/-- Let every ready task run first. -/
def yieldNow : Proc ω ν Unit := do
  let _ ← wait .yield
  return ()

/-- Run a file operation: it takes no time on the clock, but the task gives way while it runs,
and its effect on the shared state lands when it completes. -/
def file {β : Type} (f : ω → ω × β) : Proc ω ν β := do
  let _ ← wait .file
  update f

/-- A timer due at `deadline`, armed when first waited for. -/
def timer (deadline : Nat) : Proc ω ν Nat := return (← ask (.timer deadline)).asId

/-- Drop a timer. -/
def dropTimer (t : Nat) : Proc ω ν Unit := do
  let _ ← ask (.dropTimer t)
  return ()

/-- A new channel of the given capacity. -/
def channel (capacity : Nat) : Proc ω ν Nat := return (← ask (.channel capacity)).asId

/-- Receive the next item of a channel, `none` once it has ended. -/
def recv (ch : Nat) : Proc ω ν (Option ν) := do
  match ← wait (.recv ch) with
  | .received v => return v
  | _ => return none

/-- Send an item, waiting for room; `false` when the receiver is gone. -/
def send (ch : Nat) (item : ν) : Proc ω ν Bool := do
  match ← wait (.send ch item) with
  | .sent ok => return ok
  | _ => return false

/-- Offer an item without waiting. -/
def offer (ch : Nat) (item : ν) : Proc ω ν Offer := return (← ask (.offer ch item)).asOffer

/-- Take an item without waiting. -/
def take (ch : Nat) : Proc ω ν (Take ν) := return (← ask (.take ch)).asTake

/-- Hold one more sender of a channel. -/
def cloneSender (ch : Nat) : Proc ω ν Unit := do
  let _ ← ask (.cloneSender ch)
  return ()

/-- Drop a sender of a channel. -/
def dropSender (ch : Nat) : Proc ω ν Unit := do
  let _ ← ask (.dropSender ch)
  return ()

/-- Drop the receiver of a channel. -/
def dropReceiver (ch : Nat) : Proc ω ν Unit := do
  let _ ← ask (.dropReceiver ch)
  return ()

/-- A fresh cancellation signal. -/
def signal : Proc ω ν Nat := return (← ask .signal).asId

/-- Raise a signal, cancelling every context it belongs to. -/
def raise (s : Nat) : Proc ω ν Unit := do
  let _ ← ask (.raise s)
  return ()

/-- Whether a context is done, and why. -/
def err (cx : Context) : Proc ω ν (Option Cancelled) := return (← ask (.err cx)).asEnded

/-- Wait until a context is done. -/
def done (cx : Context) : Proc ω ν Cancelled := do
  match ← wait (.done cx) with
  | .done r => return r
  | _ => return .cancelled

/-- Start a task. -/
def start (body : Proc ω ν ν) : Proc ω ν Nat := .spawn body .pure

/-- Wait for a task to end. -/
def join (task : Nat) : Proc ω ν (Joined ν) := do
  match ← wait (.join task) with
  | .joined o => return o
  | _ => return .aborted

/-- Ask a task to stop. -/
def abort (task : Nat) : Proc ω ν Unit := do
  let _ ← ask (.abort task)
  return ()

/-- Panic: the task ends at once, and those joining it see it panicked. What follows the order
never runs; the result only fills the type. -/
def panic {α : Type} [Inhabited α] : Proc ω ν α := do
  let _ ← ask .panic
  let _ ← wait .never
  return default

end Proc

end Async

end Campaign
