import Campaign.Async.Proc

/-! A routine is the program of one task written against two kinds of steps: pieces of its own
code, each a `Proc`, and calls to code that others supply, such as observers that are shown
an event or a stage set that is closed. A call names what is asked (`F β` asks for an answer
of type `β`), not how it is done: `toProc` fills every call in with the code that performs it.

Keeping calls apart is what lets a run of the task be read at the level its author wrote it:
the events shown to observers are the calls that show them, whatever the observers do.
-/

namespace Campaign

namespace Async

/-- A task program with calls `F` to code it does not own, over shared state `ω` and channel
items `ν`, returning an `α`. -/
inductive Routine (F : Type → Type 1) (ω ν : Type) : Type → Type 1 where
  | pure {α : Type} (a : α) : Routine F ω ν α
  /-- A piece of the task's own code, then the rest as a function of its result. -/
  | run {α β : Type} (p : Proc ω ν β) (k : β → Routine F ω ν α) : Routine F ω ν α
  /-- A call, then the rest as a function of its answer. -/
  | call {α β : Type} (c : F β) (k : β → Routine F ω ν α) : Routine F ω ν α

namespace Routine

variable {F : Type → Type 1} {ω ν : Type}

/-- Continue every leaf of a routine with `f`. -/
def bind {α β : Type} : Routine F ω ν α → (α → Routine F ω ν β) → Routine F ω ν β
  | .pure a, f => f a
  | .run p k, f => .run p fun b => (k b).bind f
  | .call c k, f => .call c fun b => (k b).bind f

instance : Monad (Routine F ω ν) where
  pure := .pure
  bind := Routine.bind

@[simp] theorem pure_eq {α : Type} (a : α) : (Pure.pure a : Routine F ω ν α) = .pure a := rfl

@[simp] theorem bind_eq {α β : Type} (r : Routine F ω ν α) (f : α → Routine F ω ν β) :
    r >>= f = r.bind f := rfl

@[simp] theorem pure_bind {α β : Type} (a : α) (f : α → Routine F ω ν β) :
    (Routine.pure a).bind f = f a := rfl

/-- Run a piece of the task's own code. -/
def lift {β : Type} (p : Proc ω ν β) : Routine F ω ν β := .run p .pure

/-- Call code the task does not own. -/
def invoke {β : Type} (c : F β) : Routine F ω ν β := .call c .pure

@[simp] theorem lift_bind {α β : Type} (p : Proc ω ν β) (f : β → Routine F ω ν α) :
    (lift p).bind f = .run p f := rfl

@[simp] theorem invoke_bind {α β : Type} (c : F β) (f : β → Routine F ω ν α) :
    (invoke c).bind f = .call c f := rfl

/-- The task's program, each call filled in by `perform`. -/
def toProc (perform : {β : Type} → F β → Proc ω ν β) {α : Type} :
    Routine F ω ν α → Proc ω ν α
  | .pure a => .pure a
  | .run p k => p.bind fun b => (k b).toProc perform
  | .call c k => (perform c).bind fun b => (k b).toProc perform

end Routine

end Async

end Campaign
