import Campaign.Instance.Env
import Campaign.Observer.Forward

/-! Delivering events through the forwarder's channel: each instance's sink sends every event,
waiting while the channel is full, and lets go of its sender after its instance closes. The
forwarder hands each message to its handlers until every sink has let go.
-/

namespace Campaign

open Async

namespace Forwarder

variable {ω : Type}

/-- Where a sink keeps its sender: whether it still holds it, and taking it out. -/
structure Slot (ω : Type) where
  held : ω → Bool
  take : ω → ω

/-- The sink of an instance on the forwarder's channel `tx`, keeping its sender in `slot`. The
closing message takes the sender out before it is sent, and the sender is let go of once it
is; a sink whose sender was taken discards what it is given. Dropping the sink lets go of the
sender it still holds. -/
def sink (tx : Nat) (slot : Slot ω) : Observer ω where
  observe msg := do
    let held ← Proc.update fun w =>
      (if msg.event.isClosed then slot.take w else w, slot.held w)
    if held then
      let _ ← Proc.send tx (.message msg)
      if msg.event.isClosed then Proc.dropSender tx
  abandon := do
    let held ← Proc.update fun w => (slot.take w, slot.held w)
    if held then Proc.dropSender tx

/-- How many messages the forwarder may deliver. -/
def deliveryFuel : Nat := 100000000

/-- Deliver the messages received on `rx` until the channel ends, counting from `n`. With no
fuel left it waits forever: it never ends before the channel does. -/
def deliverFrom (rx : Nat) (deliver : Message → ω → ω) : Nat → Nat → Proc ω Item Nat
  | 0, n => do
    let _ ← Proc.wait .never
    return n
  | fuel + 1, n => do
    match ← Proc.recv rx with
    | some (.message m) => do
      Proc.modify (deliver m)
      deliverFrom rx deliver fuel (n + 1)
    | some _ => deliverFrom rx deliver fuel n
    | none => return n

/-- The forwarder's task on channel `rx`, which was made holding the forwarder's own sender:
the number of messages delivered. -/
def run (rx : Nat) (deliver : Message → ω → ω) : Proc ω Item Nat := do
  Proc.dropSender rx
  deliverFrom rx deliver deliveryFuel 0

end Forwarder

end Campaign
