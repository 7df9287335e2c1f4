import Campaign.Observer.Log
import Campaign.Observer.Stats
import Campaign.Error.Cause

/-! Instances report events through sinks; a forwarder collects what the sinks send, in the order
sent, and hands each message to every handler in turn. A sink forwards every message until it
forwards the message that closes its instance; after that it is closed and discards what it
is given. The handlers write the campaign log and the campaign statistics.
-/

namespace Campaign

/-- The handlers a forwarder feeds. -/
inductive Handler where
  /-- Appends to the campaign log. -/
  | log
  /-- Counts the statistics and writes them out. -/
  | stats
  deriving DecidableEq, Repr

/-- What the handlers produce: the log and the statistics. -/
structure Outputs where
  log : LogBook := {}
  stats : StatsPersister := {}
  deriving Repr

/-- Hand a message to a handler. -/
def Handler.dispatch (h : Handler) (m : Message) (o : Outputs) : Outputs :=
  match h with
  | .log => { o with log := o.log.onMessage m }
  | .stats => { o with stats := o.stats.handle m }

/-- Hand a message to every handler, in order. -/
def Outputs.dispatchAll (o : Outputs) (hs : List Handler) (m : Message) : Outputs :=
  hs.foldl (fun o h => h.dispatch m o) o

/-- Why a forwarder cannot be built. -/
inductive ForwardError where
  | zeroCapacity
  deriving DecidableEq, Repr

/-- The text of a forwarding failure. -/
def ForwardError.message : ForwardError → String
  | .zeroCapacity => "forward buffer capacity must be positive"

/-- The forwarder's settings: the room of its buffer and its handlers. -/
structure Forwarder where
  capacity : Nat
  handlers : List Handler
  deriving Repr

/-- The most room a bounded channel can be made with, `usize::MAX >> 3`; making one with more
panics. -/
def Forwarder.maxCapacity : Nat := Nat.pow 2 61 - 1

/-- The panic of making a channel with more room than `Forwarder.maxCapacity`. -/
def Forwarder.capacityPanic : String :=
  "a semaphore may not have more than MAX_PERMITS permits (2305843009213693951)"

/-- How building a forwarder fails: with its own error, or by the panic of the channel it
makes. -/
inductive ForwardFailure where
  | error (e : ForwardError)
  | panic (message : String)
  deriving DecidableEq, Repr

/-- A forwarder with a buffer of `capacity` messages; the buffer needs room for one. The zero
capacity is refused; a capacity above `maxCapacity` is not, and making its channel panics. -/
def Forwarder.create (capacity : Nat) (handlers : List Handler) :
    Except ForwardFailure Forwarder :=
  if capacity = 0 then .error (.error .zeroCapacity)
  else if maxCapacity < capacity then .error (.panic capacityPanic)
  else .ok ⟨capacity, handlers⟩

/-- Deliver messages, in order, to every handler; also count them. -/
def Forwarder.deliver (f : Forwarder) (o : Outputs) (ms : List Message) : Outputs × Nat :=
  (ms.foldl (fun o m => o.dispatchAll f.handlers m) o, ms.length)

/-- An instance's sink: its machine and whether it still forwards. -/
structure Sink where
  machine : MachineId
  isOpen : Bool := true
  deriving DecidableEq, Repr

/-- Give a message to a sink: the sink afterwards and the message it forwards, if any. The
closing message is forwarded and closes the sink. -/
def Sink.observe (s : Sink) (m : Message) : Sink × Option Message :=
  if !s.isOpen then (s, none)
  else if m.event.isClosed then ({ s with isOpen := false }, some m)
  else (s, some m)

end Campaign
