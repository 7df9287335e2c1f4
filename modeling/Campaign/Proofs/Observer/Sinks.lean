import Campaign.Observer.Delivery
import Campaign.Proofs.Async.Fanin
import Campaign.Proofs.Async.Lives

/-! What a sink does on the forwarder's channel: its user mints it, gives it messages and may drop
it, and each touch finds its slot as the user left it (`Slot.track`). Over a session it makes
one sender, sends exactly the messages up to the first closing one, and lets go of the sender
once after them if it closed or was dropped (`lives_session`).
-/

namespace Campaign

open Async

/-- The operation on a channel a lived step performs, if any. -/
def Async.Lived.act {ω ν : Type} (l : Lived ω ν) : Option (Act ν) := l.erase.act

@[simp] theorem Async.Lived.act_effect {ω ν : Type} (e : Effect ω ν) : (Lived.effect e).act = e.act :=
  rfl

@[simp] theorem Async.Lived.act_touched {ω ν : Type} (w w' : ω) : (Lived.touched w w' : Lived ω ν).act = none :=
  rfl

namespace Forwarder

variable {ω : Type}

/-! ## Messages up to the closing one -/

/-- Whether a run of messages holds one that closes its instance. -/
def closes (ms : List Message) : Bool := ms.any (·.event.isClosed)

/-- The messages up to and including the first that closes its instance. -/
def throughClosed : List Message → List Message
  | [] => []
  | m :: ms => if m.event.isClosed then [m] else m :: throughClosed ms

@[simp] theorem closes_nil : closes [] = false := rfl

@[simp] theorem closes_cons (m : Message) (ms : List Message)
    : closes (m :: ms) = (m.event.isClosed || closes ms) := rfl

@[simp] theorem throughClosed_nil : throughClosed [] = [] := rfl

theorem throughClosed_cons (m : Message) (ms : List Message)
    : throughClosed (m :: ms) = if m.event.isClosed then [m] else m :: throughClosed ms := rfl

/-! ## The slot of a sink -/

/-- A slot is lawful when taking the sender out leaves none held. -/
def Slot.Lawful (slot : Slot ω) : Prop := ∀ w, slot.held (slot.take w) = false

/-- The slot as a run leaves it, when every touch of the run finds the slot as the run's
previous touch left it and the first finds it `b`; `none` when a touch finds it otherwise. -/
def Slot.track (slot : Slot ω) : Bool → List (Lived ω Item) → Option Bool
  | b, [] => some b
  | b, .effect _ :: ls => slot.track b ls
  | b, .touched w w' :: ls => if slot.held w = b then slot.track (slot.held w') ls else none

/-- Tracking a run is tracking its first part, then the rest from where the first left it,
by induction on the first part. -/
theorem Slot.track_append (slot : Slot ω) (b : Bool) (l₁ l₂ : List (Lived ω Item))
    : slot.track b (l₁ ++ l₂) = (slot.track b l₁).bind (slot.track · l₂) := by
  induction l₁ generalizing b with
  | nil => rfl
  | cons l l₁ ih =>
    cases l with
    | effect e => exact ih b
    | touched w w' =>
      simp only [List.cons_append, track]
      split
      · exact ih _
      · rfl

/-- A run that tracks through two parts tracks through each. -/
theorem Slot.track_append_eq {slot : Slot ω} {b b' : Bool} {l₁ l₂ : List (Lived ω Item)}
    (tracked : slot.track b (l₁ ++ l₂) = some b') : ∃ b₁, slot.track b l₁ = some b₁ ∧ slot.track b₁ l₂ = some b' := by
  rw [track_append] at tracked
  exact Option.bind_eq_some_iff.mp tracked

/-! ## One call at a time -/

variable {tx : Nat} {slot : Slot ω}

/-- Giving a message to a sink whose slot its touch finds `b`. A held sender sends the
message, and the closing message takes it out of the slot and lets it go once sent. A sink
whose sender was taken does nothing on the channel. -/
theorem lives_observe {m : Message} {ls : List (Lived ω Item)} {b b' : Bool} (lawful : slot.Lawful)
    (h : ((sink tx slot).observe m).Lives ls ()) (tracked : slot.track b ls = some b')
    : b' = (b && !m.event.isClosed)
      ∧ ∃ ok, ls.filterMap Lived.act
        = if b then .send tx (.message m) ok :: if m.event.isClosed then [.dropSender tx] else []
          else [] := by
  obtain ⟨touched, rest, held, rfl, htouch, hrest⟩ := Proc.lives_bind_iff.mp h
  obtain ⟨w, rfl, rfl⟩ := Proc.lives_update_iff.mp htouch
  simp only [List.singleton_append, Slot.track] at tracked
  split at tracked
  case isFalse => cases tracked
  rename_i found
  rw [found] at hrest
  cases b with
  | false =>
    -- the sender was taken before: nothing happens
    obtain ⟨rfl, -⟩ := Proc.lives_pure_iff.mp hrest
    refine ⟨?_, true, by simp⟩
    simp only [Slot.track, Option.some.injEq] at tracked
    rw [← tracked]
    split
    · exact lawful w
    · exact found
  | true =>
    obtain ⟨sent, more, ok, rfl, hsend, hclose⟩ := Proc.lives_bind_iff.mp hrest
    rw [Proc.lives_send_iff] at hsend
    subst hsend
    by_cases closed : m.event.isClosed
    · -- the closing message: sent, then the sender let go of
      simp only [closed, ite_true] at hclose tracked
      obtain ⟨r, rfl⟩ := Proc.lives_dropSender_iff.mp hclose
      simp only [Slot.track, List.cons_append, List.nil_append, Option.some.injEq, lawful w]
        at tracked
      exact ⟨by simp [← tracked, closed], ok,
        by simp [List.filterMap_cons, Wait.act, Order.act, closed]⟩
    · simp only [closed, Bool.false_eq_true, ite_false] at hclose tracked
      obtain ⟨rfl, -⟩ := Proc.lives_pure_iff.mp hclose
      simp only [Slot.track, List.cons_append, List.nil_append, Option.some.injEq, found]
        at tracked
      exact ⟨by simp [← tracked, closed], ok, by simp [List.filterMap_cons, Wait.act, closed]⟩

/-- Dropping a sink lets go of the sender it still holds, and leaves none held. -/
theorem lives_abandon {ls : List (Lived ω Item)} {b b' : Bool} (lawful : slot.Lawful)
    (h : (sink tx slot).abandon.Lives ls ()) (tracked : slot.track b ls = some b')
    : b' = false ∧ ls.filterMap Lived.act = if b then [.dropSender tx] else [] := by
  obtain ⟨touched, rest, held, rfl, htouch, hrest⟩ := Proc.lives_bind_iff.mp h
  obtain ⟨w, rfl, rfl⟩ := Proc.lives_update_iff.mp htouch
  simp only [List.singleton_append, Slot.track] at tracked
  split at tracked
  case isFalse => cases tracked
  rename_i found
  rw [found] at hrest
  cases b with
  | false =>
    obtain ⟨rfl, -⟩ := Proc.lives_pure_iff.mp hrest
    simp only [Slot.track, Option.some.injEq, lawful w] at tracked
    exact ⟨tracked.symm, by simp⟩
  | true =>
    obtain ⟨r, rfl⟩ := Proc.lives_dropSender_iff.mp hrest
    simp only [Slot.track, Option.some.injEq, lawful w] at tracked
    exact ⟨tracked.symm, by simp [List.filterMap_cons, Order.act]⟩

/-- The sends of a sink, each with whether it was delivered. -/
def sends (tx : Nat) (sent : List (Message × Bool)) : List (Act Item) :=
  sent.map fun x => .send tx (.message x.1) x.2

@[simp] theorem sends_nil : sends tx [] = [] := rfl

@[simp] theorem sends_cons (x : Message × Bool) (sent : List (Message × Bool))
    : sends tx (x :: sent) = .send tx (.message x.1) x.2 :: sends tx sent := rfl

/-- Sends neither make a sender nor let one go. -/
@[simp] theorem sends_countP_makesSender (sent : List (Message × Bool))
    : (sends tx sent).countP Act.makesSender = 0 := by
  simp [sends, List.countP_map, Function.comp_def, Act.makesSender]

@[simp] theorem sends_countP_dropsSender (sent : List (Message × Bool))
    : (sends tx sent).countP Act.dropsSender = 0 := by
  simp [sends, List.countP_map, Function.comp_def, Act.dropsSender]

/-- Sends that all went through put in their messages, in order. -/
theorem sends_puts {sent : List (Message × Bool)} (through : ∀ x ∈ sent, x.2 = true)
    : (sends tx sent).filterMap Act.put = sent.map fun x => .message x.1 := by
  rw [sends, List.filterMap_map, ← List.filterMap_eq_map]
  exact List.filterMap_congr fun x mem => by simp [Act.put, through x mem]

/-- Giving a sink its messages in turn, from the slot `b`, by induction on the messages. A held
sender sends the messages through the first closing one, in order, and lets go once after
it. -/
theorem lives_observeAll (lawful : slot.Lawful)
    : ∀ {calls : List Message} {b b' : Bool} {ls : List (Lived ω Item)},
      (calls.forM (sink tx slot).observe).Lives ls () → slot.track b ls = some b'
      → b' = (b && !closes calls)
        ∧ ∃ sent : List (Message × Bool), sent.map (·.1) = (if b then throughClosed calls else [])
          ∧ ls.filterMap Lived.act
            = sends tx sent ++ if b && closes calls then [.dropSender tx] else [] := by
  intro calls
  induction calls with
  | nil =>
    intro b b' ls h tracked
    obtain ⟨rfl, -⟩ := Proc.lives_pure_iff.mp h
    simp only [Slot.track, Option.some.injEq] at tracked
    exact ⟨by simp [tracked], [], by simp, by simp⟩
  | cons m ms ih =>
    intro b b' ls h tracked
    obtain ⟨first, rest, u, rfl, hfirst, hrest⟩ := Proc.lives_bind_iff.mp h
    obtain ⟨b₁, tracked₁, tracked₂⟩ := Slot.track_append_eq tracked
    obtain ⟨rfl, ok, acts₁⟩ := lives_observe lawful hfirst tracked₁
    obtain ⟨rfl, sent, heads, acts₂⟩ := ih hrest tracked₂
    rw [List.filterMap_append, acts₁, acts₂]
    cases b with
    | false =>
      -- the sender was taken before: nothing more is sent
      obtain rfl : sent = [] := by simpa using heads
      exact ⟨by simp, [], by simp, by simp⟩
    | true =>
      by_cases closed : m.event.isClosed
      · obtain rfl : sent = [] := by simpa [closed] using heads
        exact ⟨by simp [closed], [(m, ok)], by simp [throughClosed_cons, closed],
          by simp [closed]⟩
      · refine ⟨by simp [closed], (m, ok) :: sent, ?_, by simp [closed]⟩
        simpa [throughClosed_cons, closed] using heads

/-- A user of the forwarder: it mints a sink, which holds a sender of its own, gives it its
messages in turn, and may drop it at the end. -/
def session (tx : Nat) (slot : Slot ω) (calls : List Message) (drops : Bool) : Proc ω Item Unit := do
  Proc.cloneSender tx
  calls.forM (sink tx slot).observe
  if drops then (sink tx slot).abandon

/-- A whole session on a slot of its own. The user makes its sender, sends the messages
through the first closing one, in order, and lets go of its sender after them exactly when
it closed or dropped the sink. -/
theorem lives_session {calls : List Message} {drops : Bool} {ls : List (Lived ω Item)}
    (lawful : slot.Lawful) (h : (session tx slot calls drops).Lives ls ())
    (own : slot.track true ls ≠ none)
    : ∃ sent : List (Message × Bool), sent.map (·.1) = throughClosed calls
      ∧ ls.filterMap Lived.act
        = .clone tx :: sends tx sent ++ if closes calls || drops then [.dropSender tx] else [] := by
  obtain ⟨b', tracked⟩ := Option.ne_none_iff_exists'.mp own
  obtain ⟨minted, rest, u, rfl, hmint, hrest⟩ := Proc.lives_bind_iff.mp h
  obtain ⟨r, rfl⟩ := Proc.lives_cloneSender_iff.mp hmint
  obtain ⟨observed, last, v, rfl, hobserve, hlast⟩ := Proc.lives_bind_iff.mp hrest
  simp only [List.singleton_append, Slot.track] at tracked
  obtain ⟨b₁, tracked₁, tracked₂⟩ := Slot.track_append_eq tracked
  obtain ⟨rfl, sent, heads, acts⟩ := lives_observeAll lawful hobserve tracked₁
  refine ⟨sent, by simpa using heads, ?_⟩
  simp only [List.filterMap_cons, List.filterMap_append, Lived.act_effect, Effect.act, Order.act,
    acts, Bool.true_and]
  cases drops with
  | false =>
    obtain ⟨rfl, -⟩ := Proc.lives_pure_iff.mp hlast
    simp
  | true =>
    -- dropping the sink lets go of the sender unless the closing message did
    obtain ⟨-, dropped⟩ := lives_abandon lawful hlast tracked₂
    cases hc : closes calls <;> simp [dropped, hc]

end Forwarder

end Campaign
