import Campaign.Proofs.Async.Runs

/-! Histories of a shared channel: the operations of the tasks that share it, each task's in its
own order, that the channel allows one at a time (`Between`). The fact such a history gives is
`first_receive_takes_first_send`.
-/

namespace Campaign

namespace Async

variable {ω ν : Type}

/-- An operation on a channel, with its answer. -/
inductive Act (ν : Type) where
  /-- The channel was made. -/
  | make (ch : Nat)
  /-- A send ended: the item was delivered, or the send was refused. -/
  | send (ch : Nat) (v : ν) (ok : Bool)
  | offer (ch : Nat) (v : ν) (o : Offer)
  /-- A receive ended: with an item, or with the channel's end. -/
  | recv (ch : Nat) (v : Option ν)
  | take (ch : Nat) (t : Take ν)
  | clone (ch : Nat)
  | dropSender (ch : Nat)
  | dropReceiver (ch : Nat)

namespace Act

/-- The channel an operation is on. -/
def channel : Act ν → Nat
  | .make ch | .send ch _ _ | .offer ch _ _ | .recv ch _ | .take ch _ | .clone ch
  | .dropSender ch | .dropReceiver ch => ch

/-- Whether an operation is one of a sender's: it puts items in, or holds or lets go of a
sender, and never takes an item out, ends the receiver or makes the channel. -/
def sends : Act ν → Prop
  | .send .. | .offer .. | .clone _ | .dropSender _ => True
  | _ => False

/-- Whether an operation is one of the receiver's: it takes an item out or lets go of the
receiver. -/
def receives : Act ν → Prop
  | .recv .. | .take .. | .dropReceiver _ => True
  | _ => False

end Act

/-- The operation on a channel that a wait ending on branch `w` with answer `r` performs. -/
def Wait.act : Wait ν → Woke ν → Option (Act ν)
  | .recv ch, .received v => some (.recv ch v)
  | .send ch v, .sent ok => some (.send ch v ok)
  | _, _ => none

/-- The operation on a channel that an order answered `r` performs. -/
def Order.act : Order ν → Reply ν → Option (Act ν)
  | .channel _, r => some (.make r.asId)
  | .offer ch v, r => some (.offer ch v r.asOffer)
  | .take ch, r => some (.take ch r.asTake)
  | .cloneSender ch, _ => some (.clone ch)
  | .dropSender ch, _ => some (.dropSender ch)
  | .dropReceiver ch, _ => some (.dropReceiver ch)
  | _, _ => none

/-- The operation on a channel an effect performs, if any. -/
def Effect.act : Effect ω ν → Option (Act ν)
  | .touch => none
  | .order o r => o.act r
  | .spawn _ _ => none
  | .await ws j w => ws[j]?.bind (·.act w)

namespace Effect

@[simp] theorem act_touch : (Effect.touch : Effect ω ν).act = none := rfl

@[simp] theorem act_order (o : Order ν) (r : Reply ν) : (Effect.order o r : Effect ω ν).act = o.act r :=
  rfl

@[simp] theorem act_spawn (body : Proc ω ν ν) (t : Nat) : (Effect.spawn body t).act = none := rfl

@[simp] theorem act_await (ws : List (Wait ν)) (j : Nat) (w : Woke ν)
    : (Effect.await ws j w : Effect ω ν).act = ws[j]?.bind (·.act w) := rfl

end Effect

/-- The operation on a channel a step of a routine performs. A call runs code the routine does
not own, and what that code does is not the routine's. -/
def Routine.Event.act {F : Type → Type 1} : Routine.Event F ω ν → Option (Act ν)
  | .effect e => e.act
  | .call _ _ => none

@[simp] theorem Routine.Event.act_effect {F : Type → Type 1} (e : Effect ω ν)
    : (Routine.Event.effect e : Routine.Event F ω ν).act = e.act := rfl

@[simp] theorem Routine.Event.act_call {F : Type → Type 1} {β : Type} (c : F β) (b : β)
    : (Routine.Event.call c b : Routine.Event F ω ν).act = none := rfl

/-- Every operation on a channel that the effect performs is `good`. -/
def Effect.ActsWithin (good : Act ν → Prop) (e : Effect ω ν) : Prop :=
  ∀ a, e.act = some a → good a

namespace Effect

variable {good : Act ν → Prop}

/-- An order works on channels as its answers say. -/
theorem actsWithin_order {o : Order ν} (orders : ∀ r a, o.act r = some a → good a) (r : Reply ν)
    : (Effect.order o r : Effect ω ν).ActsWithin good :=
  orders r

/-- A wait works on channels through the branch it ends on. -/
theorem actsWithin_await {ws : List (Wait ν)} (branches : ∀ b ∈ ws, ∀ r a, b.act r = some a → good a)
    (j : Nat) (r : Woke ν) : (Effect.await ws j r : Effect ω ν).ActsWithin good := by
  intro a ha
  obtain ⟨b, hb, hact⟩ := Option.bind_eq_some_iff.mp ha
  exact branches b (List.mem_of_getElem? hb) r a hact

end Effect

/-- A channel as its users find it: the items in it, its senders, and whether its receiver is
still there. -/
structure Line (ν : Type) where
  items : List ν
  senders : Nat
  receiving : Bool

namespace Line

/-- An operation a channel allows where it stands, and where it stands after; `none` is a
channel not made yet. -/
inductive Step : Option (Line ν) → Act ν → Option (Line ν) → Prop
  | make {ch : Nat} : Step none (.make ch) (some ⟨[], 1, true⟩)
  | sent {l : Line ν} {ch : Nat} {v : ν} (receiving : l.receiving = true) :
      Step (some l) (.send ch v true) (some { l with items := l.items ++ [v] })
  | refused {l : Line ν} {ch : Nat} {v : ν} (gone : l.receiving = false) :
      Step (some l) (.send ch v false) (some l)
  | offered {l : Line ν} {ch : Nat} {v : ν} (receiving : l.receiving = true) :
      Step (some l) (.offer ch v .sent) (some { l with items := l.items ++ [v] })
  | full {l : Line ν} {ch : Nat} {v : ν} (receiving : l.receiving = true) :
      Step (some l) (.offer ch v .full) (some l)
  | shut {l : Line ν} {ch : Nat} {v : ν} (gone : l.receiving = false) :
      Step (some l) (.offer ch v .closed) (some l)
  | received {v : ν} {items : List ν} {s : Nat} {r : Bool} {ch : Nat} :
      Step (some ⟨v :: items, s, r⟩) (.recv ch (some v)) (some ⟨items, s, r⟩)
  | ended {r : Bool} {ch : Nat} : Step (some ⟨[], 0, r⟩) (.recv ch none) (some ⟨[], 0, r⟩)
  | taken {v : ν} {items : List ν} {s : Nat} {r : Bool} {ch : Nat} :
      Step (some ⟨v :: items, s, r⟩) (.take ch (.item v)) (some ⟨items, s, r⟩)
  | empty {s : Nat} {r : Bool} {ch : Nat} :
      Step (some ⟨[], s + 1, r⟩) (.take ch .empty) (some ⟨[], s + 1, r⟩)
  | closed {r : Bool} {ch : Nat} : Step (some ⟨[], 0, r⟩) (.take ch .closed) (some ⟨[], 0, r⟩)
  | clone {l : Line ν} {ch : Nat} (held : 0 < l.senders) :
      Step (some l) (.clone ch) (some { l with senders := l.senders + 1 })
  | dropSender {l : Line ν} {ch : Nat} :
      Step (some l) (.dropSender ch) (some { l with senders := l.senders - 1 })
  | dropReceiver {l : Line ν} {ch : Nat} :
      Step (some l) (.dropReceiver ch) (some { l with items := [], receiving := false })

/-- A channel allows the operations `h` in turn, from where it stands. -/
inductive Allows : Option (Line ν) → List (Act ν) → Prop
  | nil {s : Option (Line ν)} : Allows s []
  | cons {s s' : Option (Line ν)} {a : Act ν} {h : List (Act ν)} :
      Step s a s' → Allows s' h → Allows s (a :: h)

end Line

/-- `h` holds the elements of `l₁` and of `l₂`, each list's in its own order. -/
inductive Merge {α : Type} : List α → List α → List α → Prop
  | nil : Merge [] [] []
  | left {a : α} {l₁ l₂ h : List α} : Merge l₁ l₂ h → Merge (a :: l₁) l₂ (a :: h)
  | right {a : α} {l₁ l₂ h : List α} : Merge l₁ l₂ h → Merge l₁ (a :: l₂) (a :: h)

/-- The operations of two tasks on channel `ch`, from `l₁` and `l₂`, are the two sides of a
history the channel allows from before it is made. -/
def Between (ch : Nat) (l₁ l₂ : List (Act ν)) : Prop :=
  ∃ h, Merge (l₁.filter (·.channel = ch)) (l₂.filter (·.channel = ch)) h ∧ Line.Allows none h

namespace Merge

variable {α : Type} {l₁ l₂ h : List α}

theorem mem_left {a : α} (merged : Merge l₁ l₂ h) (ha : a ∈ l₁) : a ∈ h := by
  induction merged with
  | nil => exact ha
  | left _ ih =>
    rcases List.mem_cons.mp ha with rfl | ha
    · exact List.mem_cons_self
    · exact List.mem_cons_of_mem _ (ih ha)
  | right _ ih => exact List.mem_cons_of_mem _ (ih ha)

end Merge

namespace Line

variable {l : Line ν} {h : List (Act ν)}

/-- A channel that is made stays made, and is not made again. -/
theorem Step.of_made {a : Act ν} {s' : Option (Line ν)} (step : Step (some l) a s')
    : (∀ ch, a ≠ .make ch) ∧ ∃ l', s' = some l' := by
  cases step <;> exact ⟨fun _ => nofun, _, rfl⟩

/-- Once made, a channel allows no second making. -/
theorem Allows.made_once (allowed : Allows (some l) h) (ch : Nat) : .make ch ∉ h := by
  generalize hs : some l = s at allowed
  induction allowed generalizing l with
  | nil => exact List.not_mem_nil
  | cons step _ ih =>
    subst hs
    obtain ⟨other, l', rfl⟩ := step.of_made
    exact List.not_mem_cons_of_ne_of_not_mem (other ch).symm (ih rfl)

/-- A sender's operation leaves the first item where it is. -/
theorem Step.keeps_first {a : Act ν} {v : ν} {items : List ν} {s : Nat} {r : Bool}
    {s' : Option (Line ν)} (sends : a.sends) (step : Step (some ⟨v :: items, s, r⟩) a s')
    : ∃ items' s'' r', s' = some ⟨v :: items', s'', r'⟩ := by
  cases step <;> simp only [Act.sends] at sends <;> exact ⟨_, _, _, rfl⟩

/-- While the other side only sends, a receive finds the first item the channel holds. -/
theorem Allows.receives_first {v : ν} {items : List ν} {s : Nat} {r : Bool} {ch : Nat}
    {got : Option ν} {l₁ l₂ : List (Act ν)} (allowed : Allows (some ⟨v :: items, s, r⟩) h)
    (merged : Merge (.recv ch got :: l₁) l₂ h) (senders : ∀ a ∈ l₂, a.sends) : got = some v := by
  induction l₂ generalizing items s r h with
  | nil =>
    cases merged
    cases allowed with
    | cons step _ => cases step; rfl
  | cons a l₂ ih =>
    cases merged with
    | left _ =>
      cases allowed with
      | cons step _ => cases step; rfl
    | right rest =>
      cases allowed with
      | cons step later =>
        obtain ⟨items', s', r', rfl⟩ := step.keeps_first (senders a List.mem_cons_self)
        exact ih later rest fun b hb => senders b (List.mem_cons_of_mem _ hb)

end Line

/-- A channel made by one side and received from at once, while the other side first sends on
it and afterwards only sends: the first send is delivered and the receive gets its item. Before
that send the channel holds nothing and has its sender, so no receive can end; the send finds
the receiver there, and nothing the sender does later moves the item from the front. -/
theorem first_receive_takes_first_send {ch : Nat} {v : ν} {ok : Bool} {got : Option ν}
    {l₁ l₂ h : List (Act ν)} (merged : Merge (.make ch :: .recv ch got :: l₁) (.send ch v ok :: l₂) h)
    (senders : ∀ a ∈ l₂, a.sends) (allowed : Line.Allows none h) : ok = true ∧ got = some v := by
  -- only making starts a channel's history
  rcases merged with _ | ⟨merged⟩ | ⟨_⟩
  · cases allowed with
    | cons step allowed =>
      cases step
      -- the receive cannot come first: the channel is empty and its sender is still there
      rcases merged with _ | ⟨_⟩ | ⟨merged⟩
      · cases allowed with
        | cons step _ => cases step
      · cases allowed with
        | cons step later =>
          cases step with
          | sent _ => exact ⟨rfl, later.receives_first merged senders⟩
          | refused gone => cases gone
  · cases allowed with
    | cons step _ => cases step

/-- A channel is made only once: one side cannot make it twice while the other side makes
nothing. -/
theorem not_allows_made_twice {ch ch' : Nat} {l₁ l₂ h : List (Act ν)}
    (merged : Merge (.make ch :: .make ch' :: l₁) l₂ h) (makes : ∀ a ∈ l₂, ∀ c, a ≠ .make c)
    : ¬ Line.Allows none h := by
  intro allowed
  rcases merged with _ | ⟨merged⟩ | ⟨_⟩
  · cases allowed with
    | cons step later =>
      cases step
      exact later.made_once ch' (merged.mem_left List.mem_cons_self)
  · cases allowed with
    | cons step _ =>
      cases step
      exact makes _ List.mem_cons_self _ rfl

end Async

end Campaign
