import Campaign.Proofs.Observer.Sinks

/-! What the forwarder delivers over every run in which it returns: exactly the messages the
users' sinks sent, each once, keeping each sink's order and stopping at its first closing
message (`delivers_every_sink_in_order`). It returns only after every sink has closed or been
dropped, whether or not the campaign is cancelled meanwhile.
-/

namespace Campaign

open Async

namespace Forwarder

variable {ω : Type}

/-! ## The forwarder's task -/

/-- What the forwarder did with an item it received: it handed a message to the handlers in
the world it found, or it let another item go by. -/
inductive Receipt (ω : Type) where
  | handed (m : Message) (w : ω)
  | skipped (it : Item)

namespace Receipt

/-- The item received. -/
def item : Receipt ω → Item
  | .handed m _ => .message m
  | .skipped it => it

/-- Whether the receipt handed a message over. -/
def isHanded : Receipt ω → Bool
  | .handed .. => true
  | .skipped _ => false

/-- The lived steps of a receipt on channel `rx`: the receive and, for a message, one touch
that hands it to the handlers. -/
def steps (rx : Nat) (deliver : Message → ω → ω) : Receipt ω → List (Lived ω Item)
  | .handed m w =>
    [.effect (.await [.recv rx] 0 (.received (some (.message m)))), .touched w (deliver m w)]
  | .skipped it => [.effect (.await [.recv rx] 0 (.received (some it)))]

/-- A receipt's only operation on the channel is its receive. -/
theorem acts_steps (rx : Nat) (deliver : Message → ω → ω) (r : Receipt ω)
    : (r.steps rx deliver).filterMap Lived.act = [.recv rx (some r.item)] := by
  cases r <;> simp [steps, item, List.filterMap_cons, Wait.act]

end Receipt

variable {rx : Nat} {deliver : Message → ω → ω}

/-- The forwarder's delivery, by induction on its fuel: receipts until the channel ends,
counting the messages handed over. With no fuel left it waits for nothing and never ends. -/
theorem lives_deliverFrom
    : ∀ {fuel n : Nat} {ls : List (Lived ω Item)} {k : Nat},
      (deliverFrom rx deliver fuel n).Lives ls k
      → ∃ got : List (Receipt ω),
        ls = (got.map (·.steps rx deliver)).flatten
          ++ [.effect (.await [.recv rx] 0 (.received none))]
        ∧ k = n + got.countP Receipt.isHanded
        ∧ ∀ it, .skipped it ∈ got → ∀ m, it ≠ .message m := by
  intro fuel
  induction fuel with
  | zero =>
    intro n ls k h
    obtain ⟨waited, rest, w, rfl, hwait, -⟩ := Proc.lives_bind_iff.mp h
    obtain ⟨j, w', more, ⟨b, hb, fits⟩, -, -⟩ := Proc.lives_await_iff.mp hwait
    match j, hb with
    | 0, hb =>
      cases hb
      cases w' <;> simp [Wait.Fits] at fits
  | succ fuel ih =>
    intro n ls k h
    obtain ⟨received, rest, v, rfl, hrecv, hrest⟩ := Proc.lives_bind_iff.mp h
    rw [Proc.lives_recv_iff] at hrecv
    subst hrecv
    split at hrest
    · -- a message: handed to the handlers in one touch
      rename_i m
      obtain ⟨handed, later, u, rfl, hmodify, hlater⟩ := Proc.lives_bind_iff.mp hrest
      obtain ⟨w, rfl⟩ := Proc.lives_modify_iff.mp hmodify
      obtain ⟨got, rfl, rfl, skipped⟩ := ih hlater
      refine ⟨.handed m w :: got, by simp [Receipt.steps], ?_, ?_⟩
      · simp only [List.countP_cons, Receipt.isHanded, ite_true]
        omega
      · intro it mem
        simp only [List.mem_cons, reduceCtorEq, false_or] at mem
        exact skipped it mem
    · -- any other item goes by
      rename_i it other
      obtain ⟨got, rfl, rfl, skipped⟩ := ih hrest
      refine ⟨.skipped it :: got, by simp [Receipt.steps], by simp [Receipt.isHanded], ?_⟩
      intro it' mem
      rcases List.mem_cons.mp mem with same | mem
      · cases same
        exact fun m same => other m (by rw [same])
      · exact skipped it' mem
    · -- the channel ended
      obtain ⟨rfl, rfl⟩ := Proc.lives_pure_iff.mp hrest
      exact ⟨[], by simp, by simp, by simp⟩

/-- The forwarder's task lets go of its own sender, hands over what it receives until the
channel ends, and returns the number of messages it handed over. -/
theorem lives_run {ls : List (Lived ω Item)} {n : Nat} (h : (run rx deliver).Lives ls n)
    : ∃ (r : Reply Item) (got : List (Receipt ω)),
      ls = .effect (.order (.dropSender rx) r) :: (got.map (·.steps rx deliver)).flatten
          ++ [.effect (.await [.recv rx] 0 (.received none))]
      ∧ n = got.countP Receipt.isHanded
      ∧ ∀ it, .skipped it ∈ got → ∀ m, it ≠ .message m := by
  obtain ⟨dropped, rest, u, rfl, hdrop, hrest⟩ := Proc.lives_bind_iff.mp h
  obtain ⟨r, rfl⟩ := Proc.lives_dropSender_iff.mp hdrop
  obtain ⟨got, rfl, rfl, skipped⟩ := lives_deliverFrom hrest
  exact ⟨r, got, rfl, by simp, skipped⟩

/-! ## The forwarding system -/

/-- Who did an operation on the forwarder's channel: the forwarder, or the user of sink `i`. -/
inductive Party where
  | forwarder
  | user (i : Nat)
  deriving DecidableEq

/-- The forwarder and the users of `k` sinks. -/
def parties (k : Nat) : Finset Party := insert .forwarder ((Finset.range k).image .user)

/-- A user of the forwarder: the slot of its sink, the messages it gives the sink in turn, and
whether it drops the sink at the end. -/
structure User (ω : Type) where
  slot : Slot ω
  calls : List Message
  drops : Bool

/-- A run of the forwarding system on channel `ch`, made holding the forwarder's sender. The
forwarder lived `fls`, handing messages over with `deliver`, and returned `n`. User `i` lived
the session of `users[i]`, with a lawful slot that no other task touches. `h` is a history the
channel allows: its operations are the parties', and each party's side is the operations of
its run. -/
structure Fanin (ch : Nat) (deliver : Message → ω → ω) (users : List (User ω × List (Lived ω Item)))
    (fls : List (Lived ω Item)) (n : Nat) (h : List (Party × Act Item)) : Prop where
  forwarder : (run ch deliver).Lives fls n
  user : ∀ (i : Nat) (u : User ω) (ls : List (Lived ω Item)), users[i]? = some (u, ls) →
    (session ch u.slot u.calls u.drops).Lives ls () ∧ u.slot.Lawful ∧ u.slot.track true ls ≠ none
  forwarder_side : sideOf .forwarder h = fls.filterMap Lived.act
  user_side : ∀ (i : Nat) (u : User ω) (ls : List (Lived ω Item)), users[i]? = some (u, ls) →
    sideOf (.user i) h = ls.filterMap Lived.act
  tagged : ∀ x ∈ h, x.1 ∈ parties users.length
  allowed : Line.Allows (some ⟨[], 1, true⟩) (h.map (·.2))

/-- How a user's side splits, when what comes after makes no sender. The part before holds the
one sender made and lets go of at most one; when it lets go of one, it is the whole side. -/
theorem user_side_split {ch : Nat} {sent : List (Message × Bool)} {d : Bool} {X Y : List (Act Item)}
    (split : X ++ Y = .clone ch :: sends ch sent ++ (if d then [.dropSender ch] else []))
    (unmade : ∀ a ∈ Y, a.makesSender = false)
    : X.countP Act.makesSender = 1 ∧ X.countP Act.dropsSender ≤ 1
      ∧ (X.countP Act.dropsSender = 1 → d = true ∧ Y = []) := by
  -- the side makes one sender, first, and lets go of at most one, last
  have makes : X.countP Act.makesSender + Y.countP Act.makesSender = 1 := by
    rw [← List.countP_append, split]
    cases d <;> simp [List.countP_cons, Act.makesSender]
  have drops : X.countP Act.dropsSender + Y.countP Act.dropsSender = if d then 1 else 0 := by
    rw [← List.countP_append, split]
    cases d <;> simp [List.countP_cons, Act.dropsSender]
  have unmadeAfter : Y.countP Act.makesSender = 0 :=
    List.countP_eq_zero.mpr fun a mem => by simp [unmade a mem]
  refine ⟨by omega, by split at drops <;> omega, fun one => ?_⟩
  cases d
  · simp only [Bool.false_eq_true, ite_false] at drops
    omega
  refine ⟨rfl, ?_⟩
  -- what follows the sender let go of would end with the side's last act, which lets go
  rcases List.eq_nil_or_concat Y with rfl | ⟨Y, a, rfl⟩
  · rfl
  · have last : a = .dropSender ch := by
      have ends := congrArg List.getLast? split
      rw [if_pos rfl, List.concat_eq_append, ← List.append_assoc, List.getLast?_concat,
        List.getLast?_concat] at ends
      exact Option.some.inj ends
    simp [last, Act.dropsSender] at drops
    omega

/-- Receipts that match, one for one, messages the users put in come from one list of
deliveries: each with the user that put it in, its message and the world it was handed over
in. By induction on the receipts. -/
theorem exists_delivered
    : ∀ {got : List (Receipt ω)} {puts : List (Party × Item)},
      got.map Receipt.item = puts.map (·.2)
      → (∀ x ∈ puts, ∃ i m, x = (.user i, .message m))
      → (∀ it, .skipped it ∈ got → ∀ m, it ≠ .message m)
      → ∃ delivered : List (Nat × Message × ω),
        got = delivered.map (fun d => .handed d.2.1 d.2.2)
        ∧ puts = delivered.map (fun d => (.user d.1, .message d.2.1))
  | [], [], _, _, _ => ⟨[], rfl, rfl⟩
  | [], _ :: _, same, _, _ => by simp at same
  | _ :: _, [], same, _, _ => by simp at same
  | r :: got, x :: puts, same, tagged, skipped => by
    simp only [List.map_cons, List.cons.injEq] at same
    obtain ⟨i, m, rfl⟩ := tagged x List.mem_cons_self
    obtain ⟨delivered, rfl, rfl⟩ := exists_delivered same.2
      (fun y mem => tagged y (List.mem_cons_of_mem _ mem))
      (fun it mem => skipped it (List.mem_cons_of_mem _ mem))
    cases r with
    | handed m' w =>
      obtain rfl : m' = m := Item.message.inj same.1
      exact ⟨(i, m', w) :: delivered, rfl, rfl⟩
    | skipped it => exact absurd same.1 (skipped it List.mem_cons_self m)

namespace Fanin

variable {ch : Nat} {users : List (User ω × List (Lived ω Item))} {fls : List (Lived ω Item)}
  {n : Nat} {h : List (Party × Act Item)}

/-- The forwarder's side: it lets go of its sender, receives, and finds the end. -/
theorem forwarder_acts (system : Fanin ch deliver users fls n h)
    : ∃ (r : Reply Item) (got : List (Receipt ω)),
      fls = .effect (.order (.dropSender ch) r) :: (got.map (·.steps ch deliver)).flatten
          ++ [.effect (.await [.recv ch] 0 (.received none))]
      ∧ n = got.countP Receipt.isHanded
      ∧ (∀ it, .skipped it ∈ got → ∀ m, it ≠ .message m)
      ∧ sideOf .forwarder h
        = (.dropSender ch :: got.map fun r => .recv ch (some r.item)) ++ [.recv ch none] := by
  obtain ⟨r, got, rfl, counted, skipped⟩ := lives_run system.forwarder
  refine ⟨r, got, rfl, counted, skipped, ?_⟩
  rw [system.forwarder_side]
  simp only [List.filterMap_cons, List.filterMap_append, List.filterMap_flatten, List.map_map,
    Function.comp_def, Receipt.acts_steps, Lived.act_effect, Effect.act_order, Order.act,
    Effect.act_await, Wait.act, List.getElem?_cons_zero, Option.bind_some, List.filterMap_nil,
    List.cons_append]
  -- a receive apiece
  conv_rhs => rw [List.map_eq_flatMap]
  rfl

/-- A user's side: it makes its sender, sends through its first closing message, and lets go
of its sender after them exactly when it closed or dropped its sink. -/
theorem user_acts (system : Fanin ch deliver users fls n h) {i : Nat} {u : User ω}
    {ls : List (Lived ω Item)} (found : users[i]? = some (u, ls))
    : ∃ sent : List (Message × Bool), sent.map (·.1) = throughClosed u.calls
      ∧ sideOf (.user i) h
        = .clone ch :: sends ch sent ++ if closes u.calls || u.drops then [.dropSender ch] else [] := by
  obtain ⟨ran, lawful, own⟩ := system.user i u ls found
  rw [system.user_side i u ls found]
  exact lives_session lawful ran own

/-- Every operation of the history: the forwarder lets go of its sender or receives; the user
of sink `i`, one of the users, makes its sender, sends a message or lets go of its sender. -/
theorem op_cases (system : Fanin ch deliver users fls n h) {x : Party × Act Item} (mem : x ∈ h)
    : (x.1 = .forwarder ∧ (x.2 = .dropSender ch ∨ ∃ v, x.2 = .recv ch v))
      ∨ ∃ i < users.length, x.1 = .user i
        ∧ (x.2 = .clone ch ∨ (∃ m ok, x.2 = .send ch (.message m) ok) ∨ x.2 = .dropSender ch) := by
  have side := mem_sideOf mem
  rcases Finset.mem_insert.mp (system.tagged x mem) with tag | tag
  · obtain ⟨r, got, -, -, -, acts⟩ := system.forwarder_acts
    rw [tag, acts] at side
    refine .inl ⟨tag, ?_⟩
    rcases List.mem_cons.mp side with same | side
    · exact .inl same
    rcases List.mem_append.mp side with side | side
    · obtain ⟨y, -, same⟩ := List.mem_map.mp side
      exact .inr ⟨_, same.symm⟩
    · exact .inr ⟨_, List.mem_singleton.mp side⟩
  · obtain ⟨i, below, tag⟩ := Finset.mem_image.mp tag
    have below : i < users.length := Finset.mem_range.mp below
    obtain ⟨sent, -, acts⟩ := system.user_acts (List.getElem?_eq_getElem below)
    rw [← tag, acts] at side
    refine .inr ⟨i, below, tag.symm, ?_⟩
    rcases List.mem_cons.mp side with same | side
    · exact .inl same
    rcases List.mem_append.mp side with side | side
    · obtain ⟨y, -, same⟩ := List.mem_map.mp side
      exact .inr (.inl ⟨y.1, y.2, same.symm⟩)
    · split at side
      · exact .inr (.inr (List.mem_singleton.mp side))
      · cases side

/-- Nobody lets go of the receiver. -/
theorem keeps (system : Fanin ch deliver users fls n h) {x : Party × Act Item} (mem : x ∈ h)
    : x.2.dropsReceiver = false := by
  rcases system.op_cases mem with ⟨-, same | ⟨v, same⟩⟩ | ⟨i, -, -, same | ⟨m, ok, same⟩ | same⟩ <;>
    simp [same, Act.dropsReceiver]

/-- Only the forwarder takes items out. -/
theorem only_forwarder_gets (system : Fanin ch deliver users fls n h) {x : Party × Act Item}
    (mem : x ∈ h) (other : x.1 ≠ .forwarder) : x.2.got = none := by
  rcases system.op_cases mem with ⟨tag, -⟩ | ⟨i, -, -, same | ⟨m, ok, same⟩ | same⟩
  · exact absurd tag other
  all_goals simp [same, Act.got]

/-- What is put in is a message, put in by one of the users. -/
theorem put_by_user (system : Fanin ch deliver users fls n h) {x : Party × Act Item} (mem : x ∈ h)
    {v : Item} (put : x.2.put = some v) : ∃ i < users.length, ∃ m, x.1 = .user i ∧ v = .message m := by
  rcases system.op_cases mem with ⟨-, same | ⟨w, same⟩⟩ | ⟨i, below, tag, same | ⟨m, ok, same⟩ | same⟩
  all_goals simp [same, Act.put] at put
  exact ⟨i, below, m, tag, put.2.symm⟩

/-- The forwarder's end splits the history. Before it, the forwarder let go of its sender and
took out exactly what was put in, in order; no send was refused; and more senders were let go
of than were made. After it no sender is made. -/
theorem at_end (system : Fanin ch deliver users fls n h) {got : List (Receipt ω)}
    (side : sideOf .forwarder h
      = (.dropSender ch :: got.map fun r => .recv ch (some r.item)) ++ [.recv ch none])
    : ∃ p q, h = p ++ (.forwarder, .recv ch none) :: q
      ∧ sideOf .forwarder p = .dropSender ch :: got.map (fun r => .recv ch (some r.item))
      ∧ (p.map (·.2)).filterMap Act.put = got.map Receipt.item
      ∧ (∀ c v, .send c v false ∉ p.map (·.2))
      ∧ 1 + (p.map (·.2)).countP Act.makesSender ≤ (p.map (·.2)).countP Act.dropsSender
      ∧ ∀ a ∈ q.map (·.2), a.makesSender = false := by
  obtain ⟨p, q, rfl, before, -⟩ := sideOf_eq_append_singleton side
  have allowed := system.allowed
  rw [List.map_append, List.map_cons] at allowed
  obtain ⟨s, reached, rest⟩ := allowed.split
  obtain ⟨l, rfl⟩ := reached.made
  rcases rest with _ | ⟨step, later⟩
  -- the end finds the channel empty and without senders
  obtain ⟨empty, none_left, rfl⟩ := step.ended_empty
  have inside : ∀ x ∈ p, x ∈ p ++ (.forwarder, .recv ch none) :: q :=
    fun x mem => List.mem_append_left _ mem
  obtain ⟨items, -, refused, senders⟩ := reached.balance fun a mem => by
    obtain ⟨x, within, rfl⟩ := List.mem_map.mp mem
    exact system.keeps (inside x within)
  -- only the forwarder took items out
  have taken : (p.map (·.2)).filterMap Act.got = got.map Receipt.item := by
    rw [got_eq_side (t := Party.forwarder)
      fun x mem other => system.only_forwarder_gets (inside x mem) other, before]
    simp [Act.got.eq_def, List.filterMap_map]
  refine ⟨p, q, rfl, before, ?_, refused rfl, ?_, later.no_makesSender none_left⟩
  · simpa [empty, taken] using items
  · simpa [none_left] using senders

/-- Before the forwarder's end every user has let go of its sender, and does nothing after
it. The end needs no sender left. The forwarder made none and let go of its own. Every user
made its one sender before the end, since none can be made after, and lets go of at most
one. So every user lets go of one before the end, and that is the last thing it does. -/
theorem users_let_go (system : Fanin ch deliver users fls n h) {p q : List (Party × Act Item)}
    (split : h = p ++ (.forwarder, .recv ch none) :: q)
    (forwarderMakes : (sideOf .forwarder p).countP Act.makesSender = 0)
    (forwarderDrops : (sideOf .forwarder p).countP Act.dropsSender = 1)
    (senders : 1 + (p.map (·.2)).countP Act.makesSender ≤ (p.map (·.2)).countP Act.dropsSender)
    (unmade : ∀ a ∈ q.map (·.2), a.makesSender = false)
    : ∀ i u ls, users[i]? = some (u, ls)
      → sideOf (.user i) q = [] ∧ (closes u.calls || u.drops) = true := by
  -- each user's side, split at the end
  have each : ∀ i u ls, users[i]? = some (u, ls) →
      (sideOf (.user i) p).countP Act.makesSender = 1
      ∧ (sideOf (.user i) p).countP Act.dropsSender ≤ 1
      ∧ ((sideOf (.user i) p).countP Act.dropsSender = 1
        → (closes u.calls || u.drops) = true ∧ sideOf (.user i) q = []) := by
    intro i u ls found
    obtain ⟨sent, -, acts⟩ := system.user_acts found
    rw [split, sideOf_append, sideOf_cons_of_ne _ _ (by simp)] at acts
    exact user_side_split acts fun a mem => unmade a (List.mem_map_of_mem (mem_of_mem_sideOf mem))
  have present : ∀ i ∈ Finset.range users.length, ∃ u ls, users[i]? = some (u, ls) := by
    intro i mem
    have below : i < users.length := Finset.mem_range.mp mem
    exact ⟨_, _, List.getElem?_eq_getElem below⟩
  -- count senders made and let go of, party by party
  have tagged : ∀ x ∈ p, x.1 ∈ parties users.length :=
    fun x mem => system.tagged x (by rw [split]; exact List.mem_append_left _ mem)
  have apart : Party.forwarder ∉ (Finset.range users.length).image Party.user := by simp
  have injective : ∀ i ∈ Finset.range users.length, ∀ j ∈ Finset.range users.length,
      Party.user i = Party.user j → i = j := fun _ _ _ _ same => Party.user.inj same
  have makes := countP_eq_sum_sides Act.makesSender (parties users.length) tagged
  have drops := countP_eq_sum_sides Act.dropsSender (parties users.length) tagged
  rw [parties, Finset.sum_insert apart, Finset.sum_image injective, forwarderMakes] at makes
  rw [parties, Finset.sum_insert apart, Finset.sum_image injective, forwarderDrops] at drops
  -- every user made exactly one sender before the end
  have made : ∑ i ∈ Finset.range users.length, (sideOf (.user i) p).countP Act.makesSender
      = ∑ i ∈ Finset.range users.length, 1 := by
    refine Finset.sum_congr rfl fun i mem => ?_
    obtain ⟨u, ls, found⟩ := present i mem
    exact (each i u ls found).1
  have atMostOne : ∀ i ∈ Finset.range users.length,
      (sideOf (.user i) p).countP Act.dropsSender ≤ 1 := by
    intro i mem
    obtain ⟨u, ls, found⟩ := present i mem
    exact (each i u ls found).2.1
  have bounded := Finset.sum_le_sum atMostOne
  -- so every user let go of one
  have allOne := (Finset.sum_eq_sum_iff_of_le atMostOne).mp (by omega)
  intro i u ls found
  have below : i < users.length := (List.getElem?_eq_some_iff.mp found).1
  obtain ⟨closed, after⟩ := (each i u ls found).2.2 (allOne i (Finset.mem_range.mpr below))
  exact ⟨after, closed⟩

/-- Before the forwarder's end no send was refused, so a user whose side is over by then put in
exactly its messages through the first closing one, in its order. -/
theorem user_puts (system : Fanin ch deliver users fls n h) {p q : List (Party × Act Item)}
    (split : h = p ++ (.forwarder, .recv ch none) :: q)
    (unrefused : ∀ c v, .send c v false ∉ p.map (·.2))
    {i : Nat} {u : User ω} {ls : List (Lived ω Item)} (found : users[i]? = some (u, ls))
    (after : sideOf (.user i) q = [])
    : (sideOf (.user i) p).filterMap Act.put = (throughClosed u.calls).map .message := by
  obtain ⟨sent, heads, acts⟩ := system.user_acts found
  rw [split, sideOf_append, sideOf_cons_of_ne _ _ (by simp), after, List.append_nil] at acts
  -- every send went through, since the receiver was there throughout
  have through : ∀ x ∈ sent, x.2 = true := by
    intro x mem
    have onSide : Act.send ch (.message x.1) x.2 ∈ sideOf (.user i) p := by
      rw [acts]
      exact List.mem_cons_of_mem _ (List.mem_append_left _ (List.mem_map_of_mem mem))
    have sentThere : Act.send ch (.message x.1) x.2 ∈ p.map (·.2) :=
      List.mem_map_of_mem (mem_of_mem_sideOf onSide)
    cases hx : x.2
    · exact absurd (hx ▸ sentThere) (unrefused ch _)
    · rfl
  have quietEnd : (if closes u.calls || u.drops then [Act.dropSender ch] else []
      : List (Act Item)).filterMap Act.put = [] := by
    split <;> rfl
  rw [acts, ← heads, List.map_map, List.cons_append, List.filterMap_cons_none rfl,
    List.filterMap_append, sends_puts through, quietEnd, List.append_nil]
  rfl

/-- What the forwarder delivers, over every run of the forwarding system in which it returns.
Each message it received it handed to the handlers in one touch, right after receiving it,
and it returned their number. Those messages are exactly the ones the users sent, each once,
in one order. Each is tagged by the user that sent it. Restricted to any one user, they are that
user's messages up to and including the first closing one, in the user's order. Every user
closed or dropped its sink. -/
theorem delivers_every_sink_in_order (system : Fanin ch deliver users fls n h)
    : ∃ (r : Reply Item) (delivered : List (Nat × Message × ω)),
      fls = .effect (.order (.dropSender ch) r)
          :: (delivered.map fun d =>
              [.effect (.await [.recv ch] 0 (.received (some (.message d.2.1)))),
                .touched d.2.2 (deliver d.2.1 d.2.2)]).flatten
          ++ [.effect (.await [.recv ch] 0 (.received none))]
      ∧ n = delivered.length
      ∧ (∀ d ∈ delivered, d.1 < users.length)
      ∧ (∀ i u ls, users[i]? = some (u, ls)
        → (delivered.filter (·.1 = i)).map (·.2.1) = throughClosed u.calls)
      ∧ ∀ x ∈ users, (closes x.1.calls || x.1.drops) = true := by
  obtain ⟨r, got, rfl, counted, skipped, side⟩ := system.forwarder_acts
  obtain ⟨p, q, rfl, before, balance, unrefused, senders, unmade⟩ := system.at_end side
  have done := system.users_let_go rfl (by simp [before, Act.makesSender])
    (by simp [before, List.countP_cons, Act.dropsSender]) senders unmade
  have inside : ∀ x ∈ p, x ∈ p ++ (.forwarder, .recv ch none) :: q :=
    fun x mem => List.mem_append_left _ mem
  -- what is put in is a user's message
  have tagged : ∀ x ∈ putsOf p, ∃ i m, x = (.user i, .message m) := by
    intro x mem
    obtain ⟨y, within, tag, put⟩ := mem_putsOf mem
    obtain ⟨i, -, m, user, message⟩ := system.put_by_user (inside y within) put
    exact ⟨i, m, Prod.ext (tag ▸ user) message⟩
  obtain ⟨delivered, rfl, hputs⟩ := exists_delivered (by rw [putsOf_items, balance]) tagged skipped
  refine ⟨r, delivered, by simp [Receipt.steps, Function.comp_def], by simp [counted,
    List.countP_map, Function.comp_def, Receipt.isHanded], ?_, ?_, ?_⟩
  · -- every delivery is one user's
    intro d mem
    have put : (Party.user d.1, Item.message d.2.1) ∈ putsOf p := by
      rw [hputs]
      exact List.mem_map_of_mem mem
    obtain ⟨y, within, tag, made⟩ := mem_putsOf put
    obtain ⟨i, below, m, user, -⟩ := system.put_by_user (inside y within) made
    rw [user] at tag
    rwa [Party.user.inj tag] at below
  · -- each user's deliveries are its messages through the first closing one
    intro i u ls found
    have puts := system.user_puts rfl unrefused found (done i u ls found).1
    have restricted : ((delivered.map fun d => (Party.user d.1, Item.message d.2.1)).filter
        (·.1 = .user i)).map (·.2) = ((delivered.filter (·.1 = i)).map (·.2.1)).map Item.message := by
      simp [List.filter_map, Function.comp_def]
    have byUser := putsOf_by (Party.user i) p
    rw [hputs, restricted, puts] at byUser
    exact List.map_injective_iff.mpr (fun _ _ same => Item.message.inj same) byUser
  · intro x mem
    obtain ⟨i, found⟩ := List.mem_iff_getElem?.mp mem
    exact (done i x.1 x.2 found).2

end Fanin


/-- The sink of instance 0 keeps its sender in the first half of the world, that of instance 1
in the second. -/
def leftSlot : Slot (Bool × Bool) := ⟨Prod.fst, fun w => (false, w.2)⟩

def rightSlot : Slot (Bool × Bool) := ⟨Prod.snd, fun w => (w.1, false)⟩

/-- A report of instance `i`. -/
def reportOf (i : Nat) (e : Event) : Message := ⟨⟨i, ⟨"m"⟩, 0⟩, e⟩

/-- Two users of channel 0 with their runs. The first closes its instance and then reports once
more, which its sink discards. The second reports once and then drops its sink. -/
def twoUsers : List (User (Bool × Bool) × List (Lived (Bool × Bool) Item)) :=
  [(⟨leftSlot, [reportOf 0 (.inst .closed), reportOf 0 (.cycle .started)], false⟩,
      [.effect (.order (.cloneSender 0) .unit), .touched (true, true) (false, true),
        .effect (.await [.send 0 (.message (reportOf 0 (.inst .closed)))] 0 (.sent true)),
        .effect (.order (.dropSender 0) .unit), .touched (false, true) (false, true)]),
    (⟨rightSlot, [reportOf 1 (.cycle .started)], true⟩,
      [.effect (.order (.cloneSender 0) .unit), .touched (false, true) (false, true),
        .effect (.await [.send 0 (.message (reportOf 1 (.cycle .started)))] 0 (.sent true)),
        .touched (false, true) (false, false), .effect (.order (.dropSender 0) .unit)])]

/-- The forwarder's run beside them: it hands over both reports and finds the end. -/
def twoUsersForwarder : List (Lived (Bool × Bool) Item) :=
  [.effect (.order (.dropSender 0) .unit),
    .effect (.await [.recv 0] 0 (.received (some (.message (reportOf 0 (.inst .closed)))))),
    .touched (false, true) (false, true),
    .effect (.await [.recv 0] 0 (.received (some (.message (reportOf 1 (.cycle .started)))))),
    .touched (false, false) (false, false),
    .effect (.await [.recv 0] 0 (.received none))]

/-- How their operations took turns on the channel. -/
def twoUsersHistory : List (Party × Act Item) :=
  [(.user 0, .clone 0), (.user 1, .clone 0), (.forwarder, .dropSender 0),
    (.user 0, .send 0 (.message (reportOf 0 (.inst .closed))) true), (.user 0, .dropSender 0),
    (.user 1, .send 0 (.message (reportOf 1 (.cycle .started))) true),
    (.forwarder, .recv 0 (some (.message (reportOf 0 (.inst .closed))))),
    (.user 1, .dropSender 0),
    (.forwarder, .recv 0 (some (.message (reportOf 1 (.cycle .started))))),
    (.forwarder, .recv 0 none)]

theorem delivers_every_sink_in_order_twoUsers
    : Fanin 0 (fun _ w => w) twoUsers twoUsersForwarder 2 twoUsersHistory
      ∧ ∃ (r : Reply Item) (delivered : List (Nat × Message × (Bool × Bool))),
        twoUsersForwarder = .effect (.order (.dropSender 0) r)
            :: (delivered.map fun d =>
                [.effect (.await [.recv 0] 0 (.received (some (.message d.2.1)))),
                  .touched d.2.2 d.2.2]).flatten
            ++ [.effect (.await [.recv 0] 0 (.received none))]
        ∧ 2 = delivered.length
        ∧ (∀ d ∈ delivered, d.1 < twoUsers.length)
        ∧ (∀ i u ls, twoUsers[i]? = some (u, ls)
          → (delivered.filter (·.1 = i)).map (·.2.1) = throughClosed u.calls)
        ∧ ∀ x ∈ twoUsers, (closes x.1.calls || x.1.drops) = true := by
  have system : Fanin 0 (fun _ w => w) twoUsers twoUsersForwarder 2 twoUsersHistory :=
    { forwarder := .order .unit (.await 0 _ ⟨_, rfl, trivial⟩ (.touch (false, true)
        (.await 0 _ ⟨_, rfl, trivial⟩ (.touch (false, false) (.await 0 _ ⟨_, rfl, trivial⟩
          (.pure _))))))
      user := by
        intro i u ls found
        match i, found with
        | 0, found =>
          simp only [twoUsers, List.getElem?_cons_zero, Option.some.injEq, Prod.mk.injEq] at found
          obtain ⟨rfl, rfl⟩ := found
          exact ⟨.order .unit (.touch (true, true) (.await 0 _ ⟨_, rfl, trivial⟩
            (.order .unit (.touch (false, true) (.pure ()))))), fun _ => rfl,
            by simp [Slot.track, leftSlot]⟩
        | 1, found =>
          simp only [twoUsers, List.getElem?_cons_succ, List.getElem?_cons_zero, Option.some.injEq,
            Prod.mk.injEq] at found
          obtain ⟨rfl, rfl⟩ := found
          exact ⟨.order .unit (.touch (false, true) (.await 0 _ ⟨_, rfl, trivial⟩
            (.touch (false, true) (.order .unit (.pure ()))))), fun _ => rfl,
            by simp [Slot.track, rightSlot]⟩
        | i + 2, found => simp [twoUsers] at found
      forwarder_side := rfl
      user_side := by
        intro i u ls found
        match i, found with
        | 0, found =>
          simp only [twoUsers, List.getElem?_cons_zero, Option.some.injEq, Prod.mk.injEq] at found
          obtain ⟨rfl, rfl⟩ := found
          rfl
        | 1, found =>
          simp only [twoUsers, List.getElem?_cons_succ, List.getElem?_cons_zero, Option.some.injEq,
            Prod.mk.injEq] at found
          obtain ⟨rfl, rfl⟩ := found
          rfl
        | i + 2, found => simp [twoUsers] at found
      tagged := by simp [twoUsersHistory, twoUsers, parties]
      allowed := .cons (.clone (by decide)) (.cons (.clone (by decide)) (.cons .dropSender
        (.cons (.sent rfl) (.cons .dropSender (.cons (.sent rfl) (.cons .received (.cons .dropSender
          (.cons .received (.cons .ended .nil))))))))) }
  exact ⟨system, Fanin.delivers_every_sink_in_order system⟩

end Forwarder

end Campaign
