import Campaign.Proofs.Mutation.Stream
import Campaign.Proofs.Async.Counting
import Campaign.Instance.Env

/-! An automator with no period rotates once per kill: a monitor of its channel operations
(`Rotation.see`) shows that it delivers the first mutants of its rotation in order, at most one
more than the kills it received (`rotates_on_kills`). Conversely every kill it hears while its
context lasts is answered at once by the offer of the next mutant (`answers_run`).
-/

namespace Campaign

namespace Mutation

open Async

namespace Automator

/-- The first `n` mutants of the rotation, the mutant under test first. -/
def rotation (a : Automator) (n : Nat) : List Mutant :=
  (List.range n).map fun i => (rotate^[i] a).current

theorem rotation_succ (a : Automator) (n : Nat)
    : a.rotation (n + 1) = a.rotation n ++ [(rotate^[n] a).current] := by
  simp [rotation, List.range_succ]

@[simp] theorem rotate_mutants (a : Automator) : a.rotate.mutants = a.mutants := rfl

theorem iterate_rotate_mutants (a : Automator) (n : Nat) : (rotate^[n] a).mutants = a.mutants := by
  induction n with
  | zero => rfl
  | succ n ih => rw [Function.iterate_succ_apply', rotate_mutants, ih]

/-- After `n` rotations the automator stands `n` places on, wrapping after the last mutant. -/
theorem iterate_rotate_slot (a : Automator) (inside : a.slot < a.mutants.length) (n : Nat)
    : (rotate^[n] a).slot = (a.slot + n) % a.mutants.length := by
  induction n with
  | zero => exact (Nat.mod_eq_of_lt inside).symm
  | succ n ih =>
    rw [Function.iterate_succ_apply']
    show ((rotate^[n] a).slot + 1) % (rotate^[n] a).mutants.length = _
    rw [ih, iterate_rotate_mutants, Nat.mod_add_mod, Nat.add_assoc]

/-- The `n`-th mutant of the rotation is the mutant `n` places after the one under test. -/
theorem iterate_rotate_current (a : Automator) (inside : a.slot < a.mutants.length) (n : Nat)
    : (rotate^[n] a).current = a.mutants.getD ((a.slot + n) % a.mutants.length) ⟨0⟩ := by
  show (rotate^[n] a).mutants.getD (rotate^[n] a).slot ⟨0⟩ = _
  rw [iterate_rotate_slot a inside, iterate_rotate_mutants]

/-- The mutant `n` rotations on stands `n` places after the slot, round the list. -/
theorem getElem?_iterate_rotate {a : Automator} (inside : a.slot < a.mutants.length) (n : Nat)
    : a.mutants[(a.slot + n) % a.mutants.length]? = some (rotate^[n] a).current := by
  have within : (a.slot + n) % a.mutants.length < a.mutants.length := Nat.mod_lt _ (by omega)
  rw [iterate_rotate_current a inside, List.getElem?_eq_getElem within]
  simp [List.getD_eq_getElem?_getD, List.getElem?_eq_getElem within]

/-- The `k`-th mutant of the rotation stands `k` places after the slot, round the list. -/
theorem getElem?_rotation {a : Automator} (inside : a.slot < a.mutants.length) {n k : Nat}
    {mu : Mutant} (h : (a.rotation n)[k]? = some mu)
    : a.mutants[(a.slot + k) % a.mutants.length]? = some mu := by
  simp only [rotation, List.getElem?_map] at h
  obtain ⟨i, ranged, rfl⟩ := Option.map_eq_some_iff.mp h
  obtain ⟨-, rfl⟩ : k < n ∧ k = i := by simpa using List.getElem?_eq_some_iff.mp ranged
  exact getElem?_iterate_rotate inside k

end Automator

/-- Where the automator's next offer stands. -/
inductive Offering where
  /-- The mutant is to be offered. -/
  | due
  /-- It was delivered; a kill moves on to the next. -/
  | delivered
  /-- The consumer was gone: nothing more is offered. -/
  | refused
  deriving DecidableEq

/-- The automator whose mutant is offered next, and where that offer stands. -/
structure Rotation where
  next : Automator
  offering : Offering

namespace Rotation

/-- Read one operation of the automator. A due offer delivers, or is refused, the mutant of the
automator next; a kill received after a delivery moves to the next mutant. Any other delivery is
refused; any other operation, a kill received while no delivery stands included, changes
nothing. -/
def see (r : Rotation) : Act Item → Option Rotation
  | .send _ (.mutant m) ok =>
    if r.offering = .due ∧ m = r.next.current then
      some ⟨r.next, if ok then .delivered else .refused⟩
    else none
  | .send .. | .offer .. => none
  | .recv _ (some _) => some (if r.offering = .delivered then ⟨r.next.rotate, .due⟩ else r)
  | _ => some r

/-- An operation that hands nothing over is read from every state. -/
theorem see_of_not_hands (r : Rotation) {a : Act Item} (quiet : ¬ a.hands)
    : ∃ r', see r a = some r' := by
  match a with
  | .send .. | .offer .. => exact absurd trivial quiet
  | .recv _ (some _) => exact ⟨_, rfl⟩
  | .recv _ none | .make _ | .take .. | .clone _ | .dropSender _ | .dropReceiver _ =>
    exact ⟨r, rfl⟩

/-- Operations that hand nothing over are accepted from every state, by induction on them. -/
theorem accepts_of_not_hands (r : Rotation) {l : List (Act Item)} (quiet : ∀ a ∈ l, ¬ a.hands)
    : ∃ r', Accepts see r l r' := by
  induction l generalizing r with
  | nil => exact ⟨r, Accepts.nil_iff.mpr rfl⟩
  | cons a l ih =>
    obtain ⟨t, seen⟩ := see_of_not_hands r (quiet a List.mem_cons_self)
    obtain ⟨r', rest⟩ := ih t fun b hb => quiet b (List.mem_cons_of_mem _ hb)
    exact ⟨r', Accepts.cons_iff.mpr ⟨t, seen, rest⟩⟩

/-! ## What the monitor keeps -/

/-- What the operations `l` of an automator started at `a` show, when the monitor stands at `r`
after them. -/
structure Holds (a : Automator) (l : List (Act Item)) (r : Rotation) : Prop where
  /-- The mutants delivered are the first ones of the rotation, in order. -/
  rotation : l.filterMap Act.put = (a.rotation (l.filterMap Act.put).length).map Item.mutant
  /-- There is at most one delivery more than the kills received. -/
  credit : (l.filterMap Act.put).length ≤ (l.filterMap Act.got).length + 1
  /-- A due offer is of the mutant after those delivered, each delivery paid for by a kill. -/
  due : r.offering = .due
    → r.next = Automator.rotate^[(l.filterMap Act.put).length] a
      ∧ (l.filterMap Act.put).length ≤ (l.filterMap Act.got).length
  /-- A delivered offer was the last delivery. -/
  delivered : r.offering = .delivered
    → ∃ n, (l.filterMap Act.put).length = n + 1 ∧ r.next = Automator.rotate^[n] a

variable {a : Automator} {l : List (Act Item)} {r : Rotation}

theorem holds_start (a : Automator) : Holds a [] ⟨a, .due⟩ :=
  ⟨rfl, by simp, fun _ => ⟨rfl, le_refl _⟩, nofun⟩

/-- An operation that delivers nothing and leaves the monitor where it is keeps what it holds:
it may only add a kill received. -/
theorem Holds.quiet (holds : Holds a l r) {x : Act Item} (none_put : x.put = none)
    : Holds a (l ++ [x]) r := by
  have puts : (l ++ [x]).filterMap Act.put = l.filterMap Act.put := by
    simp [List.filterMap_append, none_put]
  have gets : (l.filterMap Act.got).length ≤ ((l ++ [x]).filterMap Act.got).length := by
    rw [List.filterMap_append, List.length_append]
    exact Nat.le_add_right _ _
  obtain ⟨rotation, credit, due, delivered⟩ := holds
  refine ⟨?_, ?_, fun d => ?_, fun d => ?_⟩ <;> rw [puts]
  · exact rotation
  · omega
  · exact ⟨(due d).1, by have := (due d).2; omega⟩
  · exact delivered d

/-- A kill received after a delivery moves to the next mutant, now due. -/
theorem Holds.kill (holds : Holds a l r) (stands : r.offering = .delivered) {x : Act Item}
    (none_put : x.put = none) {v : Item} (heard : x.got = some v)
    : Holds a (l ++ [x]) ⟨r.next.rotate, .due⟩ := by
  have puts : (l ++ [x]).filterMap Act.put = l.filterMap Act.put := by
    simp [List.filterMap_append, none_put]
  have gets : ((l ++ [x]).filterMap Act.got).length = (l.filterMap Act.got).length + 1 := by
    simp [List.filterMap_append, heard]
  obtain ⟨rotation, credit, -, delivered⟩ := holds
  obtain ⟨n, count, next⟩ := delivered stands
  refine ⟨?_, ?_, fun _ => ⟨?_, ?_⟩, nofun⟩ <;> rw [puts]
  · exact rotation
  · rw [gets]
    omega
  · rw [count, next, Function.iterate_succ_apply']
  · rw [gets]
    omega

/-- A due offer delivered is the next mutant of the rotation. -/
theorem Holds.deliver (holds : Holds a l r) (stands : r.offering = .due) (ch : Nat)
    : Holds a (l ++ [Act.send ch (Item.mutant r.next.current) true]) ⟨r.next, .delivered⟩ := by
  have puts : (l ++ [Act.send ch (Item.mutant r.next.current) true]).filterMap Act.put
      = l.filterMap Act.put ++ [Item.mutant r.next.current] := by
    simp [List.filterMap_append, Act.put]
  have gets : (l ++ [Act.send ch (Item.mutant r.next.current) true]).filterMap Act.got
      = l.filterMap Act.got := by
    simp [List.filterMap_append, List.filterMap_cons, Act.got]
  obtain ⟨rotation, -, due, -⟩ := holds
  obtain ⟨next, paid⟩ := due stands
  refine ⟨?_, ?_, by rintro ⟨⟩, fun _ => ⟨_, ?_, next⟩⟩
  · rw [puts, List.length_append, List.length_singleton, Automator.rotation_succ, List.map_append,
      ← rotation, next]
    rfl
  · rw [puts, gets, List.length_append, List.length_singleton]
    omega
  · rw [puts, List.length_append, List.length_singleton]

/-- A refused offer delivers nothing, and nothing is offered after it. -/
theorem Holds.refuse (holds : Holds a l r) (ch : Nat) (v : Item)
    : Holds a (l ++ [Act.send ch v false]) ⟨r.next, .refused⟩ := by
  obtain ⟨rotation, credit, -, -⟩ := holds.quiet (x := .send ch v false) rfl
  exact ⟨rotation, credit, nofun, nofun⟩

/-- Every operation the monitor reads keeps what it holds. -/
theorem Holds.step (holds : Holds a l r) {x : Act Item} {r' : Rotation} (seen : see r x = some r')
    : Holds a (l ++ [x]) r' := by
  match x with
  | .send ch (.mutant m) ok =>
    simp only [see] at seen
    split at seen
    · rename_i stands
      obtain ⟨due, rfl⟩ := stands
      cases seen
      cases ok
      · exact holds.refuse ch _
      · exact holds.deliver due ch
    · cases seen
  | .send _ (.kill) _ | .send _ (.cycle _) _ | .send _ (.ended ..) _ | .send _ (.planned _) _
  | .send _ (.message _) _ | .send _ .done _ | .offer .. => cases seen
  | .recv _ (some v) =>
    simp only [see, Option.some.injEq] at seen
    subst seen
    split
    · rename_i stands
      exact holds.kill stands rfl rfl
    · exact holds.quiet rfl
  | .recv _ none | .make _ | .take .. | .clone _ | .dropSender _ | .dropReceiver _ =>
    cases seen
    exact holds.quiet rfl

/-- What the monitor holds is kept along every run it accepts, by induction on the run. -/
theorem Holds.accepts {l' : List (Act Item)} {r' : Rotation} (holds : Holds a l r)
    (accepted : Accepts see r l' r') : Holds a (l ++ l') r' := by
  induction l' generalizing l r with
  | nil =>
    rw [← Accepts.nil_iff.mp accepted, List.append_nil]
    exact holds
  | cons x l' ih =>
    obtain ⟨t, seen, rest⟩ := Accepts.cons_iff.mp accepted
    have := ih (holds.step seen) rest
    rwa [List.append_assoc, List.singleton_append] at this

/-- The mutants an accepted run delivers are the first ones of the rotation, in order. -/
theorem delivered_eq_rotation (accepted : Accepts see ⟨a, .due⟩ l r)
    : ∃ n, l.filterMap Act.put = (a.rotation n).map Item.mutant :=
  ⟨_, ((holds_start a).accepts accepted).rotation⟩

/-- At every point of an accepted run there is at most one delivery more than the kills
received. -/
theorem delivered_le_heard (accepted : Accepts see ⟨a, .due⟩ l r) {p q : List (Act Item)}
    (split : l = p ++ q) : (p.filterMap Act.put).length ≤ (p.filterMap Act.got).length + 1 := by
  subst split
  obtain ⟨t, before, -⟩ := Accepts.split accepted
  exact ((holds_start a).accepts before).credit

end Rotation

/-! ## Every run of an automator driven by kills passes -/

variable {ω : Type} {w : Wiring}

/-- An offer is one wait, on the context's end and on room in the stream; it succeeds only by
delivering. -/
theorem runs_offerMutant {m : Mutant} {es : List (Effect ω Item)} {ok : Bool}
    (h : (offerMutant w Item.mutant m).Runs es ok)
    : ∃ j o, es = [.await [.done w.cx, .send w.out (Item.mutant m)] j o]
      ∧ (ok = true → j = 1 ∧ o = .sent true) := by
  rcases runs_offerMutant_cases h with ⟨c, rfl, rfl⟩ | rfl
  · exact ⟨0, _, rfl, by rintro ⟨⟩⟩
  · exact ⟨1, _, rfl, fun delivered => ⟨rfl, by rw [delivered]⟩⟩

/-- An offer of the due mutant delivers it, is refused, or ends with the context and leaves it
due. -/
theorem accepts_offerMutant {b : Automator} {es : List (Effect ω Item)} {ok : Bool}
    (h : (offerMutant w Item.mutant b.current).Runs es ok)
    : ∃ r, Accepts Rotation.see ⟨b, .due⟩ (es.filterMap Effect.act) r
      ∧ (ok = true → r = ⟨b, .delivered⟩) := by
  rcases runs_offerMutant_cases h with ⟨c, rfl, rfl⟩ | rfl
  · -- the context ended first: nothing was delivered
    exact ⟨⟨b, .due⟩, by simp [Wait.act], by rintro ⟨⟩⟩
  · refine ⟨⟨b, if ok then .delivered else .refused⟩, ?_, fun same => by simp [same]⟩
    simp [Wait.act, Rotation.see]

/-- The rotation loop of an automator with no period, after a delivery: each kill received
moves to the next mutant, which is offered at once. By induction on the fuel. -/
theorem accepts_rotationLoop (fuel : Nat) {b : Automator} {kills : Option Nat}
    {es : List (Effect ω Item)} {y : Option Nat}
    (h : (rotationLoop w Item.mutant none fuel b kills none).Runs es y)
    : ∃ r, Accepts Rotation.see ⟨b, .delivered⟩ (es.filterMap Effect.act) r := by
  induction fuel generalizing b kills es y with
  | zero =>
    obtain ⟨rfl, -⟩ := Proc.runs_pure_iff.mp h
    exact ⟨_, Accepts.nil_iff.mpr rfl⟩
  | succ fuel ih =>
    unfold rotationLoop at h
    dsimp only at h
    obtain ⟨selected, rest, x, rfl, hsel, hk⟩ := Proc.runs_bind_iff.mp h
    obtain ⟨j, v, ends, rfl, rfl⟩ := Proc.runs_select_iff.mp hsel
    -- with no period there is no tick
    rcases rotationWaits_ends _ none ends with ⟨r, rfl, rfl⟩ | ⟨k, got, rfl, rfl, rfl⟩ | ⟨tk, rfl, ⟨⟩, -⟩
    · -- the context ended: the loop stops where it stands
      obtain ⟨rfl, -⟩ := Proc.runs_pure_iff.mp hk
      exact ⟨⟨b, .delivered⟩, by simp [Wait.act]⟩
    · cases got with
      | some signal =>
        -- a kill: the next mutant is due and offered at once
        obtain ⟨offered, more, ok, rfl, hoffer, hnext⟩ := Proc.runs_bind_iff.mp hk
        obtain ⟨r₁, acc₁, delivered⟩ := accepts_offerMutant hoffer
        have heard : Accepts Rotation.see ⟨b, .delivered⟩
            [Act.recv k (some signal)] ⟨b.rotate, .due⟩ := by
          simp [Rotation.see]
        cases ok
        · obtain ⟨rfl, -⟩ := Proc.runs_pure_iff.mp hnext
          exact ⟨r₁, by simpa [Wait.act] using heard.append acc₁⟩
        · obtain ⟨r₂, acc₂⟩ := ih hnext
          rw [delivered rfl] at acc₁
          refine ⟨r₂, ?_⟩
          simpa [Wait.act, List.filterMap_append] using (heard.append acc₁).append acc₂
      | none =>
        -- the kill input ended: it is let go of, and the loop goes on without it
        obtain ⟨dropped, more, u, rfl, hdrop, hnext⟩ := Proc.runs_bind_iff.mp hk
        obtain ⟨r, rfl⟩ := Proc.runs_dropReceiver_iff.mp hdrop
        obtain ⟨r₂, acc₂⟩ := ih hnext
        exact ⟨r₂, by simpa [Wait.act, Order.act, Rotation.see] using acc₂⟩

/-- Letting go after the loop does only this: the kill input, while it is held, is drained and
dropped, then the stream is dropped. -/
theorem release_only {P : Effect ω Item → Prop} (drained : ∀ k r, P (.await [.recv k] 0 r))
    (dropped : ∀ k r, P (.order (.dropReceiver k) r)) (closed : ∀ r, P (.order (.dropSender w.out) r))
    (kills : Option Nat) (result : Item)
    : (match kills with
      | some k => do
        drainKills k loopFuel
        Proc.dropReceiver k
        Proc.dropSender w.out
        pure result
      | none => do
        Proc.dropSender w.out
        pure result : Proc ω Item Item).Only P := by
  have dropping : (Proc.dropSender w.out >>= fun _ => (pure result : Proc ω Item Item)).Only P :=
    .bind (.bind (.ask closed) fun _ => .pure _) fun _ => .pure _
  cases kills with
  | some k =>
    exact .bind (drainKills_only k (drained k) _) fun _ =>
      .bind (.bind (.ask (dropped k)) fun _ => .pure _) fun _ => dropping
  | none => exact dropping

theorem release_quiet {kills : Option Nat} {result y : Item} {es : List (Effect ω Item)}
    (h : (match kills with
      | some k => do
        drainKills k loopFuel
        Proc.dropReceiver k
        Proc.dropSender w.out
        pure result
      | none => do
        Proc.dropSender w.out
        pure result : Proc ω Item Item).Runs es y)
    : ∀ x ∈ es.filterMap Effect.act, ¬ x.hands := by
  intro x hx
  obtain ⟨e, he, hact⟩ := List.mem_filterMap.mp hx
  refine release_only (P := Effect.ActsWithin fun a => ¬ a.hands) (fun _ r a ha => ?_)
    (fun _ _ a ha => ?_) (fun _ a ha => ?_) kills result es y h e he x hact
  · cases r <;> cases ha
    exact id
  · cases ha
    exact id
  · cases ha
    exact id

/-- Every run of an automator with no period passes the rotation monitor: the first offer, the
rotation loop after a delivery, and then only draining and letting go, which hand nothing
over. -/
theorem accepts_run {a : Automator} (untimed : a.period = none) {result y : Item}
    {es : List (Effect ω Item)} (h : (a.run w Item.mutant result).Runs es y)
    : ∃ r, Accepts Rotation.see ⟨a, .due⟩ (es.filterMap Effect.act) r := by
  unfold Automator.run at h
  simp only [untimed, Option.map_none] at h
  obtain ⟨offered, rest, ok, rfl, hoffer, h⟩ := Proc.runs_bind_iff.mp h
  obtain ⟨r₁, acc₁, delivered⟩ := accepts_offerMutant hoffer
  cases ok
  · -- nothing was delivered: what follows hands nothing over
    simp only [Bool.false_eq_true, if_false] at h
    obtain ⟨_, released, kills, rfl, hpure, hrel⟩ := Proc.runs_bind_iff.mp h
    obtain ⟨rfl, rfl⟩ := Proc.runs_pure_iff.mp hpure
    obtain ⟨r₂, acc₂⟩ := Rotation.accepts_of_not_hands r₁ (release_quiet hrel)
    exact ⟨r₂, by simpa [List.filterMap_append] using acc₁.append acc₂⟩
  · -- delivered: the rotation loop, then letting go
    simp only [if_true] at h
    obtain ⟨_, more, ticker, rfl, hpure, h⟩ := Proc.runs_bind_iff.mp h
    obtain ⟨rfl, rfl⟩ := Proc.runs_pure_iff.mp hpure
    obtain ⟨looped, tail, kills, rfl, hloop, h⟩ := Proc.runs_bind_iff.mp h
    obtain ⟨_, released, held, rfl, hpure, hrel⟩ := Proc.runs_bind_iff.mp h
    obtain ⟨rfl, rfl⟩ := Proc.runs_pure_iff.mp hpure
    rw [delivered rfl] at acc₁
    obtain ⟨r₂, acc₂⟩ := accepts_rotationLoop _ hloop
    obtain ⟨r₃, acc₃⟩ := Rotation.accepts_of_not_hands r₂ (release_quiet hrel)
    exact ⟨r₃, by simpa [List.filterMap_append] using (acc₁.append acc₂).append acc₃⟩

/-- An automator with no period delivers the first mutants of its rotation, in order, and at
every point of its run it has delivered at most one more than the kills it received. -/
theorem rotates_on_kills {a : Automator} (untimed : a.period = none) {result y : Item}
    {es : List (Effect ω Item)} (h : (a.run w Item.mutant result).Runs es y)
    : (∃ n, (es.filterMap Effect.act).filterMap Act.put = (a.rotation n).map Item.mutant)
      ∧ ∀ p q, es.filterMap Effect.act = p ++ q
        → (p.filterMap Act.put).length ≤ (p.filterMap Act.got).length + 1 := by
  obtain ⟨r, accepted⟩ := accepts_run untimed h
  exact ⟨Rotation.delivered_eq_rotation accepted,
    fun _ _ split => Rotation.delivered_le_heard accepted split⟩

/-! ## Every kill heard while the context lasts is answered at once -/

/-- A wait of the rotation loop that ended on a kill received from `ch` while it watched the
context. -/
def heard (w : Wiring) (ch : Nat) (v : Item) : Effect ω Item :=
  .await [.done w.cx, .recv ch, .never] 1 (.received (some v))

/-- How many mutants the effects `es` delivered. -/
def deliveries (es : List (Effect ω Item)) : Nat :=
  ((es.filterMap Effect.act).filterMap Act.put).length

theorem deliveries_cons (e : Effect ω Item) (es : List (Effect ω Item))
    : deliveries (e :: es) = deliveries es + deliveries [e] := by
  rw [← List.singleton_append]
  simp only [deliveries, List.filterMap_append, List.length_append]
  omega

@[simp] theorem deliveries_heard (ch : Nat) (v : Item)
    : deliveries ([heard w ch v] : List (Effect ω Item)) = 0 := rfl

/-- Every kill the automator started at `a` hears while it watches its context is answered by
the very next effect: an offer, again watching the context, of the mutant after those
delivered so far. -/
def Answers (w : Wiring) (a : Automator) (es : List (Effect ω Item)) : Prop :=
  ∀ p ch v q, es = p ++ heard w ch v :: q → ∃ j o q',
    q = .await [.done w.cx, .send w.out (Item.mutant (Automator.rotate^[deliveries p] a).current)]
      j o :: q'

namespace Answers

variable {a : Automator}

theorem nil (w : Wiring) (a : Automator) : Answers w a ([] : List (Effect ω Item)) := by
  intro p ch v q split
  simp at split

/-- Effects that hear no kill answer every kill they hear. -/
theorem of_deaf {es : List (Effect ω Item)} (deaf : ∀ e ∈ es, ∀ ch v, e ≠ heard w ch v)
    : Answers w a es := by
  intro p ch v q split
  have within : heard w ch v ∈ es := by
    rw [split]
    exact List.mem_append_right p List.mem_cons_self
  exact absurd rfl (deaf _ within ch v)

/-- An effect that hears no kill, in front of effects that answer theirs from the automator it
leaves the rotation at. -/
theorem cons {e : Effect ω Item} {es : List (Effect ω Item)} (deaf : ∀ ch v, e ≠ heard w ch v)
    (tail : Answers w (Automator.rotate^[deliveries [e]] a) es) : Answers w a (e :: es) := by
  intro p ch v q split
  cases p with
  | nil => exact absurd (List.cons.inj split).1 (deaf ch v)
  | cons x p =>
    obtain ⟨rfl, rest⟩ := List.cons.inj split
    obtain ⟨j, o, q', answer⟩ := tail p ch v q rest
    refine ⟨j, o, q', ?_⟩
    rw [answer, deliveries_cons e p, Function.iterate_add_apply]

/-- A kill heard and answered by the very next effect, in front of effects that answer theirs. -/
theorem heard_cons {ch : Nat} {v : Item} {es : List (Effect ω Item)}
    (answer : ∃ j o es', es = .await [.done w.cx, .send w.out (Item.mutant a.current)] j o :: es')
    (tail : Answers w a es) : Answers w a (heard w ch v :: es) := by
  intro p ch' v' q split
  cases p with
  | nil =>
    obtain ⟨-, rfl⟩ := List.cons.inj split
    exact answer
  | cons x p =>
    obtain ⟨rfl, rest⟩ := List.cons.inj split
    obtain ⟨j, o, q', answered⟩ := tail p ch' v' q rest
    refine ⟨j, o, q', ?_⟩
    rw [answered, deliveries_cons _ p, deliveries_heard, Nat.add_zero]

/-- Effects that hear no kill may follow: a kill is never heard last. -/
theorem append_deaf {es₁ es₂ : List (Effect ω Item)} (first : Answers w a es₁)
    (deaf : ∀ e ∈ es₂, ∀ ch v, e ≠ heard w ch v) : Answers w a (es₁ ++ es₂) := by
  intro p ch v q split
  rcases List.append_eq_append_iff.mp split with ⟨c, -, later⟩ | ⟨c, earlier, rest⟩
  · have within : heard w ch v ∈ es₂ := by
      rw [later]
      exact List.mem_append_right c List.mem_cons_self
    exact absurd rfl (deaf _ within ch v)
  · cases c with
    | nil =>
      rw [List.nil_append] at rest
      exact absurd rfl (deaf _ (by rw [← rest]; exact List.mem_cons_self) ch v)
    | cons x c =>
      obtain ⟨rfl, rfl⟩ := List.cons.inj rest
      obtain ⟨j, o, q', answer⟩ := first p ch v c earlier
      exact ⟨j, o, q' ++ es₂, by rw [answer]; rfl⟩

end Answers

/-- The rotation loop of an automator with no period, started at `b` after its delivery,
answers each kill it hears with an offer of the next mutant. By induction on the fuel. -/
theorem answers_rotationLoop (fuel : Nat) {b : Automator} {kills : Option Nat}
    {es : List (Effect ω Item)} {y : Option Nat}
    (h : (rotationLoop w Item.mutant none fuel b kills none).Runs es y) : Answers w b.rotate es := by
  induction fuel generalizing b kills es y with
  | zero =>
    obtain ⟨rfl, -⟩ := Proc.runs_pure_iff.mp h
    exact Answers.nil w _
  | succ fuel ih =>
    unfold rotationLoop at h
    dsimp only at h
    obtain ⟨selected, rest, x, rfl, hsel, hk⟩ := Proc.runs_bind_iff.mp h
    obtain ⟨j, v, ends, rfl, rfl⟩ := Proc.runs_select_iff.mp hsel
    rcases rotationWaits_ends _ none ends with ⟨r, rfl, rfl⟩ | ⟨k, got, rfl, rfl, rfl⟩ | ⟨tk, rfl, ⟨⟩, -⟩
    · -- the context ended: the loop stops
      obtain ⟨rfl, -⟩ := Proc.runs_pure_iff.mp hk
      exact Answers.cons (fun _ _ same => by simp [heard] at same) (Answers.nil w _)
    · cases got with
      | some signal =>
        -- a kill: the offer of the next mutant is the very next effect
        obtain ⟨offered, more, ok, rfl, hoffer, hnext⟩ := Proc.runs_bind_iff.mp hk
        obtain ⟨j', o, rfl, delivered⟩ := runs_offerMutant hoffer
        refine Answers.heard_cons ⟨j', o, more, rfl⟩ ?_
        cases ok
        · obtain ⟨rfl, -⟩ := Proc.runs_pure_iff.mp hnext
          exact Answers.cons (by rintro _ _ ⟨⟩) (Answers.nil w _)
        · obtain ⟨rfl, rfl⟩ := delivered rfl
          exact Answers.cons (by rintro _ _ ⟨⟩) (ih hnext)
      | none =>
        -- the kill input ended: it is let go of, and the loop goes on without it
        obtain ⟨dropped, more, u, rfl, hdrop, hnext⟩ := Proc.runs_bind_iff.mp hk
        obtain ⟨r, rfl⟩ := Proc.runs_dropReceiver_iff.mp hdrop
        exact Answers.cons (by rintro _ _ ⟨⟩) (Answers.cons (by rintro _ _ ⟨⟩) (ih hnext))

/-- Letting go after the loop hears no kill: the drain's waits do not watch the context. -/
theorem release_deaf {kills : Option Nat} {result y : Item} {es : List (Effect ω Item)}
    (h : (match kills with
      | some k => do
        drainKills k loopFuel
        Proc.dropReceiver k
        Proc.dropSender w.out
        pure result
      | none => do
        Proc.dropSender w.out
        pure result : Proc ω Item Item).Runs es y)
    : ∀ e ∈ es, ∀ ch v, e ≠ heard w ch v :=
  release_only (P := fun e => ∀ ch v, e ≠ heard w ch v) (fun _ _ _ _ same => by cases same)
    (fun _ _ _ _ same => by cases same) (fun _ _ _ same => by cases same) kills result es y h

/-- An automator with no period answers each kill it hears while its context lasts, at once,
with an offer of the mutant after those it delivered. The first offer is of the mutant under
test; if it is not delivered, nothing is heard. -/
theorem answers_run {a : Automator} (untimed : a.period = none) {result y : Item}
    {es : List (Effect ω Item)} (h : (a.run w Item.mutant result).Runs es y) : Answers w a es := by
  unfold Automator.run at h
  simp only [untimed, Option.map_none] at h
  obtain ⟨offered, rest, ok, rfl, hoffer, h⟩ := Proc.runs_bind_iff.mp h
  obtain ⟨j, o, rfl, delivered⟩ := runs_offerMutant hoffer
  cases ok
  · simp only [Bool.false_eq_true, if_false] at h
    obtain ⟨_, released, kills, rfl, hpure, hrel⟩ := Proc.runs_bind_iff.mp h
    obtain ⟨rfl, rfl⟩ := Proc.runs_pure_iff.mp hpure
    exact Answers.cons (by rintro _ _ ⟨⟩) (Answers.of_deaf (release_deaf hrel))
  · simp only [if_true] at h
    obtain ⟨_, more, ticker, rfl, hpure, h⟩ := Proc.runs_bind_iff.mp h
    obtain ⟨rfl, rfl⟩ := Proc.runs_pure_iff.mp hpure
    obtain ⟨looped, tail, kills, rfl, hloop, h⟩ := Proc.runs_bind_iff.mp h
    obtain ⟨_, released, held, rfl, hpure, hrel⟩ := Proc.runs_bind_iff.mp h
    obtain ⟨rfl, rfl⟩ := Proc.runs_pure_iff.mp hpure
    obtain ⟨rfl, rfl⟩ := delivered rfl
    exact Answers.cons (by rintro _ _ ⟨⟩)
      ((answers_rotationLoop _ hloop).append_deaf (release_deaf hrel))

end Mutation

end Campaign
