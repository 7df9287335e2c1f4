import Mathlib
import Campaign.Async.Routine

/-! Runs of a task against any environment: every question the task asks is answered freely,
except that a wait ends on one of its branches with the kind of answer that branch gives. A run
is the list of effects with their answers, and a routine's run also records its calls.
-/

namespace Campaign

namespace Async

variable {ω ν : Type}

/-- Whether a wait may end on branch `w` with answer `r`: each branch ends with its own kind
of answer, and `never` does not end. -/
def Wait.Fits : Wait ν → Woke ν → Prop
  | .recv _, .received _ => True
  | .send _ _, .sent _ => True
  | .timer _, .elapsed => True
  | .sleepUntil _, .elapsed => True
  | .done _, .done _ => True
  | .join _, .joined _ => True
  | .file, .ready => True
  | .yield, .ready => True
  | _, _ => False

/-- One effect of a task, with the answer it got. -/
inductive Effect (ω ν : Type) : Type 1 where
  | touch
  | order (o : Order ν) (r : Reply ν)
  | spawn (body : Proc ω ν ν) (task : Nat)
  /-- A wait that ended on branch `j` with answer `w`. -/
  | await (ws : List (Wait ν)) (j : Nat) (w : Woke ν)

/-- The wait of `ws` may end on branch `j` with answer `w`. -/
def Wait.Ends (ws : List (Wait ν)) (j : Nat) (w : Woke ν) : Prop :=
  ∃ b, ws[j]? = some b ∧ b.Fits w

/-- An effect that waits on at most one thing and arms no timer: file work and the keeping of
channels, signals and tasks are all of this kind. -/
def Effect.Modest : Effect ω ν → Prop
  | .await ws _ _ => ws.length ≤ 1
  | .order (.timer _) _ => False
  | _ => True

namespace Proc

/-- `p` can run to its end with result `a`, performing `es`. -/
inductive Runs {α : Type} : Proc ω ν α → List (Effect ω ν) → α → Prop where
  | pure (a : α) : Runs (.pure a) [] a
  | touch {β : Type} {f : ω → ω × β} {k : β → Proc ω ν α} {es : List (Effect ω ν)} {a : α}
      (b : β) : Runs (k b) es a → Runs (.touch f k) (.touch :: es) a
  | order {o : Order ν} {k : Reply ν → Proc ω ν α} {es : List (Effect ω ν)} {a : α}
      (r : Reply ν) : Runs (k r) es a → Runs (.order o k) (.order o r :: es) a
  | spawn {body : Proc ω ν ν} {k : Nat → Proc ω ν α} {es : List (Effect ω ν)} {a : α}
      (i : Nat) : Runs (k i) es a → Runs (.spawn body k) (.spawn body i :: es) a
  | await {ws : List (Wait ν)} {k : Nat → Woke ν → Proc ω ν α} {es : List (Effect ω ν)} {a : α}
      (j : Nat) (w : Woke ν) (ends : Wait.Ends ws j w) :
      Runs (k j w) es a → Runs (.await ws k) (.await ws j w :: es) a

variable {α β : Type}

theorem runs_pure_iff {a b : α} {es : List (Effect ω ν)}
    : Runs (.pure a : Proc ω ν α) es b ↔ es = [] ∧ b = a := by
  constructor
  · intro h
    cases h
    exact ⟨rfl, rfl⟩
  · rintro ⟨rfl, rfl⟩
    exact .pure _

theorem runs_touch_iff {f : ω → ω × β} {k : β → Proc ω ν α} {es : List (Effect ω ν)} {a : α}
    : Runs (.touch f k) es a ↔ ∃ b rest, es = .touch :: rest ∧ Runs (k b) rest a := by
  constructor
  · intro h
    cases h with
    | touch b rest => exact ⟨b, _, rfl, rest⟩
  · rintro ⟨b, rest, rfl, h⟩
    exact .touch b h

theorem runs_order_iff {o : Order ν} {k : Reply ν → Proc ω ν α} {es : List (Effect ω ν)}
    {a : α}
    : Runs (.order o k) es a ↔ ∃ r rest, es = .order o r :: rest ∧ Runs (k r) rest a := by
  constructor
  · intro h
    cases h with
    | order r rest => exact ⟨r, _, rfl, rest⟩
  · rintro ⟨r, rest, rfl, h⟩
    exact .order r h

theorem runs_spawn_iff {body : Proc ω ν ν} {k : Nat → Proc ω ν α} {es : List (Effect ω ν)}
    {a : α}
    : Runs (.spawn body k) es a ↔ ∃ i rest, es = .spawn body i :: rest ∧ Runs (k i) rest a := by
  constructor
  · intro h
    cases h with
    | spawn i rest => exact ⟨i, _, rfl, rest⟩
  · rintro ⟨i, rest, rfl, h⟩
    exact .spawn i h

theorem runs_await_iff {ws : List (Wait ν)} {k : Nat → Woke ν → Proc ω ν α}
    {es : List (Effect ω ν)} {a : α}
    : Runs (.await ws k) es a
      ↔ ∃ j w rest, Wait.Ends ws j w ∧ es = .await ws j w :: rest ∧ Runs (k j w) rest a := by
  constructor
  · intro h
    cases h with
    | await j w ends rest => exact ⟨j, w, _, ends, rfl, rest⟩
  · rintro ⟨j, w, rest, ends, rfl, h⟩
    exact .await j w ends h

/-- A wait on one thing ends on that branch, with an answer that fits it. -/
theorem Wait.ends_singleton_iff {w : Wait ν} {j : Nat} {r : Woke ν}
    : Wait.Ends [w] j r ↔ j = 0 ∧ w.Fits r := by
  unfold Wait.Ends
  cases j <;> simp

/-- Waiting on one thing and going on with its answer: the wait ends with an answer that fits,
and the rest is a run of what follows on that answer. -/
theorem runs_wait_bind_iff {w : Wait ν} {f : Woke ν → Proc ω ν α} {es : List (Effect ω ν)}
    {a : α}
    : Runs (Proc.wait w >>= f) es a
      ↔ ∃ r rest, w.Fits r ∧ es = .await [w] 0 r :: rest ∧ Runs (f r) rest a := by
  change Runs (.await [w] fun _ r => f r) es a ↔ _
  rw [runs_await_iff]
  constructor
  · rintro ⟨j, r, rest, ends, rfl, h⟩
    obtain ⟨rfl, fits⟩ := Wait.ends_singleton_iff.mp ends
    exact ⟨r, rest, fits, rfl, h⟩
  · rintro ⟨r, rest, fits, rfl, h⟩
    exact ⟨0, r, rest, Wait.ends_singleton_iff.mpr ⟨rfl, fits⟩, rfl, h⟩

/-- A run of `p.bind f` is a run of `p` followed by a run of `f` on its result, by induction
on `p`. -/
theorem runs_bind_iff {p : Proc ω ν α} {f : α → Proc ω ν β} {es : List (Effect ω ν)} {b : β}
    : Runs (p.bind f) es b
      ↔ ∃ first rest a, es = first ++ rest ∧ Runs p first a ∧ Runs (f a) rest b := by
  induction p generalizing es with
  | pure a =>
    constructor
    · intro h
      exact ⟨[], es, a, rfl, .pure a, h⟩
    · rintro ⟨first, rest, a', rfl, hp, hf⟩
      obtain ⟨rfl, rfl⟩ := runs_pure_iff.mp hp
      exact hf
  | touch g k ih =>
    simp only [Proc.bind, runs_touch_iff]
    constructor
    · rintro ⟨x, tail, rfl, h⟩
      obtain ⟨first, rest, a, rfl, hp, hf⟩ := (ih x).mp h
      exact ⟨.touch :: first, rest, a, rfl, ⟨x, first, rfl, hp⟩, hf⟩
    · rintro ⟨first, rest, a, rfl, ⟨x, tail, rfl, hp⟩, hf⟩
      exact ⟨x, tail ++ rest, rfl, (ih x).mpr ⟨tail, rest, a, rfl, hp, hf⟩⟩
  | order o k ih =>
    simp only [Proc.bind, runs_order_iff]
    constructor
    · rintro ⟨r, tail, rfl, h⟩
      obtain ⟨first, rest, a, rfl, hp, hf⟩ := (ih r).mp h
      exact ⟨.order o r :: first, rest, a, rfl, ⟨r, first, rfl, hp⟩, hf⟩
    · rintro ⟨first, rest, a, rfl, ⟨r, tail, rfl, hp⟩, hf⟩
      exact ⟨r, tail ++ rest, rfl, (ih r).mpr ⟨tail, rest, a, rfl, hp, hf⟩⟩
  | spawn body k _ ih =>
    simp only [Proc.bind, runs_spawn_iff]
    constructor
    · rintro ⟨i, tail, rfl, h⟩
      obtain ⟨first, rest, a, rfl, hp, hf⟩ := (ih i).mp h
      exact ⟨.spawn body i :: first, rest, a, rfl, ⟨i, first, rfl, hp⟩, hf⟩
    · rintro ⟨first, rest, a, rfl, ⟨i, tail, rfl, hp⟩, hf⟩
      exact ⟨i, tail ++ rest, rfl, (ih i).mpr ⟨tail, rest, a, rfl, hp, hf⟩⟩
  | await ws k ih =>
    simp only [Proc.bind, runs_await_iff]
    constructor
    · rintro ⟨j, w, tail, ends, rfl, h⟩
      obtain ⟨first, rest, a, rfl, hp, hf⟩ := (ih j w).mp h
      exact ⟨.await ws j w :: first, rest, a, rfl, ⟨j, w, first, ends, rfl, hp⟩, hf⟩
    · rintro ⟨first, rest, a, rfl, ⟨j, w, tail, ends, rfl, hp⟩, hf⟩
      exact ⟨j, w, tail ++ rest, ends, rfl, (ih j w).mpr ⟨tail, rest, a, rfl, hp, hf⟩⟩

/-- An order whose answer is the result, read through `g`. -/
theorem runs_ask_iff {o : Order ν} {g : Reply ν → α} {es : List (Effect ω ν)} {a : α}
    : Runs (.order o fun r => .pure (g r)) es a ↔ ∃ r, es = [.order o r] ∧ a = g r := by
  simp only [runs_order_iff, runs_pure_iff]
  constructor
  · rintro ⟨r, rest, rfl, rfl, rfl⟩
    exact ⟨r, rfl, rfl⟩
  · rintro ⟨r, rfl, rfl⟩
    exact ⟨r, [], rfl, rfl, rfl⟩

/-- A file operation waits for its turn, which comes as `ready`, and then touches the state;
what it reads is any value. -/
theorem runs_file_iff {f : ω → ω × β} {es : List (Effect ω ν)} {b : β}
    : Runs (Proc.file f : Proc ω ν _) es b ↔ es = [.await [.file] 0 .ready, .touch] := by
  constructor
  · intro runs
    obtain ⟨j, w, rest, ends, rfl, touched⟩ := runs_await_iff.mp runs
    obtain ⟨rfl, fits⟩ := Wait.ends_singleton_iff.mp ends
    obtain ⟨x, rest', rfl, done⟩ := runs_touch_iff.mp touched
    obtain ⟨rfl, -⟩ := runs_pure_iff.mp done
    cases w <;> simp only [Wait.Fits] at fits
    rfl
  · rintro rfl
    exact .await 0 .ready ⟨_, rfl, trivial⟩ (.touch b (.pure _))

theorem runs_select_iff {ws : List (Wait ν)} {es : List (Effect ω ν)} {x : Nat × Woke ν}
    : Runs (Proc.select ws : Proc ω ν _) es x
      ↔ ∃ j w, Wait.Ends ws j w ∧ es = [.await ws j w] ∧ x = (j, w) := by
  simp only [Proc.select, runs_await_iff, runs_pure_iff]
  constructor
  · rintro ⟨j, w, rest, ends, rfl, rfl, rfl⟩
    exact ⟨j, w, ends, rfl, rfl⟩
  · rintro ⟨j, w, ends, rfl, rfl⟩
    exact ⟨j, w, [], ends, rfl, rfl, rfl⟩

theorem runs_err_iff {cx : Context} {es : List (Effect ω ν)} {a : Option Cancelled}
    : Runs (Proc.err cx : Proc ω ν _) es a ↔ ∃ r, es = [.order (.err cx) r] ∧ a = r.asEnded :=
  runs_ask_iff

theorem runs_now_iff {es : List (Effect ω ν)} {a : Nat}
    : Runs (Proc.now : Proc ω ν _) es a ↔ ∃ r, es = [.order .now r] ∧ a = r.asId :=
  runs_ask_iff

theorem runs_timer_iff {d : Nat} {es : List (Effect ω ν)} {a : Nat}
    : Runs (Proc.timer d : Proc ω ν _) es a ↔ ∃ r, es = [.order (.timer d) r] ∧ a = r.asId :=
  runs_ask_iff

theorem runs_channel_iff {n : Nat} {es : List (Effect ω ν)} {a : Nat}
    : Runs (Proc.channel n : Proc ω ν _) es a ↔ ∃ r, es = [.order (.channel n) r] ∧ a = r.asId :=
  runs_ask_iff

theorem runs_signal_iff {es : List (Effect ω ν)} {a : Nat}
    : Runs (Proc.signal : Proc ω ν _) es a ↔ ∃ r, es = [.order .signal r] ∧ a = r.asId :=
  runs_ask_iff

theorem runs_abort_iff {t : Nat} {es : List (Effect ω ν)} {u : Unit}
    : Runs (Proc.abort t : Proc ω ν _) es u ↔ ∃ r, es = [.order (.abort t) r] :=
  runs_ask_iff.trans (by simp)

theorem runs_dropTimer_iff {t : Nat} {es : List (Effect ω ν)} {u : Unit}
    : Runs (Proc.dropTimer t : Proc ω ν _) es u ↔ ∃ r, es = [.order (.dropTimer t) r] :=
  runs_ask_iff.trans (by simp)

theorem runs_dropReceiver_iff {ch : Nat} {es : List (Effect ω ν)} {u : Unit}
    : Runs (Proc.dropReceiver ch : Proc ω ν _) es u ↔ ∃ r, es = [.order (.dropReceiver ch) r] :=
  runs_ask_iff.trans (by simp)

theorem runs_cloneSender_iff {ch : Nat} {es : List (Effect ω ν)} {u : Unit}
    : Runs (Proc.cloneSender ch : Proc ω ν _) es u ↔ ∃ r, es = [.order (.cloneSender ch) r] :=
  runs_ask_iff.trans (by simp)

theorem runs_dropSender_iff {ch : Nat} {es : List (Effect ω ν)} {u : Unit}
    : Runs (Proc.dropSender ch : Proc ω ν _) es u ↔ ∃ r, es = [.order (.dropSender ch) r] :=
  runs_ask_iff.trans (by simp)

theorem runs_start_iff {body : Proc ω ν ν} {es : List (Effect ω ν)} {i : Nat}
    : Runs (Proc.start body) es i ↔ es = [.spawn body i] := by
  simp only [Proc.start, runs_spawn_iff, runs_pure_iff]
  constructor
  · rintro ⟨i', rest, rfl, rfl, rfl⟩
    rfl
  · rintro rfl
    exact ⟨i, [], rfl, rfl, rfl⟩

/-- Waiting for a task ends only when it has ended, with how it ended. -/
theorem runs_join_iff {t : Nat} {es : List (Effect ω ν)} {o : Joined ν}
    : Runs (Proc.join t : Proc ω ν _) es o ↔ es = [.await [.join t] 0 (.joined o)] := by
  unfold Proc.join
  rw [runs_wait_bind_iff]
  constructor
  · rintro ⟨w, rest, fits, rfl, h⟩
    cases w <;> simp only [Wait.Fits] at fits
    obtain ⟨rfl, rfl⟩ := runs_pure_iff.mp h
    rfl
  · rintro rfl
    exact ⟨.joined o, [], trivial, rfl, .pure o⟩

theorem runs_raise_iff {s : Nat} {es : List (Effect ω ν)} {u : Unit}
    : Runs (Proc.raise s : Proc ω ν _) es u ↔ ∃ r, es = [.order (.raise s) r] :=
  runs_ask_iff.trans (by simp)

/-- A receive ends only on its channel, with an item or with the channel's end. -/
theorem runs_recv_iff {ch : Nat} {es : List (Effect ω ν)} {v : Option ν}
    : Runs (Proc.recv ch : Proc ω ν _) es v ↔ es = [.await [.recv ch] 0 (.received v)] := by
  unfold Proc.recv
  rw [runs_wait_bind_iff]
  constructor
  · rintro ⟨w, rest, fits, rfl, h⟩
    cases w <;> simp only [Wait.Fits] at fits
    obtain ⟨rfl, rfl⟩ := runs_pure_iff.mp h
    rfl
  · rintro rfl
    exact ⟨.received v, [], trivial, rfl, .pure v⟩

/-- A send ends only on its channel, delivered or refused. -/
theorem runs_send_iff {ch : Nat} {item : ν} {es : List (Effect ω ν)} {ok : Bool}
    : Runs (Proc.send ch item : Proc ω ν _) es ok ↔ es = [.await [.send ch item] 0 (.sent ok)] := by
  unfold Proc.send
  rw [runs_wait_bind_iff]
  constructor
  · rintro ⟨w, rest, fits, rfl, h⟩
    cases w <;> simp only [Wait.Fits] at fits
    obtain ⟨rfl, rfl⟩ := runs_pure_iff.mp h
    rfl
  · rintro rfl
    exact ⟨.sent ok, [], trivial, rfl, .pure ok⟩

/-- A task that panics never ends a run: what follows the panic waits for nothing. -/
theorem not_runs_panic [Inhabited α] {es : List (Effect ω ν)} {a : α}
    : ¬ Runs (Proc.panic : Proc ω ν α) es a := by
  intro h
  obtain ⟨asked, rest, r, rfl, -, waited⟩ := runs_bind_iff.mp h
  obtain ⟨w, more, fits, -, -⟩ := runs_wait_bind_iff.mp waited
  cases w <;> exact fits

/-- Waiting for a context ends only when it is done, with why. -/
theorem runs_done_iff {cx : Context} {es : List (Effect ω ν)} {r : Cancelled}
    : Runs (Proc.done cx : Proc ω ν _) es r ↔ es = [.await [.done cx] 0 (.done r)] := by
  unfold Proc.done
  rw [runs_wait_bind_iff]
  constructor
  · rintro ⟨w, rest, fits, rfl, h⟩
    cases w <;> simp only [Wait.Fits] at fits
    obtain ⟨rfl, rfl⟩ := runs_pure_iff.mp h
    rfl
  · rintro rfl
    exact ⟨.done r, [], trivial, rfl, .pure r⟩

/-! ### Programs that do one kind of thing -/

/-- Every effect of every run of `p` satisfies `P`. -/
def Only (P : Effect ω ν → Prop) (p : Proc ω ν α) : Prop :=
  ∀ es a, Runs p es a → ∀ e ∈ es, P e

namespace Only

variable {P : Effect ω ν → Prop}

theorem pure (a : α) : (Proc.pure a : Proc ω ν α).Only P := by
  intro es b h
  obtain ⟨rfl, -⟩ := runs_pure_iff.mp h
  simp

theorem bind {p : Proc ω ν α} {f : α → Proc ω ν β} (hp : p.Only P) (hf : ∀ a, (f a).Only P)
    : (p >>= f).Only P := by
  intro es b h e he
  obtain ⟨first, rest, a, rfl, h₁, h₂⟩ := runs_bind_iff.mp h
  rcases List.mem_append.mp he with he | he
  · exact hp _ _ h₁ e he
  · exact hf a _ _ h₂ e he

theorem touch {f : ω → ω × β} {k : β → Proc ω ν α} (now : P .touch) (hk : ∀ b, (k b).Only P)
    : (Proc.touch f k).Only P := by
  intro es a h e he
  obtain ⟨b, rest, rfl, later⟩ := runs_touch_iff.mp h
  rcases List.mem_cons.mp he with rfl | he
  · exact now
  · exact hk b _ _ later e he

theorem order {o : Order ν} {k : Reply ν → Proc ω ν α} (now : ∀ r, P (.order o r))
    (hk : ∀ r, (k r).Only P) : (Proc.order o k).Only P := by
  intro es a h e he
  obtain ⟨r, rest, rfl, later⟩ := runs_order_iff.mp h
  rcases List.mem_cons.mp he with rfl | he
  · exact now r
  · exact hk r _ _ later e he

theorem spawn {body : Proc ω ν ν} {k : Nat → Proc ω ν α} (now : ∀ i, P (.spawn body i))
    (hk : ∀ i, (k i).Only P) : (Proc.spawn body k).Only P := by
  intro es a h e he
  obtain ⟨i, rest, rfl, later⟩ := runs_spawn_iff.mp h
  rcases List.mem_cons.mp he with rfl | he
  · exact now i
  · exact hk i _ _ later e he

theorem await {ws : List (Wait ν)} {k : Nat → Woke ν → Proc ω ν α}
    (now : ∀ j w, Wait.Ends ws j w → P (.await ws j w)) (hk : ∀ j w, (k j w).Only P)
    : (Proc.await ws k).Only P := by
  intro es a h e he
  obtain ⟨j, w, rest, ends, rfl, later⟩ := runs_await_iff.mp h
  rcases List.mem_cons.mp he with rfl | he
  · exact now j w ends
  · exact hk j w _ _ later e he

theorem ask {o : Order ν} (now : ∀ r, P (.order o r)) : (Proc.ask o : Proc ω ν _).Only P :=
  order now fun _ => pure _

theorem wait {w : Wait ν} (now : ∀ r, P (.await [w] 0 r)) : (Proc.wait w : Proc ω ν _).Only P :=
  await (fun j r ⟨_, hb, _⟩ => by
    match j, hb with
    | 0, _ => exact now r) fun _ _ => pure _

/-- A file operation waits for its turn and then updates the state. -/
theorem file {f : ω → ω × β} (waiting : ∀ r, P (.await [.file] 0 r)) (updating : P .touch)
    : (Proc.file f : Proc ω ν β).Only P :=
  bind (wait waiting) fun _ => touch updating fun _ => pure _

end Only

/-- Every run of `p` ends with a result satisfying `Q`. -/
def Yields (Q : α → Prop) (p : Proc ω ν α) : Prop := ∀ es a, Runs p es a → Q a

namespace Yields

variable {Q : α → Prop} {R : β → Prop}

theorem pure {a : α} (ha : Q a) : (Proc.pure a : Proc ω ν α).Yields Q := by
  intro es b h
  obtain ⟨-, rfl⟩ := runs_pure_iff.mp h
  exact ha

/-- The results of a bind, from what its first part may give. -/
theorem bind {p : Proc ω ν α} {f : α → Proc ω ν β} (hp : p.Yields Q) (hf : ∀ a, Q a → (f a).Yields R)
    : (p >>= f).Yields R := by
  intro es b h
  obtain ⟨first, rest, a, -, h₁, h₂⟩ := runs_bind_iff.mp h
  exact hf a (hp _ _ h₁) _ _ h₂

/-- Anything at all is yielded. -/
theorem any (p : Proc ω ν α) : p.Yields fun _ => True := fun _ _ _ => trivial

end Yields

/-- A bind does one kind of thing when its first part does, and its second part does from every
result the first may give. -/
theorem Only.bind_yields {P : Effect ω ν → Prop} {Q : α → Prop} {p : Proc ω ν α}
    {f : α → Proc ω ν β} (hp : p.Only P) (yields : p.Yields Q) (hf : ∀ a, Q a → (f a).Only P)
    : (p >>= f).Only P := by
  intro es b h e he
  obtain ⟨first, rest, a, rfl, h₁, h₂⟩ := runs_bind_iff.mp h
  rcases List.mem_append.mp he with he | he
  · exact hp _ _ h₁ e he
  · exact hf a (yields _ _ h₁) _ _ h₂ e he

end Proc

/-- One step of a routine's run: an effect of its own code, or a call with its answer. -/
inductive Routine.Event (F : Type → Type 1) (ω ν : Type) : Type 1 where
  | effect (e : Effect ω ν)
  | call {β : Type} (c : F β) (answer : β)

namespace Routine

variable {F : Type → Type 1} {α β : Type}

/-- `r` can run to its end with result `a`, taking the steps `evs`. -/
inductive Runs {α : Type} : Routine F ω ν α → List (Event F ω ν) → α → Prop where
  | pure (a : α) : Runs (.pure a) [] a
  | run {β : Type} {p : Proc ω ν β} {k : β → Routine F ω ν α} {es : List (Effect ω ν)}
      {evs : List (Event F ω ν)} {a : α} {b : β} :
      p.Runs es b → Runs (k b) evs a → Runs (.run p k) (es.map .effect ++ evs) a
  | call {β : Type} {c : F β} {k : β → Routine F ω ν α} {evs : List (Event F ω ν)} {a : α}
      (b : β) : Runs (k b) evs a → Runs (.call c k) (.call c b :: evs) a

theorem runs_pure_iff {a b : α} {evs : List (Event F ω ν)}
    : Runs (.pure a : Routine F ω ν α) evs b ↔ evs = [] ∧ b = a := by
  constructor
  · intro h
    cases h
    exact ⟨rfl, rfl⟩
  · rintro ⟨rfl, rfl⟩
    exact .pure _

theorem runs_run_iff {p : Proc ω ν β} {k : β → Routine F ω ν α} {evs : List (Event F ω ν)}
    {a : α}
    : Runs (.run p k) evs a
      ↔ ∃ es rest b, evs = es.map .effect ++ rest ∧ p.Runs es b ∧ Runs (k b) rest a := by
  constructor
  · intro h
    cases h with
    | run hp hk => exact ⟨_, _, _, rfl, hp, hk⟩
  · rintro ⟨es, rest, b, rfl, hp, hk⟩
    exact .run hp hk

theorem runs_call_iff {c : F β} {k : β → Routine F ω ν α} {evs : List (Event F ω ν)} {a : α}
    : Runs (.call c k) evs a ↔ ∃ b rest, evs = .call c b :: rest ∧ Runs (k b) rest a := by
  constructor
  · intro h
    cases h with
    | call b hk => exact ⟨b, _, rfl, hk⟩
  · rintro ⟨b, rest, rfl, hk⟩
    exact .call b hk

/-- A run of `r.bind f` is a run of `r` followed by a run of `f` on its result, by induction
on `r`. -/
theorem runs_bind_iff {γ : Type} {r : Routine F ω ν α} {f : α → Routine F ω ν γ}
    {evs : List (Event F ω ν)} {c : γ}
    : Runs (r.bind f) evs c
      ↔ ∃ first rest a, evs = first ++ rest ∧ Runs r first a ∧ Runs (f a) rest c := by
  induction r generalizing evs with
  | pure a =>
    constructor
    · intro h
      exact ⟨[], evs, a, rfl, .pure a, h⟩
    · rintro ⟨first, rest, a', rfl, hr, hf⟩
      obtain ⟨rfl, rfl⟩ := runs_pure_iff.mp hr
      exact hf
  | run p k ih =>
    simp only [Routine.bind, runs_run_iff]
    constructor
    · rintro ⟨es, tail, b, rfl, hp, h⟩
      obtain ⟨first, rest, a, rfl, hk, hf⟩ := (ih b).mp h
      exact ⟨es.map .effect ++ first, rest, a, by simp, ⟨es, first, b, rfl, hp, hk⟩, hf⟩
    · rintro ⟨first, rest, a, rfl, ⟨es, tail, b, rfl, hp, hk⟩, hf⟩
      exact ⟨es, tail ++ rest, b, by simp, hp, (ih b).mpr ⟨tail, rest, a, rfl, hk, hf⟩⟩
  | call c k ih =>
    simp only [Routine.bind, runs_call_iff]
    constructor
    · rintro ⟨b, tail, rfl, h⟩
      obtain ⟨first, rest, a, rfl, hk, hf⟩ := (ih b).mp h
      exact ⟨.call c b :: first, rest, a, rfl, ⟨b, first, rfl, hk⟩, hf⟩
    · rintro ⟨first, rest, a, rfl, ⟨b, tail, rfl, hk⟩, hf⟩
      exact ⟨b, tail ++ rest, rfl, (ih b).mpr ⟨tail, rest, a, rfl, hk, hf⟩⟩

/-- Running a piece of the task's own code is running that code. -/
theorem runs_lift_iff {p : Proc ω ν β} {evs : List (Event F ω ν)} {b : β}
    : Runs (lift p : Routine F ω ν β) evs b ↔ ∃ es, evs = es.map .effect ∧ p.Runs es b := by
  simp only [lift, runs_run_iff, runs_pure_iff]
  constructor
  · rintro ⟨es, rest, b', rfl, hp, rfl, rfl⟩
    exact ⟨es, by simp, hp⟩
  · rintro ⟨es, rfl, hp⟩
    exact ⟨es, [], b, by simp, hp, rfl, rfl⟩

/-- A call is one step, answered with its result. -/
theorem runs_invoke_iff {c : F β} {evs : List (Event F ω ν)} {b : β}
    : Runs (invoke c : Routine F ω ν β) evs b ↔ evs = [.call c b] := by
  simp only [invoke, runs_call_iff, runs_pure_iff]
  constructor
  · rintro ⟨b', rest, rfl, rfl, rfl⟩
    rfl
  · rintro rfl
    exact ⟨b, [], rfl, rfl, rfl⟩

/-- Whatever result a routine gives once its calls are filled in, it gives as a routine, by
induction on the routine: the code of a call only supplies the call's answer. -/
theorem runs_of_toProc {perform : {β : Type} → F β → Proc ω ν β}
    : ∀ {r : Routine F ω ν α} {es : List (Effect ω ν)} {a : α},
      (r.toProc perform).Runs es a → ∃ evs, Runs r evs a := by
  intro r
  induction r with
  | pure b =>
    intro es a h
    obtain ⟨-, rfl⟩ := Proc.runs_pure_iff.mp h
    exact ⟨[], .pure _⟩
  | run p k ih =>
    intro es a h
    obtain ⟨first, rest, b, -, hp, hk⟩ := Proc.runs_bind_iff.mp h
    obtain ⟨evs, hr⟩ := ih b hk
    exact ⟨_, .run hp hr⟩
  | call c k ih =>
    intro es a h
    obtain ⟨first, rest, b, -, -, hk⟩ := Proc.runs_bind_iff.mp h
    obtain ⟨evs, hr⟩ := ih b hk
    exact ⟨_, .call b hr⟩

end Routine

/-! ## Monitors

A property of runs that looks at one step at a time is a monitor: a state, and a function that
moves the state on a step the property allows and refuses any other. A run has the property
when the monitor accepts each of its steps in turn.
-/

universe u

/-- From state `s`, the monitor `see` accepts each step of `l` and ends in `s'`. -/
def Accepts {σ : Type} {α : Type u} (see : σ → α → Option σ) (s : σ) (l : List α) (s' : σ) :
    Prop :=
  l.foldlM see s = some s'

namespace Accepts

variable {σ : Type} {α : Type u} {see : σ → α → Option σ}

@[simp] theorem nil_iff {s s' : σ} : Accepts see s [] s' ↔ s = s' := by
  simp [Accepts]

@[simp] theorem cons_iff {s s' : σ} {a : α} {l : List α}
    : Accepts see s (a :: l) s' ↔ ∃ t, see s a = some t ∧ Accepts see t l s' := by
  simp [Accepts, List.foldlM_cons, Option.bind_eq_some_iff]

theorem append {s t r : σ} {l l' : List α} (h : Accepts see s l t) (h' : Accepts see t l' r)
    : Accepts see s (l ++ l') r := by
  simp only [Accepts, List.foldlM_append] at *
  simp [h, h']

/-- Every step of an accepted run is one the monitor takes from some state. -/
theorem step_of_mem {s s' : σ} {l : List α} (h : Accepts see s l s') {a : α} (ha : a ∈ l)
    : ∃ t t', see t a = some t' := by
  induction l generalizing s with
  | nil => cases ha
  | cons b l ih =>
    obtain ⟨t, hb, rest⟩ := cons_iff.mp h
    rcases List.mem_cons.mp ha with rfl | ha
    · exact ⟨s, t, hb⟩
    · exact ih rest ha

/-- A run each step of which the monitor takes from `s` back to `s` is accepted from `s` to
`s`. -/
theorem of_stays {s : σ} {l : List α} (h : ∀ a ∈ l, see s a = some s) : Accepts see s l s := by
  induction l with
  | nil => simp
  | cons a l ih =>
    simp only [List.mem_cons, forall_eq_or_imp] at h
    exact cons_iff.mpr ⟨s, h.1, ih h.2⟩

end Accepts

end Async

end Campaign
