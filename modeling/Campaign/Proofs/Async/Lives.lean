import Campaign.Proofs.Async.Runs

/-! Runs in the world (`Lives`): each touch acts on the world the task finds, which other tasks may
have changed, and records it with the world it leaves. Erasing the worlds gives a run
(`Proc.Lives.runs`, `Routine.Lives.runs`), so everything shown of runs holds in the world.
-/

namespace Campaign

namespace Async

variable {ω ν : Type}

/-- One effect of a task in the world: an effect that leaves the world alone, or a touch, with
the world it found and the world it left. -/
inductive Lived (ω ν : Type) : Type 1 where
  | effect (e : Effect ω ν)
  | touched (before after : ω)

/-- What a run records of a lived effect: a touch without its worlds. -/
def Lived.erase : Lived ω ν → Effect ω ν
  | .effect e => e
  | .touched _ _ => .touch

@[simp] theorem Lived.erase_effect (e : Effect ω ν) : (Lived.effect e).erase = e := rfl

@[simp] theorem Lived.erase_touched (w w' : ω) : (Lived.touched w w' : Lived ω ν).erase = .touch :=
  rfl

/-- Lived effects none of which is a touch are the effects they erase to. -/
theorem Lived.eq_of_untouched {ls : List (Lived ω ν)} (h : ∀ e ∈ ls.map Lived.erase, e ≠ .touch)
    : ls = (ls.map Lived.erase).map .effect := by
  induction ls with
  | nil => rfl
  | cons l ls ih =>
    simp only [List.map_cons, List.mem_cons, forall_eq_or_imp] at h ⊢
    obtain ⟨head, rest⟩ := h
    cases l with
    | effect e => exact congrArg _ (ih rest)
    | touched w w' => exact absurd rfl head

namespace Proc

/-- `p` can run to its end in the world with result `a`, living `ls`. -/
inductive Lives {α : Type} : Proc ω ν α → List (Lived ω ν) → α → Prop where
  | pure (a : α) : Lives (.pure a) [] a
  | touch {β : Type} {f : ω → ω × β} {k : β → Proc ω ν α} {ls : List (Lived ω ν)} {a : α}
      (w : ω) : Lives (k (f w).2) ls a → Lives (.touch f k) (.touched w (f w).1 :: ls) a
  | order {o : Order ν} {k : Reply ν → Proc ω ν α} {ls : List (Lived ω ν)} {a : α}
      (r : Reply ν) : Lives (k r) ls a → Lives (.order o k) (.effect (.order o r) :: ls) a
  | spawn {body : Proc ω ν ν} {k : Nat → Proc ω ν α} {ls : List (Lived ω ν)} {a : α}
      (i : Nat) : Lives (k i) ls a → Lives (.spawn body k) (.effect (.spawn body i) :: ls) a
  | await {ws : List (Wait ν)} {k : Nat → Woke ν → Proc ω ν α} {ls : List (Lived ω ν)} {a : α}
      (j : Nat) (w : Woke ν) (ends : Wait.Ends ws j w) :
      Lives (k j w) ls a → Lives (.await ws k) (.effect (.await ws j w) :: ls) a

variable {α β : Type}

/-- Erasing the worlds of a run in the world gives a run. -/
theorem Lives.runs {p : Proc ω ν α} {ls : List (Lived ω ν)} {a : α} (h : Lives p ls a)
    : Runs p (ls.map Lived.erase) a := by
  induction h with
  | pure a => exact .pure a
  | touch w _ ih => exact .touch _ ih
  | order r _ ih => exact .order r ih
  | spawn i _ ih => exact .spawn i ih
  | await j w ends _ ih => exact .await j w ends ih

/-- A run in the world of a program that never touches is one of its runs, step for step. -/
theorem Lives.untouched {p : Proc ω ν α} {ls : List (Lived ω ν)} {a : α} (h : Lives p ls a)
    (untouched : p.Only (· ≠ .touch)) : ∃ es, Runs p es a ∧ ls = es.map .effect :=
  ⟨_, h.runs, Lived.eq_of_untouched (untouched _ _ h.runs)⟩

theorem lives_pure_iff {a b : α} {ls : List (Lived ω ν)}
    : Lives (.pure a : Proc ω ν α) ls b ↔ ls = [] ∧ b = a := by
  constructor
  · intro h
    cases h
    exact ⟨rfl, rfl⟩
  · rintro ⟨rfl, rfl⟩
    exact .pure _

/-- A run in the world of `p.bind f` is one of `p` followed by one of `f` on its result, by
induction on `p`. -/
theorem lives_bind_iff {p : Proc ω ν α} {f : α → Proc ω ν β} {ls : List (Lived ω ν)} {b : β}
    : Lives (p.bind f) ls b
      ↔ ∃ first rest a, ls = first ++ rest ∧ Lives p first a ∧ Lives (f a) rest b := by
  induction p generalizing ls with
  | pure a =>
    constructor
    · intro h
      exact ⟨[], ls, a, rfl, .pure a, h⟩
    · rintro ⟨first, rest, a', rfl, hp, hf⟩
      obtain ⟨rfl, rfl⟩ := lives_pure_iff.mp hp
      exact hf
  | touch g k ih =>
    constructor
    · intro h
      cases h with
      | touch w h =>
        obtain ⟨first, rest, a, rfl, hp, hf⟩ := (ih _).mp h
        exact ⟨_ :: first, rest, a, rfl, .touch w hp, hf⟩
    · rintro ⟨first, rest, a, rfl, hp, hf⟩
      cases hp with
      | touch w hp => exact .touch w ((ih _).mpr ⟨_, rest, a, rfl, hp, hf⟩)
  | order o k ih =>
    constructor
    · intro h
      cases h with
      | order r h =>
        obtain ⟨first, rest, a, rfl, hp, hf⟩ := (ih r).mp h
        exact ⟨_ :: first, rest, a, rfl, .order r hp, hf⟩
    · rintro ⟨first, rest, a, rfl, hp, hf⟩
      cases hp with
      | order r hp => exact .order r ((ih r).mpr ⟨_, rest, a, rfl, hp, hf⟩)
  | spawn body k _ ih =>
    constructor
    · intro h
      cases h with
      | spawn i h =>
        obtain ⟨first, rest, a, rfl, hp, hf⟩ := (ih i).mp h
        exact ⟨_ :: first, rest, a, rfl, .spawn i hp, hf⟩
    · rintro ⟨first, rest, a, rfl, hp, hf⟩
      cases hp with
      | spawn i hp => exact .spawn i ((ih i).mpr ⟨_, rest, a, rfl, hp, hf⟩)
  | await ws k ih =>
    constructor
    · intro h
      cases h with
      | await j w ends h =>
        obtain ⟨first, rest, a, rfl, hp, hf⟩ := (ih j w).mp h
        exact ⟨_ :: first, rest, a, rfl, .await j w ends hp, hf⟩
    · rintro ⟨first, rest, a, rfl, hp, hf⟩
      cases hp with
      | await j w ends hp => exact .await j w ends ((ih j w).mpr ⟨_, rest, a, rfl, hp, hf⟩)

theorem lives_touch_iff {f : ω → ω × β} {k : β → Proc ω ν α} {ls : List (Lived ω ν)} {a : α}
    : Lives (.touch f k) ls a ↔ ∃ w rest, ls = .touched w (f w).1 :: rest ∧ Lives (k (f w).2) rest a := by
  constructor
  · intro h
    cases h with
    | touch w rest => exact ⟨w, _, rfl, rest⟩
  · rintro ⟨w, rest, rfl, h⟩
    exact .touch w h

theorem lives_order_iff {o : Order ν} {k : Reply ν → Proc ω ν α} {ls : List (Lived ω ν)} {a : α}
    : Lives (.order o k) ls a ↔ ∃ r rest, ls = .effect (.order o r) :: rest ∧ Lives (k r) rest a := by
  constructor
  · intro h
    cases h with
    | order r rest => exact ⟨r, _, rfl, rest⟩
  · rintro ⟨r, rest, rfl, h⟩
    exact .order r h

theorem lives_await_iff {ws : List (Wait ν)} {k : Nat → Woke ν → Proc ω ν α}
    {ls : List (Lived ω ν)} {a : α}
    : Lives (.await ws k) ls a
      ↔ ∃ j w rest, Wait.Ends ws j w ∧ ls = .effect (.await ws j w) :: rest ∧ Lives (k j w) rest a := by
  constructor
  · intro h
    cases h with
    | await j w ends rest => exact ⟨j, w, _, ends, rfl, rest⟩
  · rintro ⟨j, w, rest, ends, rfl, h⟩
    exact .await j w ends h

/-- Waiting on one thing and going on with its answer, in the world. -/
theorem lives_wait_bind_iff {w : Wait ν} {f : Woke ν → Proc ω ν α} {ls : List (Lived ω ν)}
    {a : α}
    : Lives (Proc.wait w >>= f) ls a
      ↔ ∃ r rest, w.Fits r ∧ ls = .effect (.await [w] 0 r) :: rest ∧ Lives (f r) rest a := by
  change Lives (.await [w] fun _ r => f r) ls a ↔ _
  rw [lives_await_iff]
  constructor
  · rintro ⟨j, r, rest, ends, rfl, h⟩
    obtain ⟨rfl, fits⟩ := Wait.ends_singleton_iff.mp ends
    exact ⟨r, rest, fits, rfl, h⟩
  · rintro ⟨r, rest, fits, rfl, h⟩
    exact ⟨0, r, rest, Wait.ends_singleton_iff.mpr ⟨rfl, fits⟩, rfl, h⟩

/-- A touch that answers finds a world, leaves what `f` makes of it and answers what `f`
reads from it. -/
theorem lives_update_iff {f : ω → ω × β} {ls : List (Lived ω ν)} {b : β}
    : Lives (Proc.update f : Proc ω ν β) ls b ↔ ∃ w, ls = [.touched w (f w).1] ∧ b = (f w).2 := by
  simp only [Proc.update, lives_touch_iff, lives_pure_iff]
  constructor
  · rintro ⟨w, rest, rfl, rfl, rfl⟩
    exact ⟨w, rfl, rfl⟩
  · rintro ⟨w, rfl, rfl⟩
    exact ⟨w, [], rfl, rfl, rfl⟩

theorem lives_modify_iff {f : ω → ω} {ls : List (Lived ω ν)} {u : Unit}
    : Lives (Proc.modify f : Proc ω ν Unit) ls u ↔ ∃ w, ls = [.touched w (f w)] :=
  lives_update_iff.trans (by simp)

/-- An order whose answer is the result, read through `g`. -/
theorem lives_ask_iff {o : Order ν} {g : Reply ν → α} {ls : List (Lived ω ν)} {a : α}
    : Lives (.order o fun r => .pure (g r)) ls a ↔ ∃ r, ls = [.effect (.order o r)] ∧ a = g r := by
  simp only [lives_order_iff, lives_pure_iff]
  constructor
  · rintro ⟨r, rest, rfl, rfl, rfl⟩
    exact ⟨r, rfl, rfl⟩
  · rintro ⟨r, rfl, rfl⟩
    exact ⟨r, [], rfl, rfl, rfl⟩

theorem lives_cloneSender_iff {ch : Nat} {ls : List (Lived ω ν)} {u : Unit}
    : Lives (Proc.cloneSender ch : Proc ω ν _) ls u ↔ ∃ r, ls = [.effect (.order (.cloneSender ch) r)] :=
  lives_ask_iff.trans (by simp)

theorem lives_dropSender_iff {ch : Nat} {ls : List (Lived ω ν)} {u : Unit}
    : Lives (Proc.dropSender ch : Proc ω ν _) ls u ↔ ∃ r, ls = [.effect (.order (.dropSender ch) r)] :=
  lives_ask_iff.trans (by simp)

/-- A receive ends only on its channel, with an item or with the channel's end. -/
theorem lives_recv_iff {ch : Nat} {ls : List (Lived ω ν)} {v : Option ν}
    : Lives (Proc.recv ch : Proc ω ν _) ls v ↔ ls = [.effect (.await [.recv ch] 0 (.received v))] := by
  unfold Proc.recv
  rw [lives_wait_bind_iff]
  constructor
  · rintro ⟨w, rest, fits, rfl, h⟩
    cases w <;> simp only [Wait.Fits] at fits
    obtain ⟨rfl, rfl⟩ := lives_pure_iff.mp h
    rfl
  · rintro rfl
    exact ⟨.received v, [], trivial, rfl, .pure v⟩

/-- A send ends only on its channel, delivered or refused. -/
theorem lives_send_iff {ch : Nat} {item : ν} {ls : List (Lived ω ν)} {ok : Bool}
    : Lives (Proc.send ch item : Proc ω ν _) ls ok
      ↔ ls = [.effect (.await [.send ch item] 0 (.sent ok))] := by
  unfold Proc.send
  rw [lives_wait_bind_iff]
  constructor
  · rintro ⟨w, rest, fits, rfl, h⟩
    cases w <;> simp only [Wait.Fits] at fits
    obtain ⟨rfl, rfl⟩ := lives_pure_iff.mp h
    rfl
  · rintro rfl
    exact ⟨.sent ok, [], trivial, rfl, .pure ok⟩

/-- A file operation waits its turn and then touches the world once, answering what that
world gives. -/
theorem lives_file_iff {f : ω → ω × β} {ls : List (Lived ω ν)} {b : β}
    : Lives (Proc.file f) ls b
      ↔ ∃ w, ls = [.effect (.await [.file] 0 .ready), .touched w (f w).1] ∧ b = (f w).2 := by
  constructor
  · intro h
    obtain ⟨waited, rest, r, rfl, hw, hu⟩ := lives_bind_iff.mp h
    cases hw with
    | await j w' ends hw =>
      obtain ⟨rfl, fits⟩ := Wait.ends_singleton_iff.mp ends
      cases w' <;> simp only [Wait.Fits] at fits
      obtain ⟨rfl, rfl⟩ := lives_pure_iff.mp hw
      cases hu with
      | touch w hu =>
        obtain ⟨rfl, rfl⟩ := lives_pure_iff.mp hu
        exact ⟨w, rfl, rfl⟩
  · rintro ⟨w, rfl, rfl⟩
    exact lives_bind_iff.mpr ⟨_, _, .ready, rfl, .await 0 .ready ⟨_, rfl, trivial⟩ (.pure _),
      .touch w (.pure _)⟩

end Proc

/-- One step of a routine in the world: a lived effect of its own code, or a call with its
answer. -/
inductive Routine.Lived (F : Type → Type 1) (ω ν : Type) : Type 1 where
  | own (l : Async.Lived ω ν)
  | call {β : Type} (c : F β) (answer : β)

namespace Routine

variable {F : Type → Type 1} {α β : Type}

/-- What a routine's run records of a step in the world. -/
def Lived.erase : Routine.Lived F ω ν → Event F ω ν
  | .own l => .effect l.erase
  | .call c b => .call c b

/-- The step in the world that a step with no touch stands for. -/
def Lived.ofEvent : Event F ω ν → Routine.Lived F ω ν
  | .effect e => .own (.effect e)
  | .call c b => .call c b

@[simp] theorem Lived.erase_own (l : Async.Lived ω ν) : (Lived.own l : Routine.Lived F ω ν).erase
    = .effect l.erase := rfl

@[simp] theorem Lived.erase_call (c : F β) (b : β) : (Lived.call c b : Routine.Lived F ω ν).erase
    = .call c b := rfl

@[simp] theorem Lived.ofEvent_effect (e : Effect ω ν)
    : (Lived.ofEvent (.effect e) : Routine.Lived F ω ν) = .own (.effect e) := rfl

@[simp] theorem Lived.ofEvent_call (c : F β) (b : β)
    : (Lived.ofEvent (.call c b) : Routine.Lived F ω ν) = .call c b := rfl

/-- Steps in the world none of which is a touch are the steps they erase to. -/
theorem Lived.eq_of_untouched {ls : List (Routine.Lived F ω ν)}
    (h : ∀ s ∈ ls.map Lived.erase, s ≠ .effect .touch) : ls = (ls.map Lived.erase).map Lived.ofEvent := by
  induction ls with
  | nil => rfl
  | cons l ls ih =>
    simp only [List.map_cons, List.mem_cons, forall_eq_or_imp] at h ⊢
    obtain ⟨head, rest⟩ := h
    cases l with
    | own l =>
      cases l with
      | effect e => exact congrArg _ (ih rest)
      | touched w w' => exact absurd rfl head
    | call c b => exact congrArg _ (ih rest)

/-- `r` can run to its end in the world with result `a`, living `ls`. -/
inductive Lives {α : Type} : Routine F ω ν α → List (Routine.Lived F ω ν) → α → Prop where
  | pure (a : α) : Lives (.pure a) [] a
  | run {β : Type} {p : Proc ω ν β} {k : β → Routine F ω ν α} {ls : List (Async.Lived ω ν)}
      {rest : List (Routine.Lived F ω ν)} {a : α} {b : β} :
      p.Lives ls b → Lives (k b) rest a → Lives (.run p k) (ls.map .own ++ rest) a
  | call {β : Type} {c : F β} {k : β → Routine F ω ν α} {rest : List (Routine.Lived F ω ν)}
      {a : α} (b : β) : Lives (k b) rest a → Lives (.call c k) (.call c b :: rest) a

/-- Erasing the worlds of a routine's run in the world gives a run. -/
theorem Lives.runs {r : Routine F ω ν α} {ls : List (Routine.Lived F ω ν)} {a : α}
    (h : Lives r ls a) : Runs r (ls.map Lived.erase) a := by
  induction h with
  | pure a => exact .pure a
  | run hp _ ih => simpa [Function.comp_def] using Runs.run hp.runs ih
  | call b _ ih => exact .call b ih

/-- A run in the world of a routine whose runs to the same result never touch is one of its
runs, step for step. -/
theorem Lives.untouched {r : Routine F ω ν α} {ls : List (Routine.Lived F ω ν)} {a : α}
    (h : Lives r ls a) (untouched : ∀ evs, Runs r evs a → ∀ s ∈ evs, s ≠ .effect .touch)
    : ∃ evs, Runs r evs a ∧ ls = evs.map Lived.ofEvent :=
  ⟨_, h.runs, Lived.eq_of_untouched (untouched _ h.runs)⟩

theorem lives_pure_iff {a b : α} {ls : List (Routine.Lived F ω ν)}
    : Lives (.pure a : Routine F ω ν α) ls b ↔ ls = [] ∧ b = a := by
  constructor
  · intro h
    cases h
    exact ⟨rfl, rfl⟩
  · rintro ⟨rfl, rfl⟩
    exact .pure _

theorem lives_run_iff {p : Proc ω ν β} {k : β → Routine F ω ν α} {ls : List (Routine.Lived F ω ν)}
    {a : α}
    : Lives (.run p k) ls a
      ↔ ∃ es rest b, ls = es.map .own ++ rest ∧ p.Lives es b ∧ Lives (k b) rest a := by
  constructor
  · intro h
    cases h with
    | run hp hk => exact ⟨_, _, _, rfl, hp, hk⟩
  · rintro ⟨es, rest, b, rfl, hp, hk⟩
    exact .run hp hk

theorem lives_call_iff {c : F β} {k : β → Routine F ω ν α} {ls : List (Routine.Lived F ω ν)} {a : α}
    : Lives (.call c k) ls a ↔ ∃ b rest, ls = .call c b :: rest ∧ Lives (k b) rest a := by
  constructor
  · intro h
    cases h with
    | call b hk => exact ⟨b, _, rfl, hk⟩
  · rintro ⟨b, rest, rfl, hk⟩
    exact .call b hk

/-- A routine's run in the world of `r.bind f` is one of `r` followed by one of `f` on its
result, by induction on `r`. -/
theorem lives_bind_iff {γ : Type} {r : Routine F ω ν α} {f : α → Routine F ω ν γ}
    {ls : List (Routine.Lived F ω ν)} {c : γ}
    : Lives (r.bind f) ls c
      ↔ ∃ first rest a, ls = first ++ rest ∧ Lives r first a ∧ Lives (f a) rest c := by
  induction r generalizing ls with
  | pure a =>
    constructor
    · intro h
      exact ⟨[], ls, a, rfl, .pure a, h⟩
    · rintro ⟨first, rest, a', rfl, hr, hf⟩
      obtain ⟨rfl, rfl⟩ := lives_pure_iff.mp hr
      exact hf
  | run p k ih =>
    simp only [Routine.bind, lives_run_iff]
    constructor
    · rintro ⟨es, tail, b, rfl, hp, h⟩
      obtain ⟨first, rest, a, rfl, hk, hf⟩ := (ih b).mp h
      exact ⟨es.map .own ++ first, rest, a, by simp, ⟨es, first, b, rfl, hp, hk⟩, hf⟩
    · rintro ⟨first, rest, a, rfl, ⟨es, tail, b, rfl, hp, hk⟩, hf⟩
      exact ⟨es, tail ++ rest, b, by simp, hp, (ih b).mpr ⟨tail, rest, a, rfl, hk, hf⟩⟩
  | call c k ih =>
    simp only [Routine.bind, lives_call_iff]
    constructor
    · rintro ⟨b, tail, rfl, h⟩
      obtain ⟨first, rest, a, rfl, hk, hf⟩ := (ih b).mp h
      exact ⟨.call c b :: first, rest, a, rfl, ⟨b, first, rfl, hk⟩, hf⟩
    · rintro ⟨first, rest, a, rfl, ⟨b, tail, rfl, hk⟩, hf⟩
      exact ⟨b, tail ++ rest, rfl, (ih b).mpr ⟨tail, rest, a, rfl, hk, hf⟩⟩

end Routine

end Async

end Campaign
