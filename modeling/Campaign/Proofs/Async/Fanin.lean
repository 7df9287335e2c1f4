import Campaign.Proofs.Async.Channels

/-! A channel with one receiver and many senders, its history tagged by party (`sideOf`). The
senders held never fall below those made less those let go of (`Line.Reaches.balance`), and a
receive that finds the end finds no sender left, after which none can be made
(`Line.Allows.no_makesSender`).
-/

namespace Campaign

namespace Async

variable {ν τ : Type}

namespace Act

/-- The item an operation put into the channel. -/
def put : Act ν → Option ν
  | .send _ v ok => if ok then some v else none
  | .offer _ v o => if o = .sent then some v else none
  | _ => none

/-- The item an operation took out of the channel. -/
def got : Act ν → Option ν
  | .recv _ v => v
  | .take _ t => match t with
    | .item v => some v
    | _ => none
  | _ => none

/-- Whether an operation made a sender. -/
def makesSender : Act ν → Bool
  | .clone _ => true
  | _ => false

/-- Whether an operation let go of a sender. -/
def dropsSender : Act ν → Bool
  | .dropSender _ => true
  | _ => false

/-- Whether an operation let go of the receiver. -/
def dropsReceiver : Act ν → Bool
  | .dropReceiver _ => true
  | _ => false

end Act

namespace Line

/-- The channel goes from `s` to `s'` through the operations `h`, in turn. -/
inductive Reaches : Option (Line ν) → List (Act ν) → Option (Line ν) → Prop
  | nil {s : Option (Line ν)} : Reaches s [] s
  | cons {s s' s'' : Option (Line ν)} {a : Act ν} {h : List (Act ν)} :
      Step s a s' → Reaches s' h s'' → Reaches s (a :: h) s''

/-- A history the channel allows goes through each of its beginnings to some state, and the
channel allows the rest from there. -/
theorem Allows.split {s : Option (Line ν)} {p q : List (Act ν)} (allowed : Allows s (p ++ q))
    : ∃ s', Reaches s p s' ∧ Allows s' q := by
  induction p generalizing s with
  | nil => exact ⟨s, .nil, allowed⟩
  | cons a p ih =>
    cases allowed with
    | cons step rest =>
      obtain ⟨s', reached, later⟩ := ih rest
      exact ⟨s', .cons step reached, later⟩

/-- A made channel stays made. -/
theorem Reaches.made {l : Line ν} {h : List (Act ν)} {s : Option (Line ν)}
    (reached : Reaches (some l) h s) : ∃ l', s = some l' := by
  induction h generalizing l with
  | nil =>
    cases reached
    exact ⟨l, rfl⟩
  | cons a h ih =>
    cases reached with
    | cons step rest =>
      obtain ⟨-, l₁, rfl⟩ := step.of_made
      exact ih rest

/-- One operation on a made channel, other than letting go of the receiver. The items held and
put in are those taken out and held after. The receiver stays. A send is refused only when the
receiver is gone. Senders rise only by being made. -/
theorem Step.balance {l : Line ν} {a : Act ν} {s' : Option (Line ν)} (step : Step (some l) a s')
    (keeps : a.dropsReceiver = false)
    : ∃ l', s' = some l'
      ∧ l.items ++ [a].filterMap Act.put = [a].filterMap Act.got ++ l'.items
      ∧ l'.receiving = l.receiving
      ∧ (∀ ch v, a = .send ch v false → l.receiving = false)
      ∧ l.senders + [a].countP Act.makesSender ≤ l'.senders + [a].countP Act.dropsSender := by
  cases step <;> simp_all [Act.put.eq_def, Act.got.eq_def, Act.makesSender.eq_def,
    Act.dropsSender.eq_def, Act.dropsReceiver.eq_def]
  -- letting go of a sender from none leaves none
  omega

/-- Over a stretch in which nobody lets go of the receiver the balance holds, by induction on
the stretch: items come out in the order they went in, no send is refused while the receiver
is there, and the senders left are at least those there and made, less those let go of. -/
theorem Reaches.balance {l l' : Line ν} {h : List (Act ν)} (reached : Reaches (some l) h (some l'))
    (keeps : ∀ a ∈ h, a.dropsReceiver = false)
    : l.items ++ h.filterMap Act.put = h.filterMap Act.got ++ l'.items
      ∧ l'.receiving = l.receiving
      ∧ (l.receiving = true → ∀ ch v, .send ch v false ∉ h)
      ∧ l.senders + h.countP Act.makesSender ≤ l'.senders + h.countP Act.dropsSender := by
  induction h generalizing l with
  | nil =>
    cases reached
    simp
  | cons a h ih =>
    cases reached with
    | cons step rest =>
      obtain ⟨l₁, rfl, items, receiving, refused, senders⟩ :=
        step.balance (keeps a List.mem_cons_self)
      obtain ⟨items', receiving', refused', senders'⟩ :=
        ih rest fun b hb => keeps b (List.mem_cons_of_mem _ hb)
      rw [← List.singleton_append, List.filterMap_append, List.filterMap_append,
        List.countP_append, List.countP_append]
      refine ⟨?_, receiving'.trans receiving, ?_, by omega⟩
      · rw [← List.append_assoc, items, List.append_assoc, items', List.append_assoc]
      · intro there ch v mem
        rcases List.mem_append.mp mem with mem | mem
        · rw [refused ch v (List.mem_singleton.mp mem).symm] at there
          cases there
        · exact refused' (receiving.trans there) ch v mem

/-- A receive that finds the end finds the channel empty, with no sender left, and leaves it
so. -/
theorem Step.ended_empty {l : Line ν} {ch : Nat} {s' : Option (Line ν)}
    (step : Step (some l) (.recv ch none) s') : l.items = [] ∧ l.senders = 0 ∧ s' = some l := by
  cases step
  exact ⟨rfl, rfl, rfl⟩

/-- From a made channel with no sender left, no step makes one, and none is left after. -/
theorem Step.without_senders {l : Line ν} {a : Act ν} {s' : Option (Line ν)}
    (step : Step (some l) a s') (none_left : l.senders = 0)
    : a.makesSender = false ∧ ∃ l', s' = some l' ∧ l'.senders = 0 := by
  cases step <;> simp_all [Act.makesSender]

/-- A channel with no sender left never has one made again, by induction on what follows. -/
theorem Allows.no_makesSender {l : Line ν} {h : List (Act ν)} (allowed : Allows (some l) h)
    (none_left : l.senders = 0) : ∀ a ∈ h, a.makesSender = false := by
  induction h generalizing l with
  | nil => simp
  | cons a h ih =>
    cases allowed with
    | cons step rest =>
      obtain ⟨made, l', rfl, none_left'⟩ := step.without_senders none_left
      intro b mem
      rcases List.mem_cons.mp mem with rfl | mem
      · exact made
      · exact ih rest none_left' b mem

end Line

/-! ## Tagged histories -/

/-- What a tagged history put into the channel, each item with the party that put it. -/
def putsOf (h : List (τ × Act ν)) : List (τ × ν) :=
  h.filterMap fun x => x.2.put.map (x.1, ·)

/-- The items put in, without who put them, are those the operations put in. -/
theorem putsOf_items (h : List (τ × Act ν)) : (putsOf h).map (·.2) = (h.map (·.2)).filterMap Act.put := by
  induction h with
  | nil => rfl
  | cons x h ih =>
    cases hx : x.2.put <;> simp [putsOf, hx] at ih ⊢ <;> exact ih

/-- Each item put in was put in by an operation of its party. -/
theorem mem_putsOf {x : τ × ν} {h : List (τ × Act ν)} (mem : x ∈ putsOf h)
    : ∃ y ∈ h, y.1 = x.1 ∧ y.2.put = some x.2 := by
  obtain ⟨y, inside, made⟩ := List.mem_filterMap.mp mem
  obtain ⟨v, put, rfl⟩ := Option.map_eq_some_iff.mp made
  exact ⟨y, inside, rfl, put⟩

section Sides

variable [DecidableEq τ]

/-- The operations of party `t` in a tagged history, in their order. -/
def sideOf (t : τ) (h : List (τ × Act ν)) : List (Act ν) :=
  (h.filter (·.1 = t)).map (·.2)

@[simp] theorem sideOf_nil (t : τ) : sideOf t ([] : List (τ × Act ν)) = [] := rfl

@[simp] theorem sideOf_append (t : τ) (p q : List (τ × Act ν))
    : sideOf t (p ++ q) = sideOf t p ++ sideOf t q := by
  simp [sideOf]

@[simp] theorem sideOf_cons_self (t : τ) (a : Act ν) (h : List (τ × Act ν))
    : sideOf t ((t, a) :: h) = a :: sideOf t h := by
  simp [sideOf]

theorem sideOf_cons_of_ne {t u : τ} (a : Act ν) (h : List (τ × Act ν)) (other : u ≠ t)
    : sideOf t ((u, a) :: h) = sideOf t h := by
  simp [sideOf, other]

/-- Every operation of a history is on its party's side. -/
theorem mem_sideOf {x : τ × Act ν} {h : List (τ × Act ν)} (mem : x ∈ h) : x.2 ∈ sideOf x.1 h :=
  List.mem_map.mpr ⟨x, List.mem_filter.mpr ⟨mem, by simp⟩, rfl⟩

/-- Every operation on a party's side is in the history, tagged by that party. -/
theorem mem_of_mem_sideOf {t : τ} {a : Act ν} {h : List (τ × Act ν)} (mem : a ∈ sideOf t h)
    : (t, a) ∈ h := by
  obtain ⟨x, within, rfl⟩ := List.mem_map.mp mem
  obtain ⟨inside, tag⟩ := List.mem_filter.mp within
  rwa [← of_decide_eq_true tag]

/-- A party's last operation splits the history: before it stands the rest of the party's
side, and after it nothing of the party's, by induction on the history. -/
theorem sideOf_eq_append_singleton {t : τ} {a : Act ν} :
    ∀ {h : List (τ × Act ν)} {s : List (Act ν)}, sideOf t h = s ++ [a]
      → ∃ p q, h = p ++ (t, a) :: q ∧ sideOf t p = s ∧ sideOf t q = []
  | [], s, side => by simp at side
  | (u, b) :: h, s, side => by
    by_cases same : u = t
    · subst same
      rw [sideOf_cons_self] at side
      cases s with
      | nil =>
        obtain ⟨rfl, rest⟩ := List.cons_eq_cons.mp side
        exact ⟨[], h, rfl, rfl, rest⟩
      | cons c s =>
        obtain ⟨rfl, rest⟩ := List.cons_eq_cons.mp side
        obtain ⟨p, q, rfl, before, after⟩ := sideOf_eq_append_singleton rest
        exact ⟨(u, b) :: p, q, rfl, by simp [before], after⟩
    · rw [sideOf_cons_of_ne _ _ same] at side
      obtain ⟨p, q, rfl, before, after⟩ := sideOf_eq_append_singleton side
      exact ⟨(u, b) :: p, q, rfl, by rw [sideOf_cons_of_ne _ _ same, before], after⟩

/-- Counting the operations of a history is counting each party's side, when every operation
is one of the parties', by induction on the history. -/
theorem countP_eq_sum_sides (P : Act ν → Bool) (parties : Finset τ) {h : List (τ × Act ν)}
    (tagged : ∀ x ∈ h, x.1 ∈ parties)
    : (h.map (·.2)).countP P = ∑ t ∈ parties, (sideOf t h).countP P := by
  induction h with
  | nil => simp
  | cons x h ih =>
    obtain ⟨u, a⟩ := x
    have rest := ih fun y hy => tagged y (List.mem_cons_of_mem _ hy)
    have mem : u ∈ parties := tagged (u, a) List.mem_cons_self
    -- only the side of `u` grows
    have each : ∀ t, (sideOf t ((u, a) :: h)).countP P
        = (sideOf t h).countP P + if u = t then (if P a then 1 else 0) else 0 := by
      intro t
      by_cases same : u = t
      · subst same
        simp [List.countP_cons]
      · simp [sideOf_cons_of_ne _ _ same, same]
    rw [Finset.sum_congr rfl fun t _ => each t, Finset.sum_add_distrib, Finset.sum_ite_eq,
      if_pos mem, ← rest]
    simp [List.countP_cons]

/-- The items one party put in are those of its side. -/
theorem putsOf_by (t : τ) (h : List (τ × Act ν))
    : ((putsOf h).filter (·.1 = t)).map (·.2) = (sideOf t h).filterMap Act.put := by
  induction h with
  | nil => rfl
  | cons x h ih =>
    obtain ⟨u, a⟩ := x
    by_cases same : u = t
    · subst same
      cases ha : a.put <;> simp [putsOf, ha] at ih ⊢ <;> exact ih
    · rw [sideOf_cons_of_ne _ _ same]
      cases ha : a.put <;> simp [putsOf, ha, same] at ih ⊢ <;> exact ih

/-- When only party `t` takes items out, the items taken out are those of its side. -/
theorem got_eq_side {t : τ} {h : List (τ × Act ν)} (only : ∀ x ∈ h, x.1 ≠ t → x.2.got = none)
    : (h.map (·.2)).filterMap Act.got = (sideOf t h).filterMap Act.got := by
  induction h with
  | nil => rfl
  | cons x h ih =>
    obtain ⟨u, a⟩ := x
    have rest := ih fun y hy => only y (List.mem_cons_of_mem _ hy)
    by_cases same : u = t
    · subst same
      simp [List.filterMap_cons, rest]
    · rw [sideOf_cons_of_ne _ _ same, ← rest]
      simp [only (u, a) List.mem_cons_self same]

end Sides

end Async

end Campaign
