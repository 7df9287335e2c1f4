import Campaign.Proofs.Async.Fanin

/-! In every history a channel allows from before it is made, what it handed out up to any point
is a prefix of what was put in (`Line.Allows.taken_prefix_put`). One party's or one channel's
part of a tagged history is a filter over it (`filterMap_sideOf`, `filterMap_onChannel`).
-/

namespace Campaign

namespace Async

variable {ν τ : Type}

/-- Whether an operation hands an item to a channel: a send or an offer. -/
def Act.hands : Act ν → Prop
  | .send .. | .offer .. => True
  | _ => False

namespace Line

/-- What was taken out of a channel is a prefix of what was put in. While the receiver is there,
the rest of what was put in is exactly what the channel holds; once the receiver is gone the
channel holds nothing. -/
def Tracks (taken put : List ν) (l : Line ν) : Prop :=
  ∃ rest, taken ++ rest = put ∧ (l.receiving = true → rest = l.items)
    ∧ (l.receiving = false → l.items = [])

/-- A channel just made holds nothing and has taken nothing out. -/
theorem tracks_made : Tracks ([] : List ν) [] ⟨[], 1, true⟩ :=
  ⟨[], rfl, fun _ => rfl, nofun⟩

/-- One operation keeps the tracking: a delivery adds its item at the end of what the channel
holds, a receive takes the first item off, and letting go of the receiver empties the channel,
which refuses every later delivery. -/
theorem Step.tracks {l l' : Line ν} {a : Act ν} {taken put : List ν}
    (step : Step (some l) a (some l')) (tracked : Tracks taken put l)
    : Tracks (taken ++ [a].filterMap Act.got) (put ++ [a].filterMap Act.put) l' := by
  obtain ⟨rest, sum, held, gone⟩ := tracked
  cases step with
  | sent receiving =>
    refine ⟨rest ++ [_], ?_, fun _ => by rw [held receiving], fun refused => ?_⟩
    · simp [Act.got, Act.put, List.filterMap_cons, ← sum]
    · rw [receiving] at refused
      cases refused
  | offered receiving =>
    refine ⟨rest ++ [_], ?_, fun _ => by rw [held receiving], fun refused => ?_⟩
    · simp [Act.got, Act.put, List.filterMap_cons, ← sum]
    · rw [receiving] at refused
      cases refused
  | received =>
    rename_i v items s r ch
    cases r with
    | true =>
      obtain rfl := held rfl
      exact ⟨items, by simpa [Act.got, Act.put, List.filterMap_cons] using sum, fun _ => rfl,
        nofun⟩
    | false => cases gone rfl
  | taken =>
    rename_i v items s r ch
    cases r with
    | true =>
      obtain rfl := held rfl
      exact ⟨items, by simpa [Act.got, Act.put, List.filterMap_cons] using sum, fun _ => rfl,
        nofun⟩
    | false => cases gone rfl
  | dropReceiver =>
    exact ⟨rest, by simpa [Act.got, Act.put, List.filterMap_cons] using sum, nofun,
      fun _ => rfl⟩
  | refused | full | shut | ended | empty | closed | clone | dropSender =>
    exact ⟨rest, by simpa [Act.got, Act.put, List.filterMap_cons] using sum, held, gone⟩

/-- Tracking holds along every stretch of a made channel, by induction on the stretch. -/
theorem Reaches.tracks {l : Line ν} {h : List (Act ν)} {s : Option (Line ν)}
    (reached : Reaches (some l) h s) {taken put : List ν} (tracked : Tracks taken put l)
    : ∃ l', s = some l'
      ∧ Tracks (taken ++ h.filterMap Act.got) (put ++ h.filterMap Act.put) l' := by
  induction h generalizing l taken put with
  | nil =>
    cases reached
    exact ⟨l, rfl, by simpa using tracked⟩
  | cons a h ih =>
    cases reached with
    | cons step rest =>
      obtain ⟨-, l₁, rfl⟩ := step.of_made
      obtain ⟨l', same, tracked'⟩ := ih rest (step.tracks tracked)
      refine ⟨l', same, ?_⟩
      rw [← List.singleton_append, List.filterMap_append, List.filterMap_append,
        ← List.append_assoc, ← List.append_assoc]
      exact tracked'

/-- In a history a channel allows from before it is made, what was taken out up to any point is
a prefix of what was put in up to that point: nothing comes out twice, out of order, or before
it went in. -/
theorem Allows.taken_prefix_put {p q : List (Act ν)} (allowed : Allows none (p ++ q))
    : p.filterMap Act.got <+: p.filterMap Act.put := by
  obtain ⟨s, reached, -⟩ := allowed.split
  cases reached with
  | nil => exact List.prefix_rfl
  | cons step rest =>
    -- the history opens with the making of the channel, which puts and takes nothing
    cases step
    obtain ⟨l', -, rest', sum, -⟩ := rest.tracks tracks_made
    simp only [List.filterMap_cons, Act.got, Act.put, List.nil_append] at sum ⊢
    exact ⟨rest', sum⟩

/-- A channel is made once: after its making, a history it allows holds no other. -/
theorem Allows.made_before {pre post : List (Act ν)} {ch : Nat}
    (allowed : Allows none (pre ++ .make ch :: post)) (c : Nat) : .make c ∉ post := by
  obtain ⟨s, -, later⟩ := allowed.split
  cases later with
  | cons step rest =>
    cases s with
    | none =>
      cases step
      exact rest.made_once c
    | some l => exact absurd rfl (step.of_made.1 ch)

/-- No history a channel allows from before it is made holds two makings. -/
theorem Allows.not_made_twice {L : List (Act ν)} (allowed : Allows none L) (c c' : Nat)
    (l : List (Act ν)) : ¬ (.make c :: .make c' :: l).Sublist L := by
  intro twice
  obtain ⟨r₁, r₂, rfl, first, later⟩ := List.cons_sublist_iff.mp twice
  obtain ⟨s, t, rfl⟩ := List.append_of_mem first
  have again : .make c' ∈ t ++ r₂ := List.mem_append_right t (later.subset List.mem_cons_self)
  rw [List.append_assoc, List.cons_append] at allowed
  exact allowed.made_before c' again

end Line

/-! ## Parties and channels of a tagged history -/

/-- The operations of a history on channel `ch`, in their order. -/
def onChannel (ch : Nat) (h : List (τ × Act ν)) : List (Act ν) :=
  (h.map (·.2)).filter (·.channel = ch)

@[simp] theorem onChannel_append (ch : Nat) (p q : List (τ × Act ν))
    : onChannel ch (p ++ q) = onChannel ch p ++ onChannel ch q := by
  simp [onChannel]

/-- A party's operations on a channel are among the channel's. -/
theorem sideOf_filter_sublist [DecidableEq τ] (t : τ) (ch : Nat) (h : List (τ × Act ν))
    : ((sideOf t h).filter (·.channel = ch)).Sublist (onChannel ch h) :=
  (List.filter_sublist.map _).filter _

/-- Reading a channel's operations is reading the history through that channel. -/
theorem filterMap_onChannel {β : Type} (ch : Nat) (f : Act ν → Option β)
    (h : List (τ × Act ν))
    : (onChannel ch h).filterMap f
      = h.filterMap fun x => if x.2.channel = ch then f x.2 else none := by
  induction h with
  | nil => rfl
  | cons x h ih =>
    by_cases on : x.2.channel = ch
    · simp [onChannel, on, List.filterMap_cons, ← ih]
    · simp [onChannel, on, ← ih]

section Sides

variable [DecidableEq τ]

/-- Reading a party's operations is reading the history through that party. -/
theorem filterMap_sideOf {β : Type} (t : τ) (f : Act ν → Option β) (h : List (τ × Act ν))
    : (sideOf t h).filterMap f = h.filterMap fun x => if x.1 = t then f x.2 else none := by
  induction h with
  | nil => rfl
  | cons x h ih =>
    obtain ⟨u, a⟩ := x
    by_cases same : u = t
    · subst same
      simp [List.filterMap_cons, ih]
    · simp [sideOf_cons_of_ne _ _ same, same, ih]

/-- When the operations of the history that yield under `f` are on channel `ch` exactly when
party `t` did them, reading the channel through `f` is reading that party through `f`. -/
theorem filterMap_onChannel_eq_sideOf {β : Type} {f : Act ν → Option β} {ch : Nat} {t : τ}
    {h : List (τ × Act ν)} (only : ∀ x ∈ h, (f x.2).isSome → (x.2.channel = ch ↔ x.1 = t))
    : (onChannel ch h).filterMap f = (sideOf t h).filterMap f := by
  rw [filterMap_onChannel, filterMap_sideOf]
  refine List.filterMap_congr fun x mem => ?_
  cases yields : f x.2 with
  | none => simp
  | some b =>
    have same := only x mem (by simp [yields])
    by_cases on : x.2.channel = ch
    · simp [on, same.mp on]
    · simp [on, mt same.mpr on]

end Sides

/-- A monitor that accepts a run accepts each of its beginnings, and the rest from where that
beginning leaves it. -/
theorem Accepts.split {σ α : Type} {see : σ → α → Option σ} {s s' : σ} {p q : List α}
    (h : Accepts see s (p ++ q) s') : ∃ t, Accepts see s p t ∧ Accepts see t q s' := by
  induction p generalizing s with
  | nil => exact ⟨s, Accepts.nil_iff.mpr rfl, h⟩
  | cons a p ih =>
    obtain ⟨t, first, rest⟩ := Accepts.cons_iff.mp h
    obtain ⟨u, before, after⟩ := ih rest
    exact ⟨u, Accepts.cons_iff.mpr ⟨t, first, before⟩, after⟩

end Async

end Campaign
