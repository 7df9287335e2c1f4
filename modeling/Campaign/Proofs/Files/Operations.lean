import Campaign.Proofs.Files.Places
import Campaign.Machine.Basic

/-! What the directory operations keep and take away: making directories only adds entries, and
removing a machine's scratch directory takes nothing at or below its saved directory.
-/

namespace Campaign

namespace Tree

/-- Where a walk ends depends on the components only: two trees that both let it through end
it at the same place. -/
theorem walk_place {t t' : Tree} {cur q q' : List String} {l : List Path.Component}
    (h : t.walk cur l = .ok q) (h' : t'.walk cur l = .ok q') : q = q' := by
  induction l generalizing cur with
  | nil =>
    simp only [walk, Except.ok.injEq] at h h'
    rw [← h, ← h']
  | cons c l ih =>
    cases l with
    | nil =>
      simp only [walk, Except.ok.injEq] at h h'
      rw [← h, ← h']
    | cons d l =>
      simp only [walk] at h h'
      split at h <;> split at h' <;> first | cases h | cases h' | exact ih h h'

/-- Two trees with one working directory locate a path at the same place, when both do. -/
theorem locate_place {t t' : Tree} {p : Path} {q q' : List String} (cwd : t.cwd = t'.cwd)
    (h : t.locate p = .ok q) (h' : t'.locate p = .ok q') : q = q' := by
  unfold locate at h h'
  split at h
  · cases h
  · rw [if_neg (by assumption), ← cwd] at h'
    exact walk_place h h'

/-- A path joined with a plain name is located one name below the place of the path. -/
theorem locate_join {t : Tree} {base : Path} {n : String} {q : List String}
    (plain : Path.IsPlainName n) (h : t.locate (base.join n) = .ok q)
    : ∃ P, t.walk t.cwd base.components = .ok P ∧ q = P ++ [n] := by
  rw [locate_of_ne (Path.join_ne_empty _ plain.1), Path.components_join plain] at h
  obtain ⟨P, upTo, last⟩ := walk_append h (by simp)
  exact ⟨P, upTo, walk_name last⟩

/-- Making one directory keeps every entry. -/
theorem mkdir_keeps {t t' : Tree} {p : Path} (h : t.mkdir p = .ok t') : ∀ x ∈ t.nodes, x ∈ t'.nodes := by
  unfold mkdir at h
  cases hl : t.locate p with
  | error e => simp [hl, bind, Except.bind] at h
  | ok place =>
    simp only [hl, bind, Except.bind] at h
    split at h
    · cases h
    · rename_i free
      cases h
      intro x hx
      -- no entry sits at the place, so the entry stays where it was
      have apart : (place != x.1) = true := List.lookup_eq_none_iff.mp free x hx
      simp only [put, List.mem_append, List.mem_filter]
      exact .inl ⟨hx, by simpa [bne_comm] using apart⟩

/-- Making a directory and those above it keeps every entry, by induction on the depth. -/
theorem createDirAllUpTo_keeps {fuel : Nat} {t t' : Tree} {p : Path}
    (h : t.createDirAllUpTo fuel p = .ok t') : ∀ x ∈ t.nodes, x ∈ t'.nodes := by
  induction fuel generalizing t t' p with
  | zero => simp [createDirAllUpTo] at h
  | succ fuel ih =>
    unfold createDirAllUpTo at h
    split at h
    · cases h
      exact fun x hx => hx
    split at h
    · rename_i t₁ made
      cases h
      exact mkdir_keeps made
    split at h
    · split at h
      · rename_i parent _
        cases hp : t.createDirAllUpTo fuel parent with
        | error e => simp [hp, bind, Except.bind] at h
        | ok t₁ =>
          simp only [hp, bind, Except.bind] at h
          have above := ih hp
          split at h
          · rename_i made
            cases h
            exact fun x hx => mkdir_keeps made x (above x hx)
          · split at h
            · cases h
              exact above
            · cases h
      · cases h
    · split at h
      · cases h
        exact fun x hx => hx
      · cases h

theorem createDirAll_keeps {t t' : Tree} {p : Path} (h : t.createDirAll p = .ok t')
    : ∀ x ∈ t.nodes, x ∈ t'.nodes :=
  createDirAllUpTo_keeps h

/-- After a directory is removed its path names nothing. -/
theorem removeDirAll_gone {t t' : Tree} {p : Path} (h : t.removeDirAll p = .ok t')
    : t'.exists_ p = false := by
  obtain ⟨place, located, rfl⟩ := removeDirAll_eq_ok h
  unfold exists_ stat
  cases hl : ({ t with nodes := t.nodes.filter fun x => !isUnder place x.1 } : Tree).locate p with
  | error e => simp [bind, Except.bind, Except.toBool]
  | ok q =>
    -- the path still leads to the removed place, where no entry is left
    obtain rfl := locate_place (by rfl) hl located
    have gone : ({ t with nodes := t.nodes.filter fun x => !isUnder q x.1 } : Tree).node q
        = none := by
      refine List.lookup_eq_none_iff.mpr fun x hx => ?_
      have kept : isUnder q x.1 = false := by simpa using (List.mem_filter.mp hx).2
      have apart : x.1 ≠ q := fun same => by
        rw [same, isUnder, List.isPrefixOf_iff_prefix.mpr (List.prefix_refl q)] at kept
        cases kept
      exact bne_iff_ne.mpr (Ne.symm apart)
    simp [gone, bind, Except.bind, Except.toBool]

/-- A directory that removal finds nothing at names nothing. -/
theorem removeDirAll_notFound {t : Tree} {p : Path} (h : t.removeDirAll p = .error .notFound)
    : t.exists_ p = false := by
  unfold removeDirAll at h
  unfold exists_ stat
  cases hl : t.locate p with
  | error e => simp [bind, Except.bind, Except.toBool]
  | ok place =>
    simp only [hl, bind, Except.bind] at h
    split at h
    · rename_i none_there
      simp [none_there, bind, Except.bind, Except.toBool]
    · cases h
    · cases h

end Tree

namespace Pathset

/-- Removing a machine's scratch directory keeps every entry at or below its saved
directory. -/
theorem removeDirAll_scratch_keeps_saved {p : Pathset} {t t' : Tree} {place : List String}
    (h : t.removeDirAll p.scratch = .ok t') (saved : t.locate p.saved = .ok place)
    : ∀ x ∈ t.nodes, Tree.isUnder place x.1 → x ∈ t'.nodes := by
  obtain ⟨gone, located, rfl⟩ := Tree.removeDirAll_eq_ok h
  obtain ⟨P, walked, rfl⟩ := Tree.locate_join (by decide) located
  obtain ⟨P', walked', rfl⟩ := Tree.locate_join (by decide) saved
  rw [walked] at walked'
  cases walked'
  intro x hx under
  refine List.mem_filter.mpr ⟨hx, ?_⟩
  -- below `saved` is never below `scratch`: the two differ right after the machine's place
  simp only [Tree.isUnder, Bool.not_eq_eq_eq_not, Bool.not_true]
  rw [Bool.eq_false_iff]
  intro below
  have first := List.isPrefixOf_iff_prefix.mp below
  have second := List.isPrefixOf_iff_prefix.mp under
  rcases List.prefix_or_prefix_of_prefix first second with h₁ | h₁
  · simpa using (List.prefix_append_right_inj P).mp h₁
  · simpa using (List.prefix_append_right_inj P).mp h₁

end Pathset

end Campaign
