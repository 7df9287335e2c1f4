import Mathlib
import Campaign.Files.Tree

/-! A path joined with a plain name has that name as one more component, however the path was
written, so looking it up steps below the path's place by that name. Removing `base/a/b` takes
away only entries under `a` and then `b`, and nothing at or below `base/c`.
-/

namespace Campaign

namespace Path

/-- Whether a name stands for one normal component: it is not empty, holds no separator, and is
neither `.` nor `..`. -/
def IsPlainName (n : String) : Prop :=
  n ≠ "" ∧ '/' ∉ n.toList ∧ n ≠ "." ∧ n ≠ ".."

instance (n : String) : Decidable (IsPlainName n) :=
  inferInstanceAs (Decidable (_ ∧ _ ∧ _ ∧ _))

theorem splitOn_slash {A N : List Char} (hN : '/' ∉ N) :
    (A ++ '/' :: N).splitOn '/' = A.splitOn '/' ++ [N] := by
  rw [List.splitOn_append_cons_self, List.splitOn_eq_singleton hN]

theorem ofPart_plain {n : String} (plain : IsPlainName n) :
    Component.ofPart n = some (.normal n) := by
  obtain ⟨ne, -, dot, dots⟩ := plain
  simp [Component.ofPart, ne, dot, dots]

/-- A path written as `A/N`, with no separator in `N`, has the parts of `A` and then `N`. -/
theorem parts_slash {q : Path} {A N : List Char} (written : q.text.toList = A ++ '/' :: N)
    (hN : '/' ∉ N) : q.parts = (A.splitOn '/').map String.ofList ++ [String.ofList N] := by
  simp [parts, written, splitOn_slash hN]

theorem parts_ne_nil (p : Path) : p.parts ≠ [] := by
  simp [parts]

/-- Two paths that start alike, and whose parts differ only by a last name and by empty parts
of the shorter, have the same components but the one that name stands for. -/
theorem components_of_parts {p q : Path} {pre extra : List String} {n : String}
    (hq : q.parts = pre ++ [n]) (hp : p.parts = pre ++ extra)
    (empty : extra.filterMap Component.ofPart = []) (started : pre ≠ [])
    (absolute : q.isAbsolute = p.isAbsolute) :
    q.components = p.components ++ (Component.ofPart n).toList := by
  -- where a path starts depends on its first part only, which both share
  have lead_eq : q.lead = p.lead := by
    obtain ⟨first, rest, rfl⟩ := List.exists_cons_of_ne_nil started
    simp only [lead, absolute, hq, hp, List.cons_append]
    split
    · rfl
    · split <;> split <;> simp_all
  rw [components, components, lead_eq, hq, hp, List.filterMap_append, List.filterMap_append,
    empty]
  cases part : Component.ofPart n <;> simp [part]

theorem head_ne_slash {n : String} (slash : '/' ∉ n.toList) :
    (n.toList.head? == some '/') = false := by
  cases h : n.toList with
  | nil => rfl
  | cons c rest =>
    have : c ≠ '/' := fun hc => slash (by simp [h, hc])
    simpa using this

/-- Joining a name without a separator onto a path that is not empty adds the component the name
stands for: none for an empty name or `.`, the parent for `..`, and the name itself otherwise. -/
theorem components_join_part {p : Path} {n : String} (slash : '/' ∉ n.toList)
    (named : p.text ≠ "") : (p.join n).components = p.components ++ (Component.ofPart n).toList := by
  have empty : p.text.isEmpty = false := by simpa using named
  unfold join
  rw [if_neg (by simp [head_ne_slash slash]), if_neg (by simp [empty])]
  by_cases last : (p.text.toList.getLast? == some '/') = true
  · -- a written trailing separator stays as an empty part before the name
    rw [if_pos last]
    obtain ⟨before, hbefore⟩ := List.getLast?_eq_some_iff.mp (by simpa using last)
    have hq : (⟨p.text ++ n⟩ : Path).text.toList = before ++ '/' :: n.toList := by
      simp [hbefore]
    have named : (⟨p.text ++ n⟩ : Path).parts = (before.splitOn '/').map String.ofList ++ [n] := by
      simpa using parts_slash hq slash
    have trailing : p.parts = (before.splitOn '/').map String.ofList ++ [""] := by
      simpa using parts_slash (N := []) (by simpa using hbefore) (by simp)
    apply components_of_parts named trailing (by simp [Component.ofPart]) (by simp)
    simp [isAbsolute, hq, hbefore, List.head?_append]
  · rw [if_neg last]
    have started : p.text.toList ≠ [] := by simpa using named
    have hq : (⟨p.text ++ "/" ++ n⟩ : Path).text.toList = p.text.toList ++ '/' :: n.toList := by
      simp
    have named : (⟨p.text ++ "/" ++ n⟩ : Path).parts = p.parts ++ [n] := by
      simpa [parts] using parts_slash hq slash
    apply components_of_parts named (List.append_nil _).symm (by simp) (parts_ne_nil p)
    obtain ⟨c, rest, hc⟩ := List.exists_cons_of_ne_nil started
    simp [isAbsolute, hq, hc]

/-- Joining a plain name adds exactly that name as the last component. -/
theorem components_join {p : Path} {n : String} (plain : IsPlainName n) :
    (p.join n).components = p.components ++ [.normal n] := by
  by_cases empty : p.text = ""
  · -- joined onto the empty path: the name alone
    have slash := plain.2.1
    have joined : p.join n = ⟨n⟩ := by simp [join, head_ne_slash slash, empty]
    have lone : (⟨n⟩ : Path).parts = [n] := by
      simp [parts, List.splitOn_eq_singleton slash]
    have alone : (⟨n⟩ : Path).lead = [] := by
      simp only [lead, isAbsolute, head_ne_slash slash, lone]
      split <;> simp_all [IsPlainName]
    have nothing : p.components = [] := by
      rw [show p = ⟨""⟩ from by cases p; simp_all]
      rfl
    rw [joined, nothing, List.nil_append]
    simp [components, alone, lone, ofPart_plain plain]
  · rw [components_join_part plain.2.1 empty, ofPart_plain plain]
    rfl

/-- Two paths are equal when their components are. -/
theorem beq_iff {p q : Path} : (p == q) = true ↔ p.components = q.components := by
  show (p.components == q.components) = true ↔ _
  exact beq_iff_eq

/-- Plain names joined onto one path give one path only for one name. -/
theorem join_beq_join_iff {p : Path} {a b : String} (ha : IsPlainName a) (hb : IsPlainName b) :
    (p.join a == p.join b) = true ↔ a = b := by
  rw [beq_iff, components_join ha, components_join hb]
  simp

/-- A path joined with a name that is not empty is not empty. -/
theorem join_ne_empty (p : Path) {n : String} (named : n ≠ "") : (p.join n).text ≠ "" := by
  have nonempty : n.toList ≠ [] := by simpa using named
  unfold join
  split
  · exact named
  · split
    · exact named
    · split <;> intro h <;> simpa [nonempty] using congrArg String.toList h

end Path

namespace Tree

/-- Following components that go on past `l` first follows `l`, and then the rest from
where `l` leads. -/
theorem walk_append {t : Tree} {cur q : List String} {l m : List Path.Component}
    (h : t.walk cur (l ++ m) = .ok q) (more : m ≠ []) :
    ∃ P, t.walk cur l = .ok P ∧ t.walk P m = .ok q := by
  induction l generalizing cur with
  | nil => exact ⟨cur, rfl, h⟩
  | cons c l ih =>
    -- past `c` there is more to follow, so `c` must lead to a directory
    have longer : l ++ m ≠ [] := by simp [more]
    obtain ⟨next, rest, split⟩ := List.exists_cons_of_ne_nil longer
    rw [List.cons_append, split] at h
    simp only [walk] at h
    split at h
    · rename_i isDir
      obtain ⟨P, upTo, after⟩ := ih (split ▸ h)
      refine ⟨P, ?_, after⟩
      cases l with
      | nil => simpa [walk] using upTo
      | cons d l => simpa [walk, isDir] using upTo
    · cases h
    · cases h

/-- A name leads below where the walk stands. -/
theorem walk_name {t : Tree} {P q : List String} {a : String}
    (h : t.walk P [.normal a] = .ok q) : q = P ++ [a] := by
  simpa [walk, stepTo] using h.symm

/-- The empty path names nothing; any other names what its components lead to. -/
theorem locate_of_ne {t : Tree} {p : Path} (h : p.text ≠ "") :
    t.locate p = t.walk t.cwd p.components := by
  simp [locate, h]

/-- Removing a directory takes away exactly what lies at or below its place. -/
theorem removeDirAll_eq_ok {t t' : Tree} {p : Path} (h : t.removeDirAll p = .ok t') :
    ∃ place, t.locate p = .ok place
      ∧ t' = { t with nodes := t.nodes.filter fun x => !isUnder place x.1 } := by
  unfold removeDirAll at h
  cases hl : t.locate p with
  | error e => simp [hl, bind, Except.bind] at h
  | ok place =>
    simp only [hl, bind, Except.bind] at h
    refine ⟨place, rfl, ?_⟩
    split at h <;> simp_all

end Tree

end Campaign
