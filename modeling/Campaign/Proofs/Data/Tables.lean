import Campaign.Mutation.Analysis
import Campaign.Machine.Basic
import Campaign.Proofs.Schema.Records

/-! Tables as finite maps read through `get?`: with keys that compare lawfully, putting an entry in
changes what one key reads and no other. Since a table holds its keys in ascending order, two
tables that read alike are the same table (`eq_of_get?`).
-/

namespace Campaign

namespace Mutation

instance : Std.LawfulEqOrd Mutant where
  compare_self := Std.ReflOrd.compare_self (α := Nat)
  eq_of_compare {a b} h := by
    have ids : a.id = b.id := Std.LawfulEqOrd.eq_of_compare h
    cases a
    cases b
    simp only at ids
    rw [ids]

end Mutation

instance : Std.LawfulEqOrd Status where
  compare_self := Std.ReflOrd.compare_self (α := Nat)
  eq_of_compare {a b} h := by
    have indices : a.index = b.index := Std.LawfulEqOrd.eq_of_compare h
    cases a <;> cases b <;> first | rfl | cases indices

instance : Std.LawfulEqOrd MachineId where
  compare_self := Std.ReflOrd.compare_self (α := String)
  eq_of_compare {a b} h := by
    have texts : a.text = b.text := Std.LawfulEqOrd.eq_of_compare h
    cases a
    cases b
    simp only at texts
    rw [texts]

namespace Table

variable {κ α : Type} [Ord κ]

/-- What a key reads in a list of entries: the value of the first entry of an equal key. -/
def lookup (es : List (κ × α)) (k : κ) : Option α :=
  (es.find? fun e => compare e.1 k == .eq).map Prod.snd

@[simp] theorem lookup_nil (k : κ) : lookup ([] : List (κ × α)) k = none := rfl

@[simp] theorem get?_empty (k : κ) : (∅ : Table κ α).get? k = none := rfl

/-- Changing every value changes what each key reads, and no key comes or goes. -/
@[simp] theorem get?_mapValues {β : Type} (f : α → β) (t : Table κ α) (k : κ) :
    (t.mapValues f).get? k = (t.get? k).map f := by
  simp [get?, mapValues, List.find?_map, Function.comp_def]

/-- Keys that do not compare as equal are apart. -/
theorem ne_of_compare [Std.ReflOrd κ] {a b : κ} {o : Ordering} (compared : compare a b = o) (unequal : o ≠ .eq) :
    a ≠ b :=
  Std.ReflCmp.ne_of_cmp_ne_eq (compared ▸ unequal)

section Lawful

variable [DecidableEq κ] [Std.LawfulEqOrd κ]

/-- A key reads the first entry of its own. -/
theorem lookup_cons (k' : κ) (v : α) (es : List (κ × α)) (k : κ) :
    lookup ((k', v) :: es) k = if k' = k then some v else lookup es k := by
  by_cases same : k' = k
  · subst same
    simp [lookup, Std.ReflOrd.compare_self]
  · have apart : (compare k' k == .eq) = false := by
      simpa [Std.LawfulEqOrd.compare_beq_iff_eq] using same
    simp [lookup, apart, same]

/-- Putting in an entry changes what its key reads, and nothing else; by induction on the
entries, one case per way the new key compares with the one it meets. -/
theorem lookup_insertEntry (es : List (κ × α)) (k : κ) (v : α) (k' : κ) :
    lookup (insertEntry k v es) k' = if k' = k then some v else lookup es k' := by
  induction es with
  | nil =>
    rw [insertEntry, lookup_cons]
    by_cases same : k' = k
    · simp [same]
    · simp [same, Ne.symm same]
  | cons e es ih =>
    obtain ⟨k'', v''⟩ := e
    simp only [insertEntry]
    split
    · -- the new key goes in front
      simp only [lookup_cons]
      by_cases same : k' = k
      · simp [same]
      · simp [same, Ne.symm same]
    · -- the new key replaces an equal one
      rename_i equal
      have keys : k = k'' := Std.LawfulEqOrd.eq_of_compare equal
      subst keys
      simp only [lookup_cons]
      by_cases same : k' = k
      · simp [same]
      · simp [same, Ne.symm same]
    · -- the new key goes further in
      rename_i above
      simp only [lookup_cons, ih]
      by_cases same : k' = k
      · subst same
        simp [(ne_of_compare above (by decide)).symm]
      · simp [same]

/-- An entry a key reads is an entry of the list. -/
theorem mem_of_lookup {es : List (κ × α)} {k : κ} {v : α} (found : lookup es k = some v) :
    (k, v) ∈ es := by
  induction es with
  | nil => simp at found
  | cons e es ih =>
    obtain ⟨k', v'⟩ := e
    rw [lookup_cons] at found
    split at found
    · rename_i same
      subst same
      cases found
      exact List.mem_cons_self
    · exact List.mem_cons_of_mem _ (ih found)

theorem mem_of_get? {t : Table κ α} {k : κ} {v : α} (found : t.get? k = some v) :
    (k, v) ∈ t.entries :=
  mem_of_lookup found

/-- A key below every key of the entries reads nothing there. -/
theorem lookup_eq_none_of_below {es : List (κ × α)} {k : κ}
    (below : ∀ e ∈ es, compare k e.1 = .lt) : lookup es k = none := by
  induction es with
  | nil => rfl
  | cons e es ih =>
    obtain ⟨k', v'⟩ := e
    have apart : k' ≠ k := (ne_of_compare (below (k', v') List.mem_cons_self) (by decide)).symm
    rw [lookup_cons, if_neg apart]
    exact ih fun e mem => below e (List.mem_cons_of_mem _ mem)

/-- In entries with ascending keys an entry is there exactly when its key reads its value. -/
theorem mem_iff_lookup {es : List (κ × α)} (sorted : es.Pairwise fun a b => compare a.1 b.1 = .lt)
    {k : κ} {v : α} : (k, v) ∈ es ↔ lookup es k = some v := by
  refine ⟨fun mem => ?_, mem_of_lookup⟩
  induction es with
  | nil => cases mem
  | cons e es ih =>
    obtain ⟨k', v'⟩ := e
    obtain ⟨first, rest⟩ := List.pairwise_cons.mp sorted
    rw [lookup_cons]
    rcases List.mem_cons.mp mem with same | later
    · cases same
      simp
    · rw [if_neg (ne_of_compare (first (k, v) later) (by decide))]
      exact ih rest later

/-- An entry is in a table exactly when its key reads its value. -/
theorem mem_iff_get? (t : Table κ α) {k : κ} {v : α} : (k, v) ∈ t.entries ↔ t.get? k = some v :=
  mem_iff_lookup t.ascending

end Lawful

section Ordered

variable [DecidableEq κ] [Std.TransOrd κ] [Std.LawfulEqOrd κ]

theorem get?_insert (t : Table κ α) (k : κ) (v : α) (k' : κ) :
    (t.insert k v).get? k' = if k' = k then some v else t.get? k' :=
  lookup_insertEntry t.entries k v k'

theorem get?_update (t : Table κ α) (k : κ) (init : α) (f : α → α) (k' : κ) :
    (t.update k init f).get? k' = if k' = k then some (f ((t.get? k).getD init)) else t.get? k' :=
  get?_insert t k _ k'

/-- Updating a table along a list of entries changes a key by the entries of that key, in
their order, and leaves it alone when there is none; by induction on the list. -/
theorem get?_foldl_update {β : Type} (es : List (κ × β)) (t : Table κ α) (init : α)
    (g : β → α → α) (k : κ) :
    (es.foldl (fun t e => t.update e.1 init (g e.2)) t).get? k
      = if es.any (·.1 = k) then
          some ((es.filter (·.1 = k)).foldl (fun v e => g e.2 v) ((t.get? k).getD init))
        else t.get? k := by
  induction es generalizing t with
  | nil => simp
  | cons e es ih =>
    rw [List.foldl_cons, ih, get?_update]
    by_cases here : e.1 = k
    · -- the head's change comes first, whether or not a later entry has the key
      subst here
      by_cases later : es.any (·.1 = e.1)
      · simp [later]
      · have none : es.filter (·.1 = e.1) = [] := by
          rw [List.filter_eq_nil_iff]
          intro x mem same
          exact later (List.any_eq_true.mpr ⟨x, mem, same⟩)
        simp [later, none]
    · rw [List.any_cons, List.filter_cons_of_neg (by simpa using here), decide_eq_false here,
        Bool.false_or, if_neg (Ne.symm here)]

/-- Two entry lists with ascending keys that read alike are the same; by induction on the first,
comparing the two first keys. -/
theorem eq_of_lookup {es fs : List (κ × α)} (st : es.Pairwise fun a b => compare a.1 b.1 = .lt)
    (su : fs.Pairwise fun a b => compare a.1 b.1 = .lt) (same : ∀ k, lookup es k = lookup fs k) :
    es = fs := by
  induction es generalizing fs with
  | nil =>
    cases fs with
    | nil => rfl
    | cons f fs =>
      have found := same f.1
      rw [lookup_nil, show f = (f.1, f.2) from rfl, lookup_cons, if_pos rfl] at found
      cases found
  | cons e es ih =>
    cases fs with
    | nil =>
      have found := same e.1
      rw [lookup_nil, show e = (e.1, e.2) from rfl, lookup_cons, if_pos rfl] at found
      cases found
    | cons f fs =>
      obtain ⟨k, v⟩ := e
      obtain ⟨k', v'⟩ := f
      obtain ⟨efirst, erest⟩ := List.pairwise_cons.mp st
      obtain ⟨ffirst, frest⟩ := List.pairwise_cons.mp su
      -- the first keys are the least of each list, so each is in the other only if equal
      have keys : k = k' := by
        have inU : (k, v) ∈ (k', v') :: fs :=
          mem_of_lookup (by rw [← same k, lookup_cons, if_pos rfl])
        have inT : (k', v') ∈ (k, v) :: es :=
          mem_of_lookup (by rw [same k', lookup_cons, if_pos rfl])
        rcases List.mem_cons.mp inU with hu | hu
        · cases hu
          rfl
        rcases List.mem_cons.mp inT with ht | ht
        · cases ht
          rfl
        have up := ffirst _ hu
        have flipped := Std.OrientedCmp.gt_of_lt (efirst _ ht)
        rw [up] at flipped
        cases flipped
      subst keys
      have values : v = v' := by
        have found := same k
        rw [lookup_cons, lookup_cons, if_pos rfl, if_pos rfl] at found
        exact Option.some.inj found
      subst values
      have tails : ∀ q, lookup es q = lookup fs q := by
        intro q
        by_cases at_head : q = k
        · subst at_head
          rw [lookup_eq_none_of_below efirst, lookup_eq_none_of_below ffirst]
        · have found := same q
          rwa [lookup_cons, lookup_cons, if_neg (Ne.symm at_head), if_neg (Ne.symm at_head)] at found
      rw [ih erest frest tails]

/-- Two tables that read alike are the same table. -/
theorem eq_of_get? {t u : Table κ α} (same : ∀ k, t.get? k = u.get? k) : t = u :=
  Table.ext (eq_of_lookup t.ascending u.ascending same)

end Ordered

end Table

end Campaign
