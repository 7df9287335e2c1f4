import Campaign.Proofs.Schema.Reading
import Campaign.Plan.Basic

/-! The domain writers build a record with `Json.record`, a list with `.array` and a table with
`Table.toJson`; this module builds `Shape.Reads` for such values from their parts
(`Reads.record_of_fields`, `Restores.list`, `Restores.table`). `Restores s toJson ofNormal x`
says that `x` comes back: writing it, reading the text by `s` and converting the normal value
with `ofNormal` gives `x` again.
-/

namespace Campaign

namespace Table

variable {α : Type}

/-- A table keyed by names holds its entries in ascending order of their names. -/
theorem entries_ascend (t : Table String α) : t.entries.Pairwise fun a b => a.1 < b.1 :=
  t.ascending.imp compare_lt_iff_lt.mp

theorem keys_ascend (t : Table String α) : t.keys.Pairwise (· < ·) :=
  List.pairwise_map.mpr t.entries_ascend

section Ordered

variable {κ : Type} [Ord κ] [Std.TransOrd κ]

/-- A key above every key of the entries goes to their end. -/
theorem insertEntry_above (k : κ) (v : α) :
    ∀ es : List (κ × α), (∀ e ∈ es, compare e.1 k = .lt) → insertEntry k v es = es ++ [(k, v)]
  | [], _ => rfl
  | (k', v') :: es, below => by
    have above : compare k k' = .gt :=
      Std.OrientedCmp.gt_iff_lt.mpr (below (k', v') List.mem_cons_self)
    have later := insertEntry_above k v es fun e mem => below e (List.mem_cons_of_mem _ mem)
    simp [insertEntry, above, later]

/-- Inserting entries in ascending key order, all above the table's keys, appends them; by
induction on the entries. -/
theorem entries_foldl_insert_above :
    ∀ (es : List (κ × α)) (t : Table κ α), es.Pairwise (fun a b => compare a.1 b.1 = .lt) →
      (∀ a ∈ t.entries, ∀ e ∈ es, compare a.1 e.1 = .lt) →
      (es.foldl (fun (t : Table κ α) e => t.insert e.1 e.2) t).entries = t.entries ++ es
  | [], t, _, _ => by simp
  | e :: es, t, ascending, below => by
    have later := List.pairwise_cons.mp ascending
    have step : (t.insert e.1 e.2).entries = t.entries ++ [e] :=
      insertEntry_above e.1 e.2 t.entries fun a mem => below a mem e List.mem_cons_self
    rw [List.foldl_cons, entries_foldl_insert_above es _ later.2, step, List.append_assoc,
      List.singleton_append]
    intro a mem e' inEs
    rw [step] at mem
    rcases List.mem_append.mp mem with old | new
    · exact below a old e' (List.mem_cons_of_mem _ inEs)
    · rw [List.mem_singleton.mp new]
      exact later.1 e' inEs

/-- Entries in ascending key order make the table that holds them in that order. -/
theorem entries_ofList_of_pairwise (es : List (κ × α))
    (sorted : es.Pairwise fun a b => compare a.1 b.1 = .lt) : (ofList es).entries = es :=
  entries_foldl_insert_above es empty sorted (by simp [empty])

end Ordered

/-- Entries with ascending names make the table that holds them in that order. -/
theorem entries_ofList_ascending (es : List (String × α))
    (ascending : (es.map Prod.fst).Pairwise (· < ·)) : (ofList es).entries = es :=
  entries_ofList_of_pairwise es ((List.pairwise_map.mp ascending).imp compare_lt_iff_lt.mpr)

end Table

namespace Shape

open Json

/-- A key's value in a list where each key stands once is the value beside it. -/
theorem lookup_of_mem {β : Type} {l : List (String × β)} {k : String} {b : β}
    (names : (l.map Prod.fst).Nodup) (mem : (k, b) ∈ l) : l.lookup k = some b := by
  induction l with
  | nil => simp at mem
  | cons e l ih =>
    obtain ⟨k', b'⟩ := e
    have apart := List.nodup_cons.mp names
    rcases List.mem_cons.mp mem with same | later
    · cases same
      simp
    · have other : k ≠ k' := by
        rintro rfl
        exact apart.1 (List.mem_map.mpr ⟨_, later, rfl⟩)
      simp [List.lookup_cons, beq_false_of_ne other, ih apart.2 later]

/-- Completing a field takes its member found, or else its default, before the later fields. -/
theorem ofFill_cons {f : String} {s : Shape} {dflt : Option Json}
    {fields : List (String × Shape × Option Json)} {found ns : List (String × Json)} {v : Json}
    (first : found.lookup f = some v ∨ found.lookup f = none ∧ missingValue f s dflt = .ok v)
    (later : ofFill fields found = .ok (.object ns)) :
    ofFill ((f, s, dflt) :: fields) found = .ok (.object ((f, v) :: ns)) := by
  unfold ofFill at later ⊢
  simp only [List.mapM_cons, bind, Except.bind, pure, Except.pure] at later ⊢
  split at later
  · cases later
  · rename_i vs _
    simp only [Except.ok.injEq, object.injEq] at later
    subst later
    rcases first with given | ⟨absent, filled⟩
    · simp only [given]
    · simp only [absent, filled]

/-- Completing the fields gives an object. -/
theorem ofFill_object {fields : List (String × Shape × Option Json)} {found : List (String × Json)}
    {n : Json} (h : ofFill fields found = .ok n) : ∃ ms, n = .object ms := by
  unfold ofFill at h
  simp only [bind, Except.bind, pure, Except.pure] at h
  split at h
  · cases h
  · cases h
    exact ⟨_, rfl⟩

/-- The members of a record as written (`ws`, for `Json.record`) beside the members of the
normal value read back (`ns`): each field is either given, its value read back by the field's
shape, or left out and filled from the field's default. The last index lists the given fields,
each with its written and its normal value. -/
inductive Fields : List (String × Shape × Option Json) → List (String × Option Json) →
    List (String × Json) → List (String × Json × Json) → Prop
  | nil : Fields [] [] [] []
  | given {f : String} {s : Shape} {dflt : Option Json} {j n : Json} {fields ws ns ps} :
      Reads s j n → Fields fields ws ns ps →
      Fields ((f, s, dflt) :: fields) ((f, some j) :: ws) ((f, n) :: ns) ((f, j, n) :: ps)
  | omitted {f : String} {s : Shape} {dflt : Option Json} {n : Json} {fields ws ns ps} :
      missingValue f s dflt = .ok n → Fields fields ws ns ps →
      Fields ((f, s, dflt) :: fields) ((f, none) :: ws) ((f, n) :: ns) ps

namespace Fields

variable {fields : List (String × Shape × Option Json)} {ws : List (String × Option Json)}
  {ns : List (String × Json)} {ps : List (String × Json × Json)}

/-- The written record holds the given fields, in order. -/
theorem record_eq (h : Fields fields ws ns ps) :
    Json.record ws = .object (ps.map fun p => (p.1, p.2.1)) := by
  induction h with
  | nil => rfl
  | given _ _ ih =>
    simp only [Json.record, object.injEq] at ih ⊢
    simp [ih]
  | omitted _ _ ih =>
    simp only [Json.record, object.injEq] at ih ⊢
    simp [ih]

/-- The given fields are some of the record's fields, in order. -/
theorem keys_sublist (h : Fields fields ws ns ps) :
    (ps.map Prod.fst).Sublist (fields.map Prod.fst) := by
  induction h with
  | nil => exact .slnil
  | given _ _ ih => exact ih.cons_cons _
  | omitted _ _ ih => exact ih.cons _

/-- Each given field is a field of the record, its value read back by the field's shape. -/
theorem mem (h : Fields fields ws ns ps) :
    ∀ p ∈ ps, ∃ s dflt, (p.1, s, dflt) ∈ fields ∧ Reads s p.2.1 p.2.2 := by
  induction h with
  | nil => simp
  | given reads _ ih =>
    intro p mem
    rcases List.mem_cons.mp mem with rfl | later
    · exact ⟨_, _, List.mem_cons_self, reads⟩
    · obtain ⟨s, dflt, field, back⟩ := ih p later
      exact ⟨s, dflt, List.mem_cons_of_mem _ field, back⟩
  | omitted _ _ ih =>
    intro p mem
    obtain ⟨s, dflt, field, back⟩ := ih p mem
    exact ⟨s, dflt, List.mem_cons_of_mem _ field, back⟩

/-- Completing the fields from members that agree with the given fields on every field name
gives the normal members; by induction on the fields, the members found staying fixed. -/
theorem fill (h : Fields fields ws ns ps) (found : List (String × Json))
    (names : (fields.map Prod.fst).Nodup)
    (agree : ∀ f ∈ fields.map Prod.fst, found.lookup f = (ps.map fun p => (p.1, p.2.2)).lookup f) :
    ofFill fields found = .ok (.object ns) := by
  induction h with
  | nil => rfl
  | @given f s dflt j n fields ws ns ps _ _ ih =>
    have apart := List.nodup_cons.mp names
    have here : found.lookup f = some n := by simpa using agree f List.mem_cons_self
    refine ofFill_cons (.inl here) (ih apart.2 fun f' mem => ?_)
    have other : f' ≠ f := fun same => apart.1 (same ▸ mem)
    rw [agree f' (List.mem_cons_of_mem _ mem)]
    simp [List.lookup_cons, beq_false_of_ne other]
  | @omitted f s dflt n fields ws ns ps filled rest ih =>
    have apart := List.nodup_cons.mp names
    have given : f ∉ ps.map Prod.fst := fun mem => apart.1 (rest.keys_sublist.subset mem)
    have absent : found.lookup f = none := by
      rw [agree f List.mem_cons_self, List.lookup_eq_none_iff]
      intro p mem
      obtain ⟨q, inPs, rfl⟩ := List.mem_map.mp mem
      exact bne_iff_ne.mpr fun same => given (List.mem_map.mpr ⟨q, inPs, same.symm⟩)
    exact ofFill_cons (.inr ⟨absent, filled⟩)
      (ih apart.2 fun f' mem => agree f' (List.mem_cons_of_mem _ mem))

end Fields

/-- A record whose fields are each given and read back, or left out and filled, reads back to
the object of its normal members. -/
theorem Reads.record_of_fields {name : String} {fields : List (String × Shape × Option Json)}
    {ws : List (String × Option Json)} {ns : List (String × Json)} {ps : List (String × Json × Json)}
    (names : (fields.map Prod.fst).Nodup) (h : Fields fields ws ns ps) :
    Reads (.record name fields) (Json.record ws) (.object ns) := by
  rw [h.record_eq]
  refine .record ps (h.keys_sublist.nodup names) ?_ ?_ (h.fill _ names fun _ _ => rfl)
  · intro p mem
    obtain ⟨s, dflt, field, _⟩ := h.mem p mem
    rw [lookup_of_mem names field]
    rfl
  · intro p mem s dflt found
    obtain ⟨s', dflt', field, reads⟩ := h.mem p mem
    rw [lookup_of_mem names field] at found
    cases found
    exact reads

/-- A record written as the object of all its members reads back as the same members given to
`Json.record`. -/
theorem Reads.object_of_fields {name : String} {fields : List (String × Shape × Option Json)}
    {ms ns : List (String × Json)} {ps : List (String × Json × Json)}
    (names : (fields.map Prod.fst).Nodup)
    (h : Fields fields (ms.map fun m => (m.1, Option.some m.2)) ns ps) :
    Reads (.record name fields) (.object ms) (.object ns) := by
  have written : Json.record (ms.map fun m => (m.1, Option.some m.2)) = .object ms := by
    simp [Json.record, List.filterMap_map]
  rw [← written]
  exact Reads.record_of_fields names h

/-- Reading keeps a value apart from `null`: the normal value is `null` just when the written
one is. -/
theorem Reads.isNull_eq {s : Shape} {j n : Json} (h : Reads s j n) : n.isNull = j.isNull := by
  induction h with
  | some _ notNull ih => rw [ih, notNull]
  | record _ _ _ _ filled =>
    obtain ⟨ms, rfl⟩ := ofFill_object filled
    rfl
  | _ => rfl

section Restores

variable {α : Type}

/-- A value comes back: written by `toJson`, read back by the shape `s` to a normal value, and
converted by `ofNormal`, it is the value again. -/
def Restores (s : Shape) (toJson : α → Json) (ofNormal : Json → α) (x : α) : Prop :=
  ∃ n, Reads s (toJson x) n ∧ ofNormal n = x

variable {toJson : α → Json} {ofNormal : Json → α}

/-- Values that each come back give the pairs of their written and normal values. -/
theorem Restores.items {item : Shape} :
    ∀ {xs : List α}, (∀ x ∈ xs, Restores item toJson ofNormal x) →
      ∃ ps : List (Json × Json), ps.map Prod.fst = xs.map toJson ∧
        (∀ p ∈ ps, Reads item p.1 p.2) ∧ ps.map (fun p => ofNormal p.2) = xs
  | [], _ => ⟨[], rfl, by simp, rfl⟩
  | x :: xs, each => by
    obtain ⟨n, reads, back⟩ := each x List.mem_cons_self
    obtain ⟨ps, written, later, restored⟩ :=
      Restores.items fun y mem => each y (List.mem_cons_of_mem _ mem)
    refine ⟨(toJson x, n) :: ps, by simp [written], ?_, by simp [back, restored]⟩
    intro p mem
    rcases List.mem_cons.mp mem with rfl | other
    · exact reads
    · exact later p other

/-- A list whose items each come back comes back. -/
theorem Restores.list {item : Shape} {xs : List α}
    (each : ∀ x ∈ xs, Restores item toJson ofNormal x) :
    Restores (.list item) (fun xs => .array (xs.map toJson)) (fun j => j.asList.map ofNormal) xs := by
  obtain ⟨ps, written, reads, restored⟩ := Restores.items each
  refine ⟨.array (ps.map Prod.snd), ?_, ?_⟩
  · show Reads _ (.array (xs.map toJson)) _
    rw [← written]
    exact .list ps reads
  · show (ps.map Prod.snd).map ofNormal = xs
    rw [List.map_map]
    exact restored

/-- Entries whose values each come back give the triples of their keys, written values and
normal values. -/
theorem Restores.entries {κ : Type} {value : Shape} :
    ∀ {es : List (κ × α)}, (∀ e ∈ es, Restores value toJson ofNormal e.2) →
      ∃ ps : List (κ × Json × Json), ps.map (fun p => (p.1, p.2.1)) = es.map (fun e => (e.1, toJson e.2)) ∧
        (∀ p ∈ ps, Reads value p.2.1 p.2.2) ∧ ps.map (fun p => (p.1, ofNormal p.2.2)) = es
  | [], _ => ⟨[], rfl, by simp, rfl⟩
  | (k, v) :: es, each => by
    obtain ⟨n, reads, back⟩ := each (k, v) List.mem_cons_self
    obtain ⟨ps, written, later, restored⟩ :=
      Restores.entries fun e mem => each e (List.mem_cons_of_mem _ mem)
    refine ⟨(k, toJson v, n) :: ps, by simp [written], ?_, by simp [back, restored]⟩
    intro p mem
    rcases List.mem_cons.mp mem with rfl | other
    · exact reads
    · exact later p other

/-- A table whose values each come back comes back. -/
theorem Restores.table {value : Shape} {t : Table String α}
    (each : ∀ e ∈ t.entries, Restores value toJson ofNormal e.2) :
    Restores (.map .text value) (Table.toJson toJson) (Table.ofNormal ofNormal) t := by
  obtain ⟨ps, written, reads, restored⟩ := Restores.entries each
  have keys : ps.map Prod.fst = t.keys := by
    have same := congrArg (List.map Prod.fst) restored
    simp only [List.map_map, Function.comp_def] at same
    exact same
  refine ⟨.object (ps.map fun p => (p.1, p.2.2)), ?_, ?_⟩
  · have form : Table.toJson toJson t = .object (ps.map fun p => (p.1, p.2.1)) := by
      rw [written]
      rfl
    rw [form]
    exact .map ps (keys ▸ t.keys_ascend) reads
  · show Table.ofList ((ps.map fun p => (p.1, p.2.2)).map fun e => (e.1, ofNormal e.2)) = t
    rw [List.map_map]
    have entries : (ps.map fun p => (p.1, ofNormal p.2.2)) = t.entries := restored
    simp only [Function.comp_def]
    rw [entries]
    exact Table.ext (Table.entries_ofList_ascending _ (t.keys_ascend))

/-- A value apart from `null` is a present option. -/
theorem asOption_of_isNull {f : Json → α} {n : Json} (h : n.isNull = false) :
    n.asOption f = some (f n) := by
  cases n with
  | null => cases h
  | _ => rfl

/-- An optional field whose default is `null`, written only when present, reads back to the
option: left out, it is filled with `null`; given, its value reads back, and apart from `null`. -/
theorem Fields.option {f : String} {inner : Shape} {o : Option α}
    {fields : List (String × Shape × Option Json)} {ws : List (String × Option Json)}
    {ns : List (String × Json)} {ps : List (String × Json × Json)}
    (back : ∀ x ∈ o, Restores inner toJson ofNormal x)
    (notNull : ∀ x ∈ o, (toJson x).isNull = false) (rest : Fields fields ws ns ps) :
    ∃ n ps', Fields ((f, .optional inner, some .null) :: fields) ((f, o.map toJson) :: ws)
      ((f, n) :: ns) ps' ∧ n.asOption ofNormal = o := by
  cases o with
  | none => exact ⟨.null, ps, .omitted rfl rest, rfl⟩
  | some x =>
    obtain ⟨n, reads, restored⟩ := back x rfl
    have written := notNull x rfl
    have kept : n.isNull = false := by rw [reads.isNull_eq, written]
    refine ⟨n, _, .given (.some reads written) rest, ?_⟩
    rw [asOption_of_isNull kept, restored]

end Restores

end Shape

end Campaign
