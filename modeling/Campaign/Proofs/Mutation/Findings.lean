import Campaign.Proofs.Data.Tables

/-! What the analysis of a plan finds: per status the subjects with such a compilation, ascending
and each once, and per mutant one record per compilation under it, in the walk's order. An
analysis has kills exactly when it names a killed mutant, and it names exactly the mutants some
compilation killed (`Analysis.ofPlan_reports`).
-/

namespace Campaign

open Mutation

namespace Plan

/-- Every compilation of the plan, beside its subject's and its compiler's names: subject by
subject and, within a subject, compiler by compiler. -/
def compilations (p : Plan) : List (String × String × Compilation) :=
  p.corpus.entries.flatMap fun e => e.2.compilations.entries.map fun c => (e.1, c.1, c.2)

/-- The names of the subjects among `l` with some compilation of status `s`, in order. -/
def namesWith (s : Status) (l : List (String × Subject)) : List String :=
  (l.filter fun e => e.2.compilations.values.any fun c => c.status = s).map Prod.fst

/-- The subjects of the plan with some compilation of status `s`, in corpus order. -/
def subjectsWith (p : Plan) (s : Status) : List String := namesWith s p.corpus.entries

/-- The record of a compilation run under mutant `m`, if it ran under `m`. It is a kill when the
mutation was hit and the outcome was flagged. -/
def recordUnder (m : Mutant) (e : String × String × Compilation) : Option SelectionRecord :=
  e.2.2.selection.bind fun sel =>
    if sel.mutant = m then
      some ⟨e.1, e.2.1, sel.hits, e.2.2.status, decide (0 < sel.hits ∧ e.2.2.status = .flagged)⟩
    else none

/-- The records of the compilations run under mutant `m`, in the order of `compilations`. -/
def selectionsOf (p : Plan) (m : Mutant) : List SelectionRecord :=
  p.compilations.filterMap (recordUnder m)

/-- Some compilation ran under mutant `m`, hit the mutation and was flagged. -/
def Kills (p : Plan) (m : Mutant) : Prop :=
  ∃ e ∈ p.compilations, ∃ sel, e.2.2.selection = some sel ∧ sel.mutant = m ∧ 0 < sel.hits
    ∧ e.2.2.status = .flagged

/-- After a push the name is last. -/
theorem getLast?_pushName (name : String) (names : List String) :
    (pushName name names).getLast? = some name := by
  unfold pushName
  split
  · assumption
  · simp

theorem pushName_pushName (name : String) (names : List String) :
    pushName name (pushName name names) = pushName name names := by
  rw [pushName, if_pos (getLast?_pushName name names)]

/-- A name above every name listed is added at the end. -/
theorem pushName_of_below {name : String} {names : List String} (below : ∀ n ∈ names, n < name) :
    pushName name names = names ++ [name] := by
  unfold pushName
  split
  · rename_i last
    have := below name (List.mem_of_getLast? last)
    exact absurd this (lt_irrefl name)
  · rfl


/-- Some compilation ran under `m` exactly when `m` has records. -/
theorem selectionsOf_ne_nil_iff (p : Plan) (m : Mutant) :
    p.selectionsOf m ≠ [] ↔ ∃ e ∈ p.compilations, ∃ sel, e.2.2.selection = some sel ∧ sel.mutant = m := by
  simp only [selectionsOf, ne_eq, List.filterMap_eq_nil_iff, not_forall]
  constructor
  · rintro ⟨e, mem, kept⟩
    cases hsel : e.2.2.selection with
    | none => simp [recordUnder, hsel] at kept
    | some sel =>
      by_cases under : sel.mutant = m
      · exact ⟨e, mem, sel, hsel, under⟩
      · simp [recordUnder, hsel, under] at kept
  · rintro ⟨e, mem, sel, hsel, rfl⟩
    exact ⟨e, mem, by simp [recordUnder, hsel]⟩

/-- A record carries the names of the compilation it stands for. -/
theorem recordUnder_names {m : Mutant} {e : String × String × Compilation} {r : SelectionRecord}
    (h : recordUnder m e = some r) : r.subject = e.1 ∧ r.compiler = e.2.1 := by
  unfold recordUnder at h
  obtain ⟨sel, -, h⟩ := Option.bind_eq_some_iff.mp h
  split at h
  · cases h
    exact ⟨rfl, rfl⟩
  · cases h

/-- A compilation killed `m` exactly when its record under `m` is a kill. -/
theorem killed_iff (p : Plan) (m : Mutant) :
    (∃ r ∈ p.selectionsOf m, r.killed = true) ↔ p.Kills m := by
  simp only [selectionsOf, List.mem_filterMap]
  constructor
  · rintro ⟨r, ⟨e, mem, h⟩, killed⟩
    unfold recordUnder at h
    obtain ⟨sel, hsel, h⟩ := Option.bind_eq_some_iff.mp h
    split at h
    · rename_i under
      cases h
      simp only [decide_eq_true_eq] at killed
      exact ⟨e, mem, sel, hsel, under, killed⟩
    · cases h
  · rintro ⟨e, mem, sel, hsel, rfl, hit, flagged⟩
    exact ⟨_, ⟨e, mem, by simp [recordUnder, hsel]; rfl⟩, by simp [hit, flagged]⟩

/-- The walk meets the compilations in ascending order of subject, then of compiler, as the
tables hold their names. -/
theorem compilations_ascending (p : Plan) :
    (p.compilations.map fun e => (e.1, e.2.1)).Pairwise (Prod.Lex (· < ·) (· < ·)) := by
  simp only [compilations, List.map_flatMap, List.map_map]
  rw [List.pairwise_flatMap]
  refine ⟨fun e mem => ?_, p.corpus.entries_ascend.imp fun {a b} lt => ?_⟩
  · -- within a subject, its compilers ascend
    have inner : (e.2.compilations.entries.map Prod.fst).Pairwise (· < ·) :=
      e.2.compilations.keys_ascend
    rw [List.pairwise_map] at inner ⊢
    refine inner.imp fun {a b} lt => ?_
    show Prod.Lex _ _ (e.1, a.1) (e.1, b.1)
    exact .right _ lt
  · -- across subjects, the subjects ascend
    intro x hx y hy
    obtain ⟨c, -, rfl⟩ := List.mem_map.mp hx
    obtain ⟨c', -, rfl⟩ := List.mem_map.mp hy
    exact Prod.Lex.left _ _ lt

/-- The records of a mutant come in ascending order of subject, then of compiler. -/
theorem selectionsOf_ascending (p : Plan) (m : Mutant) :
    ((p.selectionsOf m).map fun r => (r.subject, r.compiler)).Pairwise
      (Prod.Lex (· < ·) (· < ·)) := by
  have walk := compilations_ascending p
  rw [List.pairwise_map] at walk ⊢
  rw [selectionsOf, List.pairwise_filterMap]
  refine walk.imp fun {a b} lt r hr r' hr' => ?_
  obtain ⟨rs, rc⟩ := recordUnder_names hr
  obtain ⟨rs', rc'⟩ := recordUnder_names hr'
  rw [rs, rc, rs', rc']
  exact lt

/-! ### Subjects by status -/

/-- One subject of the walk by status: each of its compilations lists it under its status. -/
def addSubject (acc : Table Status (List String)) (e : String × Subject) :
    Table Status (List String) :=
  e.2.compilations.values.foldl (fun acc c => acc.update c.status [] (pushName e.1)) acc

theorem subjectsByStatus_eq (p : Plan) :
    p.subjectsByStatus = p.corpus.entries.foldl addSubject {} := rfl

/-- Listing one subject under the statuses of its compilations pushes it once under each such
status and leaves the others alone; by induction on the compilations. -/
theorem foldl_push_get? (name : String) (cs : List Compilation) (acc : Table Status (List String))
    (s : Status) :
    (cs.foldl (fun acc c => acc.update c.status [] (pushName name)) acc).get? s
      = if cs.any (fun c => c.status = s) then some (pushName name ((acc.get? s).getD []))
        else acc.get? s := by
  induction cs generalizing acc with
  | nil => simp
  | cons c cs ih =>
    rw [List.foldl_cons, ih, Table.get?_update]
    by_cases here : c.status = s
    · subst here
      simp [pushName_pushName]
    · simp [here, Ne.symm here]

/-- Walking subjects in ascending order, each above every name listed so far, lists under a
status exactly the subjects with a compilation of that status, after those listed before;
by induction on the subjects. -/
theorem foldl_addSubject_get? (l : List (String × Subject)) (acc : Table Status (List String))
    (s : Status) (ascending : l.Pairwise fun a b => a.1 < b.1)
    (below : ∀ n ∈ (acc.get? s).getD [], ∀ e ∈ l, n < e.1) :
    (l.foldl addSubject acc).get? s
      = if namesWith s l = [] then acc.get? s
        else some ((acc.get? s).getD [] ++ namesWith s l) := by
  induction l generalizing acc with
  | nil => simp [namesWith]
  | cons e l ih =>
    obtain ⟨head, later⟩ := List.pairwise_cons.mp ascending
    have old : ∀ n ∈ (acc.get? s).getD [], n < e.1 := fun n mem => below n mem e List.mem_cons_self
    -- the subject goes last under each status of its compilations
    have step : (addSubject acc e).get? s
        = if e.2.compilations.values.any (fun c => c.status = s)
          then some ((acc.get? s).getD [] ++ [e.1]) else acc.get? s := by
      rw [addSubject, foldl_push_get?, pushName_of_below old]
    have below' : ∀ n ∈ ((addSubject acc e).get? s).getD [], ∀ e' ∈ l, n < e'.1 := by
      intro n mem e' mem'
      rw [step] at mem
      split at mem
      · rcases List.mem_append.mp mem with listed | named
        · exact below n listed e' (List.mem_cons_of_mem _ mem')
        · rw [List.mem_singleton.mp named]
          exact head e' mem'
      · exact below n mem e' (List.mem_cons_of_mem _ mem')
    rw [List.foldl_cons, ih _ later below', step]
    by_cases has : e.2.compilations.values.any (fun c => c.status = s) = true
    · have names : namesWith s (e :: l) = e.1 :: namesWith s l := by
        simp [namesWith, has]
      rw [if_pos has, names]
      split <;> simp_all
    · have names : namesWith s (e :: l) = namesWith s l := by
        simp [namesWith, has]
      rw [if_neg has, names]

/-- The analysis lists under each status the subjects with a compilation of that status, when
there are any. -/
theorem byStatus_get? (p : Plan) (s : Status) :
    p.subjectsByStatus.get? s = if p.subjectsWith s = [] then none else some (p.subjectsWith s) := by
  rw [subjectsByStatus_eq, foldl_addSubject_get? _ _ s p.corpus.entries_ascend (by simp)]
  rfl

/-- The subjects listed under a status ascend, so each is listed once. -/
theorem subjectsWith_ascending (p : Plan) (s : Status) : (p.subjectsWith s).Pairwise (· < ·) :=
  List.Pairwise.sublist ((List.filter_sublist).map Prod.fst) p.corpus.keys_ascend

/-- A status lists subjects exactly when some compilation has it. -/
theorem subjectsWith_ne_nil_iff (p : Plan) (s : Status) :
    p.subjectsWith s ≠ [] ↔ ∃ e ∈ p.compilations, e.2.2.status = s := by
  simp only [subjectsWith, namesWith, ne_eq, List.map_eq_nil_iff, List.filter_eq_nil_iff,
    not_forall, not_not, exists_prop, List.any_eq_true, decide_eq_true_eq, compilations,
    List.mem_flatMap, List.mem_map, Table.values]
  constructor
  · rintro ⟨e, mem, c, ⟨entry, inEntries, rfl⟩, status⟩
    exact ⟨_, ⟨e, mem, entry, inEntries, rfl⟩, status⟩
  · rintro ⟨_, ⟨e, mem, entry, inEntries, rfl⟩, status⟩
    exact ⟨e, mem, entry.2, ⟨entry, inEntries, rfl⟩, status⟩

end Plan

namespace Mutation

theorem isKill_eq (hits : Nat) (status : Status) :
    isKill hits status = decide (0 < hits ∧ status = .flagged) := by
  by_cases flagged : status = .flagged <;> simp [isKill, Status.isFlagged, flagged]

/-- Registering a compilation adds its record to its mutant's list, and changes no other. -/
theorem register_get? (a : MutantAnalysis) (m : Mutant) (subject compiler : String) (hits : Nat)
    (status : Status) (m' : Mutant) :
    (a.register m subject compiler hits status).selections.get? m'
      = if m' = m then some ((a.selections.get? m).getD [] ++
          [⟨subject, compiler, hits, status, isKill hits status⟩])
        else a.selections.get? m' :=
  Table.get?_update _ _ _ _ _

namespace Analysis

open Plan

/-- One compilation of the walk over the plan. -/
def registerRun (acc : MutantAnalysis) (e : String × String × Compilation) : MutantAnalysis :=
  match e.2.2.selection with
  | some sel => acc.register sel.mutant e.1 e.2.1 sel.hits e.2.2.status
  | none => acc

/-- The mutation analysis of a plan is the walk over its compilations. -/
theorem ofPlan_mutation (p : Plan) :
    (ofPlan p).mutation = p.compilations.foldl registerRun {} := by
  simp only [ofPlan, compilations, List.foldl_flatMap, List.foldl_map]
  rfl

/-- Walking compilations adds the records of those run under `m` to `m`'s list, and leaves
it alone when there are none; by induction on the compilations. -/
theorem foldl_registerRun_get? (l : List (String × String × Compilation)) (acc : MutantAnalysis)
    (m : Mutant) :
    (l.foldl registerRun acc).selections.get? m
      = if l.filterMap (recordUnder m) = [] then acc.selections.get? m
        else some ((acc.selections.get? m).getD [] ++ l.filterMap (recordUnder m)) := by
  induction l generalizing acc with
  | nil => simp
  | cons e l ih =>
    rw [List.foldl_cons, ih]
    obtain ⟨subject, compiler, c⟩ := e
    cases hsel : c.selection with
    | none =>
      have skipped : recordUnder m (subject, compiler, c) = none := by simp [recordUnder, hsel]
      simp only [registerRun, hsel, List.filterMap_cons_none skipped]
    | some sel =>
      have step := register_get? acc sel.mutant subject compiler sel.hits c.status m
      by_cases under : sel.mutant = m
      · -- the compilation ran under `m`: its record comes first
        subst under
        have taken : recordUnder sel.mutant (subject, compiler, c)
            = some ⟨subject, compiler, sel.hits, c.status, isKill sel.hits c.status⟩ := by
          simp [recordUnder, hsel, isKill_eq]
        simp only [registerRun, hsel, step, List.filterMap_cons_some taken]
        split <;> simp_all
      · have skipped : recordUnder m (subject, compiler, c) = none := by
          simp [recordUnder, hsel, under]
        simp only [registerRun, hsel, step, if_neg (Ne.symm under),
          List.filterMap_cons_none skipped]

/-- Each mutant reads the records of the compilations run under it, or nothing when there are
none. -/
theorem selections_get? (p : Plan) (m : Mutant) :
    (ofPlan p).mutation.selections.get? m
      = if p.selectionsOf m = [] then none else some (p.selectionsOf m) := by
  rw [ofPlan_mutation, foldl_registerRun_get?]
  rfl


/-- An analysis has kills exactly when it names a killed mutant. -/
theorem hasKills_iff (a : MutantAnalysis) : a.hasKills = true ↔ a.killedMutants ≠ [] := by
  simp only [MutantAnalysis.hasKills, MutantAnalysis.killedMutants, Table.values, List.any_map,
    ne_eq, List.map_eq_nil_iff, List.filter_eq_nil_iff, not_forall, not_not, exists_prop,
    List.any_eq_true, Function.comp_def]

/-- The analysis names exactly the mutants some compilation killed. -/
theorem mem_killedMutants_iff (p : Plan) (m : Mutant) :
    m ∈ (ofPlan p).mutation.killedMutants ↔ p.Kills m := by
  rw [← killed_iff]
  simp only [MutantAnalysis.killedMutants, List.mem_map, List.mem_filter]
  constructor
  · rintro ⟨⟨m', rs⟩, ⟨mem, anyKilled⟩, rfl⟩
    have found := (Table.mem_iff_get? _).mp mem
    rw [selections_get?] at found
    split at found
    · cases found
    · cases found
      simpa [List.any_eq_true] using anyKilled
  · rintro ⟨r, mem, killed⟩
    have found : (ofPlan p).mutation.selections.get? m = some (p.selectionsOf m) := by
      rw [selections_get?, if_neg (List.ne_nil_of_mem mem)]
    exact ⟨(m, p.selectionsOf m), ⟨(Table.mem_iff_get? _).mpr found,
      List.any_eq_true.mpr ⟨r, mem, killed⟩⟩, rfl⟩

/-- The killed mutants are named in ascending order, each once. -/
theorem killedMutants_ascending (p : Plan) :
    (ofPlan p).mutation.killedMutants.Pairwise fun m m' => m.id < m'.id := by
  simp only [MutantAnalysis.killedMutants, List.pairwise_map]
  exact ((ofPlan p).mutation.selections.ascending.filter _).imp fun lt => Nat.compare_eq_lt.mp lt

/-- What the analysis of a plan reports about it. -/
structure Reports (a : Analysis) (p : Plan) : Prop where
  /-- A status reads the subjects with a compilation of that status, when there are any. -/
  byStatus : ∀ s, a.byStatus.get? s = if p.subjectsWith s = [] then none else some (p.subjectsWith s)
  /-- There are such subjects exactly when some compilation ended in that status. -/
  byStatus_some : ∀ s, p.subjectsWith s ≠ [] ↔ ∃ e ∈ p.compilations, e.2.2.status = s
  /-- They are listed in ascending order, so each once. -/
  byStatus_ascending : ∀ s, (p.subjectsWith s).Pairwise (· < ·)
  /-- A mutant reads the records of the compilations run under it, when there are any. -/
  selections : ∀ m, a.mutation.selections.get? m
    = if p.selectionsOf m = [] then none else some (p.selectionsOf m)
  /-- There are such records exactly when some compilation ran under the mutant. -/
  selections_some : ∀ m, p.selectionsOf m ≠ []
    ↔ ∃ e ∈ p.compilations, ∃ sel, e.2.2.selection = some sel ∧ sel.mutant = m
  /-- The records come in ascending order of subject, then of compiler. -/
  selections_ascending : ∀ m, ((p.selectionsOf m).map fun r => (r.subject, r.compiler)).Pairwise
    (Prod.Lex (· < ·) (· < ·))
  /-- The analysis has kills exactly when it names a killed mutant. -/
  hasKills : a.mutation.hasKills = true ↔ a.mutation.killedMutants ≠ []
  /-- It names one exactly when some compilation killed a mutant. -/
  killed_some : a.mutation.killedMutants ≠ [] ↔ ∃ m, p.Kills m
  /-- The killed mutants are named in ascending order. -/
  killed_ascending : a.mutation.killedMutants.Pairwise fun m m' => m.id < m'.id
  /-- They are exactly the mutants some compilation killed. -/
  killed : ∀ m, m ∈ a.mutation.killedMutants ↔ p.Kills m

/-- The analysis of a plan reports, by status, the subjects with a
compilation of each status, ascending; by mutant, one record per compilation run under it, in
order of subject and compiler, a kill when the mutation was hit and the outcome flagged; and
the killed mutants, ascending. -/
theorem ofPlan_reports (p : Plan) : (ofPlan p).Reports p where
  byStatus := byStatus_get? p
  byStatus_some := subjectsWith_ne_nil_iff p
  byStatus_ascending := subjectsWith_ascending p
  selections := selections_get? p
  selections_some := selectionsOf_ne_nil_iff p
  selections_ascending := selectionsOf_ascending p
  hasKills := hasKills_iff _
  killed_some := by
    constructor
    · intro named
      obtain ⟨m, mem⟩ := List.exists_mem_of_ne_nil _ named
      exact ⟨m, (mem_killedMutants_iff p m).mp mem⟩
    · rintro ⟨m, kills⟩
      exact List.ne_nil_of_mem ((mem_killedMutants_iff p m).mpr kills)
  killed_ascending := killedMutants_ascending p
  killed := mem_killedMutants_iff p

end Analysis

end Mutation

end Campaign
