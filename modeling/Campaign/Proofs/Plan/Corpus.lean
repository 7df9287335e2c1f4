import Campaign.Plan.Corpus
import Campaign.Proofs.Data.Tables

/-! The corpus planner succeeds exactly when every input exists and no two name the same subject,
and then gives every machine the corpus of those inputs (`PlansOf`); otherwise it fails at the
first missing or clashing input (`FirstFault`). One lemma says what a step of its fold does,
and `foldlM_corpusStep` carries it along the inputs.
-/

namespace Campaign

/-! ### Lookups -/

namespace Tree

theorem exists_of_stat {t : Tree} {p : Path} {n : Node} (found : t.stat p = .ok n) :
    t.exists_ p = true := by
  simp [exists_, found, Except.toBool]

theorem exists_false_of_stat {t : Tree} {p : Path} {io : IoError} (missing : t.stat p = .error io) :
    t.exists_ p = false := by
  simp [exists_, missing, Except.toBool]

end Tree

/-! ### What the planner accepts, builds and reports -/

/-- Inputs the planner accepts: each exists and no two name the same subject. -/
def Plannable (t : Tree) (inputs : List String) : Prop :=
  (∀ p ∈ inputs, t.exists_ ⟨p⟩ = true) ∧ (inputs.map subjectName).Nodup

/-- The corpus of some inputs: each subject name reads the first input of that name, with no
compilations yet, and any other name reads nothing. -/
def CorpusOf (inputs : List String) (corpus : Table String Subject) : Prop :=
  ∀ n, corpus.get? n =
    (inputs.find? (subjectName · = n)).map fun p => { source := p, compilations := {} }

/-- Why input `p` cannot follow the inputs `earlier`. -/
inductive InputFault (t : Tree) (earlier : List String) (p : String) : PlanError → Prop
  /-- It cannot be looked up. -/
  | missing {io : IoError} : t.stat ⟨p⟩ = .error io → InputFault t earlier p (.input p io)
  /-- It exists, and the earlier input `q` names the same subject. -/
  | duplicate {q : String} : t.exists_ ⟨p⟩ = true → q ∈ earlier → subjectName q = subjectName p →
      InputFault t earlier p (.duplicateSubject (subjectName p) q p)

/-- The failure concerns input `i`, the first that cannot follow the ones before it. -/
def FirstFault (t : Tree) (inputs : List String) (e : PlanError) : Prop :=
  ∃ i, ∃ h : i < inputs.length, Plannable t (inputs.take i) ∧ InputFault t (inputs.take i) inputs[i] e

/-- The plans of the machines over some inputs: one per machine, each with the corpus of the
inputs, the machine's own compilers and mutation, the given seed, made at `now` with no stage
recorded, and no mutant. -/
structure PlansOf (seed now : Int) (machines : Table MachineId MachineConfig)
    (inputs : List String) (plans : Table MachineId Plan) : Prop where
  planned : ∀ id, (plans.get? id).isSome = (machines.get? id).isSome
  own : ∀ id p, plans.get? id = some p →
    ∃ c, machines.get? id = some c ∧ p.compilers = c.compilers ∧ p.mutation = c.mutation
  seeded : ∀ id p, plans.get? id = some p →
    p.metadata = { seed, createdMs := now } ∧ p.mutant = none
  corpus : ∀ id p, plans.get? id = some p → CorpusOf inputs p.corpus

/-! ### Facts about inputs -/

namespace Plannable

variable {t : Tree}

theorem nil : Plannable t [] := ⟨nofun, List.nodup_nil⟩

theorem sublist {l₁ l₂ : List String} (sub : l₁.Sublist l₂) (all : Plannable t l₂) :
    Plannable t l₁ :=
  ⟨fun p mem => all.1 p (sub.subset mem), all.2.sublist (sub.map subjectName)⟩

/-- An input that exists and names a new subject can follow plannable inputs. -/
theorem snoc {pre : List String} {p : String} (all : Plannable t pre) (found : t.exists_ ⟨p⟩ = true)
    (fresh : subjectName p ∉ pre.map subjectName) : Plannable t (pre ++ [p]) := by
  refine ⟨fun q mem => ?_, ?_⟩
  · rcases List.mem_append.mp mem with old | new
    · exact all.1 q old
    · rw [List.mem_singleton.mp new]
      exact found
  · rw [List.map_append, List.nodup_append]
    exact ⟨all.2, by simp, fun a old b new => by
      rw [List.map_singleton, List.mem_singleton] at new
      rintro rfl
      exact fresh (new ▸ old)⟩

end Plannable

/-- An input at fault cannot follow the inputs before it. -/
theorem InputFault.not_plannable {t : Tree} {pre : List String} {p : String} {e : PlanError}
    (fault : InputFault t pre p e) : ¬ Plannable t (pre ++ [p]) := by
  intro all
  cases fault with
  | missing missing =>
    have found := all.1 p (by simp)
    rw [Tree.exists_false_of_stat missing] at found
    cases found
  | duplicate _ old same =>
    have apart := (List.nodup_append.mp (List.map_append ▸ all.2)).2.2
    exact apart _ (List.mem_map_of_mem old) _ (by simp) same

/-- Failing at some input, the whole list is not plannable. -/
theorem FirstFault.not_plannable {t : Tree} {inputs : List String} {e : PlanError}
    (first : FirstFault t inputs e) : ¬ Plannable t inputs := by
  obtain ⟨i, within, -, fault⟩ := first
  intro all
  apply fault.not_plannable
  rw [List.take_append_getElem within]
  exact all.sublist (List.take_sublist _ _)

/-! ### The corpus built so far -/

namespace CorpusOf

theorem nil : CorpusOf [] {} := fun _ => rfl

variable {pre : List String} {c : Table String Subject}

/-- A name reads nothing exactly when no input walked so far has it. -/
theorem get?_eq_none_iff (corpus : CorpusOf pre c) {n : String} :
    c.get? n = none ↔ n ∉ pre.map subjectName := by
  rw [corpus n, Option.map_eq_none_iff, List.find?_eq_none]
  simp

/-- A name that reads a subject was taken by an input walked so far, its source. -/
theorem taken (corpus : CorpusOf pre c) {n : String} {s : Subject} (found : c.get? n = some s) :
    ∃ q ∈ pre, subjectName q = n ∧ s.source = q := by
  rw [corpus n] at found
  obtain ⟨q, first, rfl⟩ := Option.map_eq_some_iff.mp found
  exact ⟨q, List.mem_of_find?_eq_some first, by simpa using List.find?_some first, rfl⟩

/-- Taking a new name for input `p` gives the corpus of the inputs with `p` after them. -/
theorem insert (corpus : CorpusOf pre c) {p : String} (fresh : c.get? (subjectName p) = none) :
    CorpusOf (pre ++ [p]) (c.insert (subjectName p) { source := p }) := by
  intro n
  rw [Table.get?_insert, List.find?_append]
  by_cases mine : n = subjectName p
  · subst mine
    have unnamed : pre.find? (subjectName · = subjectName p) = none := by
      simpa [corpus (subjectName p)] using fresh
    simp [unnamed]
  · rw [if_neg mine, corpus n]
    cases pre.find? (subjectName · = n) with
    | some q => rfl
    | none => simp [Ne.symm mine]

end CorpusOf

/-! ### A step of the walk -/

/-- One step of the walk: look the input up, then give it its subject name unless an earlier
input has the name. -/
def corpusStep (t : Tree) (corpus : Table String Subject) (path : String) :
    Except PlanError (Table String Subject) :=
  match t.stat ⟨path⟩ with
  | .error e => throw (.input path e)
  | .ok _ =>
    let name := subjectName path
    match corpus.get? name with
    | some existing => throw (.duplicateSubject name existing.source path)
    | none => return corpus.insert name { source := path }

theorem corpusOf_eq (t : Tree) (inputs : List String) :
    corpusOf t inputs = inputs.foldlM (corpusStep t) {} := rfl

/-- What a step does: fail on a missing input, fail on a name already taken, or take the name. -/
theorem corpusStep_cases (t : Tree) (c : Table String Subject) (p : String) :
    (∃ io, t.stat ⟨p⟩ = .error io ∧ corpusStep t c p = .error (.input p io)) ∨
    (t.exists_ ⟨p⟩ = true ∧ ∃ s, c.get? (subjectName p) = some s ∧
      corpusStep t c p = .error (.duplicateSubject (subjectName p) s.source p)) ∨
    (t.exists_ ⟨p⟩ = true ∧ c.get? (subjectName p) = none ∧
      corpusStep t c p = .ok (c.insert (subjectName p) { source := p })) := by
  cases looked : t.stat ⟨p⟩ with
  | error io => exact .inl ⟨io, rfl, by simp [corpusStep, looked, throw, throwThe, MonadExceptOf.throw]⟩
  | ok n =>
    have found := Tree.exists_of_stat looked
    cases named : c.get? (subjectName p) with
    | some s =>
      exact .inr (.inl ⟨found, s, rfl, by
        simp [corpusStep, looked, named, throw, throwThe, MonadExceptOf.throw]⟩)
    | none => exact .inr (.inr ⟨found, rfl, by simp [corpusStep, looked, named, pure, Except.pure]⟩)

/-! ### The walk -/

/-- The walk over `rest`, after the plannable inputs `pre` gave the corpus `c`: it ends with
the corpus of all the inputs when they are plannable, and otherwise fails at the first input of
`rest` at fault; by induction on `rest`, the inputs walked and their corpus generalised. -/
theorem foldlM_corpusStep (t : Tree) (rest : List String) :
    ∀ (pre : List String) (c : Table String Subject), Plannable t pre → CorpusOf pre c →
      (∀ c', rest.foldlM (corpusStep t) c = .ok c' →
        Plannable t (pre ++ rest) ∧ CorpusOf (pre ++ rest) c') ∧
      (∀ e, rest.foldlM (corpusStep t) c = .error e →
        ∃ i, ∃ h : i < rest.length, Plannable t (pre ++ rest.take i) ∧
          InputFault t (pre ++ rest.take i) rest[i] e) := by
  induction rest with
  | nil =>
    intro pre c all corpus
    refine ⟨fun c' done => ?_, fun e failed => (nomatch failed)⟩
    cases done
    simpa using ⟨all, corpus⟩
  | cons p rest ih =>
    intro pre c all corpus
    rcases corpusStep_cases t c p with ⟨io, missing, step⟩ | ⟨found, s, named, step⟩ |
      ⟨found, named, step⟩
    · -- a missing input ends the walk here
      simp only [List.foldlM_cons, step, bind, Except.bind]
      refine ⟨fun c' failed => (nomatch failed), fun e failed => ?_⟩
      cases failed
      exact ⟨0, by simp, by simpa using all, by simpa using InputFault.missing missing⟩
    · -- so does a name already taken, by the earlier input it reads
      simp only [List.foldlM_cons, step, bind, Except.bind]
      refine ⟨fun c' failed => (nomatch failed), fun e failed => ?_⟩
      cases failed
      obtain ⟨q, old, same, rfl⟩ := corpus.taken named
      exact ⟨0, by simp, by simpa using all, by simpa using InputFault.duplicate found old same⟩
    · -- the input takes its name, and the walk goes on with it among the inputs walked
      have fresh : subjectName p ∉ pre.map subjectName := corpus.get?_eq_none_iff.mp named
      obtain ⟨ok, fails⟩ := ih (pre ++ [p]) _ (all.snoc found fresh) (corpus.insert named)
      simp only [List.foldlM_cons, step, bind, Except.bind]
      refine ⟨fun c' done => by simpa using ok c' done, fun e failed => ?_⟩
      obtain ⟨i, within, before, fault⟩ := fails e failed
      exact ⟨i + 1, by simpa using within, by simpa using before, by simpa using fault⟩

/-! ### The planner -/

theorem planCorpus_eq (t : Tree) (seed now : Int) (machines : Table MachineId MachineConfig)
    (inputs : List String) :
    planCorpus t seed now machines inputs =
      (corpusOf t inputs).map (planMachines seed now machines) := by
  unfold planCorpus
  cases corpusOf t inputs <;> rfl

/-- A machine's plan is built from its configuration, the seed, the time and the corpus. -/
theorem planMachines_get?_eq_some {seed now : Int} {machines : Table MachineId MachineConfig}
    {corpus : Table String Subject} {id : MachineId} {p : Plan}
    (found : (planMachines seed now machines corpus).get? id = some p) :
    ∃ c, machines.get? id = some c ∧
      p = { metadata := { seed, createdMs := now }, compilers := c.compilers, corpus,
            mutation := c.mutation } := by
  simp only [planMachines, Table.get?_mapValues, Option.map_eq_some_iff] at found
  obtain ⟨c, there, rfl⟩ := found
  exact ⟨c, there, rfl⟩

/-- The plans over a corpus of the inputs are plans of the machines over the inputs. -/
theorem planMachines_plansOf (seed now : Int) (machines : Table MachineId MachineConfig)
    {inputs : List String} {corpus : Table String Subject} (built : CorpusOf inputs corpus) :
    PlansOf seed now machines inputs (planMachines seed now machines corpus) where
  planned id := by simp [planMachines]
  own id p found := by
    obtain ⟨c, there, rfl⟩ := planMachines_get?_eq_some found
    exact ⟨c, there, rfl, rfl⟩
  seeded id p found := by
    obtain ⟨c, -, rfl⟩ := planMachines_get?_eq_some found
    exact ⟨rfl, rfl⟩
  corpus id p found := by
    obtain ⟨c, -, rfl⟩ := planMachines_get?_eq_some found
    exact built

/-- The corpus planner succeeds exactly when every input exists and no two inputs name the
same subject. It then gives every machine, and no other, one plan: its corpus maps each
input's subject name to a subject with that input as source and no compilations, and nothing
else; its compilers and mutation are the machine's own; its seed is the planner's and its
creation time the planner's time, the same for all, with no stage recorded; and no mutant is
selected. Otherwise it fails at the first input that is missing, with the
lookup's error, or whose subject name an earlier input took, naming that earlier input first
and this one second. -/
theorem planCorpus_plans_or_first_fault (t : Tree) (seed now : Int)
    (machines : Table MachineId MachineConfig) (inputs : List String) :
    ((∃ plans, planCorpus t seed now machines inputs = .ok plans) ↔ Plannable t inputs) ∧
    (∀ plans, planCorpus t seed now machines inputs = .ok plans →
      PlansOf seed now machines inputs plans) ∧
    (∀ e, planCorpus t seed now machines inputs = .error e → FirstFault t inputs e) := by
  obtain ⟨built, fails⟩ := foldlM_corpusStep t inputs [] {} Plannable.nil CorpusOf.nil
  rw [planCorpus_eq, corpusOf_eq]
  cases walked : inputs.foldlM (corpusStep t) {} with
  | ok corpus =>
    obtain ⟨all, corpusOf⟩ := built corpus walked
    rw [List.nil_append] at all corpusOf
    exact ⟨⟨fun _ => all, fun _ => ⟨_, rfl⟩⟩,
      fun plans same => (Except.ok.inj same) ▸ planMachines_plansOf seed now machines corpusOf,
      fun e failed => (nomatch failed)⟩
  | error e =>
    obtain ⟨i, within, before, fault⟩ := fails e walked
    have first : FirstFault t inputs e := ⟨i, within, by simpa using before, by simpa using fault⟩
    exact ⟨⟨fun ⟨_, never⟩ => (nomatch never), fun all => absurd all first.not_plannable⟩,
      fun plans never => (nomatch never), fun e' failed => by cases failed; exact first⟩

end Campaign
