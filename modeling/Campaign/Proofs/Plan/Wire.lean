import Campaign.Proofs.Schema.Records

/-! The compact text of a well-formed plan reads back to the plan itself
(`Plan.compact_text_reads_back`): absent fields as absent, names as the same statuses and
stages, and tables entry for entry. Each part comes back (`restores`) from its parts.
-/

namespace Campaign

open Shape Json Mutation

/-! ### Well-formed plans -/

/-- The mutant and the hit count are words. -/
def Selection.WellFormed (s : Selection) : Prop := s.mutant.id < 2 ^ 64 ∧ s.hits < 2 ^ 64

instance (s : Selection) : Decidable s.WellFormed := by
  unfold Selection.WellFormed; infer_instance

/-- The selection, when there is one, is well formed. -/
def Compilation.WellFormed (c : Compilation) : Prop := ∀ s ∈ c.selection, s.WellFormed

instance (c : Compilation) : Decidable c.WellFormed := by
  unfold Compilation.WellFormed; infer_instance

/-- Every compilation is well formed. -/
def Subject.WellFormed (s : Subject) : Prop := ∀ e ∈ s.compilations.entries, e.2.WellFormed

instance (s : Subject) : Decidable s.WellFormed := by
  unfold Subject.WellFormed; infer_instance

/-- The completion time is a signed word, the duration a word. -/
def StageRecord.WellFormed (r : StageRecord) : Prop :=
  -2 ^ 63 ≤ r.completedMs ∧ r.completedMs < 2 ^ 63 ∧ r.durationMs < 2 ^ 64

instance (r : StageRecord) : Decidable r.WellFormed := by
  unfold StageRecord.WellFormed; infer_instance

/-- The seed and the creation time are signed words, and every stage record is well formed. -/
def Metadata.WellFormed (m : Metadata) : Prop :=
  -2 ^ 63 ≤ m.seed ∧ m.seed < 2 ^ 63 ∧ -2 ^ 63 ≤ m.createdMs ∧ m.createdMs < 2 ^ 63 ∧
    ∀ r ∈ m.stages, r.WellFormed

instance (m : Metadata) : Decidable m.WellFormed := by
  unfold Metadata.WellFormed; infer_instance

/-- The start, and the end when there is one, are words. -/
def Mutation.Range.WellFormed (r : Range) : Prop := r.start < 2 ^ 64 ∧ ∀ e ∈ r.stop, e < 2 ^ 64

instance (r : Range) : Decidable r.WellFormed := by
  unfold Range.WellFormed; infer_instance

/-- The ranges are well formed and the rotation period is a word. -/
def Mutation.Config.WellFormed (c : Config) : Prop :=
  (∀ r ∈ c.ranges, r.WellFormed) ∧ c.auto.changeAfterSecs < 2 ^ 64

instance (c : Config) : Decidable c.WellFormed := by
  unfold Config.WellFormed; infer_instance

/-- The metadata, the subjects and the mutation configuration are well formed, and the mutant
under test is a word. -/
def Plan.WellFormed (p : Plan) : Prop :=
  p.metadata.WellFormed ∧ (∀ e ∈ p.corpus.entries, e.2.WellFormed) ∧
    (∀ c ∈ p.mutation, c.WellFormed) ∧ ∀ m ∈ p.mutant, m.id < 2 ^ 64

instance (p : Plan) : Decidable p.WellFormed := by
  unfold Plan.WellFormed; infer_instance

/-! ### Names and numbers -/

/-- Every status is one of the names its shape accepts. -/
theorem Status.name_mem_names (s : Status) : s.name ∈ names := by
  cases s <;> decide

/-- A status comes back as its name. -/
theorem Status.restores (s : Status) : Restores shape toJson ofNormal s := by
  refine ⟨_, .variant s.name_mem_names, ?_⟩
  cases s <;> rfl

/-- Every stage is one of the names its shape accepts. -/
theorem StageKind.name_mem_names (k : StageKind) : k.name ∈ names := by
  cases k <;> decide

/-- A stage comes back as its name. -/
theorem StageKind.restores (k : StageKind) : Restores shape toJson ofNormal k := by
  refine ⟨_, .variant k.name_mem_names, ?_⟩
  cases k <;> rfl

/-- A word comes back. -/
theorem restores_nat {k : Nat} (small : k < 2 ^ 64) : Restores u64 Json.nat asNat k :=
  ⟨_, .unsigned small, rfl⟩

/-- A mutant below `2 ^ 64` comes back as its number. -/
theorem Mutation.Mutant.restores (m : Mutant) (small : m.id < 2 ^ 64) :
    Restores u64 Mutant.toJson (fun v => ⟨v.asNat⟩) m :=
  ⟨_, .unsigned small, rfl⟩

/-- An integer reads back from its number. -/
theorem asInt_int (i : Int) : (Json.int i).asInt = i := by
  unfold Json.int
  split
  · rename_i nonneg
    exact Int.toNat_of_nonneg nonneg
  · rfl

/-- A string comes back. -/
theorem restores_string (expected s : String) : Restores (.string expected) Json.string asString s :=
  ⟨_, .string s, rfl⟩

/-! ### Records -/

/-- A compiler comes back, with its option strings present or absent. -/
theorem CompilerConfig.restores (c : CompilerConfig) : Restores shape toJson ofNormal c := by
  obtain ⟨mopt, _, fourth, mopt_back⟩ := Fields.option (f := "mopt")
    (fun x (_ : x ∈ c.mopt) => restores_string "a string" x) (fun _ _ => rfl) .nil
  obtain ⟨opt, _, third, opt_back⟩ := Fields.option (f := "opt")
    (fun x (_ : x ∈ c.opt) => restores_string "a string" x) (fun _ _ => rfl) fourth
  refine ⟨_, Reads.record_of_fields (by decide) (.given (.string c.style) (.given (.string c.arch) third)), ?_⟩
  show CompilerConfig.mk c.style c.arch (opt.asOption asString) (mopt.asOption asString) = c
  rw [opt_back, mopt_back]

/-- A well-formed selection comes back. -/
theorem Selection.restores (s : Selection) (wf : s.WellFormed) : Restores shape toJson ofNormal s :=
  ⟨_, Reads.object_of_fields (by decide) (.given (.unsigned wf.1) (.given (.unsigned wf.2) .nil)), rfl⟩

/-- A well-formed compilation comes back, with its selection present or absent. -/
theorem Compilation.restores (c : Compilation) (wf : c.WellFormed) :
    Restores shape toJson ofNormal c := by
  obtain ⟨chosen, _, second, chosen_back⟩ := Fields.option (f := "mutant")
    (fun (s : Selection) (mem : s ∈ c.selection) => s.restores (wf s mem)) (fun _ _ => rfl) .nil
  obtain ⟨status, reads, status_back⟩ := c.status.restores
  refine ⟨_, Reads.record_of_fields (by decide) (.given reads second), ?_⟩
  show Compilation.mk (Status.ofNormal status) (chosen.asOption Selection.ofNormal) = c
  rw [status_back, chosen_back]

/-- A well-formed subject comes back, its compilations entry for entry. -/
theorem Subject.restores (s : Subject) (wf : s.WellFormed) : Restores shape toJson ofNormal s := by
  obtain ⟨table, reads, table_back⟩ := Restores.table (t := s.compilations) fun e mem => e.2.restores (wf e mem)
  refine ⟨_, Reads.object_of_fields (by decide) (.given (.string s.source) (.given reads .nil)), ?_⟩
  show Subject.mk s.source (Table.ofNormal Compilation.ofNormal table) = s
  rw [table_back]

/-- A well-formed stage record comes back. -/
theorem StageRecord.restores (r : StageRecord) (wf : r.WellFormed) :
    Restores shape toJson ofNormal r := by
  obtain ⟨stage, reads, stage_back⟩ := r.stage.restores
  refine ⟨_, Reads.object_of_fields (by decide)
    (.given reads (.given (.signed wf.1 wf.2.1) (.given (.unsigned wf.2.2) .nil))), ?_⟩
  show StageRecord.mk (StageKind.ofNormal stage) (Json.int r.completedMs).asInt r.durationMs = r
  rw [stage_back, asInt_int]

/-- Well-formed metadata comes back, its stages in order. -/
theorem Metadata.restores (m : Metadata) (wf : m.WellFormed) : Restores shape toJson ofNormal m := by
  obtain ⟨seed_low, seed_high, created_low, created_high, stages_wf⟩ := wf
  obtain ⟨stages, reads, stages_back⟩ :=
    Restores.list fun (r : StageRecord) (mem : r ∈ m.stages) => r.restores (stages_wf r mem)
  refine ⟨_, Reads.object_of_fields (by decide) (.given (.signed seed_low seed_high)
    (.given (.signed created_low created_high) (.given reads .nil))), ?_⟩
  show Metadata.mk (Json.int m.seed).asInt (Json.int m.createdMs).asInt
    (stages.asList.map StageRecord.ofNormal) = m
  rw [asInt_int, asInt_int, show stages.asList.map StageRecord.ofNormal = m.stages from stages_back]

/-- A well-formed range comes back, with its end present or absent. -/
theorem Mutation.Range.restores (r : Range) (wf : r.WellFormed) : Restores shape toJson ofNormal r := by
  obtain ⟨stop, _, second, stop_back⟩ := Fields.option (f := "end")
    (fun (e : Nat) (mem : e ∈ r.stop) => restores_nat (wf.2 e mem)) (fun _ _ => rfl) .nil
  refine ⟨_, Reads.record_of_fields (by decide) (.given (.unsigned wf.1) second), ?_⟩
  show Range.mk r.start (stop.asOption asNat) = r
  rw [stop_back]

/-- Rotation settings whose period is a word come back. -/
theorem Mutation.AutoConfig.restores (a : AutoConfig) (small : a.changeAfterSecs < 2 ^ 64) :
    Restores shape toJson ofNormal a :=
  ⟨_, Reads.object_of_fields (by decide) (.given (.unsigned small) (.given (.bool a.changeKill) .nil)), rfl⟩

/-- A well-formed mutation configuration comes back, its ranges in order. -/
theorem Mutation.Config.restores (c : Config) (wf : c.WellFormed) : Restores shape toJson ofNormal c := by
  obtain ⟨ranges, reads, ranges_back⟩ :=
    Restores.list fun (r : Range) (mem : r ∈ c.ranges) => r.restores (wf.1 r mem)
  obtain ⟨auto, auto_reads, auto_back⟩ := c.auto.restores wf.2
  refine ⟨_, Reads.object_of_fields (by decide)
    (.given (.bool c.enabled) (.given reads (.given auto_reads .nil))), ?_⟩
  show Config.mk c.enabled (ranges.asList.map Range.ofNormal) (AutoConfig.ofNormal auto) = c
  rw [show ranges.asList.map Range.ofNormal = c.ranges from ranges_back, auto_back]

/-- A well-formed plan comes back: its metadata, both tables entry for entry, and its mutation
configuration and mutant present or absent. -/
theorem Plan.restores (p : Plan) (wf : p.WellFormed) : Restores shape toJson ofNormal p := by
  obtain ⟨metadata_wf, subjects_wf, mutation_wf, mutant_wf⟩ := wf
  obtain ⟨chosen, _, fifth, chosen_back⟩ := Fields.option (f := "mutant")
    (fun (m : Mutant) (mem : m ∈ p.mutant) => m.restores (mutant_wf m mem)) (fun _ _ => rfl) .nil
  obtain ⟨mutation, _, fourth, mutation_back⟩ := Fields.option (f := "mutation")
    (fun (c : Config) (mem : c ∈ p.mutation) => c.restores (mutation_wf c mem)) (fun _ _ => rfl)
    fifth
  obtain ⟨metadata, metadata_reads, metadata_back⟩ := p.metadata.restores metadata_wf
  obtain ⟨compilers, compilers_reads, compilers_back⟩ :=
    Restores.table (t := p.compilers) fun e _ => e.2.restores
  obtain ⟨corpus, corpus_reads, corpus_back⟩ :=
    Restores.table (t := p.corpus) fun e mem => e.2.restores (subjects_wf e mem)
  refine ⟨_, Reads.record_of_fields (by decide)
    (.given metadata_reads (.given compilers_reads (.given corpus_reads fourth))), ?_⟩
  show Plan.mk (Metadata.ofNormal metadata) (Table.ofNormal CompilerConfig.ofNormal compilers)
    (Table.ofNormal Subject.ofNormal corpus) (mutation.asOption Config.ofNormal)
    (chosen.asOption fun v => ⟨v.asNat⟩) = p
  rw [metadata_back, compilers_back, corpus_back, mutation_back, chosen_back]

/-! ### The text of a plan -/

/-- The compact text of a well-formed plan, read by the plan's shape and converted, is the plan
itself. -/
theorem Plan.compact_text_reads_back (p : Plan) (wf : p.WellFormed) :
    (Shape.ofText Plan.shape (Json.compact p.toJson)).map Plan.ofNormal = .ok p := by
  obtain ⟨n, reads, back⟩ := p.restores wf
  rw [reads.ofText_compact (by decide) (by decide)]
  exact congrArg Except.ok back

/-- A plan with each optional part present, two compilers, and a source path that needs
escapes. -/
def Plan.sample : Plan where
  metadata := { seed := -7, createdMs := 1700000000000, stages := [⟨.fuzz, 1700000000500, 420⟩] }
  compilers := ⟨[("clang", { style := "clang", arch := "aarch64" }),
    ("gcc", { style := "gcc", arch := "x86_64", opt := some "-O2", mopt := some "-march=native" })],
    by decide⟩
  corpus := ⟨[("café",
    { source := "tests/café \"q\".c",
      compilations := ⟨[("gcc", { status := .flagged, selection := some ⟨⟨3⟩, 2⟩ })], by decide⟩ })],
    by decide⟩
  mutation := some { enabled := true, ranges := [⟨1, some 4⟩, ⟨9, none⟩], auto := { changeKill := true } }
  mutant := some ⟨3⟩

theorem Plan.compact_text_reads_back_sample :
    Plan.sample.WellFormed ∧
      (Shape.ofText Plan.shape (Json.compact Plan.sample.toJson)).map Plan.ofNormal = .ok Plan.sample :=
  ⟨by decide, Plan.compact_text_reads_back Plan.sample (by decide)⟩

end Campaign
