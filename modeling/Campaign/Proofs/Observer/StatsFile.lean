import Campaign.Proofs.Observer.Tallies
import Campaign.Proofs.Plan.Wire

/-! Loading the text of well-formed statistics gives them back (`CampaignStats.ofText_fileText`),
and counting a message keeps them well formed (`CampaignStats.WellFormed.count?`). So along
every run the file, just after a message writes it, loads as the statistics in memory.
-/

namespace Campaign

open Shape Json Mutation

namespace Table

variable {κ α : Type} [Ord κ] [Std.TransOrd κ]

/-- Every entry after an update is the updated one or an old one. -/
theorem mem_update {t : Table κ α} {k : κ} {init : α} {f : α → α} {e : κ × α}
    (mem : e ∈ (t.update k init f).entries) :
    e = (k, f ((t.get? k).getD init)) ∨ e ∈ t.entries :=
  mem_insertEntry mem

/-- Every key after an update is the updated one or an old one. -/
theorem mem_keys_update {t : Table κ α} {k k' : κ} {init : α} {f : α → α}
    (mem : k' ∈ (t.update k init f).keys) : k' = k ∨ k' ∈ t.keys := by
  obtain ⟨e, inEntries, rfl⟩ := List.mem_map.mp mem
  rcases mem_update inEntries with rfl | old
  · exact .inl rfl
  · exact .inr (List.mem_map_of_mem old)

end Table

/-! ### Tables keyed by names and by numbers -/

section Keys

variable {α : Type} {value : Shape} {toJson : α → Json} {ofNormal : Json → α}

/-- Machines in the order of their ids are in the order of their names. -/
theorem MachineId.names_ascend (t : Table MachineId α) :
    (t.keys.map MachineId.text).Pairwise (· < ·) := by
  simp only [Table.keys, List.pairwise_map]
  exact t.ascending.imp fun lt => compare_lt_iff_lt.mp lt

/-- Mutants in the order of the table are in the order of their numbers. -/
theorem Mutation.Mutant.numbers_ascend (t : Table Mutant α) :
    (t.keys.map Mutant.id).Pairwise (· < ·) := by
  simp only [Table.keys, List.pairwise_map]
  exact t.ascending.imp fun lt => compare_lt_iff_lt.mp lt

/-- A table of machines, each written under its name, comes back when its values do. -/
theorem Restores.machines {t : Table MachineId α}
    (each : ∀ e ∈ t.entries, Restores value toJson ofNormal e.2) :
    Restores (.map .text value) (fun t => .object (t.entries.map fun e => (e.1.text, toJson e.2)))
      (fun n => Table.ofList (n.asMembers.map fun m => (MachineId.mk m.1, ofNormal m.2))) t := by
  obtain ⟨ps, written, reads, restored⟩ := Restores.entries each
  have keys : ps.map Prod.fst = t.keys := by
    have same := congrArg (List.map Prod.fst) restored
    simp only [List.map_map, Function.comp_def] at same
    exact same
  let qs := ps.map fun p => (p.1.text, p.2)
  refine ⟨.object (qs.map fun q => (q.1, q.2.2)), ?_, ?_⟩
  · have form : (t.entries.map fun e => (e.1.text, toJson e.2)) = qs.map fun q => (q.1, q.2.1) := by
      simpa [qs, Function.comp_def] using (congrArg (List.map fun e => (e.1.text, e.2)) written).symm
    show Reads _ (.object (t.entries.map fun e => (e.1.text, toJson e.2))) _
    rw [form]
    refine .map qs ?_ fun q mem => ?_
    · simpa [qs, Function.comp_def, ← keys] using MachineId.names_ascend t
    · obtain ⟨p, inPs, rfl⟩ := List.mem_map.mp mem
      exact reads p inPs
  · show Table.ofList ((qs.map fun q => (q.1, q.2.2)).map fun m => (MachineId.mk m.1, ofNormal m.2)) = t
    have entries : (ps.map fun p => (p.1, ofNormal p.2.2)) = t.entries := restored
    simp only [qs, List.map_map, Function.comp_def]
    rw [entries]
    exact Table.ext (Table.entries_ofList_of_pairwise _ t.ascending)

/-- A table of mutants that are words, each written under its number, comes back when its
values do. -/
theorem Restores.mutants {t : Table Mutant α}
    (fit : ∀ mu ∈ t.keys, mu.id < 2 ^ 64) (each : ∀ e ∈ t.entries, Restores value toJson ofNormal e.2) :
    Restores (.map .unsigned value)
      (fun t => .object (t.entries.map fun e => (toString e.1.id, toJson e.2)))
      (fun n => Table.ofList (n.asMembers.map fun m => (Mutant.mk (m.1.toNat?.getD 0), ofNormal m.2)))
      t := by
  obtain ⟨ps, written, reads, restored⟩ := Restores.entries each
  have keys : ps.map Prod.fst = t.keys := by
    have same := congrArg (List.map Prod.fst) restored
    simp only [List.map_map, Function.comp_def] at same
    exact same
  let qs := ps.map fun p => (p.1.id, p.2)
  refine ⟨.object (qs.map fun q => (toString q.1, q.2.2)), ?_, ?_⟩
  · have form : (t.entries.map fun e => (toString e.1.id, toJson e.2)) =
        qs.map fun q => (toString q.1, q.2.1) := by
      simpa [qs, Function.comp_def] using
        (congrArg (List.map fun e => (toString e.1.id, e.2)) written).symm
    show Reads _ (.object (t.entries.map fun e => (toString e.1.id, toJson e.2))) _
    rw [form]
    refine .mapNat qs ?_ (fun q mem => ?_) fun q mem => ?_
    · simpa [qs, Function.comp_def, ← keys] using Mutant.numbers_ascend t
    · obtain ⟨p, inPs, rfl⟩ := List.mem_map.mp mem
      exact fit p.1 (keys ▸ List.mem_map_of_mem inPs)
    · obtain ⟨p, inPs, rfl⟩ := List.mem_map.mp mem
      exact reads p inPs
  · show Table.ofList ((qs.map fun q => (toString q.1, q.2.2)).map
      fun m => (Mutant.mk (m.1.toNat?.getD 0), ofNormal m.2)) = t
    have entries : (ps.map fun p => (p.1, ofNormal p.2.2)) = t.entries := restored
    simp only [qs, List.map_map, Function.comp_def, Scan.toNat?_toString, Option.getD_some]
    rw [entries]
    exact Table.ext (Table.entries_ofList_of_pairwise _ t.ascending)

/-- A field left out when its value is empty, with the empty object as its default: left out,
it is filled with the empty object, which reads as the empty value; given, its value reads
back. -/
theorem Fields.unlessEmpty {β : Type} {f : String} {s : Shape} {write : β → Json}
    {read : Json → β} {x : β} (empty : Bool) (back : Restores s write read x)
    (blank : empty = true → read (.object []) = x)
    {fields : List (String × Shape × Option Json)} {ws : List (String × Option Json)}
    {ns : List (String × Json)} {ps : List (String × Json × Json)} (rest : Fields fields ws ns ps) :
    ∃ n ps', Fields ((f, s, some (.object [])) :: fields)
      ((f, if empty then none else some (write x)) :: ws) ((f, n) :: ns) ps' ∧ read n = x := by
  cases empty with
  | true => exact ⟨.object [], ps, .omitted rfl rest, blank rfl⟩
  | false =>
    obtain ⟨n, reads, restored⟩ := back
    exact ⟨n, _, .given reads rest, restored⟩

end Keys

/-! ### Well-formed statistics -/

/-- A machine's statistics as they can be written: every mutant, in the table or under test, is
a word. -/
structure MachineStats.WellFormed (st : MachineStats) : Prop where
  keys_fit : ∀ mu ∈ st.mutants.keys, mu.id < 2 ^ 64
  mutant_fits : ∀ mu ∈ st.mutant, mu.id < 2 ^ 64

/-- Statistics as they can be written: every machine well formed. -/
structure CampaignStats.WellFormed (s : CampaignStats) : Prop where
  machines : ∀ e ∈ s.machines.entries, e.2.WellFormed

/-- The mutants a message names are words: the one it puts under test and those its analysis
counts. -/
structure Message.WellFormed (m : Message) : Prop where
  mutant_fits : ∀ mu ∈ m.event.mutant?, mu.id < 2 ^ 64
  selections_fit : ∀ a ∈ m.event.analysis?, ∀ mu ∈ a.mutation.selections.keys, mu.id < 2 ^ 64

theorem MachineStats.wellFormed_empty : ({} : MachineStats).WellFormed :=
  ⟨fun _ mem => absurd mem List.not_mem_nil, by simp⟩

theorem CampaignStats.wellFormed_empty : ({} : CampaignStats).WellFormed :=
  ⟨fun _ mem => absurd mem List.not_mem_nil⟩

/-! ### Statistics read back -/

/-- A mutant's counters come back. -/
theorem MutantStats.restores (ms : MutantStats) : Restores shape toJson ofNormal ms := by
  refine ⟨_, Reads.object_of_fields (by decide) (.given (.unsigned ms.selections.toNat_lt)
    (.given (.unsigned ms.hits.toNat_lt) (.given (.unsigned ms.kills.toNat_lt) .nil))), ?_⟩
  show MutantStats.mk ms.selections.toNat.toUInt64 ms.hits.toNat.toUInt64 ms.kills.toNat.toUInt64 = ms
  simp only [UInt64.ofNat_toNat]

/-- The empty object reads as the empty mutant table. -/
theorem MachineStats.mutants_blank {t : Table Mutant MutantStats} (empty : t.isEmpty = true) :
    Table.ofList ((Json.object []).asMembers.map
      fun m => (Mutant.mk (m.1.toNat?.getD 0), MutantStats.ofNormal m.2)) = t := by
  obtain ⟨es, _⟩ := t
  cases es with
  | nil => rfl
  | cons e es => cases empty

/-- A well-formed machine's statistics come back, with the last failure, the mutant under test
and the mutant table present or left out. -/
theorem MachineStats.restores (st : MachineStats) (wf : st.WellFormed) :
    Restores shape toJson ofNormal st := by
  obtain ⟨mutants, _, seventh, mutants_back⟩ := Fields.unlessEmpty (f := "mutants")
    st.mutants.isEmpty (Restores.mutants wf.keys_fit fun e _ => e.2.restores)
    mutants_blank (.given (.bool st.closed) .nil)
  obtain ⟨mutant, _, sixth, mutant_back⟩ := Fields.option (f := "mutant")
    (fun (mu : Mutant) (mem : mu ∈ st.mutant) => mu.restores (wf.mutant_fits mu mem))
    (fun _ _ => rfl) seventh
  obtain ⟨lastError, _, fourth, lastError_back⟩ := Fields.option (f := "last_error")
    (fun x (_ : x ∈ st.lastError) => restores_string "a string" x) (fun _ _ => rfl)
    (.given (.unsigned st.flagged.toNat_lt) sixth)
  refine ⟨_, Reads.record_of_fields (by decide) (.given (.unsigned st.started.toNat_lt)
    (.given (.unsigned st.finished.toNat_lt) (.given (.unsigned st.errored.toNat_lt) fourth))), ?_⟩
  show MachineStats.mk st.started.toNat.toUInt64 st.finished.toNat.toUInt64
    st.errored.toNat.toUInt64 (lastError.asOption asString) st.flagged.toNat.toUInt64
    (mutant.asOption fun v => ⟨v.asNat⟩)
    (Table.ofList (mutants.asMembers.map fun m => (Mutant.mk (m.1.toNat?.getD 0), MutantStats.ofNormal m.2)))
    st.closed = st
  rw [lastError_back, mutant_back, mutants_back]
  simp only [UInt64.ofNat_toNat]

/-- Well-formed statistics come back, machine by machine. -/
theorem CampaignStats.restores (s : CampaignStats) (wf : s.WellFormed) :
    Restores shape toJson ofNormal s := by
  obtain ⟨machines, reads, machines_back⟩ :=
    Restores.machines (t := s.machines) fun e mem => e.2.restores (wf.machines e mem)
  refine ⟨_, Reads.object_of_fields (by decide) (.given reads .nil), ?_⟩
  show CampaignStats.mk (Table.ofList (machines.asMembers.map
    fun m => (MachineId.mk m.1, MachineStats.ofNormal m.2))) = s
  exact congrArg CampaignStats.mk machines_back

/-- Loading the text of well-formed statistics gives them back. -/
theorem CampaignStats.ofText_fileText (s : CampaignStats) (wf : s.WellFormed) :
    CampaignStats.ofText s.fileText = .ok s := by
  obtain ⟨n, reads, back⟩ := s.restores wf
  unfold ofText fileText
  rw [reads.ofText_pretty (by decide) (by decide)]
  exact congrArg Except.ok back

/-! ### Counting keeps statistics well formed -/

namespace MachineStats

/-- Counting the selections of an analysis adds only the mutants selected; by induction on the
selections, with the table so far in `t`. -/
theorem keys_fit_foldl_update (es : List (Mutant × List SelectionRecord)) :
    ∀ t : Table Mutant MutantStats, (∀ mu ∈ t.keys, mu.id < 2 ^ 64) →
      (∀ e ∈ es, e.1.id < 2 ^ 64) →
      ∀ mu ∈ (es.foldl (fun t (m, rs) => t.update m {} fun ms => rs.foldl MutantStats.count ms)
        t).keys, mu.id < 2 ^ 64 := by
  induction es with
  | nil => exact fun t fit _ => fit
  | cons e es ih =>
    intro t fit selected
    refine ih _ (fun mu mem => ?_) fun e' mem => selected e' (List.mem_cons_of_mem _ mem)
    rcases Table.mem_keys_update mem with rfl | old
    · exact selected e List.mem_cons_self
    · exact fit mu old

theorem WellFormed.countAnalysis {st : MachineStats} (wf : st.WellFormed) {a : Analysis}
    (fit : ∀ mu ∈ a.mutation.selections.keys, mu.id < 2 ^ 64) : (st.countAnalysis a).WellFormed := by
  have keys_fit := keys_fit_foldl_update a.mutation.selections.entries st.mutants
    wf.keys_fit fun e mem => fit e.1 (List.mem_map_of_mem mem)
  exact ⟨keys_fit, wf.mutant_fits⟩

/-- Counting an event of a well-formed message keeps a machine's statistics well formed: only
a mutant put under test and an analysis touch what well-formedness asks for. -/
theorem WellFormed.tally {st : MachineStats} (wf : st.WellFormed) {m : Message}
    (wm : m.WellFormed) {f : MachineStats → MachineStats} (tallied : m.event.tally = some f) :
    (f st).WellFormed := by
  obtain ⟨cycle, e⟩ := m
  cases e with
  | cycle c => cases c <;> cases tallied <;> exact ⟨wf.keys_fit, wf.mutant_fits⟩
  | inst i =>
    cases i with
    | closed =>
      cases tallied
      exact ⟨wf.keys_fit, wf.mutant_fits⟩
    | mutantChanged mu =>
      cases tallied
      refine ⟨wf.keys_fit, fun x mem => ?_⟩
      cases mem
      exact wm.mutant_fits mu rfl
  | analysis a =>
    cases tallied
    exact wf.countAnalysis (wm.selections_fit a rfl)
  | compilerConfig _ => cases tallied
  | save _ => cases tallied
  | build _ => cases tallied
  | copy _ => cases tallied

end MachineStats

/-- Counting a well-formed message keeps statistics well formed: the machine it touches is
either new or one of the old ones, counted once more. -/
theorem CampaignStats.WellFormed.count? {s s' : CampaignStats} (wf : s.WellFormed) {m : Message}
    (wm : m.WellFormed) (counted : s.count? m = some s') : s'.WellFormed := by
  rw [count?_eq_tally] at counted
  obtain ⟨f, tallied, rfl⟩ := Option.map_eq_some_iff.mp counted
  refine ⟨fun e mem => ?_⟩
  rcases Table.mem_update mem with rfl | old
  · apply MachineStats.WellFormed.tally _ wm tallied
    cases found : s.machines.get? m.cycle.machine with
    | none => exact MachineStats.wellFormed_empty
    | some st => exact wf.machines _ (Table.mem_of_get? found)
  · exact wf.machines e old

/-- A message that asks for the file is counted. -/
theorem CampaignStats.counted_of_persistsAfter {m : Message} (persists : persistsAfter m = true) :
    m.event.counted = true := by
  obtain ⟨cycle, e⟩ := m
  rcases e with ((_ | _ | _) | (_ | _) | _ | _ | _ | _ | _) <;> first | rfl | cases persists

namespace StatsPersister

theorem wellFormed_handle (p : StatsPersister) (m : Message) (wf : p.stats.WellFormed)
    (wm : m.WellFormed) : (p.handle m).stats.WellFormed := by
  rw [handle_stats]
  cases counted : p.stats.count? m with
  | none => exact wf
  | some s => exact wf.count? wm counted

/-- Statistics stay well formed along a run of well-formed messages; by induction on the
messages. -/
theorem wellFormed_foldl_handle (ms : List Message) (p : StatsPersister) (wf : p.stats.WellFormed)
    (wms : ∀ m ∈ ms, m.WellFormed) : (ms.foldl handle p).stats.WellFormed := by
  induction ms generalizing p with
  | nil => exact wf
  | cons m ms ih =>
    exact ih _ (wellFormed_handle p m wf (wms m List.mem_cons_self))
      fun x mem => wms x (List.mem_cons_of_mem _ mem)

theorem writable_handle (p : StatsPersister) (m : Message) : (p.handle m).writable = p.writable := by
  unfold handle
  split <;> rfl

theorem writable_foldl_handle (ms : List Message) (p : StatsPersister) :
    (ms.foldl handle p).writable = p.writable := by
  induction ms generalizing p with
  | nil => rfl
  | cons m ms ih => rw [List.foldl_cons, ih, writable_handle]

/-- A persister that can write leaves, after a message that asks for the file, the text of its
statistics in the file. -/
theorem file_handle (p : StatsPersister) (m : Message)
    (persists : CampaignStats.persistsAfter m = true) (writable : p.writable = true) :
    (p.handle m).file = some (p.handle m).stats.fileText := by
  have tallies : m.event.tally.isSome = true :=
    (Event.tally_isSome _).trans (CampaignStats.counted_of_persistsAfter persists)
  obtain ⟨f, tallied⟩ := Option.isSome_iff_exists.mp tallies
  have counted : p.stats.count? m = some (p.stats.touch m.cycle.machine f) := by
    rw [CampaignStats.count?_eq_tally, tallied]
    rfl
  simp [handle, counted, persists, writable]

/-- Statistics come back from their file: loading the text of any well-formed statistics gives
them back; and along any run of well-formed messages from well-formed statistics, just after a
message that asks for the file, a persister that can write holds a file that loads as its
statistics. -/
theorem saved_file_loads_back :
    (∀ s : CampaignStats, s.WellFormed → CampaignStats.ofText s.fileText = .ok s) ∧
    ∀ (p : StatsPersister) (ms : List Message) (m : Message), p.stats.WellFormed →
      p.writable = true → (∀ x ∈ ms, x.WellFormed) → m.WellFormed →
      CampaignStats.persistsAfter m = true →
      ∃ text, ((ms.foldl handle p).handle m).file = some text ∧
        CampaignStats.ofText text = .ok ((ms.foldl handle p).handle m).stats := by
  refine ⟨CampaignStats.ofText_fileText, fun p ms m wf writable wms wm persists => ?_⟩
  have wf_run : (ms.foldl handle p).stats.WellFormed := wellFormed_foldl_handle ms p wf wms
  have writable_run : (ms.foldl handle p).writable = true :=
    (writable_foldl_handle ms p).trans writable
  exact ⟨_, file_handle _ m persists writable_run,
    CampaignStats.ofText_fileText _ (wellFormed_handle _ m wf_run wm)⟩

/-- A fresh persister that sees a mutant put under test on a machine, then that machine's
instance close, holds a file that loads as its statistics. -/
theorem saved_file_loads_back_closed :
    ∃ text, (([⟨⟨0, ⟨"m1"⟩, 0⟩, .inst (.mutantChanged ⟨3⟩)⟩].foldl handle {}).handle
        ⟨⟨0, ⟨"m1"⟩, 0⟩, .inst .closed⟩).file = some text ∧
      CampaignStats.ofText text = .ok (([⟨⟨0, ⟨"m1"⟩, 0⟩, .inst (.mutantChanged ⟨3⟩)⟩].foldl
        handle {}).handle ⟨⟨0, ⟨"m1"⟩, 0⟩, .inst .closed⟩).stats :=
  saved_file_loads_back.2 {} _ _ CampaignStats.wellFormed_empty rfl
    (fun x mem => by
      rw [List.mem_singleton.mp mem]
      exact ⟨fun mu mem => (by cases mem; decide), fun a mem => (by cases mem)⟩)
    ⟨fun mu mem => (by cases mem), fun a mem => (by cases mem)⟩ rfl

end StatsPersister

end Campaign
