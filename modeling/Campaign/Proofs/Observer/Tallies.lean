import Campaign.Observer.Stats
import Campaign.Proofs.Data.Tables

/-! The statistics as a fold over the forwarded messages: a machine's entry summarises its own
events (`Summarises`), counters being the true numbers modulo 2^64 (`hits_wrap`). Two message
lists that give every machine the same events give the same statistics, however the machines'
messages interleave (`handle_tallies`).
-/

namespace Campaign

open Mutation

namespace Event

/-- Whether the statistics count an event: all but progress. -/
def counted : Event → Bool
  | .cycle _ | .inst _ | .analysis _ => true
  | _ => false

/-- The failure an event reports. -/
@[simp] def failure? : Event → Option CycleError
  | .cycle (.errored e) => some e
  | _ => none

/-- The mutant an event selects. -/
@[simp] def mutant? : Event → Option Mutant
  | .inst (.mutantChanged mu) => some mu
  | _ => none

/-- The analysis an event carries. -/
@[simp] def analysis? : Event → Option Analysis
  | .analysis a => some a
  | _ => none

/-- What counting the event does to its machine's statistics; `none` for an event that is
not counted. -/
def tally : Event → Option (MachineStats → MachineStats)
  | .cycle .started => some fun st => { st with started := st.started + 1 }
  | .cycle .finished => some fun st => { st with finished := st.finished + 1 }
  | .cycle (.errored e) =>
    some fun st => { st with errored := st.errored + 1, lastError := some e.cause.chain }
  | .inst .closed => some fun st => { st with closed := true }
  | .inst (.mutantChanged mu) => some fun st => { st with mutant := some mu }
  | .analysis a => some fun st => st.countAnalysis a
  | _ => none

theorem tally_isSome (e : Event) : e.tally.isSome = e.counted := by
  rcases e with ((_ | _ | _) | (_ | _) | _ | _ | _ | _ | _) <;> rfl

end Event

/-- The events of the messages stamped with a machine, in order. -/
def eventsOf (id : MachineId) (ms : List Message) : List Event :=
  (ms.filter (·.cycle.machine = id)).map Message.event

/-- The records an analysis holds under a mutant, in its order. -/
def Mutation.Analysis.recordsUnder (mu : Mutant) (a : Analysis) : List SelectionRecord :=
  (a.mutation.selections.entries.filter (·.1 = mu)).flatMap (·.2)

namespace MutantStats

/-- The counters of a list of records: their number, the sum of their hits and the number of
kills, as 64-bit words. -/
def ofRecords (rs : List SelectionRecord) : MutantStats :=
  ⟨UInt64.ofNat rs.length, UInt64.ofNat (rs.map (·.hits)).sum,
    UInt64.ofNat (rs.countP (·.killed))⟩

theorem count_ofRecords (rs : List SelectionRecord) (r : SelectionRecord) :
    (ofRecords rs).count r = ofRecords (rs ++ [r]) := by
  cases hkill : r.killed <;>
    simp [count, ofRecords, hkill, UInt64.ofNat_add, Nat.toUInt64_eq]

/-- Counting records one by one counts the list; by induction on the records. -/
theorem foldl_count_ofRecords (rs more : List SelectionRecord) :
    more.foldl count (ofRecords rs) = ofRecords (rs ++ more) := by
  induction more generalizing rs with
  | nil => simp
  | cons r more ih => rw [List.foldl_cons, count_ofRecords, ih, List.append_assoc,
      List.singleton_append]

end MutantStats

namespace MachineStats

/-- A machine's statistics after one more of its events: a counted event creates the entry
and changes it, any other leaves it as it was. -/
def after? (o : Option MachineStats) (e : Event) : Option MachineStats :=
  match e.tally with
  | some f => some (f (o.getD {}))
  | none => o

theorem after?_getD (o : Option MachineStats) (e : Event) :
    (after? o e).getD {} = (e.tally.getD id) (o.getD {}) := by
  unfold after?
  cases e.tally <;> rfl

/-- A fold of events has an entry when it started with one or met a counted event; by
induction on the events. -/
theorem isSome_foldl_after? (es : List Event) (o : Option MachineStats) :
    (es.foldl after? o).isSome ↔ o.isSome ∨ ∃ e ∈ es, e.counted := by
  induction es generalizing o with
  | nil => simp
  | cons e es ih =>
    rw [List.foldl_cons, ih]
    cases hf : e.tally with
    | none =>
      have skipped : e.counted = false := by rw [← Event.tally_isSome, hf]; rfl
      simp only [after?, hf]
      simp [skipped]
    | some f =>
      have counted : e.counted = true := by rw [← Event.tally_isSome, hf]; rfl
      simp only [after?, hf]
      simp [counted]

section CountAnalysis

variable (st : MachineStats) (a : Analysis)

@[simp] theorem countAnalysis_started : (st.countAnalysis a).started = st.started := rfl
@[simp] theorem countAnalysis_finished : (st.countAnalysis a).finished = st.finished := rfl
@[simp] theorem countAnalysis_errored : (st.countAnalysis a).errored = st.errored := rfl
@[simp] theorem countAnalysis_lastError : (st.countAnalysis a).lastError = st.lastError := rfl
@[simp] theorem countAnalysis_mutant : (st.countAnalysis a).mutant = st.mutant := rfl
@[simp] theorem countAnalysis_closed : (st.countAnalysis a).closed = st.closed := rfl
@[simp] theorem countAnalysis_flagged :
    (st.countAnalysis a).flagged = st.flagged + UInt64.ofNat a.flagged := rfl

end CountAnalysis

/-- Counting an analysis adds, under each mutant, the analysis's records to the counters. -/
theorem countAnalysis_get? (st : MachineStats) (a : Analysis) (mu : Mutant) :
    (st.countAnalysis a).mutants.get? mu
      = if mu ∈ a.mutation.selections.keys then
          some ((a.recordsUnder mu).foldl MutantStats.count ((st.mutants.get? mu).getD {}))
        else st.mutants.get? mu := by
  have walk : (st.countAnalysis a).mutants = a.mutation.selections.entries.foldl
      (fun t e => t.update e.1 {} fun ms => e.2.foldl MutantStats.count ms) st.mutants := rfl
  have present : a.mutation.selections.entries.any (·.1 = mu) = true
      ↔ mu ∈ a.mutation.selections.keys := by
    simp only [List.any_eq_true, decide_eq_true_eq, Table.keys, List.mem_map]
  rw [walk, Table.get?_foldl_update a.mutation.selections.entries st.mutants {}
    (fun (rs : List SelectionRecord) (ms : MutantStats) => rs.foldl MutantStats.count ms)]
  simp only [present, Analysis.recordsUnder, List.foldl_flatMap]

/-- What a machine's statistics say of the events it was sent, read off the list as a whole.
Counters are the numbers of events of their kind, or sums over the analyses, as 64-bit words;
the last failure and the mutant are those of the last event that carries one. -/
structure Summarises (st : MachineStats) (es : List Event) : Prop where
  started : st.started = UInt64.ofNat (es.countP (· matches .cycle .started))
  finished : st.finished = UInt64.ofNat (es.countP (· matches .cycle .finished))
  errored : st.errored = UInt64.ofNat (es.filterMap Event.failure?).length
  lastError : st.lastError = ((es.filterMap Event.failure?).map (·.cause.chain)).getLast?
  mutant : st.mutant = (es.filterMap Event.mutant?).getLast?
  closed : st.closed = es.any (· matches .inst .closed)
  flagged : st.flagged = UInt64.ofNat ((es.filterMap Event.analysis?).map Analysis.flagged).sum
  /-- A mutant has counters when some analysis holds records under it. -/
  mutants : ∀ mu, (st.mutants.get? mu).isSome
    ↔ ∃ a ∈ es.filterMap Event.analysis?, mu ∈ a.mutation.selections.keys
  /-- Its counters count the records of all the analyses. -/
  counters : ∀ mu, (st.mutants.get? mu).getD {}
    = MutantStats.ofRecords ((es.filterMap Event.analysis?).flatMap (Analysis.recordsUnder mu))

theorem Summarises.empty : Summarises {} [] where
  started := rfl
  finished := rfl
  errored := rfl
  lastError := rfl
  mutant := rfl
  closed := rfl
  flagged := rfl
  mutants _ := by simp
  counters _ := rfl

theorem recordsUnder_eq_nil {a : Analysis} {mu : Mutant} (absent : mu ∉ a.mutation.selections.keys) :
    a.recordsUnder mu = [] := by
  have none : a.mutation.selections.entries.filter (·.1 = mu) = [] := by
    rw [List.filter_eq_nil_iff]
    intro e mem same
    exact absent (List.mem_map.mpr ⟨e, mem, of_decide_eq_true same⟩)
  rw [Analysis.recordsUnder, none, List.flatMap_nil]

/-- Counting one more event keeps the statistics a summary of the events; one case per kind
of event. -/
theorem Summarises.tally {st : MachineStats} {es : List Event} (sum : st.Summarises es)
    (e : Event) : ((e.tally.getD id) st).Summarises (es ++ [e]) := by
  obtain ⟨started, finished, errored, lastError, mutant, closed, flagged, mutants, counters⟩ := sum
  -- every field but the mutants' counters is a count, a sum or a last element of the list
  cases e with
  | cycle c | inst c =>
    cases c <;> refine ⟨?_, ?_, ?_, ?_, ?_, ?_, ?_, fun mu => ?_, fun mu => ?_⟩ <;>
      simp [Event.tally, List.filterMap_append, List.filterMap_cons, UInt64.ofNat_add, *]
  | compilerConfig _ | save _ | build _ | copy _ =>
    refine ⟨?_, ?_, ?_, ?_, ?_, ?_, ?_, fun mu => ?_, fun mu => ?_⟩ <;>
      simp [Event.tally, List.filterMap_append, List.filterMap_cons, *]
  | analysis a =>
    have counted : (Event.analysis a).tally.getD id st = st.countAnalysis a := rfl
    refine ⟨?_, ?_, ?_, ?_, ?_, ?_, ?_, fun mu => ?_, fun mu => ?_⟩
    rotate_left 7
    · -- a mutant has counters after the analysis when it had them or the analysis has records
      rw [counted, countAnalysis_get?]
      by_cases held : mu ∈ a.mutation.selections.keys <;>
        simp [held, List.filterMap_append, mutants mu]
    · -- the analysis's records are counted after the earlier ones
      rw [counted, countAnalysis_get?]
      by_cases held : mu ∈ a.mutation.selections.keys
      · simp [held, List.filterMap_append, counters mu, MutantStats.foldl_count_ofRecords]
      · simp [held, List.filterMap_append, counters mu, recordsUnder_eq_nil held]
    all_goals simp [Event.tally, List.filterMap_append, List.filterMap_cons, UInt64.ofNat_add, *]

/-- Counting more events keeps the statistics a summary of all the events so far; by
induction on the new events, with `Summarises.tally` as the step. -/
theorem Summarises.foldl_after? (es : List Event) :
    ∀ (pre : List Event) (o : Option MachineStats), (o.getD {}).Summarises pre →
      ((es.foldl after? o).getD {}).Summarises (pre ++ es) := by
  induction es with
  | nil =>
    intro pre o sum
    rwa [List.append_nil]
  | cons e es ih =>
    intro pre o sum
    have next := ih (pre ++ [e]) (after? o e) (by rw [after?_getD]; exact sum.tally e)
    rwa [List.append_assoc, List.singleton_append] at next

end MachineStats

theorem CampaignStats.count?_eq_tally (s : CampaignStats) (m : Message) :
    s.count? m = m.event.tally.map (s.touch m.cycle.machine) := by
  obtain ⟨cycle, e⟩ := m
  rcases e with ((_ | _ | _) | (_ | _) | _ | _ | _ | _ | _) <;> rfl

/-- What statistics say of the messages counted into them: a machine has an entry exactly when
a counted message is stamped with it, and then the entry summarises the events of its
messages. -/
structure CampaignStats.Tallies (s : CampaignStats) (ms : List Message) : Prop where
  entries : ∀ id, (s.machines.get? id).isSome ↔ ∃ m ∈ ms, m.cycle.machine = id ∧ m.event.counted
  summaries : ∀ id st, s.machines.get? id = some st → st.Summarises (eventsOf id ms)

namespace StatsPersister

theorem handle_stats (p : StatsPersister) (m : Message) :
    (p.handle m).stats = (p.stats.count? m).getD p.stats := by
  cases counted : p.stats.count? m <;> simp [handle, counted]

/-- Handling a message changes only the entry of the machine it is stamped with, as one more
event of that machine. -/
theorem get?_handle (p : StatsPersister) (m : Message) (id : MachineId) :
    (p.handle m).stats.machines.get? id
      = if m.cycle.machine = id then MachineStats.after? (p.stats.machines.get? id) m.event
        else p.stats.machines.get? id := by
  rw [handle_stats, CampaignStats.count?_eq_tally]
  by_cases mine : m.cycle.machine = id
  · subst mine
    cases counted : m.event.tally with
    | none => simp [MachineStats.after?, counted]
    | some f => simp [MachineStats.after?, counted, CampaignStats.touch, Table.get?_update]
  · cases counted : m.event.tally with
    | none => simp [mine]
    | some f => simp [mine, Ne.symm mine, CampaignStats.touch, Table.get?_update]

/-- A machine's entry after a list of messages is the fold of the events of its own
messages over its entry before; by induction on the messages. -/
theorem get?_foldl_handle (ms : List Message) (p : StatsPersister) (id : MachineId) :
    (ms.foldl handle p).stats.machines.get? id
      = (eventsOf id ms).foldl MachineStats.after? (p.stats.machines.get? id) := by
  induction ms generalizing p with
  | nil => rfl
  | cons m ms ih =>
    rw [List.foldl_cons, ih, get?_handle]
    by_cases mine : m.cycle.machine = id <;> simp [eventsOf, mine]

variable (w : Bool) (ms : List Message)

theorem get?_fresh (id : MachineId) : ({ writable := w } : StatsPersister).stats.machines.get? id
    = none := rfl

/-- From fresh, a machine has an entry exactly when a counted message is stamped with it. -/
theorem entries_foldl_handle (id : MachineId) :
    ((ms.foldl handle { writable := w }).stats.machines.get? id).isSome
      ↔ ∃ m ∈ ms, m.cycle.machine = id ∧ m.event.counted := by
  rw [get?_foldl_handle, get?_fresh, MachineStats.isSome_foldl_after?]
  simp [eventsOf, and_assoc]

/-- From fresh, a machine's entry summarises the events of its messages. -/
theorem summarises_foldl_handle (id : MachineId) (st : MachineStats)
    (found : (ms.foldl handle { writable := w }).stats.machines.get? id = some st) :
    st.Summarises (eventsOf id ms) := by
  have summary := MachineStats.Summarises.foldl_after? (eventsOf id ms) [] none
    MachineStats.Summarises.empty
  rw [get?_foldl_handle, get?_fresh] at found
  rwa [found, Option.getD_some, List.nil_append] at summary

/-- From fresh, message lists that give every machine the same events give the same
statistics, since the entries read alike. -/
theorem foldl_handle_eq_of_eventsOf (w' : Bool) (ms' : List Message)
    (same : ∀ id, eventsOf id ms' = eventsOf id ms) :
    (ms'.foldl handle { writable := w' }).stats = (ms.foldl handle { writable := w }).stats := by
  have machines : (ms'.foldl handle { writable := w' }).stats.machines
      = (ms.foldl handle { writable := w }).stats.machines :=
    Table.eq_of_get? fun id => by simp only [get?_foldl_handle, same id]
  exact congrArg CampaignStats.mk machines

/-- Counting messages from fresh statistics: a machine has an entry exactly when a counted
message is stamped with it, the entry summarises the events of its messages (counters modulo
2^64), and the statistics depend only on each machine's own stream of events, not on how the
machines' streams interleave. -/
theorem handle_tallies :
    (ms.foldl handle { writable := w }).stats.Tallies ms ∧
    ∀ (w' : Bool) (ms' : List Message), (∀ id, eventsOf id ms' = eventsOf id ms) →
      (ms'.foldl handle { writable := w' }).stats = (ms.foldl handle { writable := w }).stats :=
  ⟨⟨entries_foldl_handle w ms, summarises_foldl_handle w ms⟩,
    fun w' ms' same => foldl_handle_eq_of_eventsOf w ms w' ms' same⟩

/-- An analysis of machine `m` whose two records under mutant 1 have hits 2^64 - 1 and 1. -/
def wrappingHits : Message :=
  ⟨⟨0, ⟨"m"⟩, 0⟩, .analysis
    { mutation := (({} : MutantAnalysis).register ⟨1⟩ "a" "g" (2 ^ 64 - 1) .flagged).register
        ⟨1⟩ "b" "g" 1 .flagged }⟩

/-- The hits of a mutant wrap: after that analysis, mutant 1 has two selections and two kills
but no hits, where the hits of its records sum to 2^64. -/
theorem hits_wrap :
    ((eventsOf ⟨"m"⟩ [wrappingHits]).filterMap Event.analysis?).flatMap
        (fun a => (a.recordsUnder ⟨1⟩).map (·.hits)) = [2 ^ 64 - 1, 1] ∧
    (([wrappingHits].foldl handle {}).stats.machines.get? ⟨"m"⟩).bind (·.mutants.get? ⟨1⟩)
      = some ⟨2, 0, 2⟩ := by
  decide

end StatsPersister

end Campaign
