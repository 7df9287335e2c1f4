import Campaign.Observer.Event
import Campaign.Json.Write
import Campaign.Schema.OfText

/-! Campaign statistics: per machine, counters of cycles, failures, flagged subjects and per-mutant
compilations, hits and kills, in 64-bit words that wrap. They are written, indented, after every
counted event but a cycle's start, and read back from that file.
-/

namespace Campaign

open Mutation

/-- What one machine learned about one mutant. -/
structure MutantStats where
  selections : UInt64 := 0
  hits : UInt64 := 0
  kills : UInt64 := 0
  deriving DecidableEq, Repr

/-- What happened on one machine. -/
structure MachineStats where
  started : UInt64 := 0
  finished : UInt64 := 0
  errored : UInt64 := 0
  lastError : Option String := none
  flagged : UInt64 := 0
  mutant : Option Mutant := none
  mutants : Table Mutant MutantStats := {}
  closed : Bool := false
  deriving Repr

/-- What happened on every machine. -/
structure CampaignStats where
  machines : Table MachineId MachineStats := {}
  deriving Repr

namespace MutantStats

/-- The counters as written. -/
def toJson (s : MutantStats) : Json :=
  .object [("selections", .nat s.selections.toNat), ("hits", .nat s.hits.toNat),
    ("kills", .nat s.kills.toNat)]

/-- Every counter is required. -/
def shape : Shape :=
  .record "MutantStats"
    [Shape.field "selections" Shape.u64, Shape.field "hits" Shape.u64, Shape.field "kills" Shape.u64]

/-- The counters of a normal value of `shape`. -/
def ofNormal (j : Json) : MutantStats :=
  ⟨(j.field "selections").asNat.toUInt64, (j.field "hits").asNat.toUInt64,
    (j.field "kills").asNat.toUInt64⟩

/-- Count one compilation under the mutant. -/
def count (s : MutantStats) (r : SelectionRecord) : MutantStats :=
  { selections := s.selections + 1, hits := s.hits + r.hits.toUInt64,
    kills := s.kills + (if r.killed then 1 else 0) }

end MutantStats

namespace MachineStats

/-- The statistics of a machine as written; an absent failure or mutant and an empty mutant
table are left out. -/
def toJson (s : MachineStats) : Json :=
  Json.record
    [("started", some (.nat s.started.toNat)), ("finished", some (.nat s.finished.toNat)),
     ("errored", some (.nat s.errored.toNat)), ("last_error", s.lastError.map .string),
     ("flagged", some (.nat s.flagged.toNat)), ("mutant", s.mutant.map Mutant.toJson),
     ("mutants", if s.mutants.isEmpty then none
        else some (.object (s.mutants.entries.map fun (m, ms) => (toString m.id, ms.toJson)))),
     ("closed", some (.bool s.closed))]

/-- Counters and the closing flag are required; the rest may be absent. -/
def shape : Shape :=
  .record "MachineStats"
    [Shape.field "started" Shape.u64, Shape.field "finished" Shape.u64,
     Shape.field "errored" Shape.u64,
     Shape.fieldOr "last_error" (.optional Shape.str) .null,
     Shape.field "flagged" Shape.u64,
     Shape.fieldOr "mutant" (.optional Shape.u64) .null,
     Shape.fieldOr "mutants" (.map .unsigned MutantStats.shape) (.object []),
     Shape.field "closed" .bool]

/-- The statistics of a normal value of `shape`. -/
def ofNormal (j : Json) : MachineStats :=
  { started := (j.field "started").asNat.toUInt64
    finished := (j.field "finished").asNat.toUInt64
    errored := (j.field "errored").asNat.toUInt64
    lastError := (j.field "last_error").asOption Json.asString
    flagged := (j.field "flagged").asNat.toUInt64
    mutant := (j.field "mutant").asOption fun v => ⟨v.asNat⟩
    mutants := Table.ofList ((j.field "mutants").asMembers.map fun (k, v) =>
      (⟨k.toNat?.getD 0⟩, MutantStats.ofNormal v))
    closed := (j.field "closed").asBool }

/-- Count an analysis: its flagged subjects and, per mutant, its compilations. -/
def countAnalysis (s : MachineStats) (a : Analysis) : MachineStats :=
  { s with
    flagged := s.flagged + a.flagged.toUInt64
    mutants := a.mutation.selections.entries.foldl
      (fun t (m, rs) => t.update m {} fun ms => rs.foldl MutantStats.count ms) s.mutants }

end MachineStats

namespace CampaignStats

/-- The statistics as written. -/
def toJson (s : CampaignStats) : Json :=
  .object [("machines", .object (s.machines.entries.map fun (id, m) => (id.text, m.toJson)))]

/-- The machines are required. -/
def shape : Shape :=
  .record "CampaignStats" [Shape.field "machines" (.map .text MachineStats.shape)]

/-- The statistics of a normal value of `shape`. -/
def ofNormal (j : Json) : CampaignStats :=
  ⟨Table.ofList ((j.field "machines").asMembers.map fun (k, v) => (⟨k⟩, MachineStats.ofNormal v))⟩

/-- Change the entry of a machine, creating it first. -/
def touch (s : CampaignStats) (id : MachineId) (f : MachineStats → MachineStats) : CampaignStats :=
  ⟨s.machines.update id {} f⟩

/-- Count one message; `none` for a message that is not counted. -/
def count? (s : CampaignStats) (m : Message) : Option CampaignStats :=
  let id := m.cycle.machine
  match m.event with
  | .cycle .started => some (s.touch id fun ms => { ms with started := ms.started + 1 })
  | .cycle .finished => some (s.touch id fun ms => { ms with finished := ms.finished + 1 })
  | .cycle (.errored e) =>
    some (s.touch id fun ms => { ms with errored := ms.errored + 1, lastError := some e.cause.chain })
  | .inst .closed => some (s.touch id fun ms => { ms with closed := true })
  | .inst (.mutantChanged mu) => some (s.touch id fun ms => { ms with mutant := some mu })
  | .analysis a => some (s.touch id fun ms => ms.countAnalysis a)
  | _ => none

/-- Whether counting the message writes the statistics out: all counted messages but a cycle's
start. -/
def persistsAfter (m : Message) : Bool :=
  match m.event with
  | .cycle .started => false
  | .cycle _ | .inst _ | .analysis _ => true
  | _ => false

/-- The statistics as stored in their file: indented JSON. -/
def fileText (s : CampaignStats) : String := Json.pretty s.toJson

/-- Read statistics from the text of their file. -/
def ofText (text : String) : Except Fault CampaignStats :=
  (Shape.ofText shape text).map ofNormal

end CampaignStats

/-- The statistics kept in memory and the text of their file, if it was ever written. -/
structure StatsPersister where
  stats : CampaignStats := {}
  /-- Whether the file can be written. -/
  writable : Bool := true
  /-- The text of the file after the last write. -/
  file : Option String := none
  deriving Repr

/-- Count a message and write the file when the message asks for it. -/
def StatsPersister.handle (p : StatsPersister) (m : Message) : StatsPersister :=
  match p.stats.count? m with
  | none => p
  | some s =>
    let file := if CampaignStats.persistsAfter m && p.writable then some s.fileText else p.file
    { p with stats := s, file }

end Campaign
