import Campaign.Plan.Status
import Campaign.Mutation.Config
import Campaign.Data.Table

/-! A plan is what one cycle works on: the compilers of a machine, the corpus of subjects with the
outcome of compiling each subject by each compiler, the stages already completed, and, for a
mutation test, the mutation configuration and the mutant under test.

Plans travel as JSON between the stages of a cycle, so each part has a shape to read it by and a
writer; fields that are absent are left out when written.
-/

namespace Campaign

open Mutation

/-- How one compiler is invoked. -/
structure CompilerConfig where
  style : String
  arch : String
  opt : Option String := none
  mopt : Option String := none
  deriving DecidableEq, Repr

namespace CompilerConfig

/-- Style and architecture are required; the option strings default to absent. -/
def shape : Shape :=
  .record "CompilerConfig"
    [Shape.field "style" Shape.str, Shape.field "arch" Shape.str,
     Shape.fieldOr "opt" (.optional Shape.str) .null,
     Shape.fieldOr "mopt" (.optional Shape.str) .null]

/-- The compiler of a normal value of `shape`. -/
def ofNormal (j : Json) : CompilerConfig :=
  ⟨(j.field "style").asString, (j.field "arch").asString,
    (j.field "opt").asOption Json.asString, (j.field "mopt").asOption Json.asString⟩

/-- The compiler as written. -/
def toJson (c : CompilerConfig) : Json :=
  Json.record [("style", some (.string c.style)), ("arch", some (.string c.arch)),
    ("opt", c.opt.map .string), ("mopt", c.mopt.map .string)]

end CompilerConfig

/-- The mutant a compilation ran under, and how often the mutation was hit. -/
structure Selection where
  mutant : Mutant
  hits : Nat
  deriving DecidableEq, Repr

namespace Selection

/-- Both fields are required. -/
def shape : Shape :=
  .record "MutantSelection" [Shape.field "mutant" Shape.u64, Shape.field "hits" Shape.u64]

/-- The selection of a normal value of `shape`. -/
def ofNormal (j : Json) : Selection :=
  ⟨⟨(j.field "mutant").asNat⟩, (j.field "hits").asNat⟩

/-- The selection as written. -/
def toJson (s : Selection) : Json :=
  .object [("mutant", s.mutant.toJson), ("hits", .nat s.hits)]

end Selection

/-- The outcome of compiling one subject with one compiler. -/
structure Compilation where
  status : Status := .ok
  selection : Option Selection := none
  deriving DecidableEq, Repr

namespace Compilation

/-- The status defaults to `ok`, the selection to absent. -/
def shape : Shape :=
  .record "Compilation"
    [Shape.fieldOr "status" Status.shape (.string "ok"),
     Shape.fieldOr "mutant" (.optional Selection.shape) .null]

/-- The compilation of a normal value of `shape`. -/
def ofNormal (j : Json) : Compilation :=
  ⟨Status.ofNormal (j.field "status"), (j.field "mutant").asOption Selection.ofNormal⟩

/-- The compilation as written. -/
def toJson (c : Compilation) : Json :=
  Json.record [("status", some c.status.toJson), ("mutant", c.selection.map Selection.toJson)]

end Compilation

/-- A table keyed by names is written as an object in key order. -/
def Table.toJson {α : Type} (f : α → Json) (t : Table String α) : Json :=
  .object (t.entries.map fun (k, v) => (k, f v))

/-- The table of a normal object value, converting each value by `f`. -/
def Table.ofNormal {α : Type} (f : Json → α) (j : Json) : Table String α :=
  Table.ofList (j.asMembers.map fun (k, v) => (k, f v))

/-- A test program of the corpus and its compilations, by compiler name. -/
structure Subject where
  source : String
  compilations : Table String Compilation := {}
  deriving Repr

namespace Subject

/-- The source path is required; the compilations default to none. -/
def shape : Shape :=
  .record "Subject"
    [Shape.field "source" Shape.path,
     Shape.fieldOr "compilations" (.map .text Compilation.shape) (.object [])]

/-- The subject of a normal value of `shape`. -/
def ofNormal (j : Json) : Subject :=
  ⟨(j.field "source").asString, Table.ofNormal Compilation.ofNormal (j.field "compilations")⟩

/-- The subject as written. -/
def toJson (s : Subject) : Json :=
  .object [("source", .string s.source), ("compilations", Table.toJson Compilation.toJson s.compilations)]

end Subject

/-- A completed stage: which, when (milliseconds since the epoch) and how long it took. -/
structure StageRecord where
  stage : StageKind
  completedMs : Int
  durationMs : Nat
  deriving DecidableEq, Repr

namespace StageRecord

/-- Every field is required. -/
def shape : Shape :=
  .record "StageRecord"
    [Shape.field "stage" StageKind.shape, Shape.field "completed_ms" .signed,
     Shape.field "duration_ms" Shape.u64]

/-- The record of a normal value of `shape`. -/
def ofNormal (j : Json) : StageRecord :=
  ⟨StageKind.ofNormal (j.field "stage"), (j.field "completed_ms").asInt,
    (j.field "duration_ms").asNat⟩

/-- The record as written. -/
def toJson (r : StageRecord) : Json :=
  .object [("stage", r.stage.toJson), ("completed_ms", .int r.completedMs),
    ("duration_ms", .nat r.durationMs)]

end StageRecord

/-- Where a plan came from and what has been done to it. -/
structure Metadata where
  seed : Int := 0
  /-- Creation time in milliseconds on the campaign's clock; the corpus planner sets it when it
  makes the plans, and a plan made otherwise starts at `0`. -/
  createdMs : Int := 0
  stages : List StageRecord := []
  deriving DecidableEq, Repr

namespace Metadata

/-- The metadata as written. -/
def toJson (m : Metadata) : Json :=
  .object [("seed", .int m.seed), ("created_ms", .int m.createdMs),
    ("stages", .array (m.stages.map StageRecord.toJson))]

/-- Seed and creation time are required; the stages default to none. -/
def shape : Shape :=
  .record "Metadata"
    [Shape.field "seed" .signed, Shape.field "created_ms" .signed,
     Shape.fieldOr "stages" (.list StageRecord.shape) (.array [])]

/-- The metadata of a normal value of `shape`. -/
def ofNormal (j : Json) : Metadata :=
  ⟨(j.field "seed").asInt, (j.field "created_ms").asInt,
    (j.field "stages").asList.map StageRecord.ofNormal⟩

end Metadata

/-- The work of one cycle. -/
structure Plan where
  metadata : Metadata := {}
  compilers : Table String CompilerConfig := {}
  corpus : Table String Subject := {}
  mutation : Option Mutation.Config := none
  mutant : Option Mutant := none
  deriving Repr

namespace Plan

/-- Every field defaults; a missing metadata is a fresh one. -/
def shape : Shape :=
  .record "Plan"
    [Shape.fieldOr "metadata" Metadata.shape (Metadata.toJson {}),
     Shape.fieldOr "compilers" (.map .text CompilerConfig.shape) (.object []),
     Shape.fieldOr "corpus" (.map .text Subject.shape) (.object []),
     Shape.fieldOr "mutation" (.optional Mutation.Config.shape) .null,
     Shape.fieldOr "mutant" (.optional Shape.u64) .null]

/-- The plan of a normal value of `shape`. -/
def ofNormal (j : Json) : Plan :=
  ⟨Metadata.ofNormal (j.field "metadata"),
    Table.ofNormal CompilerConfig.ofNormal (j.field "compilers"),
    Table.ofNormal Subject.ofNormal (j.field "corpus"),
    (j.field "mutation").asOption Mutation.Config.ofNormal,
    (j.field "mutant").asOption fun v => ⟨v.asNat⟩⟩

/-- The plan as written; an absent mutation or mutant is left out. -/
def toJson (p : Plan) : Json :=
  Json.record [("metadata", some p.metadata.toJson),
    ("compilers", some (Table.toJson CompilerConfig.toJson p.compilers)),
    ("corpus", some (Table.toJson Subject.toJson p.corpus)),
    ("mutation", p.mutation.map Mutation.Config.toJson),
    ("mutant", p.mutant.map Mutant.toJson)]

/-- Whether the plan is a mutation test: it has an enabled mutation configuration. -/
def isMutationTest (p : Plan) : Bool :=
  match p.mutation with
  | some m => m.enabled
  | none => false

/-- The plan with the mutant under test set. -/
def setMutant (p : Plan) (m : Mutant) : Plan := { p with mutant := some m }

/-- The plan with a completed stage recorded at time `now`. -/
def recordStage (p : Plan) (stage : StageKind) (now : Int) (durationMs : Nat) : Plan :=
  { p with metadata := { p.metadata with stages := p.metadata.stages ++ [⟨stage, now, durationMs⟩] } }

/-- Add a name to a list unless it is already the last one. -/
def pushName (name : String) (names : List String) : List String :=
  if names.getLast? = some name then names else names ++ [name]

/-- The subjects having some compilation of each status, in corpus order. A subject is added
to a status unless it is the last one added there; as subjects come one at a time, that lists
each subject once. -/
def subjectsByStatus (p : Plan) : Table Status (List String) :=
  p.corpus.entries.foldl
    (fun acc (name, subject) =>
      subject.compilations.values.foldl
        (fun acc c => acc.update c.status [] (pushName name)) acc)
    {}

end Plan

end Campaign
