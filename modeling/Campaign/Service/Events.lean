import Campaign.Service.Failures
import Campaign.Observer.Forward

/-! Events are described in requests as a cycle stamp and an event: `"started"`, `"finished"`,
`"closed"`, or a one-member object naming the event (`mutant_changed`, `errored`, `analysis`,
`compiler_config`, `save`, `build`, `copy`). `log`, `log_file`, `stats` and `forward` show how
the log and the statistics record them and how sinks forward them.
-/

namespace Campaign

namespace Service

open Mutation

/-- Read a value of a shape that the request itself describes; a fault is a bad request. -/
def describe (s : Shape) (j : Json) : Except Json Json :=
  (s.ofValue j).mapError fun f => badRequest f.message

/-- A cycle stamp: machine `m`, instance `0` and iteration `0` unless given. -/
def cycleOf (j : Json) : Except Json Cycle := do
  let machine := match j.field "machine" with
    | .string s => s
    | _ => "m"
  let index := match j.field "instance" with
    | .null => 0
    | v => v.asNat
  let iter := match j.field "iter" with
    | .null => 0
    | v => v.asNat
  return ⟨index, ⟨machine⟩, iter⟩

/-- Progress through items described by `"end"`, `{"start": n}` or `{"step": i, "item": x}`. -/
def progressOf {α : Type} (item : Json → Except Json α) (j : Json) : Except Json (Progress α) :=
  match j with
  | .string "end" => .ok .done
  | j =>
    match j.field "start", j.field "step" with
    | .number (.uint n), _ => .ok (.start n)
    | _, .number (.uint i) => do return .step i (← item (j.field "item"))
    | _, _ => .error (badRequest "unknown progress")

/-- A string member, `""` when absent. -/
def textOf (j : Json) (name : String) : String :=
  match j.field name with
  | .string s => s
  | _ => ""

/-- An analysis described by a plan, or by registrations and subjects by status. -/
def analysisOf (j : Json) : Except Json Analysis := do
  match j.field "plan" with
  | .null =>
    let regs := (← describe (.list (.list .any)) (j.field "registrations")).asList
    let register (acc : MutantAnalysis) (r : Json) : Except Json MutantAnalysis := do
      match r.asList with
      | [m, subject, compiler, hits, status] =>
        let m ← describe Shape.u64 m
        let subject ← describe Shape.str subject
        let compiler ← describe Shape.str compiler
        let hits ← describe Shape.u64 hits
        let status ← describe Status.shape status
        return acc.register ⟨m.asNat⟩ subject.asString compiler.asString hits.asNat
          (Status.ofNormal status)
      | _ => throw (badRequest "a registration has five parts")
    let mutation ← regs.foldlM register {}
    let byStatus ← describe (.map (.variant Status.names) (.list Shape.str))
      (match j.field "by_status" with
        | .null => .object []
        | v => v)
    return ⟨Table.ofList (byStatus.asMembers.map fun (k, v) =>
      (Status.ofNormal (.string k), v.asList.map Json.asString)), mutation⟩
  | p => do
    let p ← (Plan.shape.ofValue p).mapError jsonFault
    return Analysis.ofPlan (Plan.ofNormal p)

/-- An event described in a request. -/
def eventOf (j : Json) : Except Json Event :=
  match j with
  | .string "started" => .ok (.cycle .started)
  | .string "finished" => .ok (.cycle .finished)
  | .string "closed" => .ok (.inst .closed)
  | .object [(name, v)] =>
    match name with
    | "mutant_changed" => do
      return .inst (.mutantChanged ⟨(← describe Shape.u64 v).asNat⟩)
    | "errored" => do
      match ← buildFailure v with
      | .cycle e => return .cycle (.errored e)
      | _ => throw (badRequest "errored needs a cycle failure")
    | "analysis" => do return .analysis (← analysisOf v)
    | "compiler_config" => do
      return .compilerConfig (← progressOf (fun i => do
        let c ← (CompilerConfig.shape.ofValue (i.field "config")).mapError jsonFault
        return ⟨textOf i "name", CompilerConfig.ofNormal c⟩) v)
    | "save" => do
      return .save (← progressOf (fun i => do
        let status ← match i.field "status" with
          | .null => pure Status.ok
          | s => Status.ofNormal <$> describe Status.shape s
        return (⟨textOf i "subject", status, ⟨textOf i "path"⟩⟩ : SaveStep)) v)
    | "build" => do return .build (← progressOf (fun i => .ok ⟨textOf i "subject"⟩) v)
    | "copy" => do
      return .copy (← progressOf (fun i => .ok ⟨⟨textOf i "src"⟩, ⟨textOf i "dst"⟩⟩) v)
    | other => .error (badRequest ("unknown event " ++ Text.quoted other))
  | _ => .error (badRequest "unknown event")

/-- A stamped event of a request. -/
def messageOf (j : Json) : Except Json Message := do
  return ⟨← cycleOf (j.field "cycle"), ← eventOf (j.field "event")⟩

/-- What the campaign reports about itself, described in a request. -/
def directorMessageOf (j : Json) : Except Json DirectorMessage := do
  match j.field "machines", j.field "prepare" with
  | .null, .null => throw (badRequest "unknown director event")
  | .null, p =>
    match p.field "instances", p.field "quantities", p.field "paths" with
    | .number (.uint n), _, _ => return .prepare (.instances n)
    | _, .null, .null => throw (badRequest "unknown prepare event")
    | _, .null, paths =>
      let id : MachineId := ⟨textOf paths "machine"⟩
      return .prepare (.paths id (Pathset.ofMachine ⟨textOf paths "out_dir"⟩ id))
    | _, q, _ =>
      return .prepare (.quantities
        (QuantitySet.ofNormal (← (QuantitySet.shape.ofValue q).mapError jsonFault)))
  | m, _ => do
    return .machines (← progressOf (fun i => do
      let c ← (MachineConfig.shape.ofValue (i.field "config")).mapError jsonFault
      return ⟨⟨textOf i "id"⟩, MachineConfig.ofNormal c⟩) m)

/-- The lines of a log as answered: a leading time stamp (digits and a blank before `[`) is
removed from each line. -/
def shownLines (text : String) : List String :=
  (Text.lines text).map fun line =>
    let digits := line.toList.takeWhile Char.isDigit
    let rest := line.toList.drop digits.length
    if !digits.isEmpty && rest.take 2 == [' ', '['] then String.ofList (rest.drop 1) else line

/-- The lines of a log book as answered. -/
def logLines (b : LogBook) : Json := Json.strings (shownLines b.text)

/-- Log one item of a request: a stamped event or a report of the campaign. -/
def logItem (b : LogBook) (j : Json) : Except Json LogBook :=
  match j.field "director" with
  | .null => do return b.onMessage (← messageOf j)
  | d => do return b.onDirector (← directorMessageOf d)

/-- `log`: the lines a log handler writes for some events. -/
def logAnswer (req : Json) : Answer := do
  let items := (← setting req "events" (.list .any) (.array [])).asList
  let b ← items.foldlM logItem {}
  return .object [("lines", logLines b)]

/-- `log_file`: batches of events appended to one log file, each batch through a freshly opened
handler. -/
def logFileAnswer (req : Json) : Answer := do
  let batches := (← setting req "batches" (.list (.list .any)) (.array [])).asList
  let unopenable ← boolSetting req "unopenable" false
  let openBatch (state : List Json × Option LogBook) (batch : Json) :
      Except Json (List Json × Option LogBook) := do
    let (opened, file) := state
    if unopenable then return (opened ++ [Json.string IoError.notFound.message], file)
    let b ← batch.asList.foldlM logItem (file.getD {})
    return (opened ++ [Json.null], some b)
  let (opened, file) ← batches.foldlM openBatch ([], none)
  return .object [("opened", .array opened), ("lines", Json.opt logLines file)]

/-- The statistics read back from their file, compared with those in memory. -/
def persistedJson (p : StatsPersister) : Json :=
  match p.file with
  | none => .object [("error", .string ("io error: " ++ IoError.notFound.message))]
  | some text =>
    match CampaignStats.ofText text with
    | .ok s => .object [("equal", .bool (Json.compact s.toJson == Json.compact p.stats.toJson))]
    | .error f => .object [("error", .string ("invalid stats json: " ++ f.message))]

/-- `stats`: the statistics after each event, and whether their file reads back the same. -/
def statsAnswer (req : Json) : Answer := do
  let items := (← setting req "events" (.list .any) (.array [])).asList
  let unwritable ← boolSetting req "unwritable" false
  let count (state : StatsPersister × List Json) (j : Json) :
      Except Json (StatsPersister × List Json) := do
    let p := state.1.handle (← messageOf j)
    return (p, state.2 ++ [p.stats.toJson])
  let (p, after) ← items.foldlM count ({ writable := !unwritable }, [])
  return .object [("after", .array after), ("persisted", persistedJson p)]

/-- A sink of the `forward` operation: its name and state, or dropped. -/
structure NamedSink where
  name : String
  sink : Option Sink

/-- The statistics file as answered: its JSON, or `null` when it was never written. -/
def statsFileJson (p : StatsPersister) : Json :=
  match p.file with
  | none => .null
  | some text =>
    match Shape.ofText .any text with
    | .ok j => j
    | .error _ => .null

/-- Replace the sink of a name. -/
def replaceSink (sinks : List NamedSink) (name : String) (s : Option Sink) : List NamedSink :=
  sinks.map fun n => if n.name == name then { n with sink := s } else n

/-- One step of the `forward` operation, with the messages forwarded so far. -/
def forwardStep (state : List NamedSink × List Message × List Json) (step : Json) :
    Except Json (List NamedSink × List Message × List Json) := do
  let (sinks, sent, answers) := state
  let name := textOf step "sink"
  if (step.field "drop").asBool then
    return (replaceSink sinks name none, sent, answers ++ [.object [("dropped", .string name)]])
  match sinks.find? (·.name == name) with
  | none => throw (badRequest ("unknown sink " ++ Text.quoted name))
  | some ⟨_, none⟩ =>
    return (sinks, sent, answers ++ [.object [("sink", .string name), ("gone", .bool true)]])
  | some ⟨_, some s⟩ =>
    if (step.field "is_closed").asBool then
      return (sinks, sent,
        answers ++ [.object [("sink", .string name), ("closed", .bool !s.isOpen)]])
    else
      let m ← messageOf step
      let (s', forwarded) := s.observe m
      return (replaceSink sinks name (some s'), sent ++ forwarded.toList,
        answers ++ [.object [("sink", .string name), ("machine", .string s'.machine.text),
          ("closed", .bool !s'.isOpen)]])

/-- `forward`: events observed through sinks and delivered by a forwarder to a log and the
statistics. -/
def forwardAnswer (req : Json) : Answer := do
  let capacity ← natSetting req "capacity" 8
  let extra ← boolSetting req "extra_handler" false
  let handlers := [Handler.log, Handler.stats] ++ (if extra then [Handler.log] else [])
  let f ← match Forwarder.create capacity handlers with
    | .ok f => pure f
    | .error (.error e) => throw (failureChain "ForwardError" e.message e.message)
    | .error (.panic m) => throw (failure "Panic" m)
  let sinkSpecs := (← setting req "sinks" (.list .any) (.array [])).asList
  let sinks := sinkSpecs.map fun j =>
    let name := textOf j "name"
    let machine := match j.field "machine" with
      | .string m => m
      | _ => name
    (⟨name, some ⟨⟨machine⟩, true⟩⟩ : NamedSink)
  let steps := (← setting req "steps" (.list .any) (.array [])).asList
  let (_, sent, answers) ← steps.foldlM forwardStep (sinks, [], [])
  let (out, delivered) := f.deliver {} sent
  let late := (← setting req "late" (.list Shape.str) (.array [])).asList
  return .object [("steps", .array answers), ("delivered", .nat delivered),
    ("log", logLines out.log), ("stats", statsFileJson out.stats),
    ("late", .array (late.map fun m =>
      .object [("machine", m), ("closed", .bool true)]))]

end Service

end Campaign
