import Campaign.Observer.Event

/-! The campaign log, one record per line as `[scope] text`: one per event, and per analysis one of
its counts and one per killed mutant. Progress positions count from one in a 64-bit word.
-/

namespace Campaign

open Mutation

/-- The text of progress through items, with `what` naming the items. -/
def Progress.text {α : Type} (what : String) (item : α → String) : Progress α → String
  | .start total => what ++ ": starting (" ++ toString total ++ ")"
  | .step index x => what ++ ": " ++ toString ((index + 1) % Nat.pow 2 64) ++ " " ++ item x
  | .done => what ++ ": done"

/-- The counts of an analysis by status, in status order: `status=count ...`. -/
def Mutation.Analysis.countsText (a : Analysis) : String :=
  "analysis: " ++ " ".intercalate
    (a.byStatus.entries.map fun (s, names) => s.name ++ "=" ++ toString names.length)

/-- The texts a cycle's event is logged as. -/
def Event.logTexts : Event → List String
  | .cycle .started => ["cycle started"]
  | .cycle .finished => ["cycle finished"]
  | .cycle (.errored e) => ["cycle failed: " ++ e.cause.chain]
  | .inst .closed => ["instance closed"]
  | .inst (.mutantChanged m) => ["now testing " ++ m.display]
  | .analysis a =>
    a.countsText :: a.mutation.killedMutants.map fun m => "killed " ++ m.display
  | .compilerConfig p =>
    [p.text "compilers" fun s => s.name ++ " (" ++ s.config.style ++ " on " ++ s.config.arch ++ ")"]
  | .save p =>
    [p.text "save" fun s => s.subject ++ " [" ++ s.status.name ++ "] -> " ++ s.path.text]
  | .build p => [p.text "build" (·.subject)]
  | .copy p => [p.text "copy" fun s => s.src.text ++ " -> " ++ s.dst.text]

/-- The text the campaign logs about itself. -/
def DirectorMessage.logText : DirectorMessage → String
  | .machines (.start total) => "configuring " ++ toString total ++ " machine(s)"
  | .machines (.step _ r) =>
    "machine " ++ r.id.text ++ ": " ++ toString r.config.compilers.size ++ " compiler(s)" ++
      (if r.config.mutationEnabled then ", mutation testing" else "")
  | .machines .done => "machines configured"
  | .prepare (.instances n) => "running " ++ toString n ++ " instance(s)"
  | .prepare (.quantities q) => "quantities " ++ q.outline.render
  | .prepare (.paths m p) => m.text ++ " writes to " ++ p.root.text

/-- The records written to a log, in order. -/
structure LogBook where
  records : List String := []
  deriving Repr, Inhabited

namespace LogBook

/-- Append one record. -/
def write (b : LogBook) (scope text : String) : LogBook :=
  ⟨b.records ++ ["[" ++ scope ++ "] " ++ text]⟩

/-- Log a cycle's event. -/
def onMessage (b : LogBook) (m : Message) : LogBook :=
  m.event.logTexts.foldl (fun b t => b.write m.cycle.display t) b

/-- Log what the campaign reports about itself. -/
def onDirector (b : LogBook) (m : DirectorMessage) : LogBook :=
  b.write "director" m.logText

/-- The text of the log: every record followed by a line break. -/
def text (b : LogBook) : String :=
  String.join (b.records.map (· ++ "\n"))

end LogBook

/-- The lines of a text: split at line breaks, a carriage return before a break dropped, and
no empty line after a final break. -/
def Text.lines (s : String) : List String :=
  let parts := s.splitOn "\n"
  let parts := if parts.getLast? = some "" then parts.dropLast else parts
  parts.map fun p => if p.endsWith "\r" then (p.dropEnd 1).toString else p

end Campaign
