import Mathlib
import Campaign.Observer.Log

/-! A log's text has one line per record plus one per line break inside a record
(`lineBreaks_text`), and each event is one record but an analysis, which adds one per killed
mutant. Texts are not escaped, so a name or a cause holding a line break splits its record
(`log_line_breaks_split`).
-/

namespace Campaign

/-- The number of line breaks in a text; a text whose every line ends with one has that many
lines. -/
def lineBreaks (s : String) : Nat := s.toList.count '\n'

@[simp] theorem lineBreaks_append (s t : String) : lineBreaks (s ++ t) = lineBreaks s + lineBreaks t := by
  simp [lineBreaks, List.count_append]

/-- How many records an event is logged as: one, and for an analysis one more per killed
mutant. -/
def Event.recordCount : Event → Nat
  | .analysis a => 1 + a.mutation.killedMutants.length
  | _ => 1

theorem Event.logTexts_length (e : Event) : e.logTexts.length = e.recordCount := by
  cases e with
  | cycle m => cases m <;> rfl
  | inst m => cases m <;> rfl
  | analysis a => simp [logTexts, recordCount, Nat.add_comm]
  | compilerConfig p => rfl
  | save p => rfl
  | build p => rfl
  | copy p => rfl

namespace LogBook

/-- A record as written: its scope in brackets, a blank, then its text. -/
def record (scope text : String) : String := "[" ++ scope ++ "] " ++ text

theorem write_records (b : LogBook) (scope text : String) :
    (b.write scope text).records = b.records ++ [record scope text] := rfl

/-- Writing texts one after the other appends their records in order; by induction on the
texts. -/
theorem foldl_write_records (scope : String) (texts : List String) (b : LogBook) :
    (texts.foldl (fun b t => b.write scope t) b).records = b.records ++ texts.map (record scope) := by
  induction texts generalizing b with
  | nil => simp
  | cons t rest ih => simp [ih, write_records]

theorem onMessage_records (b : LogBook) (m : Message) :
    (b.onMessage m).records = b.records ++ m.event.logTexts.map (record m.cycle.display) :=
  foldl_write_records _ _ b

theorem onDirector_records (b : LogBook) (d : DirectorMessage) :
    (b.onDirector d).records = b.records ++ [record "director" d.logText] := rfl

/-- A log's text has one line per record, plus one for each line break inside a record. -/
theorem lineBreaks_text (b : LogBook) :
    lineBreaks b.text = b.records.length + (b.records.map lineBreaks).sum := by
  obtain ⟨rs⟩ := b
  simp only [text, lineBreaks, String.toList_join, List.count_flatMap, List.map_map]
  induction rs with
  | nil => rfl
  | cons r rs ih =>
    simp only [List.map_cons, List.sum_cons, List.length_cons, Function.comp_apply,
      String.toList_append, List.count_append, lineBreaks] at ih ⊢
    rw [ih]
    have newline : ("\n" : String).toList.count '\n' = 1 := by decide
    rw [newline]
    omega

/-- A log has exactly one line per record when no record holds a line break, and only then. -/
theorem lineBreaks_text_eq_iff (b : LogBook) :
    lineBreaks b.text = b.records.length ↔ ∀ r ∈ b.records, lineBreaks r = 0 := by
  rw [lineBreaks_text, Nat.add_eq_left, List.sum_eq_zero_iff_forall_eq_nat]
  simp

end LogBook

/-- The position a progress step shows is its index plus one, below the top of a 64-bit word. -/
theorem Progress.text_step {α : Type} (what : String) (item : α → String) {i : Nat} (x : α)
    (below : i + 1 < 2 ^ 64) :
    Progress.text what item (.step i x) = what ++ ": " ++ toString (i + 1) ++ " " ++ item x := by
  have fits : i + 1 < Nat.pow 2 64 := below
  show what ++ ": " ++ toString ((i + 1) % Nat.pow 2 64) ++ " " ++ item x = _
  rw [Nat.mod_eq_of_lt fits]

/-- Handling a cycle's event appends one record `[stamp] text` per text of the event, one in all
and one more per killed mutant for an analysis; a report of the campaign appends one record
`[director] text`. Every log's text has one line per record plus one per line break inside a
record, so it has exactly one line per record when no record holds a line break, and only then.
A progress step with index `i` shows position `i + 1` while that stays below `2 ^ 64`. -/
theorem log_records_and_lines (b : LogBook) (m : Message) (d : DirectorMessage) :
    (b.onMessage m).records = b.records ++ m.event.logTexts.map (LogBook.record m.cycle.display) ∧
    m.event.logTexts.length = m.event.recordCount ∧
    (b.onDirector d).records = b.records ++ [LogBook.record "director" d.logText] ∧
    lineBreaks b.text = b.records.length + (b.records.map lineBreaks).sum ∧
    (lineBreaks b.text = b.records.length ↔ ∀ r ∈ b.records, lineBreaks r = 0) ∧
    ∀ {α : Type} (what : String) (item : α → String) (i : Nat) (x : α), i + 1 < 2 ^ 64 →
      Progress.text what item (.step i x) = what ++ ": " ++ toString (i + 1) ++ " " ++ item x :=
  ⟨b.onMessage_records m, m.event.logTexts_length, b.onDirector_records d, b.lineBreaks_text,
    b.lineBreaks_text_eq_iff, fun what item _ x below => Progress.text_step what item x below⟩

/-- The first build step of machine `m`, with its subject. -/
def firstBuildOf (subject : String) : Message := ⟨⟨0, ⟨"m"⟩, 0⟩, .build (.step 0 ⟨subject⟩)⟩

theorem log_records_and_lines_firstBuild :
    0 + 1 < 2 ^ 64 ∧ Progress.text "build" BuildStep.subject (.step 0 ⟨"a"⟩) = "build: 1 a" :=
  ⟨by decide, (log_records_and_lines {} (firstBuildOf "a") (.prepare (.instances 1))).2.2.2.2.2
    "build" BuildStep.subject 0 ⟨"a"⟩ (by decide)⟩

/-- One build step whose subject holds a line break takes two lines of a fresh log, and the
step of the last index of a 64-bit word shows position 0. -/
theorem log_line_breaks_split :
    lineBreaks (LogBook.onMessage {} (firstBuildOf "a\nb")).text = 2 ∧
    (LogBook.onMessage {} ⟨⟨0, ⟨"m"⟩, 0⟩, .build (.step (2 ^ 64 - 1) ⟨"x"⟩)⟩).records =
      ["[m #0 (iter 0)] build: 0 x"] := by
  decide

end Campaign
