import Campaign.Proofs.Instance.Turns
import Campaign.Proofs.Async.Lives
import Campaign.Proofs.Files.Operations

/-! An instance touches the files itself only to make the saved directories before its first cycle
and to remove the scratch directory after each cycle that succeeds. The monitor `Tidy.see`
reads a run in the world and refuses a Finished without the removal, a failed removal not
reported as Errored(Cleanup), and any touch at or below the saved directory; `directories_kept`
shows that it accepts every run and that the counter advances once per Finished.
-/

namespace Campaign

open Async

namespace Files

variable {ω : Type} (files : Files ω)

/-- Reading the tree back after setting it gives the tree that was set. -/
def Lawful : Prop := ∀ t w, files.get (files.set t w) = t

theorem alone_lawful : alone.Lawful := fun _ _ => rfl

variable {files}

/-- A file operation in the world touches it once: it leaves the world holding the tree the
operation made, or, when the operation fails, leaves the world alone. -/
theorem lives_run {g : Tree → Except IoError Tree} {ls : List (Lived ω Item)}
    {r : Except IoError Unit} (lawful : files.Lawful) (h : (files.run g).Lives ls r)
    : ∃ w w', ls = [.effect (.await [.file] 0 .ready), .touched w w']
      ∧ ((∃ t, g (files.get w) = .ok t ∧ files.get w' = t ∧ r = .ok ())
        ∨ (∃ e, g (files.get w) = .error e ∧ w' = w ∧ r = .error e)) := by
  unfold Files.run at h
  obtain ⟨w, rfl, rfl⟩ := Proc.lives_file_iff.mp h
  refine ⟨w, _, rfl, ?_⟩
  cases hg : g (files.get w) with
  | ok t => exact .inl ⟨t, rfl, lawful t w, rfl⟩
  | error e => exact .inr ⟨e, rfl, rfl, rfl⟩

/-- Making directories in the world waits for the files and touches them, and each touch keeps
every entry of the world it finds, by induction on the directories. -/
theorem createDirs_steps {l : List Path} {ls : List (Lived ω Item)} {r : Except IoError Unit}
    (lawful : files.Lawful) (h : (files.createDirs l).Lives ls r)
    : ∀ step ∈ ls, step = .effect (.await [.file] 0 .ready)
      ∨ ∃ w w', step = .touched w w' ∧ ∀ x ∈ (files.get w).nodes, x ∈ (files.get w').nodes := by
  induction l generalizing ls with
  | nil =>
    obtain ⟨rfl, -⟩ := Proc.lives_pure_iff.mp h
    simp
  | cons p rest ih =>
    obtain ⟨first, more, res, rfl, made, after⟩ := Proc.lives_bind_iff.mp h
    obtain ⟨w, w', rfl, outcome⟩ := lives_run lawful made
    have keeps : ∀ x ∈ (files.get w).nodes, x ∈ (files.get w').nodes := by
      rcases outcome with ⟨t, ht, got, -⟩ | ⟨e, -, rfl, -⟩
      · rw [got]
        exact Tree.createDirAll_keeps ht
      · exact fun x hx => hx
    intro step mem
    rcases List.mem_append.mp mem with mem | mem
    · -- the wait and the touch that make this directory
      simp only [List.mem_cons, List.not_mem_nil, or_false] at mem
      rcases mem with rfl | rfl
      · exact .inl rfl
      · exact .inr ⟨w, w', rfl, keeps⟩
    · -- the steps of the directories after it, if it was made
      rcases outcome with ⟨t, -, -, rfl⟩ | ⟨e, -, -, rfl⟩
      · exact ih after step mem
      · obtain ⟨rfl, -⟩ := Proc.lives_pure_iff.mp after
        cases mem

end Files

namespace Pathset

/-- Every entry at or below the saved directory in tree `t` is still in `t'`, as it was. -/
def keepsSaved (p : Pathset) (t t' : Tree) : Bool :=
  match t.locate p.saved with
  | .ok place => t.nodes.all fun x => !Tree.isUnder place x.1 || t'.nodes.contains x
  | .error _ => true

/-- The scratch directory is gone from `t'`, and removing it from `t` failed, if at all, only
for finding nothing. -/
def cleared (p : Pathset) (t t' : Tree) : Bool :=
  !t'.exists_ p.scratch
    && match t.removeDirAll p.scratch with
      | .ok _ => true
      | .error e => e == .notFound

/-- Removing the scratch directory from `t` failed with `e`, not for finding nothing, and `t'`
holds what `t` held. -/
def failedRemoval (p : Pathset) (t t' : Tree) (e : IoError) : Bool :=
  e != .notFound && t'.nodes == t.nodes
    && match t.removeDirAll p.scratch with
      | .error e' => e' == e
      | .ok _ => false

theorem keepsSaved_of_kept {p : Pathset} {t t' : Tree}
    (kept : ∀ place, t.locate p.saved = .ok place → ∀ x ∈ t.nodes, Tree.isUnder place x.1 →
      x ∈ t'.nodes)
    : p.keepsSaved t t' = true := by
  unfold keepsSaved
  split
  · rename_i place located
    simp only [List.all_eq_true, Bool.or_eq_true, Bool.not_eq_eq_eq_not, Bool.not_true,
      List.contains_iff_mem]
    intro x hx
    cases under : Tree.isUnder place x.1
    · exact .inl rfl
    · exact .inr (kept place located x hx under)
  · rfl

theorem keepsSaved_of_subset {p : Pathset} {t t' : Tree} (sub : ∀ x ∈ t.nodes, x ∈ t'.nodes)
    : p.keepsSaved t t' = true :=
  keepsSaved_of_kept fun _ _ x hx _ => sub x hx

end Pathset

namespace Files

variable {ω : Type} {files : Files ω}

/-- Cleaning up in the world touches it once and keeps the saved directory. It answers success
only when it cleared the scratch directory, and a failure only when removing it failed with
that error and left the world alone. -/
theorem lives_cleanupScratch {p : Pathset} {ls : List (Lived ω Item)} {r : Except IoError Unit}
    (lawful : files.Lawful) (h : (files.cleanupScratch p).Lives ls r)
    : ∃ w w', ls = [.effect (.await [.file] 0 .ready), .touched w w']
      ∧ p.keepsSaved (files.get w) (files.get w') = true
      ∧ (r = .ok () → p.cleared (files.get w) (files.get w') = true)
      ∧ ∀ e, r = .error e → p.failedRemoval (files.get w) (files.get w') e = true := by
  unfold cleanupScratch at h
  obtain ⟨first, rest, res, rfl, removed, after⟩ := Proc.lives_bind_iff.mp h
  obtain ⟨w, w', rfl, outcome⟩ := lives_run lawful removed
  rcases outcome with ⟨t, ht, got, rfl⟩ | ⟨e, he, rfl, rfl⟩
  · -- removed: the scratch directory is gone and the saved directory kept
    obtain ⟨rfl, rfl⟩ := Proc.lives_pure_iff.mp after
    refine ⟨w, w', rfl, Pathset.keepsSaved_of_kept fun place saved x hx under => ?_,
      fun _ => ?_, fun e he => by cases he⟩
    · rw [got]
      exact Pathset.removeDirAll_scratch_keeps_saved ht saved x hx under
    · simp [Pathset.cleared, got, ht, Tree.removeDirAll_gone ht]
  · obtain ⟨rfl, rfl⟩ := Proc.lives_pure_iff.mp after
    refine ⟨_, _, rfl, Pathset.keepsSaved_of_subset fun x hx => hx, fun ok => ?_,
      fun e' failed => ?_⟩
    · -- only finding nothing counts as cleared, and then there is nothing there
      have found : e = .notFound := by
        by_cases hn : e = .notFound
        · exact hn
        · simp [hn] at ok
      subst found
      simp [Pathset.cleared, he, Tree.removeDirAll_notFound he]
    · have other : e ≠ .notFound := by
        intro hn
        simp [hn] at failed
      have same : e' = e := by simpa [other] using failed.symm
      subst same
      simp [Pathset.failedRemoval, he, other]

end Files

namespace Instance

variable {ω : Type}

/-- A step of an instance's run in the world. -/
abbrev LivedStep (ω : Type) := Routine.Lived (Outcall ω) ω Item

/-- Whether a step reports a cycle's result: Finished or Errored. -/
def reports : Step ω → Bool
  | .call (.emit _ ⟨_, .cycle .finished⟩) _ => true
  | .call (.emit _ ⟨_, .cycle (.errored _)⟩) _ => true
  | _ => false

/-- A step that neither touches the files nor reports a result. -/
def Silent (s : Step ω) : Prop := s ≠ .effect .touch ∧ reports s = false

/-- A silent step that does not see a task end either. -/
def Quiet (s : Step ω) : Prop := Silent s ∧ ∀ ws j o, s ≠ .effect (.await ws j (.joined o))

/-- Whether a step reports a cycle finished. -/
def finishes : Step ω → Bool
  | .call (.emit _ ⟨_, .cycle .finished⟩) _ => true
  | _ => false

@[simp] theorem silent_effect {e : Effect ω Item} : Silent (.effect e : Step ω) ↔ e ≠ .touch := by
  simp [Silent, reports]

@[simp] theorem quiet_effect {e : Effect ω Item}
    : Quiet (.effect e : Step ω) ↔ e ≠ .touch ∧ ∀ ws j o, e ≠ .await ws j (.joined o) := by
  simp [Quiet]

theorem Silent.finishes_eq {s : Step ω} (silent : Silent s) : finishes s = false := by
  unfold finishes
  split
  · simp [Silent, reports] at silent
  · rfl

theorem countP_finishes_silent {evs : List (Step ω)} (silent : ∀ s ∈ evs, Silent s)
    : evs.countP finishes = 0 :=
  List.countP_eq_zero.mpr fun s hs => by simp [(silent s hs).finishes_eq]

section Pieces

variable {files : Files ω} {inst : Instance ω} {cx : Context} {obs : List (Observer ω)}
  {evs : List (Step ω)}

/-! Every stretch of an instance but the handling of a cycle's result, and the closing that
joins the automator, is quiet. -/

/-- Quiet effects followed by quiet steps. -/
theorem quiet_effects_append {es : List (Effect ω Item)} {l : List (Step ω)}
    (quiet : ∀ e ∈ es, Quiet (.effect e : Step ω)) (rest : ∀ s ∈ l, Quiet s)
    : ∀ s ∈ es.map .effect ++ l, Quiet s := by
  simp only [List.mem_append, List.mem_map]
  rintro s (⟨e, he, rfl⟩ | hs)
  · exact quiet e he
  · exact rest s hs

theorem retain_quiet {es : List (Effect ω Item)} (h : (retain obs : Proc ω Item Unit).Runs es ())
    : ∀ e ∈ es, Quiet (.effect e : Step ω) :=
  retain_only (fun _ _ => by simp) obs _ _ h

theorem release_quiet {es : List (Effect ω Item)} (h : (release obs : Proc ω Item Unit).Runs es ())
    : ∀ e ∈ es, Quiet (.effect e : Step ω) :=
  release_only (fun _ _ => by simp) obs _ _ h

theorem launch_quiet {m : Machine} {x : Cycle × Nat} (h : (launch files inst cx obs m).Runs evs x)
    : ∀ s ∈ evs, Quiet s := by
  obtain ⟨es, t, retained, rfl, -⟩ := runs_launch h
  exact quiet_effects_append (retain_quiet retained) (by simp [Quiet, Silent, reports])

theorem dropStream_quiet {mutants : Option Nat} {es : List (Effect ω Item)}
    (h : (dropStream mutants : Proc ω Item Unit).Runs es ()) : ∀ e ∈ es, Quiet (.effect e : Step ω) := by
  rcases runs_dropStream h with ⟨-, rfl⟩ | ⟨ch, r, -, rfl⟩ <;> simp

theorem dropBackoff_quiet {backoff : Option Nat} {es : List (Effect ω Item)}
    (h : (dropBackoff backoff : Proc ω Item Unit).Runs es ()) : ∀ e ∈ es, Quiet (.effect e : Step ω) := by
  rcases runs_dropBackoff h with ⟨-, rfl⟩ | ⟨b, r, -, rfl⟩ <;> simp

theorem onMutant_quiet {st : LoopState} {w : Woke Item} {out : Turn}
    (h : (onMutant inst obs st w).Runs evs out) : ∀ s ∈ evs, Quiet s := by
  rcases runs_onMutant h with ⟨mu, -, rfl, -⟩ | ⟨es, dropped, rfl, -⟩
  · simp [Quiet, Silent, reports]
  · simpa using dropStream_quiet dropped

theorem onBackoff_quiet {st : LoopState} {out : Turn} (h : (onBackoff files inst cx obs st).Runs evs out)
    : ∀ s ∈ evs, Quiet s := by
  obtain ⟨es, es', t, dropped, retained, rfl, -⟩ := runs_onBackoff h
  rw [List.append_assoc]
  exact quiet_effects_append (dropBackoff_quiet dropped)
    (quiet_effects_append (retain_quiet retained) (by simp [Quiet, Silent, reports]))

theorem firstMutant_quiet {m : Machine} {mutants : Option Nat}
    {x : Except Cancelled (Machine × Option Nat)} (h : (firstMutant inst cx obs m mutants).Runs evs x)
    : ∀ s ∈ evs, Quiet s := by
  rcases runs_firstMutant h with ⟨-, rfl, -⟩ | ⟨ch, j, w, -, -, branch⟩
  · simp
  · rcases branch with ⟨r, -, rfl, rfl, -⟩ | ⟨mu, rfl, rfl, -⟩ | ⟨got, rfl, -, r, rfl, -⟩ <;>
      simp [Quiet, Silent, reports]

theorem startMutation_quiet : (startMutation inst cx).Only fun e => Quiet (.effect e : Step ω) :=
  startMutation_only (fun _ _ => by simp) (fun _ => by simp) (fun _ _ => by simp)

/-- Halting only gives up the cycle in flight, which may be seen to end. -/
theorem halt_silent {st : LoopState} {reason : Cancelled} {x : Except InstanceError Unit × LoopState}
    (h : (halt obs st reason : Routine (Outcall ω) ω Item _).Runs evs x) : ∀ s ∈ evs, Silent s := by
  obtain ⟨es, aborted, rfl, -⟩ := runs_halt h
  rcases runs_abandon aborted with ⟨-, rfl⟩ | ⟨c, t, r, o, rest, -, released, rfl⟩
  · simp
  · -- the task is stopped and joined, then the senders it held are let go of
    have quiet := release_quiet released
    simp only [List.map_cons, List.mem_cons, List.mem_map]
    rintro s (rfl | rfl | ⟨e, he, rfl⟩)
    · simp
    · simp
    · exact (quiet e he).1

/-- Closing reports nothing of a cycle and never touches the files. -/
theorem close_silent {m : Machine} {automation : Option Automation} {x : Except InstanceError Unit}
    (h : (close inst obs m automation).Runs evs x) : ∀ s ∈ evs, Silent s := by
  obtain ⟨closed, es, rfl, untouched⟩ :=
    runs_close_only (P := (· ≠ .touch)) (fun _ _ => nofun) (fun _ _ => nofun) (fun _ _ => nofun) h
  simpa [Silent, reports] using untouched

@[simp] theorem finishes_effect (e : Effect ω Item) : finishes (.effect e : Step ω) = false := rfl

@[simp] theorem finishes_finished (obs : List (Observer ω)) (c : Cycle)
    : finishes (.call (.emit obs ⟨c, .cycle .finished⟩) () : Step ω) = true := rfl

@[simp] theorem finishes_started (obs : List (Observer ω)) (c : Cycle)
    : finishes (.call (.emit obs ⟨c, .cycle .started⟩) () : Step ω) = false := rfl

@[simp] theorem finishes_errored (obs : List (Observer ω)) (c : Cycle) (e : CycleError)
    : finishes (.call (.emit obs ⟨c, .cycle (.errored e)⟩) () : Step ω) = false := rfl

/-! The machine's counter moves with Finished: a turn that goes on advances it once for each
Finished it shows, and nothing else moves it. -/

/-- A turn that goes on keeps the machine's directories and advances its counter once for each
Finished it shows. -/
theorem turn_next_machine {st st' : LoopState} (h : (turn files inst cx obs st).Runs evs (.next st'))
    : st'.machine.pathset = st.machine.pathset
      ∧ st'.machine.cycle = st.machine.cycle + evs.countP finishes := by
  obtain ⟨j, w, rest, rfl, branch⟩ := runs_turn h
  rcases branch with ⟨r, x, -, -, -, stop⟩ | ⟨ch, v, -, -, -, hm⟩
    | ⟨c, t, o, -, -, -, hres⟩ | ⟨b, -, -, -, hback⟩
  · cases stop
  · have none := countP_finishes_silent fun s hs => (onMutant_quiet hm s hs).1
    rcases runs_onMutant hm with ⟨mu, -, -, hout⟩ | ⟨es, -, -, hout⟩ <;> cases hout <;>
      simp [none, Machine.setMutant]
  · obtain ⟨released, r, rest, -, rfl, branch⟩ := runs_onResult hres
    rcases branch with ⟨c', -, -, hout⟩ | ⟨-, first, more, res, rfl, settled, reported⟩
    · cases hout
    obtain ⟨es, rfl, -, -⟩ := runs_settle settled
    -- only a success shows Finished, and only it advances the counter
    rcases runs_report reported with ⟨p, es', t', -, -, rfl, hout⟩ | ⟨e, clock, armed, -, rfl, hout⟩ <;>
      cases hout <;> simp [List.countP_cons, Function.comp_def, Machine.advanceCycle]
  · obtain ⟨es, es', t, -, -, rfl, hout⟩ := runs_onBackoff hback
    cases hout
    have none := countP_finishes_silent fun s hs => (onBackoff_quiet hback s hs).1
    simp_all

/-- A turn that stops leaves the machine as it was and shows no Finished. -/
theorem turn_stop_machine {st st' : LoopState} {r : Except InstanceError Unit}
    (h : (turn files inst cx obs st).Runs evs (.stop r st'))
    : st'.machine = st.machine ∧ evs.countP finishes = 0 := by
  -- a stop only gives up the cycle in flight, in steps that are all effects
  obtain ⟨rfl, c, -, stops⟩ := runs_turn_stop h
  refine ⟨rfl, ?_⟩
  rcases stops with ⟨es, rfl, -⟩ | ⟨j, w, es, rep, -, rfl⟩ <;> simp [List.countP_map, Function.comp_def]

/-- Over a run of the loop the counter advances once for each Finished, by `loop_moves`. -/
theorem loop_counts {fuel : Nat} {st : LoopState} {x : Except InstanceError Unit × LoopState}
    (h : (loop files inst cx obs fuel st).Runs evs x)
    : x.2.machine.cycle = st.machine.cycle + evs.countP finishes := by
  obtain ⟨n, counted, final⟩ := @loop_moves ω files inst cx obs Nat
    (fun n evs n' => n' = n + evs.countP finishes)
    (fun moved moved' => by simp [moved, moved', List.countP_append, Nat.add_assoc])
    (fun _ => True) (fun st => st.machine.cycle) (fun n x => x.2.machine.cycle = n)
    (fun _ _ => trivial)
    (fun _ turned => (turn_next_machine turned).2)
    (fun {st _ _ _} _ turned => ⟨st.machine.cycle, by simp [(turn_stop_machine turned).2],
      by simp [(turn_stop_machine turned).1]⟩)
    (fun {st _ _ _} _ halted => by
      obtain ⟨es, -, -, rfl⟩ := runs_halt halted
      refine ⟨st.machine.cycle, ?_, rfl⟩
      simp [countP_finishes_silent (halt_silent halted)])
    fuel st evs x trivial h
  rw [final, counted]

/-- Taking the first mutant changes neither the counter nor the directories. -/
theorem firstMutant_machine {m m' : Machine} {mutants mutants' : Option Nat}
    (h : (firstMutant inst cx obs m mutants).Runs evs (.ok (m', mutants')))
    : m'.cycle = m.cycle ∧ m'.pathset = m.pathset := by
  rcases runs_firstMutant h with ⟨-, -, hx⟩ | ⟨ch, j, w, -, -, branch⟩
  · cases hx
    exact ⟨rfl, rfl⟩
  · rcases branch with ⟨r, -, -, -, hx⟩ | ⟨mu, -, -, hx⟩ | ⟨got, -, -, r, -, hx⟩ <;> cases hx <;>
      exact ⟨rfl, rfl⟩

theorem runLoop_counts {m : Machine} {mutants : Option Nat} {x : Except InstanceError Unit × Machine}
    (h : (runLoop files inst cx obs m mutants).Runs evs x)
    : x.2.cycle = m.cycle + evs.countP finishes := by
  obtain ⟨es, prepared, rest, rfl, -, branch⟩ := runs_runLoop h
  rcases branch with ⟨e, es', -, -, rfl, rfl⟩ | ⟨-, first, y, more, rfl, taken, branch⟩
  · simp [Function.comp_def]
  have unseen := countP_finishes_silent fun s hs => (firstMutant_quiet taken s hs).1
  rcases branch with ⟨r, es', rfl, -, rfl, rfl⟩
    | ⟨m', mutants', t, looped, r, st, es₀, es₁, es₂, rfl, -, looping, -, -, rfl, rfl⟩
  · simp [Function.comp_def, unseen]
  · have same := (firstMutant_machine taken).1
    have counted : st.machine.cycle = m'.cycle + looped.countP finishes := loop_counts looping
    simp [Function.comp_def, unseen, counted, same]

/-- The counter of the machine an instance leaves has advanced once for each Finished. -/
theorem script_counts {x : Except InstanceError Unit × Machine} (h : (script files inst cx).Runs evs x)
    : x.2.cycle = inst.machine.cycle + evs.countP finishes := by
  obtain ⟨es, started, rest, rfl, -, branch⟩ := runs_script h
  rcases branch with ⟨e, y, -, closing, rfl⟩ | ⟨s, looped, y, closing, z, -, rfl, looping, closed, rfl⟩
  · simp [Function.comp_def, countP_finishes_silent (close_silent closing)]
  · simp [Function.comp_def, runLoop_counts looping, countP_finishes_silent (close_silent closed)]

end Pieces

namespace Tidy

/-- Where an instance stands with a cycle's result and its scratch directory. -/
inductive Phase where
  /-- No cycle result is in hand. -/
  | idle
  /-- A task was seen to end; as a cycle it reads `r`. -/
  | arrived (r : Except CycleError Plan)
  /-- The context was then found running: `r` is the result to report. -/
  | examined (r : Except CycleError Plan)
  /-- After a success the files were touched once, taking tree `before` to tree `after`. -/
  | tidied (before after : Tree)

/-- Every phase but the one right after the touch that follows a success, where only the
report of that success may come. -/
def Phase.calm : Phase → Bool
  | .tidied _ _ => false
  | _ => true

/-- Read one step of an instance's run in the world. Finished is allowed only right after the
touch that follows a success, and only if that touch cleared the scratch directory; Errored
with a cleanup failure there only if the touch was a failed removal with that error; any other
Errored only as the cycle's own result, examined with no touch since the cycle ended. A touch
comes only before any result is in hand or right after a success is examined, and must keep
everything at or below the saved directory. -/
def see (files : Files ω) (p : Pathset) (cx : Context) : Phase → LivedStep ω → Option Phase
  | .tidied t t', .call (.emit _ ⟨_, .cycle .finished⟩) _ =>
    if p.cleared t t' then some .idle else none
  | .tidied t t', .call (.emit _ ⟨_, .cycle (.errored (.cleanup e))⟩) _ =>
    if p.failedRemoval t t' e then some .idle else none
  | .tidied _ _, _ => none
  | .examined (.error e), .call (.emit _ ⟨_, .cycle (.errored e')⟩) _ =>
    if e' = e then some .idle else none
  | _, .call (.emit _ ⟨_, .cycle .finished⟩) _ => none
  | _, .call (.emit _ ⟨_, .cycle (.errored _)⟩) _ => none
  | ph, .call _ _ => some ph
  | .idle, .own (.touched w w') =>
    if p.keepsSaved (files.get w) (files.get w') then some .idle else none
  | .examined (.ok _), .own (.touched w w') =>
    if p.keepsSaved (files.get w) (files.get w') then some (.tidied (files.get w) (files.get w'))
    else none
  | _, .own (.touched _ _) => none
  | _, .own (.effect (.await _ _ (.joined o))) => some (.arrived (cycleResult o))
  | .arrived r, .own (.effect (.order (.err cx') rep)) =>
    if cx' = cx then some (if rep.asEnded = none then .examined r else .idle)
    else some (.arrived r)
  | ph, .own (.effect _) => some ph

/- Finished with no cleanup just before it is refused, whatever the world. -/
example : see Files.alone ⟨⟨"/out"⟩⟩ .background .idle
    (.call (.emit [] ⟨⟨0, ⟨"m"⟩, 0⟩, .cycle .finished⟩) ()) = none := rfl

variable {files : Files ω} {p : Pathset} {cx : Context}

/-! The readings of a result's report, one per phase that can take it. -/

theorem see_examined_errored {e e' : CycleError} {o : List (Observer ω)} {c : Cycle} :
    see files p cx (.examined (.error e)) (.call (.emit o ⟨c, .cycle (.errored e')⟩) ()) =
      if e' = e then some .idle else none := rfl

theorem see_examined_touched {q : Plan} {w w' : ω} :
    see files p cx (.examined (.ok q)) (.own (.touched w w')) =
      if p.keepsSaved (files.get w) (files.get w') then some (.tidied (files.get w) (files.get w'))
      else none := rfl

theorem see_tidied_finished {t t' : Tree} {o : List (Observer ω)} {c : Cycle} :
    see files p cx (.tidied t t') (.call (.emit o ⟨c, .cycle .finished⟩) ()) =
      if p.cleared t t' then some .idle else none := rfl

theorem see_tidied_cleanup {t t' : Tree} {e : IoError} {o : List (Observer ω)} {c : Cycle} :
    see files p cx (.tidied t t') (.call (.emit o ⟨c, .cycle (.errored (.cleanup e))⟩) ()) =
      if p.failedRemoval t t' e then some .idle else none := rfl

/-- The calm phases: all but the one right after a success was tidied. -/
theorem Phase.calm_cases {ph : Phase} (calm : ph.calm = true) :
    ph = .idle ∨ (∃ r, ph = .arrived r) ∨ (∃ e, ph = .examined (.error e)) ∨
      ∃ q, ph = .examined (.ok q) := by
  rcases ph with _ | r | (e | q) | _
  · exact .inl rfl
  · exact .inr (.inl ⟨r, rfl⟩)
  · exact .inr (.inr (.inl ⟨e, rfl⟩))
  · exact .inr (.inr (.inr ⟨q, rfl⟩))
  · cases calm

/-- A step the watch lets by in a calm phase keeps it calm, and idle when it was idle. -/
theorem kept_of_see {ph : Phase} {l : LivedStep ω} {Q : Prop} (calm : ph.calm = true)
    (h : see files p cx ph l = some ph) :
    ∃ ph', see files p cx ph l = some ph' ∧ ph'.calm = true ∧ (ph = .idle → Q → ph' = .idle) :=
  ⟨ph, h, calm, fun idle _ => idle⟩

/-- A silent step leaves a calm watch calm; from idle it stays idle unless it sees a task
end. -/
theorem see_silent {ph : Phase} {s : Step ω} (calm : ph.calm = true) (silent : Silent s)
    : ∃ ph', see files p cx ph (Routine.Lived.ofEvent s) = some ph' ∧ ph'.calm = true
      ∧ (ph = .idle → (∀ ws j o, s ≠ .effect (.await ws j (.joined o))) → ph' = .idle) := by
  obtain ⟨untouched, unreported⟩ := silent
  -- in each calm phase the watch reads a step by its shape alone, so each case is by `rfl`
  rcases s with e | ⟨c, b⟩
  · rcases e with _ | ⟨o, r⟩ | ⟨body, t⟩ | ⟨ws, j, w⟩
    · exact absurd rfl untouched
    · -- an order moves the watch only when it asks the context after a task was seen to end
      rcases Phase.calm_cases calm with rfl | ⟨r', rfl⟩ | ⟨_, rfl⟩ | ⟨_, rfl⟩
      · exact kept_of_see calm rfl
      · cases o
        case err cx' =>
          by_cases same : cx' = cx
          · by_cases ended : r.asEnded = none
            · exact ⟨.examined r', by simp [see, same, ended], rfl, by simp⟩
            · exact ⟨.idle, by simp [see, same, ended], rfl, by simp⟩
          · exact ⟨.arrived r', by simp [see, same], rfl, by simp⟩
        all_goals exact kept_of_see calm rfl
      · exact kept_of_see calm rfl
      · exact kept_of_see calm rfl
    · refine kept_of_see calm ?_
      rcases Phase.calm_cases calm with rfl | ⟨_, rfl⟩ | ⟨_, rfl⟩ | ⟨_, rfl⟩ <;> rfl
    · cases w
      case joined o =>
        have ended : see files p cx ph (Routine.Lived.ofEvent (.effect (.await ws j (.joined o))))
            = some (.arrived (cycleResult o)) := by
          rcases Phase.calm_cases calm with rfl | ⟨_, rfl⟩ | ⟨_, rfl⟩ | ⟨_, rfl⟩ <;> rfl
        exact ⟨_, ended, rfl, fun _ unjoined => absurd rfl (unjoined ws j o)⟩
      all_goals
        refine kept_of_see calm ?_
        rcases Phase.calm_cases calm with rfl | ⟨_, rfl⟩ | ⟨_, rfl⟩ | ⟨_, rfl⟩ <;> rfl
  · refine kept_of_see calm ?_
    rcases c with ⟨obs, ⟨cyc, ev⟩⟩ | stages
    · rcases ev with (_ | _ | _) | _ | _ | _ | _ | _ | _
      case cycle.finished | cycle.errored => cases unreported
      all_goals
        rcases Phase.calm_cases calm with rfl | ⟨_, rfl⟩ | ⟨_, rfl⟩ | ⟨_, rfl⟩ <;> rfl
    · rcases Phase.calm_cases calm with rfl | ⟨_, rfl⟩ | ⟨_, rfl⟩ | ⟨_, rfl⟩ <;> rfl

theorem see_quiet {s : Step ω} (quiet : Quiet s)
    : see files p cx .idle (Routine.Lived.ofEvent s) = some .idle := by
  obtain ⟨ph, step, -, idle⟩ := @see_silent _ files p cx .idle s rfl quiet.1
  rwa [idle rfl quiet.2] at step

theorem accepts_quiet {evs : List (Step ω)} (quiet : ∀ s ∈ evs, Quiet s)
    : Accepts (see files p cx) .idle (evs.map Routine.Lived.ofEvent) .idle := by
  refine Accepts.of_stays fun l hl => ?_
  obtain ⟨s, hs, rfl⟩ := List.mem_map.mp hl
  exact see_quiet (quiet s hs)

theorem accepts_silent {ph : Phase} {evs : List (Step ω)} (calm : ph.calm = true)
    (silent : ∀ s ∈ evs, Silent s)
    : ∃ ph', Accepts (see files p cx) ph (evs.map Routine.Lived.ofEvent) ph' ∧ ph'.calm = true := by
  induction evs generalizing ph with
  | nil => exact ⟨ph, by simp, calm⟩
  | cons s evs ih =>
    simp only [List.mem_cons, forall_eq_or_imp] at silent
    obtain ⟨ph', step, calm', -⟩ := @see_silent _ files p cx ph s calm silent.1
    obtain ⟨ph'', rest, calm''⟩ := ih calm' silent.2
    exact ⟨ph'', Accepts.cons_iff.mpr ⟨ph', step, rest⟩, calm''⟩

section Untouched

variable {α : Type} {r : Routine (Outcall ω) ω Item α} {ls : List (LivedStep ω)} {a : α}

/-- A stretch whose runs are quiet leaves an idle watch idle, in the world as out of it. -/
theorem accepts_lives_quiet (h : r.Lives ls a) (quiet : ∀ evs, r.Runs evs a → ∀ s ∈ evs, Quiet s)
    : Accepts (see files p cx) .idle ls .idle := by
  obtain ⟨evs, runs, rfl⟩ := h.untouched fun evs runs s hs => (quiet evs runs s hs).1.1
  exact accepts_quiet (quiet evs runs)

/-- A stretch whose runs are silent leaves a calm watch calm. -/
theorem accepts_lives_silent {ph : Phase} (calm : ph.calm = true) (h : r.Lives ls a)
    (silent : ∀ evs, r.Runs evs a → ∀ s ∈ evs, Silent s)
    : ∃ ph', Accepts (see files p cx) ph ls ph' ∧ ph'.calm = true := by
  obtain ⟨evs, runs, rfl⟩ := h.untouched fun evs runs s hs => (silent evs runs s hs).1
  exact accepts_silent calm (silent evs runs)

end Untouched

/-- Where a turn leaves the watch: back at idle when the loop goes on, calm when it stops. -/
def Rests : Turn → Phase → Prop
  | .next _, ph => ph = .idle
  | .stop _ _, ph => ph.calm = true

section Loop

variable {inst : Instance ω} {obs : List (Observer ω)}

theorem report_untouched {st : LoopState} {cycle : Cycle} {result : Except CycleError Plan}
    {out : Turn} {evs : List (Step ω)} (h : (report files inst cx obs st cycle result).Runs evs out)
    : ∀ s ∈ evs, s ≠ .effect .touch := by
  rcases runs_report h with ⟨_, es, _, _, retained, rfl, -⟩ | ⟨_, _, _, _, rfl, -⟩
  · -- Finished, then a launch, which is quiet
    intro s hs
    rcases List.mem_cons.mp hs with rfl | hs
    · simp
    · exact (quiet_effects_append (retain_quiet retained) (by simp [Quiet, Silent, reports]) s hs).1.1
  · simp

/-- Cleaning up after an examined result and reporting it: an error is reported as it is, with
no touch; a success touches the files once, keeping the saved directory, and is reported
finished only if that touch cleared the scratch directory, and otherwise as the removal's
failure. -/
theorem accepts_settle_report (lawful : files.Lawful) {m : Machine} {st : LoopState}
    {cycle : Cycle} {result res : Except CycleError Plan} {first : List (LivedStep ω)}
    {evs : List (Step ω)} {out : Turn} (settled : (settle files m result).Lives first res)
    (reported : (report files inst cx obs st cycle res).Runs evs out)
    : Accepts (see files m.pathset cx) (.examined result) (first ++ evs.map Routine.Lived.ofEvent)
        .idle := by
  cases result with
  | error e =>
    obtain ⟨rfl, rfl⟩ := Routine.lives_pure_iff.mp settled
    rcases runs_report reported with ⟨_, _, _, hp, -⟩ | ⟨e', clock, armed, he, rfl, -⟩
    · cases hp
    · cases he
      -- the error is reported as it is, and the back-off armed after it is let by
      have shown : see files m.pathset cx (.examined (.error e))
          (.call (.emit obs ⟨cycle, .cycle (.errored e)⟩) ()) = some .idle := by
        rw [see_examined_errored, if_pos rfl]
      exact Accepts.cons_iff.mpr ⟨.idle, shown, rfl⟩
  | ok plan =>
    simp only [settle, Routine.bind_eq, Routine.lift_bind, Routine.lives_run_iff] at settled
    obtain ⟨es, rest, cleaned, rfl, removal, after⟩ := settled
    obtain ⟨w, w', rfl, keeps, clearedIf, failedIf⟩ := Files.lives_cleanupScratch lawful removal
    -- the removal waits for the files, then its one touch keeps the saved directory
    have waited : see files m.pathset cx (.examined (.ok plan))
        (.own (.effect (.await [.file] 0 .ready))) = some (.examined (.ok plan)) := rfl
    have touched : see files m.pathset cx (.examined (.ok plan)) (.own (.touched w w')) =
        some (.tidied (files.get w) (files.get w')) := by
      rw [see_examined_touched, if_pos keeps]
    rcases cleaned with e | ⟨⟩
    · obtain ⟨rfl, rfl⟩ := Routine.lives_pure_iff.mp after
      rcases runs_report reported with ⟨_, _, _, hp, -⟩ | ⟨e', clock, armed, he, rfl, -⟩
      · cases hp
      · cases he
        have failed : see files m.pathset cx (.tidied (files.get w) (files.get w'))
            (.call (.emit obs ⟨cycle, .cycle (.errored (.cleanup e))⟩) ()) = some .idle := by
          rw [see_tidied_cleanup, if_pos (failedIf e rfl)]
        exact Accepts.cons_iff.mpr ⟨_, waited, Accepts.cons_iff.mpr ⟨_, touched,
          Accepts.cons_iff.mpr ⟨.idle, failed, rfl⟩⟩⟩
    · obtain ⟨rfl, rfl⟩ := Routine.lives_pure_iff.mp after
      rcases runs_report reported with ⟨_, es, t, hp, retained, rfl, -⟩ | ⟨_, _, _, he, -⟩
      · have cleared : see files m.pathset cx (.tidied (files.get w) (files.get w'))
            (.call (.emit obs ⟨cycle, .cycle .finished⟩) ()) = some .idle := by
          rw [see_tidied_finished, if_pos (clearedIf rfl)]
        -- the next launch is quiet
        exact Accepts.cons_iff.mpr ⟨_, waited, Accepts.cons_iff.mpr ⟨_, touched,
          Accepts.cons_iff.mpr ⟨.idle, cleared, accepts_quiet (quiet_effects_append
            (retain_quiet retained) (by simp [Quiet, Silent, reports]))⟩⟩⟩
      · cases he

/-- The cycle branch in the world: the context is checked; a discarded result stops the loop
with no touch, and a kept one is cleaned up after and reported. -/
theorem accepts_onResult (lawful : files.Lawful) {st : LoopState} {o : Joined Item}
    {ls : List (LivedStep ω)} {out : Turn} (h : (onResult files inst cx obs st (.joined o)).Lives ls out)
    : ∃ ph, Accepts (see files st.machine.pathset cx) (.arrived (cycleResult o)) ls ph
      ∧ Rests out ph := by
  simp only [onResult, Routine.bind_eq, Routine.lift_bind, Routine.lives_run_iff] at h
  obtain ⟨es₀, rest, _, rfl, letGo, es, rest, ended, rfl, asked, h⟩ := h
  -- letting go of the cycle's senders leaves the watch where it is
  obtain ⟨es₀, released, rfl⟩ := letGo.untouched (release_only (fun _ _ => by rintro ⟨⟩) obs)
  have kept : Accepts (see files st.machine.pathset cx) (.arrived (cycleResult o))
      ((es₀.map .effect).map .own) (.arrived (cycleResult o)) := by
    refine Accepts.of_stays fun l hl => ?_
    obtain ⟨e, he, rfl⟩ := List.mem_map.mp (List.map_map ▸ hl)
    obtain ⟨ch, r, rfl⟩ := release_drops released e he
    rfl
  suffices later : ∃ ph, Accepts (see files st.machine.pathset cx) (.arrived (cycleResult o))
      (es.map .own ++ rest) ph ∧ Rests out ph by
    obtain ⟨ph, accepted, rests⟩ := later
    exact ⟨ph, kept.append accepted, rests⟩
  obtain ⟨es, ran, rfl⟩ := asked.untouched (.bind (.ask fun _ => by simp) fun _ => .pure _)
  obtain ⟨rep, rfl, rfl⟩ := Proc.runs_err_iff.mp ran
  split at h
  · -- discarded: the watch is examining the result or idle again
    obtain ⟨rfl, rfl⟩ := Routine.lives_pure_iff.mp h
    refine ⟨if rep.asEnded = none then .examined (cycleResult o) else .idle, by simp [see], ?_⟩
    simp only [Rests]
    split <;> rfl
  · rename_i kept
    obtain ⟨running, -⟩ := discardReason_eq_none.mp kept
    obtain ⟨first, more, res, rfl, settled, reported⟩ := Routine.lives_bind_iff.mp h
    obtain ⟨evs, runs, rfl⟩ := reported.untouched fun _ => report_untouched
    have checked : see files st.machine.pathset cx (.arrived (cycleResult o))
        (.own (.effect (.order (.err cx) rep))) = some (.examined (cycleResult o)) := by
      simp [see, running]
    have accepted := Accepts.cons_iff.mpr ⟨_, checked, accepts_settle_report lawful settled runs⟩
    refine ⟨.idle, by simpa using accepted, ?_⟩
    rcases runs_report runs with ⟨_, _, _, _, _, _, rfl⟩ | ⟨_, _, _, _, _, rfl⟩ <;> rfl

/-- One turn in the world, from idle: the loop goes on only with the watch idle again, and
stops with it calm. -/
theorem accepts_turn (lawful : files.Lawful) {st : LoopState} {ls : List (LivedStep ω)}
    {out : Turn} (h : (turn files inst cx obs st).Lives ls out)
    : ∃ ph, Accepts (see files st.machine.pathset cx) .idle ls ph ∧ Rests out ph := by
  simp only [turn, Routine.bind_eq, Routine.lift_bind, Routine.lives_run_iff] at h
  obtain ⟨es, rest, x, rfl, selected, h⟩ := h
  obtain ⟨es, ran, rfl⟩ := selected.untouched (.await (fun _ _ _ => by simp) fun _ _ => .pure _)
  obtain ⟨j, w, ends, rfl, rfl⟩ := Proc.runs_select_iff.mp ran
  rcases loopWaits_ends ends with ⟨r, rfl, rfl⟩ | ⟨ch, v, rfl, -, rfl⟩ | ⟨c, t, o, rfl, -, rfl⟩
    | ⟨b, rfl, -, rfl⟩
  · -- the context ended: the loop halts, seeing at most the cycle in flight end
    obtain ⟨first, more, y, rfl, halted, done⟩ := Routine.lives_bind_iff.mp h
    obtain ⟨rfl, rfl⟩ := Routine.lives_pure_iff.mp done
    obtain ⟨ph, accepted, calm⟩ :=
      accepts_lives_silent (rfl : Phase.idle.calm = true) halted fun _ => halt_silent
    exact ⟨ph, by simpa using Accepts.cons_iff.mpr ⟨_, see_quiet (s := .effect _) (by simp),
      accepted⟩, calm⟩
  · refine ⟨.idle, Accepts.cons_iff.mpr ⟨_, see_quiet (s := .effect _) (by simp),
      accepts_lives_quiet h fun _ => onMutant_quiet⟩, ?_⟩
    rcases runs_onMutant h.runs with ⟨_, _, _, rfl⟩ | ⟨_, _, _, rfl⟩ <;> rfl
  · obtain ⟨ph, accepted, rests⟩ := accepts_onResult lawful h
    have joined : see files st.machine.pathset cx .idle
        (.own (.effect (.await (loopWaits cx st) 2 (.joined o)))) = some (.arrived (cycleResult o)) :=
      by simp [see]
    exact ⟨ph, Accepts.cons_iff.mpr ⟨_, joined, accepted⟩, rests⟩
  · refine ⟨.idle, Accepts.cons_iff.mpr ⟨_, see_quiet (s := .effect _) (by simp),
      accepts_lives_quiet h fun _ => onBackoff_quiet⟩, ?_⟩
    obtain ⟨_, _, _, _, _, _, rfl⟩ := runs_onBackoff h.runs
    rfl

/-- The loop in the world, from idle, leaves the watch calm, by induction on the fuel: each turn
that goes on returns it to idle and keeps the machine's directories. -/
theorem accepts_loop (lawful : files.Lawful) {p : Pathset}
    : ∀ {fuel : Nat} {st : LoopState} {ls : List (LivedStep ω)}
      {x : Except InstanceError Unit × LoopState}, st.machine.pathset = p
      → (loop files inst cx obs fuel st).Lives ls x
      → ∃ ph, Accepts (see files p cx) .idle ls ph ∧ ph.calm = true := by
  intro fuel
  induction fuel with
  | zero =>
    rintro st ls x - h
    refine accepts_lives_silent (rfl : Phase.idle.calm = true) h fun evs runs => ?_
    obtain ⟨reason, rest, rfl, halted⟩ := runs_loop_zero runs
    simpa using halt_silent halted
  | succ fuel ih =>
    intro st ls x placed h
    simp only [loop, Routine.bind_eq] at h
    obtain ⟨first, rest, out, rfl, turned, after⟩ := Routine.lives_bind_iff.mp h
    obtain ⟨ph, accepted, rests⟩ := accepts_turn lawful turned
    rw [placed] at accepted
    cases out with
    | next st' =>
      obtain rfl : ph = .idle := rests
      obtain ⟨ph', more, calm⟩ := ih ((turn_next_machine turned.runs).1.trans placed) after
      exact ⟨ph', accepted.append more, calm⟩
    | stop r st' =>
      obtain ⟨rfl, rfl⟩ := Routine.lives_pure_iff.mp after
      exact ⟨ph, by simpa using accepted, rests⟩

/-- Preparing the saved directories only waits for the files and touches them keeping every
entry. -/
theorem accepts_prepareSaved (lawful : files.Lawful) {p q : Pathset} {es : List (Lived ω Item)}
    {r : Except IoError Unit} (h : (files.prepareSaved q).Lives es r)
    : Accepts (see files p cx) .idle (es.map .own) .idle := by
  refine Accepts.of_stays fun l hl => ?_
  obtain ⟨step, mem, rfl⟩ := List.mem_map.mp hl
  rcases Files.createDirs_steps lawful h step mem with rfl | ⟨w, w', rfl, keeps⟩
  · simp [see]
  · simp [see, Pathset.keepsSaved_of_subset keeps]

/-- The frame around the loop in the world leaves the watch calm: the preparation keeps it idle,
the first mutant and the first launch are quiet, and what follows the loop is silent. -/
theorem accepts_runLoop (lawful : files.Lawful) {m : Machine} {mutants : Option Nat}
    {ls : List (LivedStep ω)} {x : Except InstanceError Unit × Machine}
    (h : (runLoop files inst cx obs m mutants).Lives ls x)
    : ∃ ph, Accepts (see files m.pathset cx) .idle ls ph ∧ ph.calm = true := by
  simp only [runLoop, Routine.bind_eq, Routine.lift_bind, Routine.lives_run_iff] at h
  obtain ⟨es, rest, prepared, rfl, prep, h⟩ := h
  have made : Accepts (see files m.pathset cx) .idle (es.map .own) .idle :=
    accepts_prepareSaved lawful prep
  -- letting go of the stream, when the loop is not reached
  have dropping : ∀ {b : Except InstanceError Unit × Machine} {evs : List (Step ω)},
      (Routine.run (dropStream mutants) fun _ => Routine.pure b : Routine (Outcall ω) ω Item _).Runs
        evs x → ∀ s ∈ evs, Quiet s := by
    intro b evs runs
    simp only [Routine.runs_run_iff, Routine.runs_pure_iff] at runs
    obtain ⟨es', _, _, rfl, dropped, rfl, -⟩ := runs
    simpa using dropStream_quiet dropped
  rcases prepared with e | ⟨⟩
  · exact ⟨.idle, made.append (accepts_lives_quiet h fun _ => dropping), rfl⟩
  obtain ⟨first, more, y, rfl, taken, h⟩ := Routine.lives_bind_iff.mp h
  have start : Accepts (see files m.pathset cx) .idle first .idle :=
    accepts_lives_quiet taken fun _ => firstMutant_quiet
  rcases y with r | ⟨m', mutants'⟩
  · exact ⟨.idle, made.append (start.append (accepts_lives_quiet h fun _ => dropping)), rfl⟩
  obtain ⟨launched, more, running, rfl, hl, h⟩ := Routine.lives_bind_iff.mp h
  have launching : Accepts (see files m.pathset cx) .idle launched .idle :=
    accepts_lives_quiet hl fun _ => launch_quiet
  obtain ⟨looped, tail, ⟨r, st⟩, rfl, hloop, h⟩ := Routine.lives_bind_iff.mp h
  obtain ⟨ph, looping, calm⟩ := accepts_loop lawful (firstMutant_machine taken.runs).2 hloop
  obtain ⟨ph', after, calm'⟩ := accepts_lives_silent calm h fun evs runs => by
    simp only [Routine.runs_run_iff, Routine.pure_eq, Routine.runs_pure_iff] at runs
    obtain ⟨es₁, _, _, rfl, drop₁, es₂, _, _, rfl, drop₂, rfl, -⟩ := runs
    have quiet₁ := dropBackoff_quiet drop₁
    have quiet₂ := dropStream_quiet drop₂
    simp only [List.append_nil, List.mem_append, List.mem_map]
    rintro s (⟨e, he, rfl⟩ | ⟨e, he, rfl⟩)
    · exact (quiet₁ e he).1
    · exact (quiet₂ e he).1
  exact ⟨ph', made.append (start.append (launching.append (looping.append after))), calm'⟩

/-- The whole instance in the world leaves the watch calm: starting the automator is quiet, and
closing is silent. -/
theorem accepts_script (lawful : files.Lawful) {inst : Instance ω} {ls : List (LivedStep ω)}
    {x : Except InstanceError Unit × Machine} (h : (script files inst cx).Lives ls x)
    : ∃ ph, Accepts (see files inst.machine.pathset cx) .idle ls ph ∧ ph.calm = true := by
  simp only [script, Routine.bind_eq] at h
  obtain ⟨first, rest, started, rfl, hs, h⟩ := Routine.lives_bind_iff.mp h
  have starting : Accepts (see files inst.machine.pathset cx) .idle first .idle :=
    accepts_lives_quiet hs fun evs runs => by
      obtain ⟨es, rfl, ran⟩ := Routine.runs_lift_iff.mp runs
      simpa using startMutation_quiet es _ ran
  rcases started with e | s
  · obtain ⟨closing, more, y, rfl, hc, done⟩ := Routine.lives_bind_iff.mp h
    obtain ⟨rfl, rfl⟩ := Routine.lives_pure_iff.mp done
    obtain ⟨ph, closed, calm⟩ :=
      accepts_lives_silent (rfl : Phase.idle.calm = true) hc fun _ => close_silent
    exact ⟨ph, starting.append (by simpa using closed), calm⟩
  · obtain ⟨looped, more, ⟨r, m⟩, rfl, hl, h⟩ := Routine.lives_bind_iff.mp h
    obtain ⟨closing, more, z, rfl, hc, done⟩ := Routine.lives_bind_iff.mp h
    obtain ⟨rfl, rfl⟩ := Routine.lives_pure_iff.mp done
    obtain ⟨ph, looping, calm⟩ := accepts_runLoop lawful hl
    obtain ⟨ph', closed, calm'⟩ := accepts_lives_silent calm hc fun _ => close_silent
    exact ⟨ph', starting.append (looping.append (by simpa using closed)), calm'⟩

end Loop

end Tidy

/-- An instance keeps its directories in every run in the world, when reading the files back
gives what was set: the watch `Tidy.see` takes every step and ends calm, so the run never ends
right after a success's cleanup with its report still owed; and the machine it leaves has
advanced its counter once for each Finished it showed. -/
theorem directories_kept {files : Files ω} {inst : Instance ω} {cx : Context}
    {ls : List (LivedStep ω)} {x : Except InstanceError Unit × Machine} (lawful : files.Lawful)
    (h : (script files inst cx).Lives ls x)
    : (∃ ph, Accepts (Tidy.see files inst.machine.pathset cx) .idle ls ph ∧ ph.calm = true)
      ∧ x.2.cycle = inst.machine.cycle + (ls.map Routine.Lived.erase).countP finishes :=
  ⟨Tidy.accepts_script lawful h, script_counts h.runs⟩

/-- In the kill-only run in the world, cycle 0's scratch is removed before Finished and the
saved directories are made and kept; the machine's counter advances once, for that Finished. -/
theorem directories_kept_killingPair
    : Files.alone.Lawful
      ∧ (script Files.alone killingPair .background).Lives killingPairLived
        (.error (.cancelled .cancelled), killingPairLast)
      ∧ (∃ ph, Accepts (Tidy.see Files.alone killingPair.machine.pathset .background) .idle
          killingPairLived ph ∧ ph.calm = true)
      ∧ killingPairLast.cycle = killingPair.machine.cycle
        + (killingPairLived.map Routine.Lived.erase).countP finishes :=
  ⟨Files.alone_lawful, lives_script_killingPair,
    directories_kept Files.alone_lawful lives_script_killingPair⟩

end Instance

end Campaign
