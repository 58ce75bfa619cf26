import RowFlow.Proofs.Exclusion
import RowFlow.Proofs.Logging
import RowFlow.Proofs.Plan
import RowFlow.Proofs.Registration

/-!
# Commands to a service

What is asked of a service, in any order, and the runs that come of it: a command may start a run,
and it may make runs that have been started (`Service.started`, `Service.made`). The worker makes
the runs that have been submitted, one at a time and in their order, between commands or when the
service is waited for.

Each command makes at most one run id, and saves the records of the runs that it starts or makes
and no others (`Service.Saves`).
-/

namespace RowFlow

/-! ## Commands -/

/-- What is asked of a service, or done by its worker. -/
inductive Command where
  | register (key text : String)
  | registerFile (key path : String)
  | run (key : String) (params : Option (List Row))
  | submit (key : String) (params : Option (List Row))
  /-- The worker makes the first of the runs that wait. -/
  | work
  | waitIdle
  | fire (name : String)
  | pass (nanos : Nat)

/-- A run that has been started. -/
structure Started where
  runId : String
  key : String
  params : Option (List Row)
  /-- The run was submitted, to be made later. -/
  later : Bool

/-- A run that has been made: how the engine ended it, and what is told of a panic on its task. -/
structure Made extends Started where
  outcome : Except (Failure EngineError) Unit
  panicText : String → String

/-- What the service answers for the run. -/
def Made.answer (run : Made) : Except EngineError Unit :=
  Service.result run.panicText run.outcome

namespace Submission

/-- The run that waits. -/
def started (submission : Submission) : Started :=
  ⟨submission.record.runId, submission.record.pipeline, submission.params, true⟩

end Submission

namespace Service

variable {σ τ : Type}

section
variable [RunStore τ]

/-- The worker makes the first of the runs that wait. -/
def work : Operation σ τ Unit := do
  match (← get).waiting with
  | [] => return ()
  | submission :: rest =>
    modify fun s => { s with waiting := rest }
    let _ ← runRecorded submission.record submission.params

def execute : Command → Operation σ τ Unit
  | .register key text => do let _ ← register key text
  | .registerFile key path => do let _ ← registerFile key path
  | .run key params => do let _ ← run key params
  | .submit key params => do let _ ← submit key params
  | .work => work
  | .waitIdle => waitIdle
  | .fire name => do let _ ← fire name
  | .pass nanos => pass nanos

/-- The service after some commands. -/
def through (s : Service σ τ) (commands : List Command) : Service σ τ :=
  commands.foldl (fun s command => ((execute command).run s).2) s

/-- The runs that wait are made one after another. -/
def makeAll (waiting : List Submission) : Operation σ τ Unit :=
  waiting.forM fun submission => do
    let _ ← runRecorded submission.record submission.params

/-- What some commands come to, each in the state that it finds. -/
def along (f : Service σ τ → Command → List α) (s : Service σ τ) : List Command → List α
  | [] => []
  | command :: rest => f s command ++ along f ((execute command).run s).2 rest

end

/-- Whether the lock of a schedule is free, or there is none to take. It is tried at the second
reading of the clock. -/
def isFree (s : Service σ τ) (schedule : Schedule) : Bool :=
  match schedule.lock, s.locks with
  | some lock, some locks => !locks.isHeld lock.name (s.clock + 1)
  | _, _ => true

/-- The schedule that a firing makes a run of. -/
def due (s : Service σ τ) (name : String) : Option (String × Schedule) :=
  (s.scheduler.bind (·.find? name)).filter fun (_, schedule) => s.isFree schedule

/-- The run that is started next. -/
def next (s : Service σ τ) (key : String) (params : Option (List Row)) (later : Bool) : Started :=
  ⟨s.runId s.runs, key, params, later⟩

/-- The run that a command starts, if any. -/
def starts (s : Service σ τ) : Command → Option Started
  | .run key params => some (s.next key params false)
  | .submit key params => some (s.next key params true)
  | .fire name => (s.due name).map fun (key, schedule) => s.next key (some schedule.params) false
  | _ => none

/-- How the engine ends a run that is made now. -/
def outcome (s : Service σ τ) (run : Started) : Except (Failure EngineError) Unit :=
  ((perform (s.engine.run run.runId run.key run.params)).run s).1

/-- The run as it is made now, on a new task. -/
def make (s : Service σ τ) (run : Started) : Made :=
  ⟨run, s.outcome run, s.panicText (s.tasks + 1)⟩

section
variable [RunStore τ]

/-- The runs that are made when those that wait are made one after another. -/
def inTurn (s : Service σ τ) : List Submission → List Made
  | [] => []
  | submission :: rest =>
    s.make submission.started ::
      inTurn ((runRecorded submission.record submission.params).run s).2 rest

/-- The runs that a command makes. -/
def makes (s : Service σ τ) : Command → List Made
  | .work => (s.waiting.take 1).map fun submission => s.make submission.started
  | .waitIdle => inTurn { s with waiting := [] } s.waiting
  | .submit _ _ => []
  | command => (s.starts command).toList.map s.make

/-- Going through commands can be taken up again anywhere between two of them. -/
theorem through_append (s : Service σ τ) (before after : List Command) :
    s.through (before ++ after) = (s.through before).through after :=
  List.foldl_append ..

/-- The runs that some commands start. -/
def started (s : Service σ τ) (commands : List Command) : List Started :=
  along (fun s command => (s.starts command).toList) s commands

/-- The runs that are made in the course of some commands. -/
def made (s : Service σ τ) (commands : List Command) : List Made := along makes s commands

/-- The records that are saved in the course of some commands, in order. -/
def saves (s : Service σ τ) (commands : List Command) : List RunRecord :=
  (s.logged.through commands).history.saves

theorem along_append (f : Service σ τ → Command → List α) (s : Service σ τ)
    (before after : List Command) :
    along f s (before ++ after) = along f s before ++ along f (s.through before) after := by
  induction before generalizing s with
  | nil => rfl
  | cons command rest ih => exact (congrArg _ (ih _)).trans (List.append_assoc ..).symm

end

/-! ## Commands and the log -/

section
variable [RunStore τ]

theorem unlogs_work : Unlogs (work : Operation σ (Logged τ) Unit) work := by
  refine .get_bind fun s => ?_
  rw [show s.unlogged.waiting = s.waiting from rfl]
  cases s.waiting with
  | nil => exact .pure ()
  | cons submission rest =>
    exact .bind ⟨fun _ => rfl⟩ fun _ => .bind (.runRecorded ..) fun _ => .pure ()

/-- No command looks at the log. -/
theorem unlogs_execute (command : Command) :
    Unlogs (execute command : Operation σ (Logged τ) Unit) (execute command) := by
  cases command with
  | register key text => exact .bind (.register key text) fun _ => .pure ()
  | registerFile key path => exact .bind (.registerFile key path) fun _ => .pure ()
  | run key params => exact .bind (.run key params) fun _ => .pure ()
  | submit key params => exact .bind (.submit key params) fun _ => .pure ()
  | work => exact unlogs_work
  | waitIdle => exact .waitIdle
  | fire name => exact .bind (.fire name) fun _ => .pure ()
  | pass nanos => exact ⟨fun _ => rfl⟩

theorem execute_unlogged (command : Command) (s : Service σ (Logged τ)) :
    ((execute command).run s.unlogged).2 = ((execute command).run s).2.unlogged :=
  congrArg Prod.snd ((unlogs_execute command).same s)

/-- A service that keeps a log goes through commands as one that keeps none. -/
theorem through_unlogged (commands : List Command) (s : Service σ (Logged τ)) :
    s.unlogged.through commands = (s.through commands).unlogged := by
  induction commands generalizing s with
  | nil => rfl
  | cons command rest ih =>
    exact (congrArg (through · rest) (execute_unlogged command s)).trans (ih _)

theorem along_unlogged {f : Service σ (Logged τ) → Command → List α}
    {f' : Service σ τ → Command → List α} (h : ∀ s command, f' s.unlogged command = f s command)
    (commands : List Command) (s : Service σ (Logged τ)) :
    along f' s.unlogged commands = along f s commands := by
  induction commands generalizing s with
  | nil => rfl
  | cons command rest ih => rw [along, along, h, execute_unlogged, ih]

theorem inTurn_unlogged (waiting : List Submission) (s : Service σ (Logged τ)) :
    s.unlogged.inTurn waiting = s.inTurn waiting := by
  induction waiting generalizing s with
  | nil => rfl
  | cons submission rest ih =>
    have hrun := (Unlogs.runRecorded submission.record submission.params).same s
    rw [inTurn, inTurn, hrun, ih]
    rfl

theorem starts_unlogged (s : Service σ (Logged τ)) (command : Command) :
    s.unlogged.starts command = s.starts command := by
  cases command <;> rfl

theorem makes_unlogged (s : Service σ (Logged τ)) (command : Command) :
    s.unlogged.makes command = s.makes command := by
  cases command with
  | waitIdle => exact inTurn_unlogged s.waiting { s with waiting := [] }
  | _ => rfl

end

end Service

/-! ## What a command saves -/

/-- How a record ends with a result. -/
def RunRecord.settle (record : RunRecord) (now : Time) : Except EngineError Unit → RunRecord
  | .ok () => record.complete now
  | .error e => record.fail now e.message

theorem RunRecord.settle_runId (record : RunRecord) (now : Time)
    (result : Except EngineError Unit) : (record.settle now result).runId = record.runId := by
  cases result <;> rfl

/-- The record of a run at first. -/
def Started.record (run : Started) (submitted : Time) : RunRecord :=
  { runId := run.runId, pipeline := run.key, submitted }

/-- The records that are saved for a run: at first only if it is submitted, then when it begins and
when it ends. -/
def Made.records (run : Made) (submitted begun ended : Time) : List RunRecord :=
  let pending := run.record submitted
  let running := pending.start begun
  (if run.later then [pending] else []) ++
    [running, running.settle ended run.answer]

namespace Service

variable {σ τ : Type} [RunStore τ]

/-- From one state to the other so many run ids have been made and these records saved, and the
runs that wait are the same. -/
structure Saves (s : Service σ τ) (ids : Nat) (records : List RunRecord) (t : Service σ τ) :
    Prop where
  history : t.history = saveAll s.history records
  waiting : t.waiting = s.waiting
  runs : t.runs = s.runs + ids
  runId : t.runId = s.runId

namespace Saves

variable {s t u : Service σ τ}

theorem refl (s : Service σ τ) : Saves s 0 [] s := ⟨rfl, rfl, rfl, rfl⟩

theorem trans (h : Saves s ids records t) (h' : Saves t ids' records' u) :
    Saves s (ids + ids') (records ++ records') u where
  history := by rw [h'.history, h.history, saveAll, saveAll, saveAll, List.foldl_append]
  waiting := h'.waiting.trans h.waiting
  runs := by rw [h'.runs, h.runs, Nat.add_assoc]
  runId := h'.runId.trans h.runId

end Saves

theorem settle_run (record : RunRecord) (result : Except EngineError Unit) (s : Service σ τ) :
    (settle record result).run s = ((), { s with
      history := RunStore.save s.history (record.settle (s.origin.later s.clock) result)
      clock := s.clock + 1 }) := by
  cases result <;> rfl

/-- What is recorded of a run, and what the run does to the service. -/
theorem runRecorded_run (record : RunRecord) (params : Option (List Row)) (s : Service σ τ) :
    let done := (perform (s.engine.run record.runId record.pipeline params)).run s
    ∃ begun ended, ((runRecorded record params).run s).2 = { done.2 with
      history := saveAll s.history
        [record.start begun,
          (record.start begun).settle ended (result (s.panicText (s.tasks + 1)) done.1)]
      clock := s.clock + 2
      tasks := s.tasks + 1 } := by
  let running := record.start (s.origin.later s.clock)
  let s₁ : Service σ τ :=
    { s with
      history := RunStore.save s.history running
      clock := s.clock + 1
      tasks := s.tasks + 1 }
  let run := s.engine.run record.runId record.pipeline params
  have htransport := transport_perform record.runId record.pipeline params s₁
  have hrun : ((runRecorded record params).run s).2 =
      ((settle running (result (s.panicText (s.tasks + 1)) ((perform run).run s₁).1)).run
        ((perform run).run s₁).2).2 := by
    change ((settle running ((transport record.runId record.pipeline params).run s₁).1).run
      ((transport record.runId record.pipeline params).run s₁).2).2 = _
    rw [htransport]
  rw [hrun, settle_run]
  exact ⟨_, _, rfl⟩

/-- A recorded run saves its record twice: when it begins, and when it has ended. -/
theorem runRecorded_saves (record : RunRecord) (params : Option (List Row)) (later : Bool)
    (s : Service σ τ) :
    ∃ begun ended, Saves s 0
      [record.start begun, (record.start begun).settle ended
        (s.make ⟨record.runId, record.pipeline, params, later⟩).answer]
      ((runRecorded record params).run s).2 := by
  obtain ⟨begun, ended, hrun⟩ := runRecorded_run record params s
  rw [hrun]
  exact ⟨begun, ended, rfl, rfl, rfl, rfl⟩

theorem runRecorded_waiting (record : RunRecord) (params : Option (List Row))
    (s : Service σ τ) : ((runRecorded record params).run s).2.waiting = s.waiting := by
  obtain ⟨begun, ended, hsaves⟩ := runRecorded_saves record params false s
  exact hsaves.waiting

/-- The runs that are made do not submit others. -/
theorem makeAll_waiting (waiting : List Submission) (s : Service σ τ) :
    ((makeAll waiting).run s).2.waiting = s.waiting := by
  induction waiting generalizing s with
  | nil => rfl
  | cons submission rest ih => exact (ih _).trans (runRecorded_waiting ..)

theorem waitIdle_waiting (s : Service σ τ) : ((execute .waitIdle).run s).2.waiting = [] :=
  makeAll_waiting s.waiting { s with waiting := [] }

theorem newRecord_saves (key : String) (s : Service σ τ) :
    Saves s 1 [] ((newRecord key).run s).2 :=
  ⟨rfl, rfl, rfl, rfl⟩

/-- A run that is not submitted has no record before it begins. It takes one run id. -/
theorem run_saves (key : String) (params : Option (List Row)) (s : Service σ τ) :
    ∃ submitted begun ended, Saves s 1
      ((s.make (s.next key params false)).records submitted begun ended)
      ((run key params).run s).2 := by
  obtain ⟨begun, ended, hsaves⟩ := runRecorded_saves ((newRecord key).run s).1 params false
    ((newRecord key).run s).2
  exact ⟨_, begun, ended, (newRecord_saves key s).trans hsaves⟩

theorem runScheduled_saves (key : String) (schedule : Schedule) (s : Service σ τ) :
    ∃ submitted begun ended, Saves s 1
      ((s.make (s.next key (some schedule.params) false)).records submitted begun ended)
      ((runScheduled key schedule).run s).2 := by
  obtain ⟨begun, ended, hsaves⟩ := runRecorded_saves ((newRecord key).run s).1
    (some schedule.params) false ((newRecord key).run s).2
  exact ⟨_, begun, ended, (newRecord_saves key s).trans hsaves⟩

theorem startScheduled_saves (key : String) {schedule : Schedule} {s : Service σ τ}
    (h : s.isFree schedule = true) :
    ∃ submitted begun ended, Saves s 1
      ((s.make (s.next key (some schedule.params) false)).records submitted begun ended)
      ((startScheduled key schedule).run s).2 := by
  rcases hlock : schedule.lock with _ | lock
  · have hrun : (startScheduled key schedule).run s = (runScheduled key schedule).run s := by
      simp [startScheduled, hlock]
    rw [hrun]
    exact runScheduled_saves key schedule s
  · rcases hlocks : s.locks with _ | locks
    · have hrun : (startScheduled key schedule).run s = (runScheduled key schedule).run s := by
        simp [startScheduled, hlock, hlocks]
      rw [hrun]
      exact runScheduled_saves key schedule s
    · have hheld : locks.isHeld lock.name (s.clock + 1) = false := by
        simpa [isFree, hlock, hlocks] using h
      have htry : locks.tryLock lock.name (s.clock + 1) (Locks.seconds lock.atMost) =
          (true, locks.hold lock.name (s.clock + 1 + Locks.seconds lock.atMost)) := by
        simp [Locks.tryLock, hheld]
      obtain ⟨submitted, begun, ended, hsaves⟩ := runScheduled_saves key schedule
        { s with
          locks := some (locks.hold lock.name (s.clock + 1 + Locks.seconds lock.atMost))
          clock := s.clock + 2 }
      rw [startScheduled_granted hlock hlocks htry]
      exact ⟨submitted, begun, ended, hsaves.history, hsaves.waiting, hsaves.runs, hsaves.runId⟩

/-- A schedule whose lock is taken is left out, and no record tells of it. -/
theorem startScheduled_saves_nothing (key : String) {schedule : Schedule} {s : Service σ τ}
    (h : s.isFree schedule = false) : Saves s 0 [] ((startScheduled key schedule).run s).2 := by
  rcases hlock : schedule.lock with _ | lock
  · simp [isFree, hlock] at h
  · rcases hlocks : s.locks with _ | locks
    · simp [isFree, hlock, hlocks] at h
    · have hheld : locks.isHeld lock.name (s.clock + 1) = true := by
        simpa [isFree, hlock, hlocks] using h
      have htry : locks.tryLock lock.name (s.clock + 1) (Locks.seconds lock.atMost) =
          (false, locks) := by
        simp [Locks.tryLock, hheld]
      rw [startScheduled_refused hlock hlocks htry]
      exact ⟨rfl, rfl, rfl, rfl⟩

theorem fire_run (name : String) (s : Service σ τ) :
    ((fire name).run s).2 =
      match s.scheduler.bind (·.find? name) with
      | none => s
      | some (key, schedule) => ((startScheduled key schedule).run s).2 := by
  change ((match s.scheduler.bind (·.find? name) with
    | none => pure false
    | some (key, schedule) => do
      startScheduled key schedule
      return true : Operation σ τ Bool).run s).2 = _
  rcases s.scheduler.bind (·.find? name) with _ | ⟨key, schedule⟩ <;> rfl

/-- A worker makes the run that has waited longest, or does nothing if none is waiting. -/
theorem work_run (s : Service σ τ) :
    (work.run s).2 =
      match s.waiting with
      | [] => s
      | submission :: rest =>
        ((runRecorded submission.record submission.params).run { s with waiting := rest }).2 := by
  change ((match s.waiting with
    | [] => pure ()
    | submission :: rest => do
      modify fun s => { s with waiting := rest }
      let _ ← runRecorded submission.record submission.params
      return () : Operation σ τ Unit).run s).2 = _
  rcases s.waiting with _ | ⟨submission, rest⟩ <;> rfl

/-- Registering a definition, or being refused, has nothing to do with runs. -/
theorem registerIn_saves (folder : Option String) (key text : String) (s : Service σ τ) :
    Saves s 0 [] ((registerIn folder key text).run s).2 := by
  cases hcheck : check s.engine.registry key text with
  | error e =>
    rw [registerIn_refused hcheck]
    exact .refl s
  | ok c =>
    obtain ⟨answer, world, journal, hscripts, -⟩ :=
      perform_loadScripts s.engine folder c.pipeline.scripts s
    rw [registerIn_checked hcheck, hscripts]
    rcases answer with (e | message) | _
    · exact ⟨rfl, rfl, rfl, rfl⟩
    · exact ⟨rfl, rfl, rfl, rfl⟩
    · obtain ⟨answer, last, hschedules, -⟩ := scheduleAll_hands key
        (activeSchedules c.pipeline) ((install c).run { s with world, journal }).2
      dsimp only
      rw [hschedules]
      exact ⟨rfl, rfl, rfl, rfl⟩

theorem registerFile_saves (key path : String) (s : Service σ τ) :
    Saves s 0 [] ((registerFile key path).run s).2 := by
  have hload : Saves s 0 [] ((onDisk (Disk.load path)).run s).2 := ⟨rfl, rfl, rfl, rfl⟩
  rw [registerFile, StateT.run_bind]
  rcases hanswer : (onDisk (Disk.load path)).run s with ⟨detail | text, s₁⟩
  · rw [hanswer] at hload
    exact hload
  · rw [hanswer] at hload
    exact hload.trans (registerIn_saves (Path.parent? path) key text s₁)

end Service

/-! ## What commands keep -/

namespace Service

variable {σ τ : Type}

/-- Wherever the operation is made, what has held of the service still holds. -/
structure Keeps (P : Service σ τ → Prop) (op : Operation σ τ α) : Prop where
  keeps : ∀ s, P s → P (op.run s).2

namespace Keeps
variable {P : Service σ τ → Prop}

theorem pure (a : α) : Keeps P (Pure.pure a : Operation σ τ α) := ⟨fun _ hs => hs⟩

theorem bind {op : Operation σ τ α} {f : α → Operation σ τ β} (h : Keeps P op)
    (h' : ∀ a, Keeps P (f a)) : Keeps P (op >>= f) :=
  ⟨fun s hs => (h' _).keeps _ (h.keeps s hs)⟩

end Keeps

/-- What holds of a service is a matter of its engine, its scheduler and its journal, and recorded
runs keep it. -/
structure Lasting [RunStore τ] (P : Service σ τ → Prop) : Prop where
  rest : ∀ {s t : Service σ τ}, t.engine = s.engine → t.scheduler = s.scheduler →
    t.journal = s.journal → P s → P t
  runs : ∀ record params, Keeps P (runRecorded record params)

namespace Lasting
variable [RunStore τ] {P : Service σ τ → Prop} (h : Lasting P)
include h

/-- The operation works on other parts of the service. -/
theorem aside {op : Operation σ τ α} (hengine : ∀ s, (op.run s).2.engine = s.engine)
    (hscheduler : ∀ s, (op.run s).2.scheduler = s.scheduler)
    (hjournal : ∀ s, (op.run s).2.journal = s.journal) : Keeps P op :=
  ⟨fun s hs => h.rest (hengine s) (hscheduler s) (hjournal s) hs⟩

theorem newRecord (key : String) : Keeps P (newRecord key) :=
  h.aside (fun _ => rfl) (fun _ => rfl) fun _ => rfl

theorem run (key : String) (params : Option (List Row)) : Keeps P (run key params) :=
  .bind (h.newRecord key) fun record => .bind (h.runs record params) fun _ => .pure _

theorem startScheduled (key : String) (schedule : Schedule) :
    Keeps P (startScheduled key schedule) := by
  have hrun : Keeps P (runScheduled key schedule) :=
    .bind (h.newRecord key) fun record => .bind (h.runs record _) fun _ => .pure ()
  refine .bind (h.aside (fun _ => rfl) (fun _ => rfl) fun _ => rfl) fun s => ?_
  split
  · refine .bind (h.aside (fun _ => rfl) (fun _ => rfl) fun _ => rfl) fun started => ?_
    refine .bind (h.aside (fun _ => rfl) (fun _ => rfl) fun _ => rfl) fun free => ?_
    split
    · exact .bind hrun fun _ => h.aside (fun _ => rfl) (fun _ => rfl) fun _ => rfl
    · exact .pure ()
  · exact hrun

/-- What lasts through one recorded run lasts through all that are waiting. -/
theorem makeAll (waiting : List Submission) : Keeps P (makeAll waiting) := by
  induction waiting with
  | nil => exact .pure ()
  | cons submission rest ih =>
    exact .bind (.bind (h.runs _ _) fun _ => .pure ()) fun _ => ih

theorem work : Keeps P work := by
  refine .bind (h.aside (fun _ => rfl) (fun _ => rfl) fun _ => rfl) fun s => ?_
  split
  · exact .pure ()
  · refine .bind (h.aside (fun _ => rfl) (fun _ => rfl) fun _ => rfl) fun _ => ?_
    exact .bind (h.runs _ _) fun _ => .pure ()

theorem waitIdle : Keeps P waitIdle := by
  refine .bind (h.aside (fun _ => rfl) (fun _ => rfl) fun _ => rfl) fun s => ?_
  exact .bind (h.aside (fun _ => rfl) (fun _ => rfl) fun _ => rfl) fun _ => h.makeAll s.waiting

theorem fire (name : String) : Keeps P (fire name) := by
  refine .bind (h.aside (fun _ => rfl) (fun _ => rfl) fun _ => rfl) fun s => ?_
  split
  · exact .pure false
  · exact .bind (h.startScheduled _ _) fun _ => .pure true

/-- One command, if registrations keep what holds as well. -/
theorem execute (hregister : ∀ folder key text, Keeps P (registerIn folder key text))
    (command : Command) : Keeps P (execute command) := by
  cases command with
  | register key text =>
    have hregisters : Keeps P (register key text) :=
      .bind (h.aside (fun _ => rfl) (fun _ => rfl) fun _ => rfl) fun s => hregister s.folder key text
    exact .bind hregisters fun _ => .pure ()
  | registerFile key path =>
    have hregisters : Keeps P (registerFile key path) := by
      refine .bind (h.aside (fun _ => rfl) (fun _ => rfl) fun _ => rfl) fun loaded => ?_
      split
      · exact .pure _
      · exact hregister _ key _
    exact .bind hregisters fun _ => .pure ()
  | run key params => exact .bind (h.run key params) fun _ => .pure ()
  | submit => exact h.aside (fun _ => rfl) (fun _ => rfl) fun _ => rfl
  | work => exact h.work
  | waitIdle => exact h.waitIdle
  | fire name => exact .bind (h.fire name) fun _ => .pure ()
  | pass => exact h.aside (fun _ => rfl) (fun _ => rfl) fun _ => rfl

/-- Any number of commands. -/
theorem through (hregister : ∀ folder key text, Keeps P (registerIn folder key text))
    (commands : List Command) (hs : P s) : P (s.through commands) := by
  induction commands generalizing s with
  | nil => exact hs
  | cons command rest ih => exact ih ((h.execute hregister command).keeps s hs)

end Lasting

end Service

end RowFlow
