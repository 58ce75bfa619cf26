import Mathlib.Data.List.Forall2
import RowFlow.Proofs.Stores

/-!
# Queued runs

Runs that are submitted and then waited for do what they do when they are made directly, one after
another (`Service.queued_alike`). Until then the service that has submitted them is behind the one
that makes them: it has the same engine and the same world once the other has made the runs that it
has made itself, and the records differ for the runs that wait only (`Service.Behind`). With every
command the other service can catch up (`Service.CatchesUp`).

Both take the ids of the runs from the same supply in the order in which the runs are asked for. The
tasks are not the same, since a run that is submitted waits on a task of its own. So when a run
panics the two records may tell of it in different words, but of the same panic
(`Made.Same.alike`).
-/

namespace RowFlow

/-- The record tells of a panic, in the words of the runtime. -/
def RunRecord.Interrupted (r : RunRecord) : Prop :=
  ∃ text, r.error = some (EngineError.interrupted text).message

/-- Records of the same run that tell the same, but for the times and for the words in which the
runtime tells of a panic. -/
structure RunRecord.Alike (r r' : RunRecord) : Prop where
  runId : r.runId = r'.runId
  pipeline : r.pipeline = r'.pipeline
  status : r.status = r'.status
  started : r.started.isSome = r'.started.isSome
  completed : r.completed.isSome = r'.completed.isSome
  error : r.error = r'.error ∨ r.Interrupted ∧ r'.Interrupted

theorem RunRecord.Alike.refl (r : RunRecord) : r.Alike r := ⟨rfl, rfl, rfl, rfl, rfl, .inl rfl⟩

/-! ## The same run on different tasks -/

namespace Made

variable {run run' : Made} {r r' : RunRecord}

/-- The run has ended with a panic. -/
def Panicked (run : Made) : Prop := ∃ message, run.outcome = .error (.panic message)

/-- The same run with the same outcome, made at once or later, and on whatever task. -/
structure Same (run run' : Made) : Prop where
  runId : run.runId = run'.runId
  key : run.key = run'.key
  params : run.params = run'.params
  outcome : run.outcome = run'.outcome

/-- Unless it has panicked, a run is answered in the same way. -/
theorem Same.answer (h : run.Same run') : run.answer = run'.answer ∨ run.Panicked := by
  rw [Made.answer, Made.answer, ← h.outcome]
  rcases houtcome : run.outcome with (e | message) | _
  · exact .inl rfl
  · exact .inr ⟨message, houtcome⟩
  · exact .inl rfl

/-- What a record tells of a run is settled by the answer. -/
theorem Recorded.told (hr : run.Recorded r) (hr' : run'.Recorded r')
    (hanswer : run.answer = run'.answer) : r.status = r'.status ∧ r.error = r'.error := by
  cases hrun : run.answer with
  | ok =>
    obtain ⟨hstatus, herror⟩ := hr.ok.mpr (run.answer_ok_iff.mp hrun)
    obtain ⟨hstatus', herror'⟩ := hr'.ok.mpr (run'.answer_ok_iff.mp (hanswer.symm.trans hrun))
    exact ⟨hstatus.trans hstatus'.symm, herror.trans herror'.symm⟩
  | error e =>
    obtain ⟨hstatus, herror⟩ := hr.failed e hrun
    obtain ⟨hstatus', herror'⟩ := hr'.failed e (hanswer.symm.trans hrun)
    exact ⟨hstatus.trans hstatus'.symm, herror.trans herror'.symm⟩

theorem Recorded.of_panicked (hr : run.Recorded r) (h : run.Panicked) :
    r.status = .failed ∧ r.Interrupted := by
  obtain ⟨message, houtcome⟩ := h
  have hanswer : run.answer = .error (.interrupted (run.panicText message)) := by
    rw [answer, houtcome]
    rfl
  obtain ⟨hstatus, herror⟩ := hr.failed _ hanswer
  exact ⟨hstatus, _, herror⟩

/-- Records that tell how the same run has ended are alike. -/
theorem Same.alike (h : run.Same run') (hr : run.Recorded r) (hr' : run'.Recorded r') :
    r.Alike r' := by
  obtain ⟨hstatus, herror⟩ : r.status = r'.status ∧
      (r.error = r'.error ∨ r.Interrupted ∧ r'.Interrupted) := by
    rcases h.answer with hanswer | hpanicked
    · obtain ⟨hstatus, herror⟩ := hr.told hr' hanswer
      exact ⟨hstatus, .inl herror⟩
    · have hpanicked' : run'.Panicked := by
        rw [Panicked, ← h.outcome]
        exact hpanicked
      obtain ⟨hstatus, htold⟩ := hr.of_panicked hpanicked
      obtain ⟨hstatus', htold'⟩ := hr'.of_panicked hpanicked'
      exact ⟨hstatus.trans hstatus'.symm, .inr ⟨htold, htold'⟩⟩
  exact {
    runId := hr.runId.trans (h.runId.trans hr'.runId.symm)
    pipeline := hr.pipeline.trans (h.key.trans hr'.pipeline.symm)
    status := hstatus
    started := hr.started.trans hr'.started.symm
    completed := hr.completed.trans hr'.completed.symm
    error := herror }

end Made

/-! ## Requests -/

/-- The key and the parameters that a run is asked for with. -/
abbrev Request := String × Option (List Row)

def Request.submit (request : Request) : Command := .submit request.1 request.2

def Request.run (request : Request) : Command := .run request.1 request.2

/-- The runs that a command asks for, to be made later. -/
def Command.asked : Command → List Request
  | .submit key params => [(key, params)]
  | _ => []

/-- The command submits a run, or lets time pass or runs that wait be made. -/
def Command.defers : Command → Bool
  | .submit _ _ | .work | .waitIdle | .pass _ => true
  | _ => false

def Submission.request (submission : Submission) : Request :=
  (submission.record.pipeline, submission.params)

namespace Service

variable {σ τ : Type}

/-! ## Making a run -/

/-- A run does the same in the same world. -/
theorem perform_alike {s s' : Service σ τ} (run : Run σ ε α) (hworld : s.world = s'.world)
    (hjournal : s.journal = s'.journal) :
    ((perform run).run s).1 = ((perform run).run s').1 ∧
      ((perform run).run s).2.world = ((perform run).run s').2.world ∧
      ((perform run).run s).2.journal = ((perform run).run s').2.journal := by
  have hlive : ({ context := .empty, world := s.world, journal := s.journal } : Live σ) =
      { context := .empty, world := s'.world, journal := s'.journal } := by
    rw [hworld, hjournal]
  exact ⟨congrArg (fun live => (run live).1) hlive, congrArg (fun live => (run live).2.world) hlive,
    congrArg (fun live => (run live).2.journal) hlive⟩

variable [RunStore τ]

theorem made_append (s : Service σ τ) (before after : List Command) :
    s.made (before ++ after) = s.made before ++ (s.through before).made after :=
  along_append ..

/-- The runs that are made directly are those that are asked for. -/
theorem made_runs (s : Service σ τ) (requests : List Request) :
    (s.made (requests.map Request.run)).map (fun run => (run.key, run.params)) = requests := by
  induction requests generalizing s with
  | nil => rfl
  | cons request rest ih => exact congrArg _ (ih _)

/-- From one state to the other this run has been made, with a record that tells how it has ended,
and so many run ids. -/
structure Ran (s : Service σ τ) (ids : Nat) (run : Started) (record : RunRecord)
    (t : Service σ τ) : Prop where
  recorded : (s.make run).Recorded record
  load? : ∀ runId, RunStore.load? t.history runId =
    if run.runId = runId then some record else RunStore.load? s.history runId
  engine : t.engine = s.engine
  world : t.world =
    ((perform (s.engine.run run.runId run.key run.params)).run s).2.world
  journal : t.journal =
    ((perform (s.engine.run run.runId run.key run.params)).run s).2.journal
  runs : t.runs = s.runs + ids
  runId : t.runId = s.runId

section
variable [LawfulRunStore τ]

theorem runRecorded_ran (run : Started) (submitted : Time) (s : Service σ τ) :
    ∃ record,
      Ran s 0 run record ((runRecorded (run.record submitted) run.params).run s).2 := by
  obtain ⟨begun, ended, hrun⟩ := runRecorded_run (run.record submitted) run.params s
  rw [hrun]
  refine ⟨_, (s.make run).recorded submitted begun ended, fun runId => ?_, rfl, rfl, rfl, rfl, rfl⟩
  change RunStore.load? (RunStore.save (RunStore.save s.history _) _) runId = _
  rw [LawfulRunStore.load?_save, LawfulRunStore.load?_save, RunRecord.settle_runId]
  change (if run.runId = runId then _ else if run.runId = runId then _ else _) = _
  split <;> rfl

theorem run_ran (request : Request) (s : Service σ τ) :
    ∃ record, Ran s 1 (s.next request.1 request.2 false) record
      ((execute request.run).run s).2 := by
  obtain ⟨record, hran⟩ := runRecorded_ran (s.next request.1 request.2 false)
    (s.origin.later s.clock) ((newRecord request.1).run s).2
  exact ⟨record, hran.recorded, hran.load?, hran.engine, hran.world, hran.journal, hran.runs,
    hran.runId⟩

end

/-! ## Two services -/

/-- A run that both services have made, with the records that tell how it has ended. -/
structure Settled (queued direct : Service σ τ) (run run' : Made) (r r' : RunRecord) : Prop where
  same : run.Same run'
  numbered : ∃ n < direct.runs, run'.runId = direct.runId n
  found : RunStore.load? queued.history run.runId = some r
  found' : RunStore.load? direct.history run'.runId = some r'
  recorded : run.Recorded r
  recorded' : run'.Recorded r'

/-- One service has submitted the runs that wait, and is like the other but for them. -/
structure Behind (waiting : List Submission) (made made' : List Made)
    (queued direct : Service σ τ) : Prop where
  engine : queued.engine = direct.engine
  world : queued.world = direct.world
  journal : queued.journal = direct.journal
  runId : queued.runId = direct.runId
  injective : Function.Injective direct.runId
  runs : queued.runs = direct.runs + waiting.length
  numbered : waiting.map (·.record.runId) =
    (List.range' direct.runs waiting.length).map direct.runId
  fresh : ∀ submission ∈ waiting, ∃ submitted,
    submission.record = submission.started.record submitted
  history : ∀ runId, runId ∉ waiting.map (·.record.runId) →
    Option.Rel RunRecord.Alike (RunStore.load? queued.history runId)
      (RunStore.load? direct.history runId)
  settled : List.Forall₂ (fun run run' => ∃ r r', Settled queued direct run run' r r') made made'

variable {queued direct : Service σ τ} {waiting rest : List Submission} {made made' : List Made}
  {run run' : Made} {r r' : RunRecord}

/-- What is recorded of a run stays as long as the records of the first runs do. -/
theorem Settled.stays {later later' : Service σ τ} (h : Settled queued direct run run' r r')
    (hruns : direct.runs ≤ later'.runs) (hrunId : later'.runId = direct.runId)
    (hkept : ∀ n < direct.runs,
      RunStore.load? later.history (direct.runId n) =
          RunStore.load? queued.history (direct.runId n) ∧
        RunStore.load? later'.history (direct.runId n) =
          RunStore.load? direct.history (direct.runId n)) :
    Settled later later' run run' r r' := by
  obtain ⟨n, hlt, hn⟩ := h.numbered
  obtain ⟨hqueued, hdirect⟩ := hkept n hlt
  refine ⟨h.same, ⟨n, Nat.lt_of_lt_of_le hlt hruns, hrunId ▸ hn⟩, ?_, ?_, h.recorded, h.recorded'⟩
  · rw [h.same.runId, hn, hqueued, ← hn, ← h.same.runId]
    exact h.found
  · rw [hn, hdirect, ← hn]
    exact h.found'

namespace Behind

theorem refl (s : Service σ τ) (hids : Function.Injective s.runId) : Behind [] [] [] s s where
  engine := rfl
  world := rfl
  journal := rfl
  runId := rfl
  injective := hids
  runs := rfl
  numbered := rfl
  fresh := nofun
  history runId _ := by
    cases RunStore.load? s.history runId with
    | none => exact .none
    | some record => exact .some (.refl record)
  settled := .nil

/-- The ids of the runs that wait are those that the other service makes next. -/
theorem runId_cons (h : Behind (submission :: rest) made made' queued direct) :
    submission.record.runId = direct.runId direct.runs ∧
      rest.map (·.record.runId) =
        (List.range' (direct.runs + 1) rest.length).map direct.runId :=
  List.cons_eq_cons.mp h.numbered

/-- The first run that waits does what the other service has it do now. -/
theorem perform_run (h : Behind (submission :: rest) made made' queued direct) :
    let waits := (perform (queued.engine.run submission.record.runId
      submission.record.pipeline submission.params)).run queued
    let now := (perform (direct.engine.run (direct.runId direct.runs)
      submission.record.pipeline submission.params)).run direct
    waits.1 = now.1 ∧ waits.2.world = now.2.world ∧ waits.2.journal = now.2.journal := by
  rw [h.engine, h.runId_cons.1]
  exact perform_alike _ h.world h.journal

theorem make_same (h : Behind (submission :: rest) made made' queued direct) :
    (queued.make submission.started).Same
      (direct.make (direct.next submission.record.pipeline submission.params false)) :=
  ⟨h.runId_cons.1, rfl, rfl, h.perform_run.1⟩

/-- It does not matter which runs the service has been asked for, nor what time it is. -/
theorem setAside (h : Behind waiting made made' queued direct) (rest : List Submission)
    (clock : Nat) : Behind waiting made made' { queued with waiting := rest, clock } direct where
  engine := h.engine
  world := h.world
  journal := h.journal
  runId := h.runId
  injective := h.injective
  runs := h.runs
  numbered := h.numbered
  fresh := h.fresh
  history := h.history
  settled := h.settled.imp fun _ _ ⟨r, r', hsettled⟩ =>
    ⟨r, r', hsettled.stays (Nat.le_refl _) rfl fun _ _ => ⟨rfl, rfl⟩⟩

/-- The first run that waits is made, and directly as well. -/
theorem make {later later' : Service σ τ}
    (h : Behind (submission :: rest) made made' queued direct)
    (hran : Ran queued 0 submission.started r later)
    (hran' : Ran direct 1 (direct.next submission.record.pipeline submission.params false) r'
      later') :
    Behind rest (made ++ [queued.make submission.started])
      (made' ++ [direct.make (direct.next submission.record.pipeline submission.params false)])
      later later' := by
  obtain ⟨hid, hrest⟩ := h.runId_cons
  obtain ⟨-, hworld, hjournal⟩ := h.perform_run
  have hsame := h.make_same
  have hload (runId : String) : RunStore.load? later.history runId =
      if direct.runId direct.runs = runId then some r else RunStore.load? queued.history runId := by
    rw [← hid]
    exact hran.load? runId
  have hload' (runId : String) : RunStore.load? later'.history runId =
      if direct.runId direct.runs = runId then some r' else RunStore.load? direct.history runId :=
    hran'.load? runId
  have hlast : Settled later later' (queued.make submission.started)
      (direct.make (direct.next submission.record.pipeline submission.params false)) r r' := {
    same := hsame
    numbered := ⟨direct.runs, hran'.runs ▸ Nat.lt_succ_self _, hran'.runId ▸ rfl⟩
    found := (hload _).trans (if_pos hid.symm)
    found' := (hload' _).trans (if_pos rfl)
    recorded := hran.recorded
    recorded' := hran'.recorded }
  refine {
    engine := hran.engine.trans (h.engine.trans hran'.engine.symm)
    world := hran.world.trans (hworld.trans hran'.world.symm)
    journal := hran.journal.trans (hjournal.trans hran'.journal.symm)
    runId := hran.runId.trans (h.runId.trans hran'.runId.symm)
    injective := hran'.runId ▸ h.injective
    runs := ?_
    numbered := by rw [hran'.runs, hran'.runId, hrest]
    fresh := fun other hother => h.fresh other (List.mem_cons_of_mem _ hother)
    history := fun runId hrunId => ?_
    settled := ?_ }
  · have hruns := h.runs
    rw [List.length_cons] at hruns
    rw [hran.runs, hran'.runs]
    omega
  · rw [hload, hload']
    by_cases hrun : direct.runId direct.runs = runId
    · rw [if_pos hrun, if_pos hrun]
      exact .some (hsame.alike hran.recorded hran'.recorded)
    · rw [if_neg hrun, if_neg hrun]
      refine h.history runId fun hmem => ?_
      rcases List.mem_cons.mp hmem with heq | hmem
      · exact hrun (hid.symm.trans heq.symm)
      · exact hrunId hmem
  · refine List.rel_append (h.settled.imp fun _ _ ⟨s, s', hsettled⟩ => ⟨s, s', ?_⟩)
      (.cons ⟨r, r', hlast⟩ .nil)
    refine hsettled.stays (hran'.runs ▸ Nat.le_succ _) hran'.runId fun n hlt => ?_
    have hother : direct.runId direct.runs ≠ direct.runId n :=
      fun heq => Nat.ne_of_gt hlt (h.injective heq)
    rw [hload, hload', if_neg hother, if_neg hother]
    exact ⟨rfl, rfl⟩

variable [LawfulRunStore τ]

/-- A run is submitted. -/
theorem submit (h : Behind queued.waiting made made' queued direct) (request : Request) :
    Behind ((execute request.submit).run queued).2.waiting made made'
      ((execute request.submit).run queued).2 direct := by
  let record := ((newRecord request.1).run queued).1
  have hwaiting : ((execute request.submit).run queued).2.waiting =
      queued.waiting ++ [⟨record, request.2⟩] := rfl
  have hnew : record.runId = direct.runId (direct.runs + queued.waiting.length) := by
    rw [← h.runs, ← h.runId]
    rfl
  have hload (runId : String) (hother : record.runId ≠ runId) :
      RunStore.load? ((execute request.submit).run queued).2.history runId =
        RunStore.load? queued.history runId :=
    (LawfulRunStore.load?_save ..).trans (if_neg hother)
  rw [hwaiting]
  refine {
    engine := h.engine
    world := h.world
    journal := h.journal
    runId := h.runId
    injective := h.injective
    runs := ?_
    numbered := ?_
    fresh := fun submission hsubmission => ?_
    history := fun runId hrunId => ?_
    settled := h.settled.imp fun _ _ ⟨r, r', hsettled⟩ => ⟨r, r', ?_⟩ }
  · rw [List.length_append, List.length_singleton, ← Nat.add_assoc, ← h.runs]
    rfl
  · rw [List.map_append, h.numbered, List.length_append, List.length_singleton,
      List.range'_concat, List.map_append, Nat.one_mul, List.map_singleton, List.map_singleton,
      hnew]
  · rcases List.mem_append.mp hsubmission with hmem | hmem
    · exact h.fresh submission hmem
    · cases List.mem_singleton.mp hmem
      exact ⟨_, rfl⟩
  · rw [List.map_append, List.mem_append, not_or] at hrunId
    rw [hload runId fun heq => hrunId.2 (List.mem_singleton.mpr heq.symm)]
    exact h.history runId hrunId.1
  · refine hsettled.stays (Nat.le_refl _) rfl fun n hlt => ⟨hload _ fun heq => ?_, rfl⟩
    have hsame := h.injective (hnew.symm.trans heq)
    omega

/-- The first runs that wait are made one after another, and directly as well. -/
theorem makeAll (h : Behind (waiting ++ rest) made made' queued direct) :
    Behind rest (made ++ queued.inTurn waiting)
      (made' ++ direct.made (waiting.map fun submission => submission.request.run))
      ((makeAll waiting).run queued).2
      (direct.through (waiting.map fun submission => submission.request.run)) := by
  induction waiting generalizing made made' queued direct with
  | nil =>
    change Behind rest (made ++ []) (made' ++ []) queued direct
    rw [List.append_nil, List.append_nil]
    exact h
  | cons submission waiting ih =>
    obtain ⟨submitted, hrecord⟩ := h.fresh submission List.mem_cons_self
    obtain ⟨r, hran⟩ := runRecorded_ran submission.started submitted queued
    obtain ⟨r', hran'⟩ := run_ran submission.request direct
    rw [← hrecord] at hran
    have hrest := ih (h.make hran hran')
    rw [List.append_assoc, List.append_assoc] at hrest
    exact hrest

end Behind

/-! ## Catching up -/

/-- From one state of the service to another, runs have been made and asked for; the other service
makes the same runs directly. -/
structure CatchesUp (queued direct after : Service σ τ) (before before' made : List Made)
    (asked requests : List Request) : Prop where
  behind : Behind after.waiting (before ++ made)
    (before' ++ direct.made (requests.map Request.run)) after
    (direct.through (requests.map Request.run))
  requests_append : requests ++ after.waiting.map Submission.request =
    queued.waiting.map Submission.request ++ asked

namespace CatchesUp

variable {after last : Service σ τ} {before before' more : List Made}
  {asked asked' requests requests' : List Request}

/-- No run is made. -/
theorem of_behind (h : Behind after.waiting before before' after direct)
    (hasked : after.waiting.map Submission.request =
      queued.waiting.map Submission.request ++ asked) :
    CatchesUp queued direct after before before' [] asked [] where
  behind := by
    rw [List.append_nil, List.map_nil, Service.made, along, List.append_nil]
    exact h
  requests_append := hasked

theorem refl (h : Behind queued.waiting before before' queued direct) :
    CatchesUp queued direct queued before before' [] [] [] :=
  of_behind h (List.append_nil _).symm

theorem trans (h : CatchesUp queued direct after before before' made asked requests)
    (h' : CatchesUp after (direct.through (requests.map Request.run)) last (before ++ made)
      (before' ++ direct.made (requests.map Request.run)) more asked' requests') :
    CatchesUp queued direct last before before' (made ++ more) (asked ++ asked')
      (requests ++ requests') where
  behind := by
    rw [List.map_append, through_append, made_append, ← List.append_assoc, ← List.append_assoc]
    exact h'.behind
  requests_append := by
    rw [List.append_assoc, h'.requests_append, ← List.append_assoc, h.requests_append,
      List.append_assoc]

variable [LawfulRunStore τ]

theorem work (h : Behind queued.waiting before before' queued direct) :
    ∃ requests, CatchesUp queued direct (work.run queued).2 before before' (queued.makes .work) []
      requests := by
  rw [work_run, makes]
  rcases hwaiting : queued.waiting with _ | ⟨submission, rest⟩
  · exact ⟨[], refl h⟩
  · rw [hwaiting] at h
    have hwaits : Behind ([submission] ++ rest) before before' { queued with waiting := rest }
        direct := h.setAside rest queued.clock
    have hrest : ((runRecorded submission.record submission.params).run
        { queued with waiting := rest }).2.waiting = rest := runRecorded_waiting ..
    refine ⟨[submission.request], ?_, ?_⟩
    · dsimp only
      rw [hrest]
      exact hwaits.makeAll
    · dsimp only
      rw [hrest, hwaiting]
      exact (List.append_nil _).symm

theorem waitIdle (h : Behind queued.waiting before before' queued direct) :
    CatchesUp queued direct ((execute .waitIdle).run queued).2 before before'
      (queued.makes .waitIdle) [] (queued.waiting.map Submission.request) := by
  have hwaits : Behind (queued.waiting ++ []) before before' { queued with waiting := [] }
      direct := by
    rw [List.append_nil]
    exact h.setAside [] queued.clock
  refine ⟨?_, ?_⟩
  · rw [waitIdle_waiting, List.map_map]
    exact hwaits.makeAll
  · rw [waitIdle_waiting]
    rfl

/-- The other service catches up with a command. -/
theorem execute (h : Behind queued.waiting before before' queued direct)
    (hdefers : command.defers) :
    ∃ requests, CatchesUp queued direct ((execute command).run queued).2 before before'
      (queued.makes command) command.asked requests := by
  cases command with
  | submit key params => exact ⟨[], of_behind (h.submit (key, params)) (List.map_append ..)⟩
  | work => exact work h
  | waitIdle => exact ⟨_, waitIdle h⟩
  | pass nanos =>
    exact ⟨[], of_behind (h.setAside queued.waiting (queued.clock + nanos))
      (List.append_nil _).symm⟩
  | _ => cases hdefers

/-- The other service catches up with any number of commands. -/
theorem through (h : Behind queued.waiting before before' queued direct) (commands : List Command)
    (hdefers : ∀ command ∈ commands, command.defers) :
    ∃ requests, CatchesUp queued direct (queued.through commands) before before'
      (queued.made commands) (commands.flatMap Command.asked) requests := by
  induction commands generalizing queued direct before before' with
  | nil => exact ⟨[], refl h⟩
  | cons command commands ih =>
    obtain ⟨first, hfirst⟩ := execute h (hdefers command List.mem_cons_self)
    obtain ⟨rest, hrest⟩ :=
      ih hfirst.behind fun other hother => hdefers other (List.mem_cons_of_mem _ hother)
    exact ⟨first ++ rest, hfirst.trans hrest⟩

end CatchesUp

/-- **Queued runs.** Runs that are submitted one after another and made by the worker, in between or
when the service is waited for, do to the world what they do when they are made directly in that
order, with the same calls in the same order. Each run that is asked for is made once, in its turn
and with the same outcome, whether the others fail or panic or not. The records that are left are
alike, and each run has one that tells how it has ended. The errors in the two are the same; only of
a panic the runtime may tell in other words, since it happens on another task. -/
theorem queued_alike [LawfulRunStore τ] {s : Service σ τ} (hidle : s.waiting = [])
    (hids : Function.Injective s.runId) (requests : List Request) {commands : List Command}
    (hdefers : ∀ command ∈ commands, command.defers)
    (hasked : commands.flatMap Command.asked = requests) :
    let all := commands ++ [.waitIdle]
    let runs := requests.map Request.run
    let queued := s.through all
    let direct := s.through runs
    queued.waiting = [] ∧ queued.world = direct.world ∧ queued.journal = direct.journal ∧
    (s.made runs).map (fun run => (run.key, run.params)) = requests ∧
    (∀ runId, Option.Rel RunRecord.Alike (RunStore.load? queued.history runId)
      (RunStore.load? direct.history runId)) ∧
    List.Forall₂ (fun run run' => ∃ record record',
      Settled queued direct run run' record record' ∧ record.Alike record' ∧
        (record.error = record'.error ∨ run.Panicked)) (s.made all) (s.made runs) := by
  intro all runs queued direct
  have hstart : Behind s.waiting [] [] s s := by
    rw [hidle]
    exact .refl s hids
  have hall : ∀ command ∈ all, command.defers := by
    intro command hcommand
    rcases List.mem_append.mp hcommand with hmem | hmem
    · exact hdefers command hmem
    · cases List.mem_singleton.mp hmem
      rfl
  obtain ⟨made, hbehind, hrequests⟩ := CatchesUp.through hstart all hall
  have hwaiting : (s.through all).waiting = [] := by
    rw [through_append]
    exact waitIdle_waiting _
  -- nothing waits, so what has been made is all that has been asked for
  have hmade : made = requests := by
    rw [hwaiting, hidle, List.flatMap_append, hasked] at hrequests
    simpa [Command.asked] using hrequests
  rw [hwaiting, hmade] at hbehind
  have halike (runId : String) : Option.Rel RunRecord.Alike (RunStore.load? queued.history runId)
      (RunStore.load? direct.history runId) := hbehind.history runId (List.not_mem_nil)
  refine ⟨hwaiting, hbehind.world, hbehind.journal, made_runs s requests, halike, ?_⟩
  refine hbehind.settled.imp fun run run' ⟨r, r', hsettled⟩ => ⟨r, r', hsettled, ?_, ?_⟩
  · exact hsettled.same.alike hsettled.recorded hsettled.recorded'
  · exact hsettled.same.answer.imp_left fun hanswer =>
      (hsettled.recorded.told hsettled.recorded' hanswer).2

/-- A pipeline that runs a component. -/
def sampleHooked (key component : String) : Pipeline where
  key
  flows := []
  pre := some { runnable := some component }
  post := none
  schedules := []
  scheduleEnabled := true
  paramsProvider := none
  components := []
  scripts := []

/-- A service with a pipeline that counts its runs and one that panics. -/
def sampleCounting : Service Nat MemoryStore where
  engine :=
    { pipelines :=
        [("count", sampleHooked "count" "count"), ("crash", sampleHooked "crash" "crash")]
      registry :=
        { globals :=
            [("count", .runnable fun site =>
              (.ok (), { site with world := { site.world with state := site.world.state + 1 } })),
              ("crash", .runnable fun site => (.error (.panic "crash"), site))] }
      scripts :=
        { load := fun _ => Access.fail (.unsupported "scripts")
          invoke := fun function _ => Access.fail (.unknownFunction function) } }
  history := RunStore.empty
  world := { state := 0 }
  runId := sampleIdle.runId
  panicText task message := s!"task {task} panicked with message {message}"

def sampleRequests : List Request :=
  [("count", none), ("crash", none), ("absent", none), ("count", none)]

/-- The worker makes the first run before the third is asked for. -/
def sampleDeferred : List Command :=
  [.submit "count" none, .submit "crash" none, .work, .pass 5, .submit "absent" none,
    .submit "count" none]

/-- The second run panics, on the sixth task if it has been submitted and on the second if not. -/
theorem queued_alike_counting :
    sampleCounting.waiting = [] ∧ Function.Injective sampleCounting.runId ∧
    (∀ command ∈ sampleDeferred, command.defers) ∧
    sampleDeferred.flatMap Command.asked = sampleRequests ∧
    let queued := sampleCounting.through (sampleDeferred ++ [.waitIdle])
    let direct := sampleCounting.through (sampleRequests.map Request.run)
    queued.world.state = 2 ∧
    (sampleCounting.made (sampleDeferred ++ [.waitIdle])).map (fun run => (run.key, run.params)) =
      sampleRequests ∧
    ∃ record record', RunStore.load? queued.history "r" = some record ∧
      RunStore.load? direct.history "r" = some record' ∧ record.Alike record' ∧
      record.pipeline = "crash" ∧ record.status = .failed ∧
      record.error = some "run did not finish: task 6 panicked with message crash" ∧
      record'.error = some "run did not finish: task 2 panicked with message crash" := by
  have hdefers : ∀ command ∈ sampleDeferred, command.defers := by decide
  refine ⟨rfl, sampleIdle_runId, hdefers, rfl, ?_⟩
  intro queued direct
  obtain ⟨-, hworld, -, hrequests, halike, hpairs⟩ := queued_alike (s := sampleCounting) rfl
    sampleIdle_runId sampleRequests hdefers rfl
  have hcount : direct.world.state = 2 := by decide +kernel
  have hmade : (sampleCounting.made (sampleDeferred ++ [.waitIdle])).map
      (fun run => (run.key, run.params)) = sampleRequests := by
    rw [← hrequests]
    refine List.forall₂_eq_eq_eq ▸ List.forall₂_map_left_iff.mpr (List.forall₂_map_right_iff.mpr ?_)
    exact hpairs.imp fun _ _ ⟨_, _, hsettled, _⟩ =>
      Prod.ext hsettled.same.key hsettled.same.params
  have htold : (RunStore.load? queued.history "r").map (·.error) =
      some (some "run did not finish: task 6 panicked with message crash") := by
    decide +kernel
  have htold' : (RunStore.load? direct.history "r").map (fun r => (r.pipeline, r.status, r.error)) =
      some ("crash", .failed, some "run did not finish: task 2 panicked with message crash") := by
    decide +kernel
  obtain ⟨record, hload, herror⟩ := Option.map_eq_some_iff.mp htold
  obtain ⟨record', hload', htold'⟩ := Option.map_eq_some_iff.mp htold'
  obtain ⟨hpipeline, hstatus, herror'⟩ : record'.pipeline = "crash" ∧ record'.status = .failed ∧
      record'.error = some "run did not finish: task 2 panicked with message crash" := by
    simpa using htold'
  have hsame : record.Alike record' := by
    have hrel := halike "r"
    rw [hload, hload'] at hrel
    cases hrel with
    | some h => exact h
  exact ⟨(congrArg World.state hworld).trans hcount, hmade, record, record', hload, hload', hsame,
    hsame.pipeline.trans hpipeline, hsame.status.trans hstatus, herror, herror'⟩

end Service

end RowFlow
