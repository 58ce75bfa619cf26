import RowFlow.Service.Registration

/-!
# A log of what is saved

A store can keep every record that is saved in it (`Logged`). A service with such a store does the
same as one with the store alone (`Service.Unlogs`), so what the log has in the end is what the
service has saved on the way.
-/

namespace RowFlow

/-- The store in which these records have been saved, in order. -/
def saveAll {τ : Type} [RunStore τ] (store : τ) (saves : List RunRecord) : τ :=
  saves.foldl RunStore.save store

/-- A store that keeps all records that are saved in it, in order. -/
structure Logged (τ : Type) where
  saves : List RunRecord := []

namespace Logged

variable {τ : Type} [RunStore τ]

/-- What a store has in which all these records have been saved. -/
def store (log : Logged τ) : τ := saveAll RunStore.empty log.saves

instance : RunStore (Logged τ) where
  empty := {}
  save log record := ⟨log.saves ++ [record]⟩
  load? log := RunStore.load? log.store
  ofPipeline log := RunStore.ofPipeline log.store
  recent log := RunStore.recent log.store
  pipelines log := RunStore.pipelines log.store

/-- The store that the log stands for is saved to when the log is. -/
theorem store_save (log : Logged τ) (record : RunRecord) :
    (RunStore.save log record).store = RunStore.save log.store record :=
  List.foldl_append ..

/-- Records are added to the log in the order in which they are saved. -/
theorem saves_saveAll (log : Logged τ) (records : List RunRecord) :
    (saveAll log records).saves = log.saves ++ records := by
  induction records generalizing log with
  | nil => exact (List.append_nil _).symm
  | cons record records ih => exact (ih _).trans (List.append_assoc ..)

end Logged

namespace Service

variable {σ τ : Type} [RunStore τ]

/-- The service with the store of its log. -/
def unlogged (s : Service σ (Logged τ)) : Service σ τ :=
  { s with history := s.history.store }

/-- The service with a log that is empty as yet. -/
def logged (s : Service σ τ) : Service σ (Logged τ) :=
  { s with history := RunStore.empty }

/-- A service that has saved nothing yet can keep a log from then on. -/
theorem unlogged_logged {s : Service σ τ} (h : s.history = RunStore.empty) :
    s.logged.unlogged = s := by
  cases s
  cases h
  rfl

/-- The operation does the same with a log as without. -/
structure Unlogs (op : Operation σ (Logged τ) α) (op' : Operation σ τ α) : Prop where
  same : ∀ s, op'.run s.unlogged = ((op.run s).1, (op.run s).2.unlogged)

namespace Unlogs

theorem pure (a : α) : Unlogs (Pure.pure a : Operation σ (Logged τ) α) (Pure.pure a) :=
  ⟨fun _ => rfl⟩

/-- Operations that take no notice of the log can be put one after the other. -/
theorem bind {op : Operation σ (Logged τ) α} {op' : Operation σ τ α}
    {f : α → Operation σ (Logged τ) β} {f' : α → Operation σ τ β} (h : Unlogs op op')
    (hnext : ∀ a, Unlogs (f a) (f' a)) : Unlogs (op >>= f) (op' >>= f') where
  same s := by
    rw [StateT.run_bind, h.same s]
    exact (hnext _).same _

/-- The state is read, and what follows is the same with a log as without. -/
theorem get_bind {f : Service σ (Logged τ) → Operation σ (Logged τ) α}
    {f' : Service σ τ → Operation σ τ α} (h : ∀ s, Unlogs (f s) (f' s.unlogged)) :
    Unlogs (get >>= f) (get >>= f') :=
  ⟨fun s => (h s).same s⟩

theorem forM {f : α → Operation σ (Logged τ) PUnit} {f' : α → Operation σ τ PUnit}
    (h : ∀ a, Unlogs (f a) (f' a)) (l : List α) : Unlogs (l.forM f) (l.forM f') := by
  induction l with
  | nil => exact .pure PUnit.unit
  | cons a l ih => exact .bind (h a) fun _ => ih

theorem instant : Unlogs (Service.instant : Operation σ (Logged τ) Nat) Service.instant :=
  ⟨fun _ => rfl⟩

theorem now : Unlogs (Service.now : Operation σ (Logged τ) Time) Service.now := ⟨fun _ => rfl⟩

theorem perform (run : Run σ ε α) :
    Unlogs (Service.perform run : Operation σ (Logged τ) _) (Service.perform run) :=
  ⟨fun _ => rfl⟩

theorem transport (runId key : String) (params : Option (List Row)) :
    Unlogs (Service.transport runId key params : Operation σ (Logged τ) _)
      (Service.transport runId key params) := by
  refine .get_bind fun s => .bind (.perform _) fun answer => ?_
  rcases answer with (e | message) | _ <;> exact .pure _

theorem newTask : Unlogs (Service.newTask : Operation σ (Logged τ) Unit) Service.newTask :=
  ⟨fun _ => rfl⟩

theorem transportOnTask (runId key : String) (params : Option (List Row)) :
    Unlogs (Service.transportOnTask runId key params : Operation σ (Logged τ) _)
      (Service.transportOnTask runId key params) :=
  .bind .newTask fun _ => .transport ..

/-- The one operation that writes to the log. -/
theorem save (record : RunRecord) :
    Unlogs (Service.save record : Operation σ (Logged τ) Unit) (Service.save record) where
  same s := by
    have hstore := Logged.store_save s.history record
    change ((), { s.unlogged with history := RunStore.save s.history.store record }) = _
    rw [← hstore]
    rfl

theorem newRecord (key : String) :
    Unlogs (Service.newRecord key : Operation σ (Logged τ) RunRecord) (Service.newRecord key) :=
  ⟨fun _ => rfl⟩

theorem settle (record : RunRecord) (result : Except EngineError Unit) :
    Unlogs (Service.settle record result : Operation σ (Logged τ) Unit)
      (Service.settle record result) := by
  cases result with
  | ok => exact .bind .now fun _ => .save _
  | error e => exact .bind .now fun _ => .save _

theorem runRecorded (record : RunRecord) (params : Option (List Row)) :
    Unlogs (Service.runRecorded record params : Operation σ (Logged τ) _)
      (Service.runRecorded record params) := by
  refine .bind (.bind .now fun _ => .bind (.save _) fun _ => .pure _) fun record => ?_
  exact .bind (.transportOnTask ..) fun result => .bind (.settle record result) fun _ => .pure _

theorem run (key : String) (params : Option (List Row)) :
    Unlogs (Service.run key params : Operation σ (Logged τ) _) (Service.run key params) :=
  .bind (.newRecord key) fun record => .bind (.runRecorded record params) fun _ => .pure _

theorem submit (key : String) (params : Option (List Row)) :
    Unlogs (Service.submit key params : Operation σ (Logged τ) _) (Service.submit key params) :=
  .bind (.newRecord key) fun record => .bind (.save record) fun _ =>
    .bind .newTask fun _ => .bind ⟨fun _ => rfl⟩ fun _ => .pure _

theorem waitIdle :
    Unlogs (Service.waitIdle : Operation σ (Logged τ) Unit) Service.waitIdle := by
  refine .get_bind fun s => .bind ⟨fun _ => rfl⟩ fun _ => ?_
  rw [show s.unlogged.waiting = s.waiting from rfl]
  refine .forM (fun submission => ?_) s.waiting
  exact .bind (.runRecorded submission.record submission.params) fun _ => .pure _

theorem runScheduled (key : String) (schedule : Schedule) :
    Unlogs (Service.runScheduled key schedule : Operation σ (Logged τ) Unit)
      (Service.runScheduled key schedule) :=
  .bind (.newRecord key) fun record => .bind (.runRecorded record _) fun _ => .pure _

theorem acquire (locks : Locks) (lock : LockSpec) :
    Unlogs (Service.acquire locks lock : Operation σ (Logged τ) Bool)
      (Service.acquire locks lock) :=
  ⟨fun _ => rfl⟩

theorem release (lock : LockSpec) (started : Nat) :
    Unlogs (Service.release lock started : Operation σ (Logged τ) Unit)
      (Service.release lock started) :=
  ⟨fun _ => rfl⟩

theorem startScheduled (key : String) (schedule : Schedule) :
    Unlogs (Service.startScheduled key schedule : Operation σ (Logged τ) Unit)
      (Service.startScheduled key schedule) := by
  refine .get_bind fun s => ?_
  rw [show s.unlogged.locks = s.locks from rfl]
  rcases schedule.lock with _ | lock
  · exact .runScheduled key schedule
  · rcases s.locks with _ | locks
    · exact .runScheduled key schedule
    · refine .bind .instant fun started => .bind (.acquire locks lock) fun free => ?_
      cases free with
      | false => exact .pure ()
      | true => exact .bind (.runScheduled key schedule) fun _ => .release lock started

theorem fire (name : String) :
    Unlogs (Service.fire name : Operation σ (Logged τ) Bool) (Service.fire name) := by
  refine .get_bind fun s => ?_
  rw [show s.unlogged.scheduler = s.scheduler from rfl]
  rcases s.scheduler.bind (·.find? name) with _ | ⟨key, schedule⟩
  · exact .pure false
  · exact .bind (.startScheduled key schedule) fun _ => .pure true

theorem scheduleAll (key : String) (schedules : List Schedule) :
    Unlogs (Service.scheduleAll key schedules : Operation σ (Logged τ) _)
      (Service.scheduleAll key schedules) := by
  induction schedules with
  | nil => exact .pure _
  | cons schedule rest ih =>
    refine .get_bind fun s => ?_
    rw [show s.unlogged.scheduler = s.scheduler from rfl]
    rcases s.scheduler with _ | scheduler
    · exact ih
    · dsimp only
      cases scheduler.schedule key schedule with
      | error message => exact .pure _
      | ok scheduler => exact .bind ⟨fun _ => rfl⟩ fun _ => ih

theorem registerIn (folder : Option String) (key text : String) :
    Unlogs (Service.registerIn folder key text : Operation σ (Logged τ) _)
      (Service.registerIn folder key text) := by
  refine .get_bind fun s => ?_
  rw [show s.unlogged.engine = s.engine from rfl]
  dsimp only
  cases check s.engine.registry key text with
  | error e => exact .pure _
  | ok checked =>
    refine .bind (.perform _) fun answer => ?_
    rcases answer with (e | message) | _
    · exact .pure _
    · exact .pure _
    · exact .bind ⟨fun _ => rfl⟩ fun _ => .scheduleAll key _

theorem register (key text : String) :
    Unlogs (Service.register key text : Operation σ (Logged τ) _)
      (Service.register key text) :=
  .get_bind fun s => .registerIn s.folder key text

theorem registerFile (key path : String) :
    Unlogs (Service.registerFile key path : Operation σ (Logged τ) _)
      (Service.registerFile key path) := by
  refine .bind ⟨fun _ => rfl⟩ fun answer => ?_
  cases answer with
  | error detail => exact .pure _
  | ok text => exact .registerIn (Path.parent? path) key text

end Unlogs

end Service

end RowFlow
