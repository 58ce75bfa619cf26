import Mathlib
import RowFlow.Engine.Reading
import RowFlow.Proofs.Cascade
import RowFlow.Proofs.Transform

/-!
# The protocol of a cursor

A batched flow that can open its cursor asks it for one batch after another (`Consumption`). It
deals with a batch, in the context of that batch, before it asks for the next one. After the first
answer that is no batch, and after the first batch that it can not deal with, it asks no more, and
in every case it closes the cursor, once and last (`Engine.readFlow_batched`).
-/

namespace RowFlow

variable {σ : Type}

/-- What a cursor answers when it is asked for its next batch: the end, an error, or a batch and
the batches after it. -/
def Batches.ask : Batches σ → World σ →
    Except (Failure AdapterError) (Option (List Row × Batches σ)) × World σ
  | .last finish, world => ((finish.exec world).1.map fun _ => none, (finish.exec world).2)
  | .next read rest, world =>
    ((read.exec world).1.map (Option.map fun batch => (batch, rest (read.exec world).2)),
      (read.exec world).2)

/-- A cursor is asked for its next batch, which leaves the context alone. -/
structure Asked (batches : Batches σ) (s : Site σ)
    (answer : Except (Failure AdapterError) (Option (List Row × Batches σ))) (t : Site σ) :
    Prop where
  answer : batches.ask s.world = (answer, t.world)
  context : t.context = s.context

/-- The variables of a batch are set, and nothing else is changed. -/
structure Numbered (index size : Nat) (s t : Site σ) : Prop where
  index : t.context.get? Context.batchIndexKey = some (.nat index)
  size : t.context.get? Context.batchSizeKey = some (.nat size)
  others : ∀ name, name ≠ Context.batchIndexKey → name ≠ Context.batchSizeKey →
    t.context.get? name = s.context.get? name
  world : t.world = s.world

/-! ## The entries of a cursor -/

inductive CursorStep where
  | opened (succeeded : Bool)
  | asked
  | closed
deriving DecidableEq

/-- What an entry says about a cursor. -/
def Entry.cursorStep? : Entry σ → Option CursorStep
  | .call (.openBatches ..) _ _ succeeded => some (.opened succeeded)
  | .call (.nextBatch _) .. => some .asked
  | .call (.closeBatches _) .. => some .closed
  | _ => none

/-- The steps with the cursor of one flow: none at all, a failed opening, or an opening, one
question or more, and the closing. -/
inductive CursorUse : List CursorStep → Prop
  | unprepared : CursorUse []
  | unopened : CursorUse [.opened false]
  | read (n : Nat) : CursorUse (.opened true :: (List.replicate (n + 1) .asked ++ [.closed]))

theorem Entry.IsWriting.cursorStep? {entry : Entry σ} (h : entry.IsWriting) :
    entry.cursorStep? = none := by
  unfold IsWriting at h
  split at h <;> first | rfl | contradiction

theorem Entry.IsFunctionCall.cursorStep? {entry : Entry σ} (h : entry.IsFunctionCall) :
    entry.cursorStep? = none := by
  unfold IsFunctionCall at h
  split at h <;> first | rfl | contradiction

/-- Reading from a cursor, from the batch with a number on, when `handle` deals with batches. -/
inductive Consumption (reader : Target) (handle : Nat → List Row → Run σ EngineError Unit)
    (size : Nat) : Nat → Batches σ → Site σ → List (Entry σ) →
      Except (Failure EngineError) Unit → Site σ → Prop
  | ended {batches : Batches σ} : Asked batches s (.ok none) t →
    Consumption reader handle size index batches s [.call (.nextBatch reader) s t true] (.ok ()) t
  | refused {batches : Batches σ} : Asked batches s (.error e) t →
    Consumption reader handle size index batches s [.call (.nextBatch reader) s t false]
      (.error (e.map (.reader reader.name))) t
  | stopped {batches : Batches σ} : Asked batches s (.ok (some (batch, rest))) t →
    Numbered index size t t' →
    (handle index batch).Ends t' es (.error e) u → (∀ entry ∈ es, entry.cursorStep? = none) →
    Consumption reader handle size index batches s (.call (.nextBatch reader) s t true :: es)
      (.error e) u
  | went {batches : Batches σ} : Asked batches s (.ok (some (batch, rest))) t →
    Numbered index size t t' →
    (handle index batch).Ends t' es (.ok ()) u → (∀ entry ∈ es, entry.cursorStep? = none) →
    Consumption reader handle size (index + 1) rest u es' answer v →
    Consumption reader handle size index batches s
      (.call (.nextBatch reader) s t true :: (es ++ es')) answer v

theorem Consumption.cursorSteps {handle : Nat → List Row → Run σ EngineError Unit}
    {batches : Batches σ}
    (h : Consumption reader handle size index batches s es answer t) :
    ∃ n, es.filterMap Entry.cursorStep? = List.replicate (n + 1) .asked := by
  have hnone {es : List (Entry σ)} (hes : ∀ entry ∈ es, entry.cursorStep? = none) :
      es.filterMap Entry.cursorStep? = [] := List.filterMap_eq_nil_iff.mpr hes
  induction h with
  | ended | refused => exact ⟨0, rfl⟩
  | stopped _ _ _ hes => exact ⟨0, by simp [Entry.cursorStep?, hnone hes]⟩
  | went _ _ _ hes _ ih =>
    obtain ⟨n, ih⟩ := ih
    exact ⟨n + 1, by simp [Entry.cursorStep?, hnone hes, ih, List.replicate_succ]⟩

namespace Engine

variable {engine : Engine σ} {key : String}

/-! ## Dealing with a batch -/

/-- What is done with a batch once its variables are set. -/
def handleBatch (engine : Engine σ) (key flow : String) (spec : ReaderSpec)
    (writers : List (WriterSpec × ReadyWriter σ)) (index : Nat) (batch : List Row) :
    Run σ EngineError Unit := do
  Run.emit (.batchRead key flow index batch.length)
  if !batch.isEmpty then
    let rows ← engine.transform spec batch
    if !rows.isEmpty then engine.writeAll key writers rows

theorem makes_handleBatch {kind : Entry σ → Prop} {writers : List (WriterSpec × ReadyWriter σ)}
    (hfunction : ∀ entry, entry.IsFunctionCall → kind entry)
    (hwrites : ∀ rows, (engine.writeAll key writers rows).Makes kind) (spec : ReaderSpec)
    (batch : List Row) (hread : kind (.event (.batchRead key flow index batch.length))) :
    (engine.handleBatch key flow spec writers index batch).Makes kind := by
  refine .bind (.emit hread) fun _ => ?_
  split
  · refine .bind ((engine.makes_transform ..).mono hfunction) fun rows => ?_
    split
    · exact hwrites rows
    · exact .pure ()
  · exact .pure ()

/-- Dealing with a batch has nothing to do with the cursor. -/
theorem handleBatch_cursorStep? {spec : ReaderSpec}
    (h : (engine.handleBatch key flow spec writers index batch).Ends s es answer t) :
    ∀ entry ∈ es, entry.cursorStep? = none := by
  have hmakes : (engine.handleBatch key flow spec writers index batch).Makes
      fun entry => entry.cursorStep? = none :=
    makes_handleBatch (fun _ h => h.cursorStep?)
      (fun _ => (engine.writeAll_isWriting ..).mono fun _ h => h.cursorStep?) spec batch rfl
  exact hmakes.of_ends h

instance (engine : Engine σ) (key flow : String) (spec : ReaderSpec)
    (writers : List (WriterSpec × ReadyWriter σ)) (index : Nat) (batch : List Row) :
    Run.Adds (engine.handleBatch key flow spec writers index batch) :=
  have h : (engine.handleBatch key flow spec writers index batch).Makes fun _ => True :=
    makes_handleBatch (fun _ _ => trivial) (fun _ => .of_adds) spec batch trivial
  h.adds

theorem numbered_set (s : Site σ) (index size : Nat) :
    Numbered index size s { s with
      context := (s.context.set Context.batchIndexKey (.nat index)).set Context.batchSizeKey
        (.nat size) } where
  index := by
    rw [Context.get?_set _ (by nofun), if_neg (by decide), Context.get?_set _ (by nofun), if_pos rfl]
  size := by rw [Context.get?_set _ (by nofun), if_pos rfl]
  others name hindex hsize := by
    rw [Context.get?_set _ (by nofun), if_neg hsize.symm, Context.get?_set _ (by nofun),
      if_neg hindex.symm]
  world := rfl

theorem processBatch_eq (spec : ReaderSpec) :
    engine.processBatch key flow spec writers index batch = (do
      Run.modifyContext (·.set Context.batchIndexKey (.nat index))
      Run.modifyContext (·.set Context.batchSizeKey (.nat spec.batchSize))
      engine.handleBatch key flow spec writers index batch) := rfl

instance (engine : Engine σ) (key flow : String) (spec : ReaderSpec)
    (writers : List (WriterSpec × ReadyWriter σ)) (index : Nat) (batch : List Row) :
    Run.Adds (engine.processBatch key flow spec writers index batch) := by
  rw [processBatch_eq]
  infer_instance

theorem processBatch_ends {spec : ReaderSpec}
    (h : (engine.processBatch key flow spec writers index batch).Ends s es answer t) :
    ∃ s', Numbered index spec.batchSize s s' ∧
      (engine.handleBatch key flow spec writers index batch).Ends s' es answer t := by
  rw [processBatch_eq] at h
  have h := (Run.ends_modifyContext _).bind_silent_iff.mp h
  exact ⟨_, numbered_set s index spec.batchSize, (Run.ends_modifyContext _).bind_silent_iff.mp h⟩

/-! ## Reading all batches -/

theorem makes_consume {onBatch : Nat → List Row → Run σ EngineError Unit}
    {kind : Entry σ → Prop}
    (hnext : ∀ s t ok, t.context = s.context → kind (.call (.nextBatch reader) s t ok))
    (h : ∀ index batch, (onBatch index batch).Makes kind) (index : Nat) (batches : Batches σ) :
    (consume reader onBatch index batches).Makes kind := by
  induction batches generalizing index with
  | last finish => exact .mapError (.access hnext) _
  | next read rest ih =>
    rw [consume]
    refine .bind (.mapError (.access hnext) _) fun batch => ?_
    cases batch with
    | none => exact .pure ()
    | some batch => exact .bind .world fun world => .bind (h index batch) fun _ => ih world _

instance (onBatch : Nat → List Row → Run σ EngineError Unit)
    [∀ index batch, Run.Adds (onBatch index batch)] (reader : Target) (index : Nat)
    (batches : Batches σ) : Run.Adds (consume reader onBatch index batches) :=
  (makes_consume (fun _ _ _ _ => trivial) (fun _ _ => .of_adds) index batches).adds

/-- By induction on the batches that the cursor still has. -/
theorem consumption_of_consume {spec : ReaderSpec} {batches : Batches σ}
    (h : (consume reader (engine.processBatch key flow spec writers) index batches).Ends s es
      answer t) :
    Consumption reader (engine.handleBatch key flow spec writers) spec.batchSize index batches s es
      answer t := by
  induction batches generalizing index s es answer t with
  | last finish =>
    obtain ⟨found, hcall, rfl⟩ := Run.ends_mapError_iff.mp h
    obtain ⟨hexec, hcontext, rfl⟩ := Run.ends_access_iff.mp hcall
    cases found with
    | error e => exact .refused ⟨by simp [Batches.ask, hexec, Except.map], hcontext⟩
    | ok => exact .ended ⟨by simp [Batches.ask, hexec, Except.map], hcontext⟩
  | next read rest ih =>
    rcases hexec : read.exec s.world with ⟨found, world⟩
    have hcall := (Run.ends_access_of_exec (.nextBatch reader) hexec).mapError
      (EngineError.reader reader.name)
    rw [consume] at h
    rcases found with e | _ | batch
    · obtain ⟨rfl, rfl, rfl⟩ := h.unique hcall.bind_error
      exact .refused ⟨by simp [Batches.ask, hexec, Except.map], rfl⟩
    · obtain ⟨_, hend, rfl⟩ := hcall.bind_iff.mp h
      obtain ⟨rfl, rfl, rfl⟩ := Run.ends_pure_iff.mp hend
      exact .ended ⟨by simp [Batches.ask, hexec, Except.map], rfl⟩
    · obtain ⟨_, hbatch, rfl⟩ := hcall.bind_iff.mp h
      -- the batches that are left depend on the world in which this one has been read
      have hbatch := Run.ends_world.bind_silent_iff.mp hbatch
      have hasked : Asked (.next read rest) s (.ok (some (batch, rest world)))
          { s with world } := ⟨by simp [Batches.ask, hexec, Except.map], rfl⟩
      rcases Run.ends_bind_iff.mp hbatch with
        ⟨e, rfl, hprocess⟩ | ⟨⟨⟩, es₁, u, es₂, hprocess, hrest, rfl⟩
      · obtain ⟨s', hnumbered, hhandle⟩ := processBatch_ends hprocess
        exact .stopped hasked hnumbered hhandle (handleBatch_cursorStep? hhandle)
      · obtain ⟨s', hnumbered, hhandle⟩ := processBatch_ends hprocess
        rw [List.singleton_append]
        exact .went hasked hnumbered hhandle (handleBatch_cursorStep? hhandle)
          (ih _ hrest)

/-- A batched flow, from the site in which it begins: its preparation, and then all that happens
to its cursor. An error of the reading wins over one of the closing. -/
inductive BatchedRead (engine : Engine σ) (key label : String) (flow : ReadFlow) :
    Site σ → List (Entry σ) → Except (Failure EngineError) Unit → Site σ → Prop
  | noReader : engine.prepareReader key s.context flow.reader = .error e →
    BatchedRead engine key label flow s [] (.error (.error e)) s
  | noWriters : engine.prepareReader key s.context flow.reader = .ok r →
    engine.prepareWriters key s.context flow.writers = .error e →
    BatchedRead engine key label flow s [] (.error (.error e)) s
  | unopened : engine.prepareReader key s.context flow.reader = .ok r →
    engine.prepareWriters key s.context flow.writers = .ok writers →
    (r.reader.findBatches flow.reader.batchSize s.context).exec s.world = (.error e, t.world) →
    t.context = s.context →
    BatchedRead engine key label flow s
      [.call (.openBatches r.target flow.reader.batchSize) s t false]
      (.error (e.map (.reader r.target.name))) t
  | read : engine.prepareReader key s.context flow.reader = .ok r →
    engine.prepareWriters key s.context flow.writers = .ok writers →
    (r.reader.findBatches flow.reader.batchSize s.context).exec s.world = (.ok cursor, t.world) →
    t.context = s.context →
    Consumption r.target (engine.handleBatch key label flow.reader writers) flow.reader.batchSize 1
      cursor.batches t es consumed u →
    cursor.close.exec u.world = (closed, v.world) → v.context = u.context →
    BatchedRead engine key label flow s
      (.call (.openBatches r.target flow.reader.batchSize) s t true ::
        (es ++ [.call (.closeBatches r.target) u v closed.isOk]))
      (consumed.bind fun _ => closed.mapError (Failure.map (.reader r.target.name))) v

theorem BatchedRead.cursorUse (h : BatchedRead engine key label flow s es answer t) :
    CursorUse (es.filterMap Entry.cursorStep?) := by
  cases h with
  | noReader | noWriters => exact .unprepared
  | unopened => exact .unopened
  | read _ _ _ _ hconsumption =>
    obtain ⟨n, hn⟩ := hconsumption.cursorSteps
    simpa [Entry.cursorStep?, hn] using CursorUse.read n

instance (engine : Engine σ) (key flow : String) (spec : ReaderSpec) (r : ReadyReader σ)
    (writers : List (WriterSpec × ReadyWriter σ)) :
    Run.Adds (engine.readInBatches key flow spec r writers) := by
  rw [readInBatches]
  infer_instance

theorem readFlow_eq (hmode : flow.reader.mode = .batched) :
    engine.readFlow key label flow = (do
      let ctx ← Run.context
      let r ← Run.ofExcept (engine.prepareReader key ctx flow.reader)
      let writers ← Run.ofExcept (engine.prepareWriters key ctx flow.writers)
      engine.readInBatches key label flow.reader r writers) := by
  simp only [readFlow, hmode]

/-- What a batched flow does from an open cursor on: it reads, it closes, and it ends with the first
error of the two. -/
def readAndClose (reading : Run σ EngineError Unit) (reader : Target)
    (close : Access σ AdapterError Unit) : Run σ EngineError Unit := do
  let consumed ← reading.attempt
  let closed ← (Run.access (.closeBatches reader) close).attempt
  Run.ofExcept consumed
  Run.ofExcept (closed.mapError (.reader reader.name))

instance (reading : Run σ EngineError Unit) [Run.Adds reading] (reader : Target)
    (close : Access σ AdapterError Unit) : Run.Adds (readAndClose reading reader close) := by
  rw [readAndClose]
  infer_instance

/-- If nothing panics, the cursor is closed whatever the reading has ended with. -/
theorem readAndClose_ends {reading : Run σ EngineError Unit} [Run.Adds reading]
    (h : (readAndClose reading reader close).Ends s es answer v)
    (hpanic : ∀ message, answer ≠ .error (.panic message)) :
    ∃ es₁ consumed u closed, reading.Ends s es₁ consumed u ∧
      close.exec u.world = (closed, v.world) ∧ v.context = u.context ∧
      es = es₁ ++ [.call (.closeBatches reader) u v closed.isOk] ∧
      answer = consumed.bind fun _ => closed.mapError (Failure.map (.reader reader.name)) := by
  obtain ⟨es₁, consumed, u, hreading⟩ := Run.Adds.ends reading s
  -- no attempt catches a panic: one of the reading or the closing would be the answer
  rcases Run.panic_or_eq_mapError consumed with ⟨message, rfl⟩ | ⟨x, rfl⟩
  · obtain ⟨-, rfl, -⟩ := h.unique (hreading.attempt.bind_error)
    exact (hpanic message rfl).elim
  rcases hclose : close.exec u.world with ⟨closed, world⟩
  have hcall := Run.ends_access_of_exec (.closeBatches reader) hclose
  rcases Run.panic_or_eq_mapError closed with ⟨message, rfl⟩ | ⟨y, rfl⟩
  · obtain ⟨-, rfl, -⟩ := h.unique (hreading.attempt_ok.bind hcall.attempt.bind_error)
    exact (hpanic message rfl).elim
  · have hlast := Run.ends_ofExcept_seq (s := { u with world }) x
      (y.mapError (EngineError.reader reader.name))
    obtain ⟨rfl, rfl, rfl⟩ := h.unique (hreading.attempt_ok.bind (hcall.attempt_ok.bind hlast))
    refine ⟨es₁, _, u, _, hreading, hclose, rfl, rfl, ?_⟩
    cases y <;> rfl

theorem BatchedRead.of_readInBatches
    (hr : engine.prepareReader key s.context flow.reader = .ok r)
    (hwriters : engine.prepareWriters key s.context flow.writers = .ok writers)
    (h : (engine.readInBatches key label flow.reader r writers).Ends s es answer t)
    (hpanic : ∀ message, answer ≠ .error (.panic message)) :
    BatchedRead engine key label flow s es answer t := by
  rw [readInBatches] at h
  have h := Run.ends_context.bind_silent_iff.mp h
  rcases hopen : (r.reader.findBatches flow.reader.batchSize s.context).exec s.world with
    ⟨e | cursor, world⟩
  all_goals
    have hcall := (Run.ends_access_of_exec (.openBatches r.target flow.reader.batchSize)
      hopen).mapError (EngineError.reader r.target.name)
  · obtain ⟨rfl, rfl, rfl⟩ := h.unique hcall.bind_error
    exact .unopened hr hwriters hopen rfl
  · obtain ⟨_, hrest, rfl⟩ := hcall.bind_iff.mp h
    obtain ⟨es₁, consumed, u, closed, hconsume, hclose, hcontext, rfl, rfl⟩ :=
      readAndClose_ends hrest hpanic
    exact .read hr hwriters hopen rfl (consumption_of_consume hconsume) hclose hcontext

/-- Every way in which a batched flow ends without a panic is one of those listed. -/
theorem BatchedRead.of_readFlow (hmode : flow.reader.mode = .batched)
    (h : (engine.readFlow key label flow).Ends s es answer t)
    (hpanic : ∀ message, answer ≠ .error (.panic message)) :
    BatchedRead engine key label flow s es answer t := by
  rw [readFlow_eq hmode] at h
  have h := Run.ends_context.bind_silent_iff.mp h
  rcases hr : engine.prepareReader key s.context flow.reader with e | r
  · rw [hr] at h
    obtain ⟨rfl, rfl, rfl⟩ := h.unique (Run.ends_fail e).bind_error
    exact .noReader hr
  rw [hr] at h
  have h := (Run.ends_pure r).bind_silent_iff.mp h
  rcases hwriters : engine.prepareWriters key s.context flow.writers with e | writers
  · rw [hwriters] at h
    obtain ⟨rfl, rfl, rfl⟩ := h.unique (Run.ends_fail e).bind_error
    exact .noWriters hr hwriters
  rw [hwriters] at h
  exact .of_readInBatches hr hwriters ((Run.ends_pure writers).bind_silent_iff.mp h) hpanic

/-- **The protocol of a cursor.** Unless a component panics, a batched flow opens its cursor, asks
it up to the first answer that is no batch or the first batch that fails, and closes it. -/
theorem readFlow_batched {flow : ReadFlow} {live live' : Live σ}
    (hmode : flow.reader.mode = .batched)
    (h : (engine.readFlow key label flow).exec live = (answer, live'))
    (hpanic : ∀ message, answer ≠ .error (.panic message)) :
    ∃ es, live'.journal = es.reverse ++ live.journal ∧
      BatchedRead engine key label flow live.toSite es answer live'.toSite ∧
      CursorUse (es.filterMap Entry.cursorStep?) := by
  have : Run.Adds (engine.readFlow key label flow) := by
    rw [readFlow_eq hmode]
    infer_instance
  obtain ⟨es, hends, hjournal⟩ := Run.ends_of_exec h
  have hread := BatchedRead.of_readFlow hmode hends hpanic
  exact ⟨es, hjournal, hread, hread.cursorUse⟩

/-- A reader of one row and no rows, whose cursor can not be closed. -/
def sampleReader : Reader Unit where
  bind _ _ := .ok {
    findOne := fun _ => pure none
    findAll := fun _ => pure []
    findBatches := fun _ _ =>
      pure ⟨.ofList [[[("id", .nat 1)]], []], Access.fail (.io "connection lost")⟩ }

def sampleFlow : ReadFlow where
  id := "copy"
  desc := ""
  reader := { component := "numbers", mode := .batched }
  writers := [.mk { component := "table" } none none]

def sampleReading : Engine Unit :=
  { sampleEngine with registry := sampleEngine.registry.register "numbers" (.reader sampleReader) }

theorem readFlow_batched_unclosed :
    ∃ live', (sampleReading.readFlow "p" "copy" sampleFlow).exec sampleStart =
        (.error (.error (.reader "numbers" (.io "connection lost"))), live') ∧
      ∃ es, live'.journal = es.reverse ++ [] ∧
        BatchedRead sampleReading "p" "copy" sampleFlow sampleStart.toSite es
          (.error (.error (.reader "numbers" (.io "connection lost")))) live'.toSite ∧
        CursorUse (es.filterMap Entry.cursorStep?) := by
  obtain ⟨live', hrun⟩ : ∃ live', (sampleReading.readFlow "p" "copy" sampleFlow).exec sampleStart =
      (.error (.error (.reader "numbers" (.io "connection lost"))), live') :=
    ⟨_, Prod.ext (by cbv) rfl⟩
  exact ⟨live', hrun, readFlow_batched rfl hrun (by simp)⟩

end Engine

end RowFlow
