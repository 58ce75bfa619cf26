import RowFlow.Proofs.Changes

/-!
# The chronicle of a run

The chronicle of a run is its journal with the changes that the engine has made to the context, each
where it was made. The relations of this module tell which marks can stand in it: `Rounds` for the
batches of a cursor, `ReadChronicle` for a flow that reads, `StageChronicle` for a stage of the
plan, and `RunChronicle` for a run. Between two calls of components the context is changed by the
changes that stand between them and by nothing else (`Engine.run_threads`), whatever has failed in
between and whichever triggered pipelines have been entered or left.
-/

namespace RowFlow

variable {σ : Type}

/-- The entries of the work with a batch. -/
def Entry.IsWork (entry : Entry σ) : Prop := entry.IsFunctionCall ∨ entry.IsWriting

namespace Engine

variable {engine : Engine σ}

/-! ## Flows that do not read in batches -/

/-- The rows that such a flow goes on with: those that are left of one row, or of all rows. -/
def fetch (engine : Engine σ) (spec : ReaderSpec) (r : ReadyReader σ) :
    Run σ EngineError (List Row) := do
  let ctx ← Run.context
  match spec.mode with
  | .one =>
    match ← (Run.access (.findOne r.target) (r.reader.findOne ctx)).mapError
      (.reader r.target.name) with
    | none => return []
    | some row => engine.transform spec [row]
  | _ =>
    let found ← (Run.access (.findAll r.target) (r.reader.findAll ctx)).mapError
      (.reader r.target.name)
    engine.transform spec found

/-- What such a flow does with the rows: it shows them and writes them. -/
def present (engine : Engine σ) (key : String) (spec : ReaderSpec)
    (writers : List (WriterSpec × ReadyWriter σ)) (rows : List Row) : Run σ EngineError Unit :=
  match spec.mode with
  | .one => engine.writeFirst key spec writers rows
  | _ => do
    capture spec (.ofRows rows)
    engine.writeAll key writers rows

/-- Reading one row is fetching and then presenting, just as reading all rows is. -/
theorem readOne_fetch (hmode : spec.mode = .one) :
    engine.readOne key spec r writers = (do
      engine.present key spec writers (← engine.fetch spec r)) := by
  simp only [readOne_eq, fetch, present, hmode, bind_assoc]
  congr! with ctx found
  cases found <;> simp [writeFirst]

theorem readAll_fetch (hmode : spec.mode = .allAtOnce) :
    engine.readAll key spec r writers = (do
      engine.present key spec writers (← engine.fetch spec r)) := by
  simp only [readAll, fetch, present, hmode, bind_assoc]

theorem threads_fetch (engine : Engine σ) (spec : ReaderSpec) (r : ReadyReader σ) :
    (engine.fetch spec r).Threads := by
  refine .bind .context fun ctx => ?_
  split
  · refine .bind (.mapError (.access _ _) _) fun found => ?_
    cases found with
    | none => exact .pure []
    | some row => exact engine.threads_transform spec [row]
  · exact .bind (.mapError (.access _ _) _) fun found => engine.threads_transform spec found

instance (engine : Engine σ) (spec : ReaderSpec) (r : ReadyReader σ) :
    Run.Adds (engine.fetch spec r) := (engine.threads_fetch spec r).adds

/-- The change of a flow that shows a value, if it has a variable for it. -/
def captured (spec : ReaderSpec) (value : Value) : List Change :=
  (spec.capture.map (.capture · value)).toList

/-- The change of a flow that shows its rows: the one that is left of a single row, if it is left,
or all rows. -/
def captures (spec : ReaderSpec) (rows : List Row) : List Change :=
  match spec.mode, rows with
  | .one, [] => []
  | .one, row :: _ => captured spec (.object row)
  | _, rows => captured spec (.ofRows rows)

theorem tells_capture (h : (capture spec value).Ends s es answer t) :
    es = [] ∧ answer = .ok () ∧ Tells ((captured spec value).map .change) s [] t := by
  unfold capture at h
  unfold captured
  cases hcapture : spec.capture with
  | none =>
    rw [hcapture] at h
    obtain ⟨rfl, rfl, rfl⟩ := Run.ends_pure_iff.mp h
    exact ⟨rfl, rfl, .nil _⟩
  | some name =>
    rw [hcapture] at h
    obtain ⟨rfl, rfl, rfl⟩ := h.unique (Run.ends_modifyContext _)
    exact ⟨rfl, rfl, .change rfl⟩

theorem tells_captureAndWrite
    (h : (do capture spec value; engine.writeAll key writers rows).Ends s es answer t) :
    Tells ((captured spec value).map .change ++ es.map .entry) s es t ∧
      ∀ entry ∈ es, entry.IsWriting := by
  obtain ⟨u, hcapture⟩ := capture_ends spec value s
  have hwrite := hcapture.bind_silent_iff.mp h
  obtain ⟨-, -, hshown⟩ := tells_capture hcapture
  exact ⟨hshown.append ((threads_writeAll ..).of_ends hwrite),
    (engine.writeAll_isWriting ..).of_ends hwrite⟩

instance (engine : Engine σ) (key : String) (spec : ReaderSpec)
    (writers : List (WriterSpec × ReadyWriter σ)) (rows : List Row) :
    Run.Adds (engine.present key spec writers rows) := by
  unfold present
  split <;> infer_instance

/-- The variable is captured before the rows are written. -/
theorem tells_present (h : (engine.present key spec writers rows).Ends s es answer t) :
    Tells ((captures spec rows).map .change ++ es.map .entry) s es t ∧
      ∀ entry ∈ es, entry.IsWriting := by
  unfold present at h
  unfold captures
  split at h
  · rename_i hmode
    rw [hmode]
    cases rows with
    | nil =>
      obtain ⟨rfl, -, rfl⟩ := Run.ends_pure_iff.mp h
      exact ⟨.nil _, List.forall_mem_nil _⟩
    | cons row rows => exact tells_captureAndWrite h
  · rename_i hmode
    cases hmode' : spec.mode with
    | one => exact (hmode hmode').elim
    | allAtOnce | batched => exact tells_captureAndWrite h

/-! ## Flows that read in batches -/

/-- The marks of a batch: the call that has answered it, its variables, its announcement, and the
work with it. -/
def roundMarks (reader : Target) (key label : String) (index size : Nat) (batch : List Row)
    (s t : Site σ) (work : List (Entry σ)) : List (Mark σ) :=
  .entry (.call (.nextBatch reader) s t true) :: .change (.batch index size) ::
    .entry (.event (.batchRead key label index batch.length)) :: work.map .entry

/-- The marks of reading from a cursor, from the batch with a number on, and the batches that have
been read. -/
inductive Rounds (reader : Target) (key label : String) (size : Nat) :
    Nat → Batches σ → List (Mark σ) → List (List Row) → Prop
  | ended {batches : Batches σ} : Asked batches s answer t →
    (∀ batch rest, answer ≠ .ok (some (batch, rest))) →
    Rounds reader key label size index batches
      [.entry (.call (.nextBatch reader) s t answer.isOk)] []
  | broke {batches : Batches σ} : Asked batches s (.ok (some (batch, rest))) t →
    (∀ entry ∈ work, entry.IsWork) →
    Rounds reader key label size index batches
      (roundMarks reader key label index size batch s t work) [batch]
  | went {batches : Batches σ} : Asked batches s (.ok (some (batch, rest))) t →
    (∀ entry ∈ work, entry.IsWork) →
    Rounds reader key label size (index + 1) rest marks answered →
    Rounds reader key label size index batches
      (roundMarks reader key label index size batch s t work ++ marks) (batch :: answered)

/-- What is done with a batch once it has been announced. -/
def workBatch (engine : Engine σ) (key : String) (spec : ReaderSpec)
    (writers : List (WriterSpec × ReadyWriter σ)) (batch : List Row) : Run σ EngineError Unit := do
  if !batch.isEmpty then
    let rows ← engine.transform spec batch
    if !rows.isEmpty then engine.writeAll key writers rows

theorem threads_workBatch (engine : Engine σ) (key : String) (spec : ReaderSpec)
    (writers : List (WriterSpec × ReadyWriter σ)) (batch : List Row) :
    (engine.workBatch key spec writers batch).Threads := by
  unfold workBatch
  split
  · refine .bind (engine.threads_transform ..) fun rows => ?_
    split
    · exact engine.threads_writeAll ..
    · exact .pure ()
  · exact .pure ()

theorem makes_workBatch (engine : Engine σ) (key : String) (spec : ReaderSpec)
    (writers : List (WriterSpec × ReadyWriter σ)) (batch : List Row) :
    (engine.workBatch key spec writers batch).Makes Entry.IsWork := by
  unfold workBatch
  split
  · refine .bind ((engine.makes_transform ..).mono fun _ => .inl) fun rows => ?_
    split
    · exact (engine.writeAll_isWriting ..).mono fun _ => .inr
    · exact .pure ()
  · exact .pure ()

/-- The variables of the batch are set, the batch is announced, and then the work is done. -/
theorem tells_processBatch
    (h : (engine.processBatch key label spec writers index batch).Ends s es answer t) :
    ∃ work : List (Entry σ), Tells (.change (.batch index spec.batchSize) ::
        .entry (.event (.batchRead key label index batch.length)) :: work.map .entry) s es t ∧
      ∀ entry ∈ work, entry.IsWork := by
  have h := (Run.ends_modifyContext _).bind_silent_iff.mp h
  have h := (Run.ends_modifyContext _).bind_silent_iff.mp h
  have hwork : engine.handleBatch key label spec writers index batch = (do
      Run.emit (.batchRead key label index batch.length)
      engine.workBatch key spec writers batch) := rfl
  obtain ⟨work, hdone, rfl⟩ := (Run.ends_emit _).bind_iff.mp (hwork ▸ h)
  refine ⟨work, ?_, (engine.makes_workBatch ..).of_ends hdone⟩
  have hset : Tells [.change (.batch index spec.batchSize)] s []
      { s with context := s.context.after (.batch index spec.batchSize) } := .change rfl
  exact hset.append ((Tells.event _ _).append ((engine.threads_workBatch ..).of_ends hdone))

/-- By induction on the batches that the cursor still has. -/
theorem Rounds.of_consume {batches : Batches σ}
    (h : (consume reader (engine.processBatch key label spec writers) index batches).Ends s es
      answer t) :
    ∃ marks answered, Tells marks s es t ∧
      Rounds reader key label spec.batchSize index batches marks answered := by
  induction batches generalizing index s es answer t with
  | last finish =>
    obtain ⟨found, hcall, rfl⟩ := Run.ends_mapError_iff.mp h
    obtain ⟨hexec, hcontext, rfl⟩ := Run.ends_access_iff.mp hcall
    have hasked : Asked (.last finish) s (found.map fun _ => none) t :=
      ⟨by simp [Batches.ask, hexec], hcontext⟩
    cases found with
    | error e => exact ⟨_, [], .access _ hcontext _, .ended hasked (by rintro _ _ ⟨⟩)⟩
    | ok => exact ⟨_, [], .access _ hcontext _, .ended hasked (by rintro _ _ ⟨⟩)⟩
  | next read rest ih =>
    rcases hexec : read.exec s.world with ⟨found, world⟩
    have hcall := (Run.ends_access_of_exec (.nextBatch reader) hexec).mapError
      (EngineError.reader reader.name)
    rw [consume] at h
    have hcontext : ({ s with world } : Site σ).context = s.context := rfl
    have hasked : Asked (.next read rest) s
        (found.map (Option.map fun batch => (batch, rest world))) { s with world } :=
      ⟨by simp [Batches.ask, hexec], rfl⟩
    rcases found with e | _ | batch
    · obtain ⟨rfl, rfl, rfl⟩ := h.unique hcall.bind_error
      exact ⟨_, [], .access _ hcontext _, .ended hasked (by rintro _ _ ⟨⟩)⟩
    · obtain ⟨_, hend, rfl⟩ := hcall.bind_iff.mp h
      obtain ⟨rfl, rfl, rfl⟩ := Run.ends_pure_iff.mp hend
      exact ⟨_, [], .access _ hcontext _, .ended hasked (by rintro _ _ ⟨⟩)⟩
    · obtain ⟨_, hbatch, rfl⟩ := hcall.bind_iff.mp h
      -- the batches that are left depend on the world in which this one has been read
      have hbatch := Run.ends_world.bind_silent_iff.mp hbatch
      have hanswered := Tells.access (.nextBatch reader) hcontext true
      rcases Run.ends_bind_iff.mp hbatch with
        ⟨e, rfl, hprocess⟩ | ⟨⟨⟩, es₁, u, es₂, hprocess, hrest, rfl⟩
      · obtain ⟨work, htells, hwork⟩ := tells_processBatch hprocess
        exact ⟨_, [batch], hanswered.append htells, .broke hasked hwork⟩
      · obtain ⟨work, htells, hwork⟩ := tells_processBatch hprocess
        obtain ⟨marks, answered, htells', hrounds⟩ := ih _ hrest
        refine ⟨_, _, ?_, .went hasked hwork hrounds⟩
        exact hanswered.append (htells.append htells')

/-- The cursor is closed in the end, unless the reading has panicked. -/
theorem readAndClose_closes {reading : Run σ EngineError Unit} [Run.Adds reading]
    (h : (readAndClose reading reader close).Ends s es answer v) :
    ∃ es₁ consumed u, reading.Ends s es₁ consumed u ∧
      (es = es₁ ∧ v = u ∨
        ∃ ok, es = es₁ ++ [.call (.closeBatches reader) u v ok] ∧ v.context = u.context) := by
  rcases Run.ends_bind_iff.mp h with ⟨e, rfl, hread⟩ | ⟨x, es₁, u, es₂, hread, hrest, rfl⟩
  · obtain ⟨consumed, hread, -⟩ := Run.ends_attempt_iff.mp hread
    exact ⟨es, consumed, v, hread, .inl ⟨rfl, rfl⟩⟩
  obtain ⟨consumed, hread, -⟩ := Run.ends_attempt_iff.mp hread
  refine ⟨es₁, consumed, u, hread, .inr ?_⟩
  rcases Run.ends_bind_iff.mp hrest with ⟨e, rfl, hclose⟩ | ⟨y, es₃, w, es₄, hclose, hlast, rfl⟩
  · obtain ⟨closed, hclose, -⟩ := Run.ends_attempt_iff.mp hclose
    obtain ⟨-, hcontext, rfl⟩ := Run.ends_access_iff.mp hclose
    exact ⟨closed.isOk, rfl, hcontext⟩
  · obtain ⟨closed, hclose, -⟩ := Run.ends_attempt_iff.mp hclose
    obtain ⟨-, hcontext, rfl⟩ := Run.ends_access_iff.mp hclose
    obtain ⟨rfl, -, rfl⟩ := hlast.unique (Run.ends_ofExcept_seq ..)
    rw [List.append_nil]
    exact ⟨closed.isOk, rfl, hcontext⟩

/-! ## Flows that read -/

/-- The marks of a flow that reads, from the site in which it has been announced, and the batches
that have been read. The rows are shown once they have been read and transformed. -/
inductive ReadChronicle (engine : Engine σ) (key label : String) (flow : ReadFlow) :
    Site σ → List (Mark σ) → List (List Row) → Prop
  | unprepared : (∀ r writers, ¬ Prepared engine key flow s.context r writers) →
    ReadChronicle engine key label flow s [] []
  | unfetched : flow.reader.mode ≠ .batched → Prepared engine key flow s.context r writers →
    (engine.fetch flow.reader r).Ends s es (.error e) t →
    ReadChronicle engine key label flow s (es.map .entry) []
  | fetched {writing : List (Entry σ)} : flow.reader.mode ≠ .batched →
    Prepared engine key flow s.context r writers →
    (engine.fetch flow.reader r).Ends s es (.ok rows) t → (∀ entry ∈ writing, entry.IsWriting) →
    ReadChronicle engine key label flow s
      (es.map .entry ++ ((captures flow.reader rows).map .change ++ writing.map .entry)) []
  | unopened : flow.reader.mode = .batched → Prepared engine key flow s.context r writers →
    (r.reader.findBatches flow.reader.batchSize s.context).exec s.world = (.error e, t.world) →
    ReadChronicle engine key label flow s
      [.entry (.call (.openBatches r.target flow.reader.batchSize) s t false)] []
  | unclosed : Opened engine key flow r writers cursor s t →
    Rounds r.target key label flow.reader.batchSize 1 cursor.batches marks answered →
    ReadChronicle engine key label flow s
      (.entry (.call (.openBatches r.target flow.reader.batchSize) s t true) :: marks) answered
  | closed : Opened engine key flow r writers cursor s t →
    Rounds r.target key label flow.reader.batchSize 1 cursor.batches marks answered →
    ReadChronicle engine key label flow s
      (.entry (.call (.openBatches r.target flow.reader.batchSize) s t true) ::
        (marks ++ [.entry (.call (.closeBatches r.target) u v ok)])) answered

theorem ReadChronicle.of_fetch (hmode : flow.reader.mode ≠ .batched)
    (hprepared : Prepared engine key flow s.context r writers)
    (h : (do engine.present key flow.reader writers (← engine.fetch flow.reader r)).Ends s es
      answer t) :
    ∃ marks answered, Tells marks s es t ∧
      ReadChronicle engine key label flow s marks answered := by
  rcases Run.ends_bind_iff.mp h with
    ⟨e, rfl, hfetch⟩ | ⟨rows, es₁, u, es₂, hfetch, hpresent, rfl⟩
  · exact ⟨_, [], (engine.threads_fetch ..).of_ends hfetch, .unfetched hmode hprepared hfetch⟩
  · obtain ⟨htells, hwriting⟩ := tells_present hpresent
    exact ⟨_, [], ((engine.threads_fetch ..).of_ends hfetch).append htells,
      .fetched hmode hprepared hfetch hwriting⟩

theorem ReadChronicle.of_readInBatches (hmode : flow.reader.mode = .batched)
    (hprepared : Prepared engine key flow s.context r writers)
    (h : (engine.readInBatches key label flow.reader r writers).Ends s es answer t) :
    ∃ marks answered, Tells marks s es t ∧
      ReadChronicle engine key label flow s marks answered := by
  rw [readInBatches] at h
  have h := Run.ends_context.bind_silent_iff.mp h
  rcases hopen : (r.reader.findBatches flow.reader.batchSize s.context).exec s.world with
    ⟨e | cursor, world⟩
  all_goals
    have hcontext : ({ s with world } : Site σ).context = s.context := rfl
    have hcall := (Run.ends_access_of_exec (.openBatches r.target flow.reader.batchSize)
      hopen).mapError (EngineError.reader r.target.name)
  · obtain ⟨rfl, rfl, rfl⟩ := h.unique hcall.bind_error
    exact ⟨_, [], .access _ hcontext _, .unopened hmode hprepared hopen⟩
  · obtain ⟨_, hrest, rfl⟩ := hcall.bind_iff.mp h
    have hopened : Opened engine key flow r writers cursor s { s with world } :=
      ⟨hmode, hprepared, hopen, rfl⟩
    have hbegun := Tells.access (.openBatches r.target flow.reader.batchSize) hcontext true
    obtain ⟨es₁, consumed, u, hread, hend⟩ := readAndClose_closes hrest
    obtain ⟨marks, answered, htells, hrounds⟩ := Rounds.of_consume hread
    rcases hend with ⟨rfl, rfl⟩ | ⟨ok, rfl, hclosed⟩
    · exact ⟨_, answered, hbegun.append htells, .unclosed hopened hrounds⟩
    · exact ⟨_, answered, hbegun.append (htells.append (.access _ hclosed ok)),
        .closed hopened hrounds⟩

/-- However a flow that reads ends, its marks are those of one of the chronicles. -/
theorem ReadChronicle.of_readFlow (h : (engine.readFlow key label flow).Ends s es answer t) :
    ∃ marks answered, Tells marks s es t ∧
      ReadChronicle engine key label flow s marks answered := by
  cases ReadBegins.of_readFlow h with
  | noReader hr =>
    refine ⟨[], [], .nil _, .unprepared fun r writers hprepared => ?_⟩
    cases hr.symm.trans hprepared.reader
  | noWriters _ hwriters =>
    refine ⟨[], [], .nil _, .unprepared fun r writers hprepared => ?_⟩
    cases hwriters.symm.trans hprepared.writers
  | ready hprepared hread =>
    unfold readReady at hread
    split at hread
    · rename_i hmode
      exact ReadChronicle.of_fetch (by simp [hmode]) hprepared (readOne_fetch hmode ▸ hread)
    · rename_i hmode
      exact ReadChronicle.of_fetch (by simp [hmode]) hprepared (readAll_fetch hmode ▸ hread)
    · rename_i hmode
      exact ReadChronicle.of_readInBatches hmode hprepared hread

/-! ## Runs -/

/-- The marks of a stage, from the site in which it begins. -/
inductive StageChronicle (engine : Engine σ) : Stage → Site σ → List (Mark σ) → Prop
  | set : StageChronicle engine (.set runId key index params) s
      [.change (.set runId key params), .entry (.event (.paramsStarted runId key index params))]
  | hook {stage : Stage} : stage.step? = some (.hook key phase form) → Run.AtMostOneCall es →
    StageChronicle engine stage s ((.step (.hook key phase form) :: es).map .entry)
  | read : ReadChronicle engine key (s.context.label flow.id) flow s marks answered →
    StageChronicle engine (.read key flow) s
      (.entry (.step (.flow key (.read flow))) ::
        .entry (.event (.flowStarted key (s.context.label flow.id) (s.context.label flow.desc))) ::
        marks)
  | trigger : StageChronicle engine (.trigger key depth flow) s
      [.entry (.step (.flow key (.trigger flow))),
        .entry (.event (.flowStarted key (s.context.label flow.id) (s.context.label flow.desc)))]
  | merge : StageChronicle engine (.merge params) s [.change (.merge params)]

theorem isForm_of_step? {stage : Stage} (h : stage.step? = some (.hook key phase form)) :
    IsForm (.hook key phase form) (engine.carryOut stage) := by
  cases stage with
  | inlineScript =>
    cases h
    exact engine.isForm_inlineScript ..
  | runnable =>
    cases h
    exact engine.isForm_runnable ..
  | scriptCall =>
    cases h
    exact engine.isForm_scriptCall ..
  | set | read | trigger | merge => cases h

theorem StageChronicle.of_hook {stage : Stage} (hstep : stage.step? = some (.hook key phase form))
    (h : (engine.carryOut stage).Ends s es answer t) :
    ∃ marks, Tells marks s es t ∧ StageChronicle engine stage s marks := by
  obtain ⟨es', rfl, hcalls⟩ := (isForm_of_step? hstep).ends h
  exact ⟨_, (threads_form hstep).of_ends h, .hook hstep hcalls⟩

/-- However a stage ends, its marks are those of a stage of its kind. -/
theorem StageChronicle.of_carryOut {stage : Stage}
    (h : (engine.carryOut stage).Ends s es answer t) :
    ∃ marks, Tells marks s es t ∧ StageChronicle engine stage s marks := by
  cases stage with
  | set runId key index params =>
    rw [carryOut] at h
    obtain ⟨rfl, rfl, rfl⟩ := h.unique ((Run.ends_modifyContext _).bind (Run.ends_emit _))
    exact ⟨_, ⟨rfl, .change (.event .nil)⟩, .set⟩
  | inlineScript | runnable | scriptCall => exact StageChronicle.of_hook rfl h
  | read key flow =>
    rw [carryOut] at h
    obtain ⟨es', _, hread, rfl, -⟩ := runFlow_ends_iff.mp h
    obtain ⟨marks, answered, htells, hchronicle⟩ := ReadChronicle.of_readFlow hread
    have hbegun : Tells [.entry (.step (.flow key (.read flow)))] s _ s := ⟨rfl, .step .nil⟩
    exact ⟨_, hbegun.append ((Tells.event _ s).append htells), .read hchronicle⟩
  | trigger key depth flow =>
    obtain ⟨rfl, -, rfl⟩ := h.unique (engine.carryOut_trigger key depth flow s)
    exact ⟨_, ⟨rfl, .step (.event .nil)⟩, .trigger⟩
  | merge params =>
    rw [carryOut] at h
    obtain ⟨rfl, -, rfl⟩ := h.unique (Run.ends_modifyContext _)
    exact ⟨_, .change rfl, .merge⟩

/-- The marks of stages that are carried out one after another, up to the end or up to one that
breaks off, and how they end. -/
inductive Chronicle (engine : Engine σ) :
    List Stage → Site σ → List (Mark σ) → Except (Failure EngineError) Unit → Prop
  | nil : Chronicle engine [] s [] (.ok ())
  | broke : StageChronicle engine stage s marks →
    (engine.carryOut stage).Ends s (entriesOf marks) (.error e) t → Surrounds e e' →
    Chronicle engine (stage :: stages) s marks (.error e')
  | cons : StageChronicle engine stage s marks →
    (engine.carryOut stage).Ends s (entriesOf marks) (.ok ()) t →
    Chronicle engine stages t marks' answer →
    Chronicle engine (stage :: stages) s (marks ++ marks') answer

theorem Chronicle.of_carriedOut (h : CarriedOut engine before s es t)
    (h' : ∃ marks, Tells marks t es' u ∧ Chronicle engine stages t marks answer) :
    ∃ marks, Tells marks s (es ++ es') u ∧
      Chronicle engine (before ++ stages) s marks answer := by
  induction h with
  | nil => exact h'
  | cons hstage _ ih =>
    obtain ⟨marks, htells, hmarks⟩ := StageChronicle.of_carryOut hstage
    obtain ⟨marks', htells', hmarks'⟩ := ih h'
    rw [List.append_assoc]
    exact ⟨_, htells.append htells', .cons hmarks (htells.entries ▸ hstage) hmarks'⟩

/-- The chronicles of the stages that were carried out are followed by that of the one that broke
off. -/
theorem Chronicle.of_carried (h : Carried engine stages s es answer t) :
    ∃ marks, Tells marks s es t ∧ Chronicle engine stages s marks answer := by
  cases h with
  | whole h =>
    have hwhole := Chronicle.of_carriedOut h ⟨[], .nil _, .nil⟩
    rwa [List.append_nil, List.append_nil] at hwhole
  | broke h hstage _ hsurrounds =>
    obtain ⟨marks, htells, hmarks⟩ := StageChronicle.of_carryOut hstage
    exact Chronicle.of_carriedOut h
      ⟨marks, htells, .broke hmarks (htells.entries ▸ hstage) hsurrounds⟩

/-- The marks of a run: its announcement, what its parameter sets were resolved by, the marks of its
plan, and how it has ended. -/
inductive RunChronicle (engine : Engine σ) (runId key : String) (given : Option (List Row)) :
    Site σ → List (Mark σ) → Except (Failure EngineError) Unit → Prop
  | unknown : engine.pipelines.find? key = none →
    RunChronicle engine runId key given s
      (.entry (.event (.runStarted runId key)) ::
        (lastEntries runId key (.error (.error (.pipelineNotFound key)))).map .entry)
      (.error (.error (.pipelineNotFound key)))
  | unresolved : engine.pipelines.find? key = some p →
    Resolved engine p given s es (.error e) t →
    RunChronicle engine runId key given s
      (.entry (.event (.runStarted runId key)) ::
        (es.map .entry ++ (lastEntries runId key (.error e)).map .entry)) (.error e)
  | followed : engine.pipelines.find? key = some p →
    Resolved engine p given s es (.ok sets) t →
    Chronicle engine (engine.plan maxTriggerDepth runId p 0 sets) t marks answer →
    RunChronicle engine runId key given s
      (.entry (.event (.runStarted runId key)) ::
        (es.map .entry ++ (marks ++ (lastEntries runId key answer).map .entry))) answer

theorem Resolved.tells {given : Option (List Row)} (h : Resolved engine p given s es answer t) :
    Tells (es.map .entry) s es t := by
  cases h with
  | given | empty => exact .nil _
  | provided _ _ _ _ hcontext | unusable _ _ _ _ hcontext | failed _ _ _ _ hcontext =>
    exact .access _ hcontext _

theorem tells_lastEntries (runId key : String) (answer : Except (Failure EngineError) Unit)
    (s : Site σ) :
    Tells ((lastEntries runId key answer).map .entry) s (lastEntries runId key answer) s := by
  rcases answer with (e | message) | ⟨⟩
  · exact .event _ s
  · exact .nil s
  · exact .event _ s

/-- Every run has a chronicle, also one in which something panics. -/
theorem RunChronicle.of_run {given : Option (List Row)}
    (h : (engine.run runId key given).Ends s es answer t) :
    ∃ marks, Tells marks s es t ∧ RunChronicle engine runId key given s marks answer := by
  have hstarted := Tells.event (.runStarted runId key) s
  cases RunOf.of_run 0 h with
  | unknown hfound =>
    have hlast := tells_lastEntries runId key (.error (.error (.pipelineNotFound key))) s
    exact ⟨_, hstarted.append hlast, .unknown hfound⟩
  | unresolved hfound hresolved =>
    exact ⟨_, hstarted.append (hresolved.tells.append (tells_lastEntries ..)),
      .unresolved hfound hresolved⟩
  | followed hfound hresolved hcarried =>
    obtain ⟨marks, htells, hchronicle⟩ := Chronicle.of_carried hcarried
    exact ⟨_, hstarted.append (hresolved.tells.append (htells.append (tells_lastEntries ..))),
      .followed hfound hresolved hchronicle⟩

/-- **What changes the context.** A run has a chronicle, in which every two calls of components that
follow one another are such that the second begins in what the changes between them make of the
context that the first has left. So a variable has the value that the last of these changes has
given it, and if none of them has to do with it, it is left as it was. -/
theorem run_threads (engine : Engine σ) (runId key : String) (given : Option (List Row))
    (live : Live σ) :
    ∃ marks, ((engine.run runId key given).exec live).2.journal =
        (entriesOf marks).reverse ++ live.journal ∧
      RunChronicle engine runId key given live.toSite marks
        ((engine.run runId key given).exec live).1 ∧
      ∀ t between s, Consecutive marks t between s →
        s.context = (changesOf between).foldl Context.after t.context ∧
        ∀ name, s.context.get? name =
          (lastGiven (Change.gives name) (changesOf between)).getD (t.context.get? name) := by
  have hexec : (engine.run runId key given).exec live = (_, _) := rfl
  obtain ⟨es, hends, hjournal⟩ := Run.ends_of_exec hexec
  obtain ⟨marks, htells, hchronicle⟩ := RunChronicle.of_run hends
  refine ⟨marks, htells.entries ▸ hjournal, hchronicle, fun t between s hconsecutive => ?_⟩
  have hcontext := htells.threaded.consecutive hconsecutive
  exact ⟨hcontext, fun name => hcontext ▸ t.context.get?_foldl_after (changesOf between) name⟩

end Engine

end RowFlow
