import RowFlow.Proofs.Refusals

/-!
# The dead letters of a run

Whatever a run that ends well does, the calls of the writer of dead letters are exactly those for
the rows that its writers have left behind, one for each time that a writer has been executed and
has left any, in the order in which these executions were finished (`Engine.run_buries`). A writer
is finished after the writers that follow it. The relation `Executed` tells how the entries of an
execution are put together from its own calls, those of the writers that follow, and the letter; and
`Woven` tells how those of a run are put together from the executions in its flows.
-/

namespace RowFlow

variable {σ : Type}

/-! ## What is left behind -/

/-- The rows that a writer in a flow of a pipeline has left behind, and the site it was finished
in. -/
structure Remains (σ : Type) where
  key : String
  rows : List Row
  site : Site σ

/-- What a writer leaves behind, unless all rows have been written. -/
def leftBehind (key : String) (failed : List Row) (site : Site σ) : List (Remains σ) :=
  if failed.isEmpty then [] else [⟨key, failed, site⟩]

/-- A record for each row: the key of the pipeline, the number of the batch if there is one in the
context, and the row. -/
def Remains.records (r : Remains σ) : List Row :=
  r.rows.map fun row =>
    [("batchIndex", (r.site.context.get? "batchIndex").getD .null),
      ("failedRecord", .object row), ("pipelineKey", .text r.key)]

/-- The row is a field of its record and not laid over it, so none of its own fields is lost. -/
theorem deadRecord_eq (key : String) (ctx : Context) (row : Row) :
    Engine.deadRecord key ctx row =
      [("batchIndex", (ctx.get? "batchIndex").getD .null), ("failedRecord", .object row),
        ("pipelineKey", .text key)] := by
  have hbatch : "batchIndex" < "pipelineKey" := by decide
  have hrow : ¬ "failedRecord" < "batchIndex" := by decide
  have hne : "batchIndex" ≠ "failedRecord" := by decide
  have hlast : "failedRecord" < "pipelineKey" := by decide
  simp [Engine.deadRecord, Dict.ofEntries, Dict.insertAll, Dict.insert, Context.pipelineKeyKey,
    Context.batchIndexKey, hbatch, hrow, hne, hlast]

theorem Remains.records_eq (key : String) (failed : List Row) (s : Site σ) :
    failed.map (Engine.deadRecord key s.context) = (Remains.mk key failed s).records := by
  simp only [records, ← deadRecord_eq]

/-- Whether an entry is a call of the writer of dead letters. -/
def Entry.isLetter : Entry σ → Bool
  | .call (.deadLetter ..) .. => true
  | _ => false

def Entry.isEvent : Entry σ → Bool
  | .event _ => true
  | _ => false

/-- What has been begun and called, without the events. -/
def doings (es : List (Entry σ)) : List (Entry σ) := es.filter fun entry => !entry.isEvent

theorem doings_append (es es' : List (Entry σ)) : doings (es ++ es') = doings es ++ doings es' :=
  List.filter_append ..

/-- An entry that neither begins a flow nor is a call of a sink. -/
def Entry.IsAside : Entry σ → Prop
  | .step (.flow ..) => False
  | .call (.writeBatch ..) .. | .call (.writeRow ..) .. | .call (.deadLetter ..) .. => False
  | _ => True

theorem Entry.IsAside.isLetter {entry : Entry σ} (h : entry.IsAside) : entry.isLetter = false := by
  unfold Entry.isLetter
  split
  · exact h.elim
  · rfl

theorem Entry.IsFunctionCall.isAside {entry : Entry σ} (h : entry.IsFunctionCall) :
    entry.IsAside := by
  unfold IsFunctionCall at h
  split at h <;> trivial

/-- The writers that a flow has. -/
def Flow.writers : Flow → List WriterSpec
  | .read flow => flow.writers
  | .trigger _ => []

namespace Engine

/-- There is a writer of dead letters for every pipeline. -/
def HasDeadLetters (engine : Engine σ) : Prop :=
  ∀ key, ∃ writer, engine.registry.resolve (some key) engine.deadLetter.writer =
    some (.writer writer)

/-- An entry is the call by which remains are handed to the writer of dead letters: in one call, at
the site they were left in. -/
inductive Letter (engine : Engine σ) : Entry σ → Remains σ → Prop
  | mk {r : Remains σ} : engine.prepareDeadLetter r.key r.site.context = .ok (some d) →
    (d.writer.sink.batch .create r.records).exec r.site = (.ok (), t) →
    Letter engine (.call (.deadLetter d.target r.records) r.site t true) r

/-- The entries of an execution of a writer, if there is one, for rows: its own calls, the writer
for successes, the writer for failures, and the letter for what it leaves behind. The list of what
was left behind is in the order in which the writers were finished. -/
inductive Executed (engine : Engine σ) (key : String) :
    Option WriterSpec → List Row → List (Entry σ) → List (Remains σ) → Prop
  | nobody : Executed engine key none rows [] []
  | skipped : settings.enabled = false ∨ rows = [] →
    Executed engine key (some (.mk settings onSuccess onFailure)) rows [] []
  | writer : engine.prepareWriter key ctx settings = .ok w →
    Delivered w settings.action rows outcome s es₁ t →
    Executed engine key onSuccess outcome.written es₂ left →
    Executed engine key onFailure outcome.failed es₃ left' →
    Buried engine key outcome.failed u es₄ v →
    Executed engine key (some (.mk settings onSuccess onFailure)) rows
      (es₁ ++ (es₂ ++ (es₃ ++ es₄))) (left ++ (left' ++ leftBehind key outcome.failed u))

/-- The entries of a flow with such writers, and what these have left behind. -/
inductive Worked (engine : Engine σ) (key : String) (writers : List WriterSpec) :
    List (Entry σ) → List (Remains σ) → Prop
  | nil : Worked engine key writers [] []
  | aside : entry.IsAside → Worked engine key writers es left →
    Worked engine key writers (entry :: es) left
  | writer : spec ∈ writers → Executed engine key (some spec) rows es left →
    Worked engine key writers es' left' → Worked engine key writers (es ++ es') (left ++ left')

/-- The entries of a run, and what the writers of its flows have left behind. Every flow is that of
the pipeline which it is announced for. -/
inductive Woven (engine : Engine σ) : List (Entry σ) → List (Remains σ) → Prop
  | nil : Woven engine [] []
  | aside : entry.IsAside → Woven engine es left → Woven engine (entry :: es) left
  | flow : Worked engine key flow.writers es left → Woven engine es' left' →
    Woven engine (.step (.flow key flow) :: (es ++ es')) (left ++ left')

variable {engine : Engine σ} {key : String}

theorem Worked.append (h : Worked engine key writers es left)
    (h' : Worked engine key writers es' left') :
    Worked engine key writers (es ++ es') (left ++ left') := by
  induction h with
  | nil => exact h'
  | aside haside _ ih => exact .aside haside ih
  | writer hspec hexecuted _ ih =>
    rw [List.append_assoc, List.append_assoc]
    exact .writer hspec hexecuted ih

/-- What stands aside of executions leaves nothing behind. -/
theorem Worked.asides {es : List (Entry σ)} (h : ∀ entry ∈ es, entry.IsAside) :
    Worked engine key writers es [] := by
  induction es with
  | nil => exact .nil
  | cons entry es ih =>
    obtain ⟨hentry, hes⟩ := List.forall_mem_cons.mp h
    exact .aside hentry (ih hes)

theorem Woven.append (h : Woven engine es left) (h' : Woven engine es' left') :
    Woven engine (es ++ es') (left ++ left') := by
  induction h with
  | nil => exact h'
  | aside haside _ ih => exact .aside haside ih
  | flow hworked _ ih =>
    rw [List.append_assoc, List.cons_append, List.append_assoc]
    exact .flow hworked ih

/-! ## The letters -/

theorem letters_append {es es' : List (Entry σ)} {left left' : List (Remains σ)}
    (h : List.Forall₂ (Letter engine) (es.filter Entry.isLetter) left)
    (h' : List.Forall₂ (Letter engine) (es'.filter Entry.isLetter) left') :
    List.Forall₂ (Letter engine) ((es ++ es').filter Entry.isLetter) (left ++ left') := by
  rw [List.filter_append]
  exact List.rel_append h h'

theorem RowByRow.letters {w : ReadyWriter σ} (h : RowByRow w action rows verdicts s es t) :
    es.filter Entry.isLetter = [] := by
  induction h with
  | nil => rfl
  | written _ _ ih | failed _ _ ih => exact ih

theorem Delivered.letters {w : ReadyWriter σ} (h : Delivered w action rows outcome s es t) :
    es.filter Entry.isLetter = [] := by
  cases h with
  | bulk => rfl
  | eachRow _ hrows => exact hrows.letters

/-- If every pipeline has a writer of dead letters, looking it up can not come back empty-handed. -/
theorem prepareDeadLetter_ne_none (hdead : engine.HasDeadLetters) (ctx : Context) :
    engine.prepareDeadLetter key ctx ≠ .ok none := by
  obtain ⟨writer, hwriter⟩ := hdead key
  rw [prepareDeadLetter, hwriter]
  intro h
  obtain ⟨instruction, -, hbind⟩ := bind_ok_iff.mp h
  obtain ⟨bound, -, hpure⟩ := bind_ok_iff.mp hbind
  cases hpure

/-- The one call for dead letters has a record for each row that is left behind. -/
theorem Buried.letters (hdead : engine.HasDeadLetters) (h : Buried engine key failed s es t) :
    List.Forall₂ (Letter engine) (es.filter Entry.isLetter) (leftBehind key failed s) := by
  cases h with
  | nothing => exact .nil
  | nowhere _ hnone => exact (prepareDeadLetter_ne_none hdead _ hnone).elim
  | buried hfailed hd hrecords hexec =>
    rw [Remains.records_eq] at hrecords
    subst hrecords
    rw [leftBehind, if_neg (by simpa using hfailed)]
    exact .cons (.mk hd hexec) .nil

theorem Executed.letters (hdead : engine.HasDeadLetters)
    (h : Executed engine key next rows es left) :
    List.Forall₂ (Letter engine) (es.filter Entry.isLetter) left := by
  induction h with
  | nobody | skipped => exact .nil
  | writer _ hdelivered _ _ hburied hsuccess hfailure =>
    rw [List.filter_append, hdelivered.letters, List.nil_append]
    exact letters_append hsuccess (letters_append hfailure (hburied.letters hdead))

theorem Worked.letters (hdead : engine.HasDeadLetters) (h : Worked engine key writers es left) :
    List.Forall₂ (Letter engine) (es.filter Entry.isLetter) left := by
  induction h with
  | nil => exact .nil
  | aside haside _ ih =>
    rw [List.filter_cons_of_neg (by simp [haside.isLetter])]
    exact ih
  | writer _ hexecuted _ ih => exact letters_append (hexecuted.letters hdead) ih

/-- Each letter is for what one execution has left behind, in the order in which these end. -/
theorem Woven.letters (hdead : engine.HasDeadLetters) (h : Woven engine es left) :
    List.Forall₂ (Letter engine) (es.filter Entry.isLetter) left := by
  induction h with
  | nil => exact .nil
  | aside haside _ ih =>
    rw [List.filter_cons_of_neg (by simp [haside.isLetter])]
    exact ih
  | flow hworked _ ih =>
    rw [List.filter_cons_of_neg (by simp [Entry.isLetter])]
    exact letters_append (hworked.letters hdead) ih

/-! ## Executions of writers -/

theorem RowByRow.doings {w : ReadyWriter σ} (h : RowByRow w action rows verdicts s es t) :
    doings es = es := by
  induction h with
  | nil => rfl
  | written _ _ ih | failed _ _ ih => exact congrArg _ ih

theorem Delivered.doings {w : ReadyWriter σ} (h : Delivered w action rows outcome s es t) :
    doings es = es := by
  cases h with
  | bulk => rfl
  | eachRow _ hrows => exact congrArg _ hrows.doings

theorem Buried.doings (h : Buried engine key failed s es t) : doings es = es := by
  cases h <;> rfl

mutual

/-- A writer that accounts for its rows has been executed, and with it the writers that follow. -/
theorem Executed.of_accounted : {spec : WriterSpec} → {w : ReadyWriter σ} → {rows : List Row} →
    {outcome : Outcome} → {s : Site σ} → {es : List (Entry σ)} → {t : Site σ} →
    engine.prepareWriter key ctx spec.settings = .ok w →
    Accounted engine key spec w rows outcome s es t →
      ∃ left, Executed engine key (some spec) rows (RowFlow.doings es) left
  | _, _, _, _, _, _, _, _, .disabled henabled => ⟨[], .skipped (.inl henabled)⟩
  | _, _, _, _, _, _, _, _, .noRows _ => ⟨[], .skipped (.inr rfl)⟩
  | _, _, _, _, _, _, _, hready, .delivered _ _ _ hdelivered _ hsuccess hfailure hburied => by
    obtain ⟨left, hsuccess⟩ := Executed.of_passedOn hsuccess
    obtain ⟨left', hfailure⟩ := Executed.of_passedOn hfailure
    rw [doings_append, doings_append, doings_append, hdelivered.doings, hburied.doings]
    exact ⟨_, .writer hready hdelivered hsuccess hfailure hburied⟩

theorem Executed.of_passedOn : {announcement : Nat → Event} → {next : Option WriterSpec} →
    {rows : List Row} → {s : Site σ} → {es : List (Entry σ)} → {t : Site σ} →
    PassedOn engine key announcement next rows s es t →
      ∃ left, Executed engine key next rows (RowFlow.doings es) left
  | _, none, _, _, _, _, .nothing => ⟨[], .nobody⟩
  | _, some (.mk ..), _, _, _, _, .nothing => ⟨[], .skipped (.inr rfl)⟩
  | _, _, _, _, _, _, .nobody _ => ⟨[], .nobody⟩
  | _, _, _, _, _, _, .handed _ hready haccounted => by
    obtain ⟨left, hexecuted⟩ := Executed.of_accounted hready haccounted
    exact ⟨left, hexecuted⟩

end

/-! ## Flows that read -/

/-- If the part ends well, its entries are those of a flow with such writers. -/
structure Works (engine : Engine σ) (key : String) (writers : List WriterSpec)
    (run : Run σ ε α) : Prop where
  ends : ∀ s, ∃ es answer t, run.Ends s es answer t ∧
    ∀ a, answer = .ok a → ∃ left, Worked engine key writers (doings es) left

namespace Works

variable {writers : List WriterSpec} {run : Run σ ε α} {f : α → Run σ ε β}

theorem of_ends (h : Works engine key writers run) (hends : run.Ends s es (.ok a) t) :
    ∃ left, Worked engine key writers (doings es) left := by
  obtain ⟨es', answer, t', hends', hworked⟩ := h.ends s
  obtain ⟨rfl, rfl, -⟩ := hends.unique hends'
  exact hworked a rfl

theorem of_makes (h : run.Makes Entry.IsAside) : Works engine key writers run := by
  refine ⟨fun s => ?_⟩
  obtain ⟨es, answer, t, hends, haside⟩ := h.ends s
  refine ⟨es, answer, t, hends, fun a _ => ⟨[], ?_⟩⟩
  exact .asides fun entry hmem => haside entry (List.mem_of_mem_filter hmem)

theorem pure (a : α) : Works engine key writers (Pure.pure a : Run σ ε α) := of_makes (.pure a)

/-- Parts that follow each other work with the same writers if each of them does. -/
theorem bind (h : Works engine key writers run) (h' : ∀ a, Works engine key writers (f a)) :
    Works engine key writers (run >>= f) := by
  refine ⟨fun s => ?_⟩
  obtain ⟨es, answer, t, hends, hworked⟩ := h.ends s
  cases answer with
  | error e => exact ⟨es, .error e, t, hends.bind_error, nofun⟩
  | ok a =>
    obtain ⟨es', answer, u, hends', hworked'⟩ := (h' a).ends t
    refine ⟨es ++ es', answer, u, hends.bind hends', fun b hb => ?_⟩
    obtain ⟨left, hleft⟩ := hworked a rfl
    obtain ⟨left', hleft'⟩ := hworked' b hb
    rw [doings_append]
    exact ⟨left ++ left', hleft.append hleft'⟩

/-- What comes next may rely on the answer that there is. -/
theorem bind_ofExcept {x : Except ε α} (h : ∀ a, x = .ok a → Works engine key writers (f a)) :
    Works engine key writers (Run.ofExcept x >>= f) := by
  cases x with
  | error e => exact ⟨fun s => ⟨[], _, s, (Run.ends_fail e).bind_error, nofun⟩⟩
  | ok a =>
    refine ⟨fun s => ?_⟩
    obtain ⟨es, answer, t, hends, hworked⟩ := (h a rfl).ends s
    exact ⟨es, answer, t, (Run.ends_pure a).bind_silent hends, hworked⟩

theorem after_context {f : Context → Run σ ε β} (h : ∀ ctx, Works engine key writers (f ctx)) :
    Works engine key writers (Run.context >>= f) := bind (of_makes .context) h

end Works

section Reading

variable {flow : ReadFlow} {writers : List (WriterSpec × ReadyWriter σ)}

/-- A writer of the flow that is ready is executed once. -/
theorem works_write {spec : WriterSpec} (hspec : spec ∈ flow.writers)
    (hready : engine.prepareWriter key ctx spec.settings = .ok w) (rows : List Row) :
    Works engine key flow.writers (engine.write key spec w rows) := by
  refine ⟨fun s => ?_⟩
  obtain ⟨es, answer, t, hends⟩ := Run.Adds.ends (engine.write key spec w rows) s
  refine ⟨es, answer, t, hends, ?_⟩
  rintro outcome rfl
  obtain ⟨left, hexecuted⟩ := Executed.of_accounted hready (Accounted.of_write spec hends)
  have hworked := Worked.writer hspec hexecuted .nil
  rw [List.append_nil, List.append_nil] at hworked
  exact ⟨left, hworked⟩

theorem works_writeAll (hready : Ready engine key flow writers) (rows : List Row) :
    Works engine key flow.writers (engine.writeAll key writers rows) := by
  induction writers with
  | nil => exact .pure ()
  | cons writer writers ih =>
    obtain ⟨spec, w⟩ := writer
    obtain ⟨hspec, ctx, hw⟩ := hready spec w List.mem_cons_self
    have hrest : Ready engine key flow writers :=
      fun spec w hmem => hready spec w (List.mem_cons_of_mem _ hmem)
    rw [writeAll_cons]
    exact .bind (.bind (works_write hspec hw rows) fun _ => .pure ()) fun _ => ih hrest

theorem works_transform (spec : ReaderSpec) (rows : List Row) :
    Works engine key flow.writers (engine.transform spec rows) :=
  .of_makes ((engine.makes_transform spec rows).mono fun _ h => h.isAside)

theorem works_capture (spec : ReaderSpec) (value : Value) :
    Works engine key flow.writers (capture (σ := σ) spec value) := by
  unfold capture
  split
  · exact .pure ()
  · exact .of_makes (.nothing fun _ => Run.ends_modifyContext _)

theorem works_handleBatch (hready : Ready engine key flow writers) (label : String)
    (spec : ReaderSpec) (index : Nat) (batch : List Row) :
    Works engine key flow.writers (engine.handleBatch key label spec writers index batch) := by
  refine .bind (.of_makes (.emit trivial)) fun _ => ?_
  split
  · refine .bind (works_transform spec batch) fun rows => ?_
    split
    · exact works_writeAll hready rows
    · exact .pure ()
  · exact .pure ()

theorem works_processBatch (hready : Ready engine key flow writers) (label : String)
    (spec : ReaderSpec) (index : Nat) (batch : List Row) :
    Works engine key flow.writers (engine.processBatch key label spec writers index batch) := by
  rw [processBatch_eq]
  refine .bind (.of_makes (.nothing fun _ => Run.ends_modifyContext _)) fun _ => ?_
  refine .bind (.of_makes (.nothing fun _ => Run.ends_modifyContext _)) fun _ => ?_
  exact works_handleBatch hready label spec index batch

theorem works_consume {onBatch : Nat → List Row → Run σ EngineError Unit}
    (h : ∀ index batch, Works engine key flow.writers (onBatch index batch)) (reader : Target)
    (index : Nat) (batches : Batches σ) :
    Works engine key flow.writers (consume reader onBatch index batches) := by
  induction batches generalizing index with
  | last finish => exact .of_makes (.mapError (.access fun _ _ _ _ => trivial) _)
  | next read rest ih =>
    rw [consume]
    refine .bind (.of_makes (.mapError (.access fun _ _ _ _ => trivial) _)) fun batch => ?_
    cases batch with
    | none => exact .pure ()
    | some batch =>
      exact .bind (.of_makes .world) fun world => .bind (h index batch) fun _ => ih world _

theorem works_readAndClose {reading : Run σ EngineError Unit} [Run.Adds reading]
    (h : Works engine key flow.writers reading) (reader : Target)
    (close : Access σ AdapterError Unit) :
    Works engine key flow.writers (readAndClose reading reader close) := by
  refine ⟨fun s => ?_⟩
  obtain ⟨es, answer, t, hends⟩ := Run.Adds.ends (readAndClose reading reader close) s
  refine ⟨es, answer, t, hends, ?_⟩
  rintro ⟨⟩ rfl
  obtain ⟨es₁, consumed, u, closed, hreading, -, -, rfl, hanswer⟩ := readAndClose_ends hends nofun
  cases consumed with
  | error e => cases hanswer
  | ok =>
    obtain ⟨left, hworked⟩ := h.of_ends hreading
    have hcall : Worked engine key flow.writers [.call (.closeBatches reader) u t closed.isOk] [] :=
      .aside trivial .nil
    have hclosing := hworked.append hcall
    rw [List.append_nil] at hclosing
    rw [doings_append]
    exact ⟨left, hclosing⟩

theorem works_readInBatches (hready : Ready engine key flow writers) (label : String)
    (spec : ReaderSpec) (r : ReadyReader σ) :
    Works engine key flow.writers (engine.readInBatches key label spec r writers) := by
  refine .after_context fun ctx => ?_
  refine .bind (.of_makes (.mapError (.access fun _ _ _ _ => trivial) _)) fun cursor => ?_
  exact works_readAndClose (works_consume (works_processBatch hready label spec) _ _ _) _ _

theorem works_readOne (hready : Ready engine key flow writers) (spec : ReaderSpec)
    (r : ReadyReader σ) : Works engine key flow.writers (engine.readOne key spec r writers) := by
  rw [readOne_eq]
  refine .after_context fun ctx => ?_
  refine .bind (.of_makes (.mapError (.access fun _ _ _ _ => trivial) _)) fun found => ?_
  cases found with
  | none => exact .pure ()
  | some row =>
    refine .bind (works_transform spec [row]) fun rows => ?_
    cases rows with
    | nil => exact .pure ()
    | cons row rows => exact .bind (works_capture _ _) fun _ => works_writeAll hready [row]

theorem works_readAll (hready : Ready engine key flow writers) (spec : ReaderSpec)
    (r : ReadyReader σ) : Works engine key flow.writers (engine.readAll key spec r writers) := by
  refine .after_context fun ctx => ?_
  refine .bind (.of_makes (.mapError (.access fun _ _ _ _ => trivial) _)) fun found => ?_
  refine .bind (works_transform spec found) fun rows => ?_
  exact .bind (works_capture _ _) fun _ => works_writeAll hready rows

theorem works_readFlow (engine : Engine σ) (key label : String) (flow : ReadFlow) :
    Works engine key flow.writers (engine.readFlow key label flow) := by
  refine .after_context fun ctx => .bind_ofExcept fun r hr => .bind_ofExcept fun writers hw => ?_
  have hprepared : Prepared engine key flow ctx r writers := ⟨hr, hw⟩
  have hready : Ready engine key flow writers := hprepared.ready
  split
  · exact works_readOne hready flow.reader r
  · exact works_readAll hready flow.reader r
  · exact works_readInBatches hready label flow.reader r

end Reading

/-! ## Runs -/

theorem Woven.asides {es : List (Entry σ)} (h : ∀ entry ∈ es, entry.IsAside) :
    Woven engine es [] := by
  induction es with
  | nil => exact .nil
  | cons entry es ih =>
    obtain ⟨hentry, hes⟩ := List.forall_mem_cons.mp h
    exact .aside hentry (ih hes)

/-- A part that makes only entries aside leaves nothing behind, however it ends. -/
theorem Woven.of_makes {run : Run σ ε α} (h : run.Makes Entry.IsAside)
    (hends : run.Ends s es answer t) : ∃ left, Woven engine (doings es) left :=
  ⟨[], .asides fun entry hmem => h.of_ends hends entry (List.mem_of_mem_filter hmem)⟩

theorem makes_inlineScript (engine : Engine σ) (key : String) (phase : Phase)
    (template : String) : (engine.runInlineScript key phase template).Makes Entry.IsAside := by
  refine .bind (.begin trivial) fun _ => .bind .context fun ctx => .bind (.ofExcept _) fun _ => ?_
  exact .mapError (.access fun _ _ _ _ => trivial) _

theorem makes_runnable (engine : Engine σ) (key : String) (phase : Phase) (template : String) :
    (engine.runRunnable key phase template).Makes Entry.IsAside := by
  refine .bind (.begin trivial) fun _ => .bind .context fun ctx => .bind (.ofExcept _) fun _ => ?_
  exact .bind (.ofExcept _) fun _ => .mapError (.call fun _ _ _ => trivial) _

theorem makes_scriptCall (engine : Engine σ) (key : String) (phase : Phase) (call : ScriptCall) :
    (engine.runScriptCall key phase call).Makes Entry.IsAside := by
  refine .bind (.begin trivial) fun _ => .bind (.mapError (.access fun _ _ _ _ => trivial) _) ?_
  exact fun _ => .pure ()

/-- A stage is a flow, or it is aside of all flows. -/
theorem Woven.of_carryOut {stage : Stage} (h : (engine.carryOut stage).Ends s es (.ok ()) t) :
    ∃ left, Woven engine (doings es) left := by
  cases stage with
  | set =>
    rw [carryOut] at h
    obtain ⟨rfl, -, -⟩ := h.unique ((Run.ends_modifyContext _).bind (Run.ends_emit _))
    exact ⟨[], .nil⟩
  | inlineScript => exact Woven.of_makes (engine.makes_inlineScript ..) h
  | runnable => exact Woven.of_makes (engine.makes_runnable ..) h
  | scriptCall => exact Woven.of_makes (engine.makes_scriptCall ..) h
  | read key flow =>
    rw [carryOut] at h
    obtain ⟨es', answer, hread, rfl, hanswer⟩ := runFlow_ends_iff.mp h
    cases answer with
    | error e => cases hanswer
    | ok =>
      obtain ⟨left, hworked⟩ := (engine.works_readFlow key _ flow).of_ends hread
      have hflow : Woven engine (.step (.flow key (.read flow)) :: (doings es' ++ [])) (left ++ []) :=
        .flow hworked .nil
      rw [List.append_nil, List.append_nil] at hflow
      exact ⟨left, hflow⟩
  | trigger key depth flow =>
    obtain ⟨rfl, -, -⟩ := h.unique (engine.carryOut_trigger key depth flow s)
    have hworked : Worked engine key (Flow.trigger flow).writers [] [] := .nil
    exact ⟨[], .flow hworked .nil⟩
  | merge params =>
    rw [carryOut] at h
    obtain ⟨rfl, -, -⟩ := h.unique (Run.ends_modifyContext _)
    exact ⟨[], .nil⟩

theorem Woven.of_carriedOut (h : CarriedOut engine stages s es t) :
    ∃ left, Woven engine (doings es) left := by
  induction h with
  | nil => exact ⟨[], .nil⟩
  | cons hstage _ ih =>
    obtain ⟨left, hfirst⟩ := Woven.of_carryOut hstage
    obtain ⟨left', hrest⟩ := ih
    rw [doings_append]
    exact ⟨left ++ left', hfirst.append hrest⟩

/-- Resolving the parameter sets hands no rows to a sink. -/
theorem Woven.of_resolved {p : Pipeline} {given : Option (List Row)}
    (h : Resolved engine p given s es answer t) : Woven engine (doings es) [] := by
  cases h with
  | given | empty => exact .nil
  | provided | unusable | failed => exact .aside trivial .nil

/-- A letter is a call, so it is not lost with the events. -/
theorem letters_doings (es : List (Entry σ)) :
    (doings es).filter Entry.isLetter = es.filter Entry.isLetter := by
  rw [doings, List.filter_filter]
  refine List.filter_congr fun entry _ => ?_
  cases entry <;> simp [Entry.isLetter, Entry.isEvent]

/-- **The dead letters of a run.** If a run ends well, its calls of the writer of dead letters are
one for each time that a writer has left rows behind, in the order in which they were left. -/
theorem run_buries (hdead : engine.HasDeadLetters) {live live' : Live σ}
    (h : (engine.run runId key given).exec live = (.ok (), live')) :
    ∃ es left, live'.journal = es.reverse ++ live.journal ∧ Woven engine (doings es) left ∧
      List.Forall₂ (Letter engine) (es.filter Entry.isLetter) left := by
  obtain ⟨es, hends, hjournal⟩ := Run.ends_of_exec h
  have hwoven : ∃ left, Woven engine (doings es) left := by
    cases RunOf.of_run 0 hends with
    | followed _ hresolved hcarried _ hwhole =>
      obtain ⟨left, hstages⟩ := Woven.of_carriedOut (hwhole.mp rfl)
      have hlast : doings (lastEntries (σ := σ) runId key (.ok ())) = [] := rfl
      have hbegun := (Woven.of_resolved hresolved).append hstages
      refine ⟨left, ?_⟩
      rw [← List.singleton_append, doings_append, doings_append, doings_append, hlast,
        List.append_nil]
      exact hbegun
  obtain ⟨left, hwoven⟩ := hwoven
  refine ⟨es, left, hjournal, hwoven, ?_⟩
  rw [← letters_doings]
  exact hwoven.letters hdead

/-- A reader of one row. -/
def sampleSource : Reader Unit where
  bind _ _ := .ok {
    findOne := fun _ => pure (some [("id", .nat 1)])
    findAll := fun _ => pure [[("id", .nat 1)]]
    findBatches := fun _ _ => pure (.ofList [[[("id", .nat 1)]]]) }

/-- A sink that takes no rows. -/
def sampleFull : Sink Unit where
  batch _ _ := Act.fail (.unsupported "bulk calls")
  row _ _ := Act.fail (.rejected "full")

/-- A flow whose row is refused by its writer, and then by the writer for failures. -/
def sampleRefused : ReadFlow where
  id := "copy"
  desc := ""
  reader := { component := "source", mode := .allAtOnce }
  writers := [.mk { component := "full" } none (some (.mk { component := "full" } none none))]

def samplePipeline (key : String) (flows : List Flow) : Pipeline where
  key
  flows
  pre := none
  post := none
  schedules := []
  scheduleEnabled := true
  paramsProvider := none
  components := []
  scripts := []

/-- A pipeline that triggers one in which a row is refused. -/
def sampleTriggering : Engine Unit where
  pipelines :=
    [("child", samplePipeline "child" [.read sampleRefused]),
      ("parent", samplePipeline "parent" [.trigger ⟨"", "", "child", none⟩])]
  registry :=
    { globals :=
        [("failedRecordsAppender", .writer sampleAppender),
          ("full", .writer ⟨false, fun _ _ => .ok sampleFull⟩),
          ("source", .reader sampleSource)] }
  scripts := sampleEngine.scripts

theorem run_buries_refused_row :
    sampleTriggering.HasDeadLetters ∧
    ∃ live', (sampleTriggering.run "r" "parent" none).exec sampleStart = (.ok (), live') ∧
      ∃ es left, live'.journal = es.reverse ++ [] ∧ Woven sampleTriggering (doings es) left ∧
        List.Forall₂ (Letter sampleTriggering) (es.filter Entry.isLetter) left := by
  have hdead : sampleTriggering.HasDeadLetters := fun key => ⟨sampleAppender, rfl⟩
  obtain ⟨live', hrun⟩ : ∃ live', (sampleTriggering.run "r" "parent" none).exec sampleStart =
      (.ok (), live') := ⟨_, Prod.ext (by cbv) rfl⟩
  exact ⟨hdead, live', hrun, run_buries hdead hrun⟩

end Engine

end RowFlow
