import RowFlow.Proofs.Batches

/-!
# How a flow breaks off

A flow that reads can break off in many places, and wherever it does, what has failed is the last
thing it has done (`ReadBreaks`). The writers, the rows and the batches that were still to come see
nothing of it. The one call that may follow is the closing of the cursor that is open.
-/

namespace RowFlow

variable {σ : Type}

/-- The entries of a flow that reads. -/
def Entry.IsReading : Entry σ → Prop
  | .event (.batchRead ..) => True
  | .call (.findOne _) .. | .call (.findAll _) .. => True
  | .call (.openBatches ..) .. | .call (.nextBatch _) .. | .call (.closeBatches _) .. => True
  | entry => entry.IsWriting ∨ entry.IsFunctionCall

theorem Entry.IsWriting.isReading {entry : Entry σ} (h : entry.IsWriting) : entry.IsReading := by
  unfold IsReading
  split <;> first | trivial | exact .inl h

theorem Entry.IsFunctionCall.isReading {entry : Entry σ} (h : entry.IsFunctionCall) :
    entry.IsReading := by
  unfold IsReading
  split <;> first | trivial | exact .inr h

/-- Entries of this kind are all that a flow that reads in this way can make, writing apart. -/
structure CoversReading (spec : ReaderSpec) (kind : Entry σ → Prop) : Prop where
  function : ∀ entry, entry.IsFunctionCall → kind entry
  batchRead : ∀ key flow index rows, kind (.event (.batchRead key flow index rows))
  findOne : ∀ reader s t ok, t.context = s.context → kind (.call (.findOne reader) s t ok)
  findAll : ∀ reader s t ok, t.context = s.context → kind (.call (.findAll reader) s t ok)
  openBatches : spec.mode = .batched → ∀ reader s t ok, t.context = s.context →
    kind (.call (.openBatches reader spec.batchSize) s t ok)
  nextBatch : ∀ reader s t ok, t.context = s.context → kind (.call (.nextBatch reader) s t ok)
  closeBatches : ∀ reader s t ok, t.context = s.context → kind (.call (.closeBatches reader) s t ok)

theorem CoversReading.isReading (spec : ReaderSpec) :
    CoversReading spec (Entry.IsReading : Entry σ → Prop) where
  function _ h := h.isReading
  batchRead _ _ _ _ := trivial
  findOne _ _ _ _ _ := trivial
  findAll _ _ _ _ _ := trivial
  openBatches _ _ _ _ _ _ := trivial
  nextBatch _ _ _ _ _ := trivial
  closeBatches _ _ _ _ _ := trivial

namespace Engine

variable {engine : Engine σ} {key : String}

/-! ## Delivering rows -/

/-- Nothing but a panic breaks off the calls by which a sink is given rows. -/
inductive DeliveryBreaks (w : ReadyWriter σ) (action : WriteAction) :
    List Row → Site σ → List (Entry σ) → Failure EngineError → Site σ → Prop
  | bulk : (w.writer.sink.batch action rows).exec s = (.error (.panic message), t) →
    DeliveryBreaks w action rows s [.call (.writeBatch w.target action rows) s t false]
      (.panic message) t
  | row : (w.writer.sink.batch action (before ++ row :: after)).exec s = (.error (.error e), t) →
    RowByRow w action before verdicts t es u →
    (w.writer.sink.row action row).exec u = (.error (.panic message), v) →
    DeliveryBreaks w action (before ++ row :: after) s
      (.call (.writeBatch w.target action (before ++ row :: after)) s t false ::
        (es ++ [.call (.writeRow w.target action row) u v false])) (.panic message) v

/-- The rows before the one whose call panics have had their verdicts, and those after it are not
tried: an error of a single call is a verdict and breaks nothing off. -/
theorem writeEach_breaks {w : ReadyWriter σ} (hsupports : w.writer.supports action)
    (h : (writeEach w action rows).Ends s es (.error e) v) :
    ∃ before row after verdicts es₁ u message, rows = before ++ row :: after ∧
      RowByRow w action before verdicts s es₁ u ∧
      (w.writer.sink.row action row).exec u = (.error (.panic message), v) ∧
      es = es₁ ++ [.call (.writeRow w.target action row) u v false] ∧ e = .panic message := by
  induction rows generalizing s es with
  | nil =>
    obtain ⟨-, ha, -⟩ := Run.ends_pure_iff.mp h
    cases ha
  | cons row rows ih =>
    rw [writeEach, BoundWriter.writeRow_of_supports hsupports] at h
    rcases hexec : (w.writer.sink.row action row).exec s with ⟨(e₁ | message) | _, s₁⟩
    all_goals have hcall := Run.ends_call_of_exec (.writeRow w.target action row) hexec
    · obtain ⟨es₁, hrest, rfl⟩ := hcall.attempt.bind_iff.mp h
      obtain ⟨before, row', after, verdicts, es₂, u, message, rfl, hrows, hpanic, rfl, rfl⟩ :=
        ih (Run.ends_bind_pure_error_iff.mp hrest)
      exact ⟨row :: before, row', after, _, _, u, message, rfl, .failed hexec hrows, hpanic, rfl,
        rfl⟩
    · obtain ⟨rfl, ha, rfl⟩ := h.unique hcall.attempt.bind_error
      cases ha
      exact ⟨[], row, rows, [], [], s, message, rfl, .nil, hexec, rfl, rfl⟩
    · obtain ⟨es₁, hrest, rfl⟩ := hcall.attempt.bind_iff.mp h
      obtain ⟨before, row', after, verdicts, es₂, u, message, rfl, hrows, hpanic, rfl, rfl⟩ :=
        ih (Run.ends_bind_pure_error_iff.mp hrest)
      exact ⟨row :: before, row', after, _, _, u, message, rfl, .written hexec hrows, hpanic, rfl,
        rfl⟩

/-- A bulk call that fails with an error does not break the delivery off, since the rows are then
tried one by one. -/
theorem DeliveryBreaks.of_deliver {w : ReadyWriter σ} (hsupports : w.writer.supports action)
    (h : (deliver w action rows).Ends s es (.error e) v) :
    DeliveryBreaks w action rows s es e v := by
  rw [deliver, BoundWriter.writeBatch_of_supports hsupports] at h
  rcases hexec : (w.writer.sink.batch action rows).exec s with ⟨(e₁ | message) | _, t⟩
  all_goals have hcall := Run.ends_call_of_exec (.writeBatch w.target action rows) hexec
  · obtain ⟨es₁, hrest, rfl⟩ := hcall.attempt.bind_iff.mp h
    obtain ⟨before, row, after, verdicts, es₂, u, message, rfl, hrows, hpanic, rfl, rfl⟩ :=
      writeEach_breaks hsupports hrest
    exact .row hexec hrows hpanic
  · obtain ⟨rfl, ha, rfl⟩ := h.unique hcall.attempt.bind_error
    cases ha
    exact .bulk hexec
  · obtain ⟨es₁, hrest, rfl⟩ := hcall.attempt.bind_iff.mp h
    obtain ⟨-, ha, -⟩ := Run.ends_pure_iff.mp hrest
    cases ha

/-! ## Writing -/

/-- Failed rows can not be handed to the dead letters: their writer can not be made ready, or it
fails. -/
inductive BurialBreaks (engine : Engine σ) (key : String) :
    List Row → Site σ → List (Entry σ) → Failure EngineError → Site σ → Prop
  | unprepared : failed ≠ [] → engine.prepareDeadLetter key s.context = .error e →
    BurialBreaks engine key failed s [] (.error e) s
  | refused : failed ≠ [] → engine.prepareDeadLetter key s.context = .ok (some d) →
    records = failed.map (deadRecord key s.context) →
    (d.writer.sink.batch .create records).exec s = (.error e, t) →
    BurialBreaks engine key failed s [.call (.deadLetter d.target records) s t false]
      (e.map (.deadLetter d.target.name)) t

theorem BurialBreaks.of_bury (h : (engine.bury key failed).Ends s es (.error e) t) :
    BurialBreaks engine key failed s es e t := by
  cases failed with
  | nil =>
    obtain ⟨-, ha, -⟩ := Run.ends_pure_iff.mp h
    cases ha
  | cons row rows =>
    have hfailed := List.cons_ne_nil row rows
    rcases hd : engine.prepareDeadLetter key s.context with e₁ | _ | d
    · obtain ⟨rfl, ha, rfl⟩ := h.unique (bury_ends_unprepared hfailed hd)
      cases ha
      exact .unprepared hfailed hd
    · obtain ⟨-, ha, -⟩ := h.unique (bury_ends_nowhere hfailed hd)
      cases ha
    · rcases hexec : (d.writer.sink.batch .create _).exec s with ⟨e₁ | _, s₁⟩
      all_goals obtain ⟨rfl, ha, rfl⟩ := h.unique (bury_ends hfailed hd hexec)
      · cases ha
        exact .refused hfailed hd rfl hexec
      · cases ha

mutual

/-- How a writer breaks off: before it is called at all, in its own calls, in the writer for
successes, in the writer for failures, or on the way to the dead letters. -/
inductive WriteBreaks (engine : Engine σ) (key : String) : WriterSpec → ReadyWriter σ → List Row →
    Site σ → List (Entry σ) → Failure EngineError → Site σ → Prop
  | unsupported : settings.enabled → rows ≠ [] → w.writer.supports settings.action = false →
    WriteBreaks engine key (.mk settings onSuccess onFailure) w rows s []
      (.error (.unsupportedAction w.target.name settings.action)) s
  | delivery : settings.enabled → rows ≠ [] → w.writer.supports settings.action →
    DeliveryBreaks w settings.action rows s es e t →
    WriteBreaks engine key (.mk settings onSuccess onFailure) w rows s es e t
  | success : settings.enabled → rows ≠ [] → w.writer.supports settings.action →
    Delivered w settings.action rows outcome s es₁ s₁ →
    PassBreaks engine key (.rowsWritten key w.target.name settings.action) onSuccess
      outcome.written s₁ es₂ e s₂ →
    WriteBreaks engine key (.mk settings onSuccess onFailure) w rows s (es₁ ++ es₂) e s₂
  | failure : settings.enabled → rows ≠ [] → w.writer.supports settings.action →
    Delivered w settings.action rows outcome s es₁ s₁ →
    PassedOn engine key (.rowsWritten key w.target.name settings.action) onSuccess
      outcome.written s₁ es₂ s₂ →
    PassBreaks engine key (.recordsFailed key w.target.name) onFailure outcome.failed s₂ es₃ e s₃ →
    WriteBreaks engine key (.mk settings onSuccess onFailure) w rows s (es₁ ++ (es₂ ++ es₃)) e s₃
  | burial : settings.enabled → rows ≠ [] → w.writer.supports settings.action →
    Delivered w settings.action rows outcome s es₁ s₁ →
    PassedOn engine key (.rowsWritten key w.target.name settings.action) onSuccess
      outcome.written s₁ es₂ s₂ →
    PassedOn engine key (.recordsFailed key w.target.name) onFailure outcome.failed s₂ es₃ s₃ →
    BurialBreaks engine key outcome.failed s₃ es₄ e s₄ →
    WriteBreaks engine key (.mk settings onSuccess onFailure) w rows s
      (es₁ ++ (es₂ ++ (es₃ ++ es₄))) e s₄

/-- How the way to the writer that follows breaks off: it can not be made ready, or it breaks off
itself. -/
inductive PassBreaks (engine : Engine σ) (key : String) : (Nat → Event) → Option WriterSpec →
    List Row → Site σ → List (Entry σ) → Failure EngineError → Site σ → Prop
  | unprepared : rows ≠ [] → engine.prepareWriter key s.context spec.settings = .error e →
    PassBreaks engine key announcement (some spec) rows s [.event (announcement rows.length)]
      (.error e) s
  | writer : rows ≠ [] → engine.prepareWriter key s.context spec.settings = .ok w →
    WriteBreaks engine key spec w rows s es e t →
    PassBreaks engine key announcement (some spec) rows s
      (.event (announcement rows.length) :: es) e t

end

mutual

/-- Where a writer breaks off, along the tree of writers: everything before that part has ended
well. -/
theorem WriteBreaks.of_write : (spec : WriterSpec) → {w : ReadyWriter σ} → {rows : List Row} →
    {s : Site σ} → {es : List (Entry σ)} → {e : Failure EngineError} → {t : Site σ} →
    (engine.write key spec w rows).Ends s es (.error e) t →
      WriteBreaks engine key spec w rows s es e t
  | .mk settings onSuccess onFailure, w, rows, s, es, e, t, h => by
    cases henabled : settings.enabled with
    | false =>
      rw [write_disabled henabled] at h
      obtain ⟨-, ha, -⟩ := h.unique (skip_ends _ _ _ _)
      cases ha
    | true =>
      by_cases hrows : rows = []
      · subst hrows
        rw [write_nil henabled] at h
        obtain ⟨-, ha, -⟩ := h.unique (skip_ends _ _ _ _)
        cases ha
      cases hsupports : w.writer.supports settings.action with
      | false =>
        rw [write_unsupported henabled hrows hsupports] at h
        obtain ⟨rfl, ha, rfl⟩ := Run.ends_fail_iff.mp h
        cases ha
        exact .unsupported henabled hrows hsupports
      | true =>
        rw [write_mk henabled hrows hsupports] at h
        -- the parts before the one that breaks off have ended well, and can be accounted for
        rcases Run.ends_bind_error_iff.mp h with hdeliver | ⟨o, es₁, s₁, _, hdeliver, hrest, rfl⟩
        · exact .delivery henabled hrows hsupports (.of_deliver hsupports hdeliver)
        have hdelivered := Delivered.of_deliver hsupports hdeliver
        rcases Run.ends_bind_error_iff.mp hrest with
          hsuccess | ⟨_, es₂, s₂, _, hsuccess, hfailures, rfl⟩
        · exact .success henabled hrows hsupports hdelivered
            (PassBreaks.of_passOn onSuccess hsuccess)
        have hpassed := PassedOn.of_passOn onSuccess hsuccess
        rcases Run.ends_bind_error_iff.mp hfailures with
          hfailure | ⟨_, es₃, s₃, _, hfailure, hbury, rfl⟩
        · exact .failure henabled hrows hsupports hdelivered hpassed
            (PassBreaks.of_passOn onFailure hfailure)
        · exact .burial henabled hrows hsupports hdelivered hpassed
            (PassedOn.of_passOn onFailure hfailure)
            (.of_bury (Run.ends_bind_pure_error_iff.mp hbury))

theorem PassBreaks.of_passOn : (next : Option WriterSpec) → {announcement : Nat → Event} →
    {rows : List Row} → {s : Site σ} → {es : List (Entry σ)} → {e : Failure EngineError} →
    {t : Site σ} → (engine.passOn key announcement next rows).Ends s es (.error e) t →
      PassBreaks engine key announcement next rows s es e t
  | next, announcement, [], s, es, e, t, h => by
    rw [passOn_nil] at h
    obtain ⟨-, ha, -⟩ := Run.ends_pure_iff.mp h
    cases ha
  | none, announcement, row :: rows, s, es, e, t, h => by
    rw [passOn_none (List.cons_ne_nil _ _)] at h
    obtain ⟨-, ha, -⟩ := Run.ends_emit_iff.mp h
    cases ha
  | some spec, announcement, row :: rows, s, es, e, t, h => by
    rw [passOn_some (List.cons_ne_nil _ _)] at h
    obtain ⟨_, hrest, rfl⟩ := (Run.ends_emit _).bind_iff.mp h
    have hrest := Run.ends_context.bind_silent_iff.mp hrest
    cases hprepare : engine.prepareWriter key s.context spec.settings with
    | error e₁ =>
      rw [hprepare] at hrest
      obtain ⟨rfl, ha, rfl⟩ := hrest.unique (Run.ends_fail e₁).bind_error
      cases ha
      exact .unprepared (List.cons_ne_nil _ _) hprepare
    | ok w =>
      rw [hprepare] at hrest
      have hwrite := (Run.ends_pure w).bind_silent_iff.mp hrest
      exact .writer (List.cons_ne_nil _ _) hprepare
        (WriteBreaks.of_write spec (Run.ends_bind_pure_error_iff.mp hwrite))

end

/-- How writing the same rows with several writers breaks off: one of them does, and those after it
are not called. -/
inductive WritersBreak (engine : Engine σ) (key : String) (rows : List Row) :
    List (WriterSpec × ReadyWriter σ) → Site σ → List (Entry σ) → Failure EngineError → Site σ →
      Prop
  | here : WriteBreaks engine key spec w rows s es e t →
    WritersBreak engine key rows ((spec, w) :: writers) s es e t
  | later : Accounted engine key spec w rows outcome s es t →
    WritersBreak engine key rows writers t es' e u →
    WritersBreak engine key rows ((spec, w) :: writers) s (es ++ es') e u

/-- The writers before the one that breaks off have accounted for the rows. -/
theorem WritersBreak.of_writeAll {writers : List (WriterSpec × ReadyWriter σ)}
    (h : (engine.writeAll key writers rows).Ends s es (.error e) t) :
    WritersBreak engine key rows writers s es e t := by
  induction writers generalizing s es with
  | nil =>
    obtain ⟨-, ha, -⟩ := Run.ends_pure_iff.mp h
    cases ha
  | cons writer writers ih =>
    obtain ⟨spec, w⟩ := writer
    rw [writeAll_cons] at h
    rcases Run.ends_bind_error_iff.mp h with hwrite | ⟨_, es₁, s₁, es₂, hwrite, hrest, rfl⟩
    · exact .here (.of_write spec (Run.ends_bind_pure_error_iff.mp hwrite))
    · obtain ⟨outcome, es₁, _, _, hwrite, hpure, rfl⟩ := Run.ends_bind_ok_iff.mp hwrite
      obtain ⟨rfl, -, rfl⟩ := Run.ends_pure_iff.mp hpure
      rw [List.append_nil]
      exact .later (.of_write spec hwrite) (ih hrest)

/-! ## Transforming -/

theorem callsOnce_invokeForRows (engine : Engine σ) (function : String) (args : List Value) :
    (engine.invokeForRows function args).CallsOnce :=
  .bind_ofExcept (.access _ _) _

/-- A row is transformed by at most one call, whatever the form of the transformer is. -/
theorem callsOnce_transformRow (engine : Engine σ) (spec : TransformerSpec) (row : Row) :
    (engine.transformRow spec row).CallsOnce := by
  rw [transformRow]
  split
  · exact .after (fun _ => Run.ends_ofExcept _) fun _ => .pure _
  · exact .bind_ofExcept (.mapError (.access _ _) _) _
  · exact .pure _

theorem callsOnce_transformAll (engine : Engine σ) (spec : TransformerSpec) (rows : List Row) :
    (engine.transformAll spec rows).CallsOnce := by
  rw [transformAll]
  split
  · exact .after (fun _ => Run.ends_ofExcept _) fun _ => .ofExcept _
  · exact .mapError (engine.callsOnce_invokeForRows ..) _
  · exact .pure _

theorem callsOnce_applyFilter (engine : Engine σ) (spec : ReaderSpec) (rows : List Row) :
    (engine.applyFilter spec rows).CallsOnce := by
  rw [applyFilter]
  split
  · exact .pure _
  · exact .mapError (engine.callsOnce_invokeForRows ..) _

instance (engine : Engine σ) (spec : TransformerSpec) (row : Row) :
    Run.Adds (engine.transformRow spec row) := (engine.makes_transformRow ..).adds

instance (engine : Engine σ) (spec : TransformerSpec) (merging : Bool) (rows : List Row) :
    Run.Adds (engine.transformEach spec merging rows) := (engine.makes_transformEach ..).adds

instance (engine : Engine σ) (spec : ReaderSpec) (rows : List Row) :
    Run.Adds (engine.applyTransformer spec rows) := (engine.makes_applyTransformer ..).adds

instance (engine : Engine σ) (spec : ReaderSpec) (rows : List Row) :
    Run.Adds (engine.applyFilter spec rows) := (engine.makes_applyFilter ..).adds

/-- How transforming rows one by one breaks off: at one of them, by the call for it or after it. -/
inductive EachBreaks (engine : Engine σ) (spec : TransformerSpec) :
    List Row → Site σ → List (Entry σ) → Failure EngineError → Site σ → Prop
  | here : (engine.transformRow spec row).Ends s es (.error e) t → Run.AtMostOneCall es →
    EachBreaks engine spec (row :: rows) s es e t
  | later : (engine.transformRow spec row).Ends s es (.ok transformed) t →
    EachBreaks engine spec rows t es' e u →
    EachBreaks engine spec (row :: rows) s (es ++ es') e u

/-- The rows after the one that can not be transformed are not looked at. -/
theorem EachBreaks.of_transformEach {spec : TransformerSpec}
    (h : (engine.transformEach spec merging rows).Ends s es (.error e) t) :
    EachBreaks engine spec rows s es e t := by
  induction rows generalizing s es with
  | nil =>
    obtain ⟨-, ha, -⟩ := Run.ends_pure_iff.mp h
    cases ha
  | cons row rows ih =>
    rw [transformEach] at h
    obtain ⟨es₁, answer, s₁, hrow⟩ := Run.Adds.ends (engine.transformRow spec row) s
    rcases answer with e₁ | _ | transformed
    · obtain ⟨rfl, ha, rfl⟩ := h.unique hrow.bind_error
      cases ha
      exact .here hrow ((engine.callsOnce_transformRow spec row).of_ends hrow)
    · obtain ⟨es₂, hrest, rfl⟩ := hrow.bind_iff.mp h
      exact .later hrow (ih hrest)
    · obtain ⟨es₂, hrest, rfl⟩ := hrow.bind_iff.mp h
      exact .later hrow (ih (Run.ends_bind_pure_error_iff.mp hrest))

/-- How transforming rows breaks off: at one of the rows, with all rows in one step, or in the
filter. -/
inductive TransformBreaks (engine : Engine σ) (spec : ReaderSpec) (rows : List Row) :
    Site σ → List (Entry σ) → Failure EngineError → Site σ → Prop
  | each : spec.transformer = some transformer → transformer.allAtOnce = false →
    EachBreaks engine transformer (rows.map (·.overlay s.context)) s es e t →
    TransformBreaks engine spec rows s es e t
  | all : spec.transformer = some transformer → transformer.allAtOnce →
    (engine.transformAll transformer (rows.map (·.overlay s.context))).Ends s es (.error e) t →
    Run.AtMostOneCall es →
    TransformBreaks engine spec rows s es e t
  | filter : (engine.applyTransformer spec (rows.map (·.overlay s.context))).Ends s es
      (.ok transformed) t →
    (engine.applyFilter spec transformed).Ends t es' (.error e) u → Run.AtMostOneCall es' →
    TransformBreaks engine spec rows s (es ++ es') e u

theorem TransformBreaks.of_transform {spec : ReaderSpec}
    (h : (engine.transform spec rows).Ends s es (.error e) t) :
    TransformBreaks engine spec rows s es e t := by
  rw [transform] at h
  have h := Run.ends_context.bind_silent_iff.mp h
  rcases Run.ends_bind_error_iff.mp h with h | ⟨transformed, es₁, s₁, es₂, hall, hfilter, rfl⟩
  · rw [applyTransformer] at h
    split at h
    · obtain ⟨-, ha, -⟩ := Run.ends_pure_iff.mp h
      cases ha
    · rename_i transformer hspec
      split at h
      · rename_i hall
        exact .all hspec hall h ((engine.callsOnce_transformAll ..).of_ends h)
      · rename_i hall
        exact .each hspec (by simpa using hall) (.of_transformEach h)
  · exact .filter hall hfilter ((engine.callsOnce_applyFilter ..).of_ends hfilter)

/-! ## Reading in batches -/

/-- How dealing with a batch breaks off. -/
inductive BatchBreaks (engine : Engine σ) (key flow : String) (spec : ReaderSpec)
    (writers : List (WriterSpec × ReadyWriter σ)) (index : Nat) (batch : List Row) :
    Site σ → List (Entry σ) → Failure EngineError → Site σ → Prop
  | untransformed : TransformBreaks engine spec batch s es e t →
    BatchBreaks engine key flow spec writers index batch s
      (.event (.batchRead key flow index batch.length) :: es) e t
  | unwritten : (engine.transform spec batch).Ends s es (.ok rows) t →
    WritersBreak engine key rows writers t es' e u →
    BatchBreaks engine key flow spec writers index batch s
      (.event (.batchRead key flow index batch.length) :: (es ++ es')) e u

/-- A batch is announced before anything can go wrong with it. -/
theorem BatchBreaks.of_handleBatch {spec : ReaderSpec}
    (h : (engine.handleBatch key flow spec writers index batch).Ends s es (.error e) t) :
    BatchBreaks engine key flow spec writers index batch s es e t := by
  obtain ⟨es₁, hrest, rfl⟩ := (Run.ends_emit _).bind_iff.mp h
  split at hrest
  · rcases Run.ends_bind_error_iff.mp hrest with
      htransform | ⟨rows, es₂, s₂, es₃, htransform, hwrite, rfl⟩
    · exact .untransformed (.of_transform htransform)
    · rw [List.singleton_append]
      split at hwrite
      · exact .unwritten htransform (.of_writeAll hwrite)
      · obtain ⟨-, ha, -⟩ := Run.ends_pure_iff.mp hwrite
        cases ha
  · obtain ⟨-, ha, -⟩ := Run.ends_pure_iff.mp hrest
    cases ha

/-- How reading from a cursor breaks off: its answer is an error, or a batch can not be dealt with,
and it is not asked again. -/
inductive ConsumptionBreaks (engine : Engine σ) (key flow : String) (spec : ReaderSpec)
    (writers : List (WriterSpec × ReadyWriter σ)) (reader : Target) : Nat → Batches σ → Site σ →
      List (Entry σ) → Failure EngineError → Site σ → Prop
  | refused {batches : Batches σ} : Asked batches s (.error e) t →
    ConsumptionBreaks engine key flow spec writers reader index batches s
      [.call (.nextBatch reader) s t false] (e.map (.reader reader.name)) t
  | batch {batches : Batches σ} : Asked batches s (.ok (some (batch, rest))) t →
    Numbered index spec.batchSize t t' →
    BatchBreaks engine key flow spec writers index batch t' es e u →
    ConsumptionBreaks engine key flow spec writers reader index batches s
      (.call (.nextBatch reader) s t true :: es) e u
  | later {batches : Batches σ} : Asked batches s (.ok (some (batch, rest))) t →
    Numbered index spec.batchSize t t' →
    (engine.handleBatch key flow spec writers index batch).Ends t' es (.ok ()) u →
    ConsumptionBreaks engine key flow spec writers reader (index + 1) rest u es' e v →
    ConsumptionBreaks engine key flow spec writers reader index batches s
      (.call (.nextBatch reader) s t true :: (es ++ es')) e v

/-- A cursor is not asked again once an answer was an error or a batch could not be dealt with. -/
theorem ConsumptionBreaks.of_consumption {spec : ReaderSpec} {batches : Batches σ}
    (h : Consumption reader (engine.handleBatch key flow spec writers) spec.batchSize index batches
      s es answer t) (ha : answer = .error e) :
    ConsumptionBreaks engine key flow spec writers reader index batches s es e t := by
  induction h with
  | ended => cases ha
  | refused hasked =>
    cases ha
    exact .refused hasked
  | stopped hasked hnumbered hhandle =>
    cases ha
    exact .batch hasked hnumbered (.of_handleBatch hhandle)
  | went hasked hnumbered hhandle _ _ ih => exact .later hasked hnumbered hhandle (ih ha)

/-! ## Reading -/

/-- What a flow that reads in batches ends with when it breaks off and its cursor is closed. -/
def afterClosing (e : EngineError) : Except (Failure AdapterError) Unit → Failure EngineError
  | .error (.panic message) => .panic message
  | _ => .error e

/-- A flow has its reader and all its writers ready. -/
structure Prepared (engine : Engine σ) (key : String) (flow : ReadFlow) (ctx : Context)
    (r : ReadyReader σ) (writers : List (WriterSpec × ReadyWriter σ)) : Prop where
  reader : engine.prepareReader key ctx flow.reader = .ok r
  writers : engine.prepareWriters key ctx flow.writers = .ok writers

/-- The cursor of a batched flow is open. -/
structure Opened (engine : Engine σ) (key : String) (flow : ReadFlow) (r : ReadyReader σ)
    (writers : List (WriterSpec × ReadyWriter σ)) (cursor : Cursor σ) (s t : Site σ) : Prop where
  mode : flow.reader.mode = .batched
  prepared : Prepared engine key flow s.context r writers
  cursor : (r.reader.findBatches flow.reader.batchSize s.context).exec s.world =
    (.ok cursor, t.world)
  context : t.context = s.context

/-- How a flow that reads breaks off. Only a cursor that is open is called once more, to be closed,
and not even that after a panic. -/
inductive ReadBreaks (engine : Engine σ) (key label : String) (flow : ReadFlow) :
    Site σ → List (Entry σ) → Failure EngineError → Site σ → Prop
  | noReader : engine.prepareReader key s.context flow.reader = .error e →
    ReadBreaks engine key label flow s [] (.error e) s
  | noWriters : engine.prepareReader key s.context flow.reader = .ok r →
    engine.prepareWriters key s.context flow.writers = .error e →
    ReadBreaks engine key label flow s [] (.error e) s
  | oneUnread : flow.reader.mode = .one → Prepared engine key flow s.context r writers →
    (r.reader.findOne s.context).exec s.world = (.error e, t.world) → t.context = s.context →
    ReadBreaks engine key label flow s [.call (.findOne r.target) s t false]
      (e.map (.reader r.target.name)) t
  | oneUntransformed : flow.reader.mode = .one → Prepared engine key flow s.context r writers →
    (r.reader.findOne s.context).exec s.world = (.ok (some row), t.world) → t.context = s.context →
    TransformBreaks engine flow.reader [row] t es e u →
    ReadBreaks engine key label flow s (.call (.findOne r.target) s t true :: es) e u
  | oneUnwritten : flow.reader.mode = .one → Prepared engine key flow s.context r writers →
    (r.reader.findOne s.context).exec s.world = (.ok (some row), t.world) → t.context = s.context →
    (engine.transform flow.reader [row]).Ends t es (.ok (row' :: rest)) u →
    (capture flow.reader (.object row')).Ends u [] (.ok ()) u' →
    WritersBreak engine key [row'] writers u' es' e v →
    ReadBreaks engine key label flow s (.call (.findOne r.target) s t true :: (es ++ es')) e v
  | allUnread : flow.reader.mode = .allAtOnce → Prepared engine key flow s.context r writers →
    (r.reader.findAll s.context).exec s.world = (.error e, t.world) → t.context = s.context →
    ReadBreaks engine key label flow s [.call (.findAll r.target) s t false]
      (e.map (.reader r.target.name)) t
  | allUntransformed : flow.reader.mode = .allAtOnce →
    Prepared engine key flow s.context r writers →
    (r.reader.findAll s.context).exec s.world = (.ok found, t.world) → t.context = s.context →
    TransformBreaks engine flow.reader found t es e u →
    ReadBreaks engine key label flow s (.call (.findAll r.target) s t true :: es) e u
  | allUnwritten : flow.reader.mode = .allAtOnce → Prepared engine key flow s.context r writers →
    (r.reader.findAll s.context).exec s.world = (.ok found, t.world) → t.context = s.context →
    (engine.transform flow.reader found).Ends t es (.ok rows) u →
    (capture flow.reader (.ofRows rows)).Ends u [] (.ok ()) u' →
    WritersBreak engine key rows writers u' es' e v →
    ReadBreaks engine key label flow s (.call (.findAll r.target) s t true :: (es ++ es')) e v
  | unopened : flow.reader.mode = .batched → Prepared engine key flow s.context r writers →
    (r.reader.findBatches flow.reader.batchSize s.context).exec s.world = (.error e, t.world) →
    t.context = s.context →
    ReadBreaks engine key label flow s
      [.call (.openBatches r.target flow.reader.batchSize) s t false]
      (e.map (.reader r.target.name)) t
  | interrupted : Opened engine key flow r writers cursor s t →
    ConsumptionBreaks engine key label flow.reader writers r.target 1 cursor.batches t es
      (.panic message) u →
    ReadBreaks engine key label flow s
      (.call (.openBatches r.target flow.reader.batchSize) s t true :: es) (.panic message) u
  | stopped : Opened engine key flow r writers cursor s t →
    ConsumptionBreaks engine key label flow.reader writers r.target 1 cursor.batches t es
      (.error e) u →
    cursor.close.exec u.world = (closed, v.world) → v.context = u.context →
    ReadBreaks engine key label flow s
      (.call (.openBatches r.target flow.reader.batchSize) s t true ::
        (es ++ [.call (.closeBatches r.target) u v closed.isOk])) (afterClosing e closed) v
  | unclosed : Opened engine key flow r writers cursor s t →
    Consumption r.target (engine.handleBatch key label flow.reader writers) flow.reader.batchSize 1
      cursor.batches t es (.ok ()) u →
    cursor.close.exec u.world = (.error e, v.world) → v.context = u.context →
    ReadBreaks engine key label flow s
      (.call (.openBatches r.target flow.reader.batchSize) s t true ::
        (es ++ [.call (.closeBatches r.target) u v false])) (e.map (.reader r.target.name)) v

theorem capture_ends (spec : ReaderSpec) (value : Value) (s : Site σ) :
    ∃ t, (capture spec value).Ends s [] (.ok ()) t := by
  unfold capture
  split
  · exact ⟨s, Run.ends_pure ()⟩
  · exact ⟨_, Run.ends_modifyContext _⟩

instance (spec : ReaderSpec) (value : Value) : Run.Adds (capture (σ := σ) spec value) := by
  refine ⟨fun s => ?_⟩
  obtain ⟨t, hcapture⟩ := capture_ends (σ := σ) spec value s
  exact ⟨[], .ok (), t, hcapture⟩

theorem makes_capture {kind : Entry σ → Prop} (spec : ReaderSpec) (value : Value) :
    (capture (σ := σ) spec value).Makes kind := by
  unfold capture
  split
  · exact .pure ()
  · exact .nothing fun _ => Run.ends_modifyContext _

/-- What is done with the rows that are left of a single one: the first is written. -/
def writeFirst (engine : Engine σ) (key : String) (spec : ReaderSpec)
    (writers : List (WriterSpec × ReadyWriter σ)) : List Row → Run σ EngineError Unit
  | [] => return
  | row :: _ => do
    capture spec (.object row)
    engine.writeAll key writers [row]

theorem makes_writeFirst {kind : Entry σ → Prop} {writers : List (WriterSpec × ReadyWriter σ)}
    (hwrites : ∀ rows, (engine.writeAll key writers rows).Makes kind) (spec : ReaderSpec)
    (rows : List Row) : (engine.writeFirst key spec writers rows).Makes kind := by
  cases rows with
  | nil => exact .pure ()
  | cons row rows => exact .bind (makes_capture _ _) fun _ => hwrites [row]

instance (engine : Engine σ) (key : String) (spec : ReaderSpec)
    (writers : List (WriterSpec × ReadyWriter σ)) (rows : List Row) :
    Run.Adds (engine.writeFirst key spec writers rows) :=
  have h : (engine.writeFirst key spec writers rows).Makes fun _ => True :=
    makes_writeFirst (fun _ => .of_adds) spec rows
  h.adds

/-- Reading a single row, with what is done with the rows left by the filter taken apart. -/
theorem readOne_eq (engine : Engine σ) (key : String) (spec : ReaderSpec) (r : ReadyReader σ)
    (writers : List (WriterSpec × ReadyWriter σ)) :
    engine.readOne key spec r writers = (do
      let ctx ← Run.context
      match ← (Run.access (.findOne r.target) (r.reader.findOne ctx)).mapError
        (.reader r.target.name) with
      | none => return
      | some row => engine.writeFirst key spec writers (← engine.transform spec [row])) := by
  rw [readOne]
  congr! with ctx found

section

variable {kind : Entry σ → Prop} {spec : ReaderSpec} (hkind : CoversReading spec kind)
  {writers : List (WriterSpec × ReadyWriter σ)}
  (hwrites : ∀ rows, (engine.writeAll key writers rows).Makes kind)
include hkind hwrites

theorem makes_readOne (r : ReadyReader σ) : (engine.readOne key spec r writers).Makes kind := by
  rw [readOne_eq]
  refine .bind .context fun ctx => ?_
  refine .bind (.mapError (.access (hkind.findOne _)) _) fun found => ?_
  cases found with
  | none => exact .pure ()
  | some row =>
    refine .bind ((engine.makes_transform ..).mono hkind.function) fun rows => ?_
    exact makes_writeFirst hwrites spec rows

theorem makes_readAll (r : ReadyReader σ) : (engine.readAll key spec r writers).Makes kind := by
  refine .bind .context fun ctx => ?_
  refine .bind (.mapError (.access (hkind.findAll _)) _) fun found => ?_
  refine .bind ((engine.makes_transform ..).mono hkind.function) fun rows => ?_
  exact .bind (makes_capture _ _) fun _ => hwrites rows

theorem makes_processBatch (flow : String) (index : Nat) (batch : List Row) :
    (engine.processBatch key flow spec writers index batch).Makes kind := by
  rw [processBatch_eq]
  refine .bind (.nothing fun _ => Run.ends_modifyContext _) fun _ => ?_
  refine .bind (.nothing fun _ => Run.ends_modifyContext _) fun _ => ?_
  exact makes_handleBatch hkind.function hwrites spec batch (hkind.batchRead ..)

theorem makes_readInBatches (hmode : spec.mode = .batched) (flow : String) (r : ReadyReader σ) :
    (engine.readInBatches key flow spec r writers).Makes kind := by
  have hconsume (batches : Batches σ) :
      (consume r.target (engine.processBatch key flow spec writers) 1 batches).Makes kind :=
    makes_consume (hkind.nextBatch _) (makes_processBatch hkind hwrites flow) 1 batches
  refine .bind .context fun ctx => ?_
  refine .bind (.mapError (.access (hkind.openBatches hmode _)) _) fun cursor => ?_
  refine .bind (.attempt (hconsume cursor.batches)) fun consumed => ?_
  refine .bind (.attempt (.access (hkind.closeBatches _))) fun closed => ?_
  exact .bind (.ofExcept _) fun _ => .ofExcept _

end

/-- Writers that are ready are those of the definition, each made ready by itself. -/
theorem prepareWriters_ok (h : engine.prepareWriters key ctx specs = .ok writers)
    (hmem : (spec, w) ∈ writers) :
    spec ∈ specs ∧ engine.prepareWriter key ctx spec.settings = .ok w := by
  unfold prepareWriters at h
  induction specs generalizing writers with
  | nil =>
    cases h
    cases hmem
  | cons first specs ih =>
    rw [List.mapM_cons] at h
    obtain ⟨ready, hfirst, hrest⟩ := bind_ok_iff.mp h
    obtain ⟨others, hothers, hcons⟩ := bind_ok_iff.mp hrest
    obtain ⟨w₁, hprepare, hready⟩ := bind_ok_iff.mp hfirst
    cases hready
    cases hcons
    rcases List.mem_cons.mp hmem with heq | hmem
    · cases heq
      exact ⟨List.mem_cons_self, hprepare⟩
    · obtain ⟨hspec, hw⟩ := ih hothers hmem
      exact ⟨List.mem_cons_of_mem _ hspec, hw⟩

/-- A flow that reads makes entries of any kind that covers the way in which it reads and all that
its writers make. -/
theorem makes_readFlow {kind : Entry σ → Prop} {flow : ReadFlow}
    (hkind : CoversReading flow.reader kind) (hwriting : CoversWriting engine key kind)
    (label : String) : (engine.readFlow key label flow).Makes kind := by
  refine .bind .context fun ctx => .bind (.ofExcept _) fun r => ?_
  refine .ofExcept_bind fun writers hready => ?_
  have hwrites (rows : List Row) : (engine.writeAll key writers rows).Makes kind :=
    makes_writeAll hwriting (fun _ hmem => hwriting.writer (prepareWriters_ok hready hmem).2) rows
  split
  · exact makes_readOne hkind hwrites r
  · exact makes_readAll hkind hwrites r
  · next hmode => exact makes_readInBatches hkind hwrites hmode label r

theorem readFlow_isReading (engine : Engine σ) (key label : String) (flow : ReadFlow) :
    (engine.readFlow key label flow).Makes Entry.IsReading :=
  makes_readFlow (.isReading flow.reader) (.of_isWriting fun _ h => h.isReading) label

instance (engine : Engine σ) (key label : String) (flow : ReadFlow) :
    Run.Adds (engine.readFlow key label flow) := (engine.readFlow_isReading key label flow).adds

theorem ReadBreaks.of_readOne (hmode : flow.reader.mode = .one)
    (hprepared : Prepared engine key flow s.context r writers)
    (h : (engine.readOne key flow.reader r writers).Ends s es (.error e) t) :
    ReadBreaks engine key label flow s es e t := by
  rw [readOne_eq] at h
  have h := Run.ends_context.bind_silent_iff.mp h
  rcases hfound : (r.reader.findOne s.context).exec s.world with ⟨e₁ | _ | row, world⟩
  all_goals
    have hcall := (Run.ends_access_of_exec (.findOne r.target) hfound).mapError
      (EngineError.reader r.target.name)
  · obtain ⟨rfl, ha, rfl⟩ := h.unique hcall.bind_error
    cases ha
    exact .oneUnread hmode hprepared hfound rfl
  · obtain ⟨_, hend, rfl⟩ := hcall.bind_iff.mp h
    obtain ⟨-, ha, -⟩ := Run.ends_pure_iff.mp hend
    cases ha
  · obtain ⟨es₁, hrest, rfl⟩ := hcall.bind_iff.mp h
    rw [List.singleton_append]
    rcases Run.ends_bind_error_iff.mp hrest with
      htransform | ⟨rows, es₂, u, es₃, htransform, hwrite, rfl⟩
    · exact .oneUntransformed hmode hprepared hfound rfl (.of_transform htransform)
    cases rows with
    | nil =>
      obtain ⟨-, ha, -⟩ := Run.ends_pure_iff.mp hwrite
      cases ha
    | cons row' rest =>
      obtain ⟨u', hcapture⟩ := capture_ends flow.reader (.object row') u
      have hwrite := hcapture.bind_silent_iff.mp hwrite
      exact .oneUnwritten hmode hprepared hfound rfl htransform hcapture (.of_writeAll hwrite)

theorem ReadBreaks.of_readAll (hmode : flow.reader.mode = .allAtOnce)
    (hprepared : Prepared engine key flow s.context r writers)
    (h : (engine.readAll key flow.reader r writers).Ends s es (.error e) t) :
    ReadBreaks engine key label flow s es e t := by
  have h := Run.ends_context.bind_silent_iff.mp h
  rcases hfound : (r.reader.findAll s.context).exec s.world with ⟨e₁ | found, world⟩
  all_goals
    have hcall := (Run.ends_access_of_exec (.findAll r.target) hfound).mapError
      (EngineError.reader r.target.name)
  · obtain ⟨rfl, ha, rfl⟩ := h.unique hcall.bind_error
    cases ha
    exact .allUnread hmode hprepared hfound rfl
  · obtain ⟨es₁, hrest, rfl⟩ := hcall.bind_iff.mp h
    rw [List.singleton_append]
    rcases Run.ends_bind_error_iff.mp hrest with
      htransform | ⟨rows, es₂, u, es₃, htransform, hwrite, rfl⟩
    · exact .allUntransformed hmode hprepared hfound rfl (.of_transform htransform)
    · obtain ⟨u', hcapture⟩ := capture_ends flow.reader (.ofRows rows) u
      have hwrite := hcapture.bind_silent_iff.mp hwrite
      exact .allUnwritten hmode hprepared hfound rfl htransform hcapture (.of_writeAll hwrite)

/-- A flow that reads in batches breaks off while the cursor is opened, in a batch, or when the
cursor is closed. The error of a batch wins over one of the closing. -/
theorem ReadBreaks.of_readInBatches (hmode : flow.reader.mode = .batched)
    (hprepared : Prepared engine key flow s.context r writers)
    (h : (engine.readInBatches key label flow.reader r writers).Ends s es (.error e) t) :
    ReadBreaks engine key label flow s es e t := by
  rw [readInBatches] at h
  have h := Run.ends_context.bind_silent_iff.mp h
  rcases hopen : (r.reader.findBatches flow.reader.batchSize s.context).exec s.world with
    ⟨e₁ | cursor, world⟩
  all_goals
    have hcall := (Run.ends_access_of_exec (.openBatches r.target flow.reader.batchSize)
      hopen).mapError (EngineError.reader r.target.name)
  · obtain ⟨rfl, ha, rfl⟩ := h.unique hcall.bind_error
    cases ha
    exact .unopened hmode hprepared hopen rfl
  obtain ⟨es₁, hrest, rfl⟩ := hcall.bind_iff.mp h
  rw [List.singleton_append]
  have hopened : Opened engine key flow r writers cursor s { s with world } :=
    ⟨hmode, hprepared, hopen, rfl⟩
  obtain ⟨es₂, consumed, u, hconsume⟩ := Run.Adds.ends
    (consume r.target (engine.processBatch key label flow.reader writers) 1 cursor.batches)
    { s with world }
  have hconsumption := consumption_of_consume hconsume
  rcases Run.panic_or_eq_mapError consumed with ⟨message, rfl⟩ | ⟨x, rfl⟩
  · obtain ⟨rfl, ha, rfl⟩ := hrest.unique hconsume.attempt.bind_error
    cases ha
    exact .interrupted hopened (.of_consumption hconsumption rfl)
  rcases hclose : cursor.close.exec u.world with ⟨closed, world'⟩
  have hclosing := Run.ends_access_of_exec (.closeBatches r.target) hclose
  -- a panic of the closing is the only thing that wins over what the reading has ended with
  rcases Run.panic_or_eq_mapError closed with ⟨message, rfl⟩ | ⟨y, rfl⟩
  · obtain ⟨rfl, ha, rfl⟩ := hrest.unique (hconsume.attempt_ok.bind hclosing.attempt.bind_error)
    cases ha
    cases x with
    | error e₁ => exact .stopped hopened (.of_consumption hconsumption rfl) hclose rfl
    | ok => exact .unclosed (v := { u with world := world' }) hopened hconsumption hclose rfl
  · have hlast := Run.ends_ofExcept_seq (s := { u with world := world' }) x
      (y.mapError (EngineError.reader r.target.name))
    obtain ⟨rfl, ha, rfl⟩ :=
      hrest.unique (hconsume.attempt_ok.bind (hclosing.attempt_ok.bind hlast))
    cases x with
    | error e₁ =>
      cases y <;> (cases ha; exact .stopped hopened (.of_consumption hconsumption rfl) hclose rfl)
    | ok =>
      cases y with
      | error e₂ =>
        cases ha
        exact .unclosed (v := { u with world := world' }) hopened hconsumption hclose rfl
      | ok => cases ha

/-- What a flow does once its reader and its writers are ready. -/
def readReady (engine : Engine σ) (key label : String) (spec : ReaderSpec) (r : ReadyReader σ)
    (writers : List (WriterSpec × ReadyWriter σ)) : Run σ EngineError Unit :=
  match spec.mode with
  | .one => engine.readOne key spec r writers
  | .allAtOnce => engine.readAll key spec r writers
  | .batched => engine.readInBatches key label spec r writers

theorem readFlow_ready (engine : Engine σ) (key label : String) (flow : ReadFlow) :
    engine.readFlow key label flow = (do
      let ctx ← Run.context
      let r ← Run.ofExcept (engine.prepareReader key ctx flow.reader)
      let writers ← Run.ofExcept (engine.prepareWriters key ctx flow.writers)
      engine.readReady key label flow.reader r writers) := rfl

/-- Once its reader and its writers are ready, a flow does what is left. -/
theorem Prepared.readFlow_iff {flow : ReadFlow} {writers : List (WriterSpec × ReadyWriter σ)}
    (h : Prepared engine key flow s.context r writers) :
    (engine.readFlow key label flow).Ends s es answer t ↔
      (engine.readReady key label flow.reader r writers).Ends s es answer t := by
  have hreader : (Run.ofExcept (engine.prepareReader key s.context flow.reader)).Ends s []
      (.ok r) s := Run.ends_ofExcept_ok_iff.mpr ⟨rfl, h.reader, rfl⟩
  have hwriters : (Run.ofExcept (engine.prepareWriters key s.context flow.writers)).Ends s []
      (.ok writers) s := Run.ends_ofExcept_ok_iff.mpr ⟨rfl, h.writers, rfl⟩
  rw [readFlow_ready, Run.ends_context.bind_silent_iff, hreader.bind_silent_iff,
    hwriters.bind_silent_iff]

/-- A flow reads if its reader and all its writers can be made ready, and else does nothing. -/
inductive ReadBegins (engine : Engine σ) (key label : String) (flow : ReadFlow) :
    Site σ → List (Entry σ) → Except (Failure EngineError) Unit → Site σ → Prop
  | noReader : engine.prepareReader key s.context flow.reader = .error e →
    ReadBegins engine key label flow s [] (.error (.error e)) s
  | noWriters : engine.prepareReader key s.context flow.reader = .ok r →
    engine.prepareWriters key s.context flow.writers = .error e →
    ReadBegins engine key label flow s [] (.error (.error e)) s
  | ready : Prepared engine key flow s.context r writers →
    (engine.readReady key label flow.reader r writers).Ends s es answer t →
    ReadBegins engine key label flow s es answer t

/-- Nothing is called before the reader and all the writers are ready. -/
theorem ReadBegins.of_readFlow (h : (engine.readFlow key label flow).Ends s es answer t) :
    ReadBegins engine key label flow s es answer t := by
  rw [readFlow_ready] at h
  have h := Run.ends_context.bind_silent_iff.mp h
  rcases hr : engine.prepareReader key s.context flow.reader with e | r
  · rw [hr] at h
    obtain ⟨rfl, rfl, rfl⟩ := h.unique (Run.ends_fail e).bind_error
    exact .noReader hr
  rw [hr] at h
  have h := (Run.ends_pure r).bind_silent_iff.mp h
  rcases hwriters : engine.prepareWriters key s.context flow.writers with e | writers
  · rw [hwriters] at h
    obtain ⟨rfl, rfl, rfl⟩ := h.unique (Run.ends_fail e).bind_error
    exact .noWriters hr hwriters
  rw [hwriters] at h
  exact .ready ⟨hr, hwriters⟩ ((Run.ends_pure writers).bind_silent_iff.mp h)

/-- Every way in which a flow that reads can break off is one of those listed. -/
theorem ReadBreaks.of_readFlow (h : (engine.readFlow key label flow).Ends s es (.error e) t) :
    ReadBreaks engine key label flow s es e t := by
  cases ReadBegins.of_readFlow h with
  | noReader hr => exact .noReader hr
  | noWriters hr hwriters => exact .noWriters hr hwriters
  | ready hprepared hread =>
    unfold readReady at hread
    split at hread
    · rename_i hmode
      exact .of_readOne hmode hprepared hread
    · rename_i hmode
      exact .of_readAll hmode hprepared hread
    · rename_i hmode
      exact .of_readInBatches hmode hprepared hread

end Engine

end RowFlow
