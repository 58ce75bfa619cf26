import Mathlib.Data.List.Permutation
import RowFlow.Engine.Cascade
import RowFlow.Proofs.Run

/-!
# What becomes of the rows of a cascade

The relation `Accounted` tells a cascade by the calls of the sinks and their answers: a writer is
given all its rows in one call and, if that fails, in one call for each row (`Delivered`), what its
sink has written is all that its successor is given, and what its sink has refused is all that the
writer for failures and the dead letters are given (`PassedOn`, `Buried`). A cascade ends well if
and only if it is accounted for in this way, so that no writer loses, doubles, reorders or makes up
a row (`Engine.write_accounts`).
-/

namespace RowFlow

variable {σ : Type}

namespace BoundWriter

theorem writeBatch_of_supports {w : BoundWriter σ} {action : WriteAction}
    (h : w.supports action) (rows : List Row) :
    w.writeBatch action rows = w.sink.batch action rows := by
  simp [writeBatch, h]

theorem writeRow_of_supports {w : BoundWriter σ} {action : WriteAction}
    (h : w.supports action) (row : Row) : w.writeRow action row = w.sink.row action row := by
  simp [writeRow, h]

/-- Every writer knows how to create. -/
theorem supports_create (w : BoundWriter σ) : w.supports .create := by
  simp [supports]

end BoundWriter

namespace Outcome

/-- The rows that were written, or those that were not, by the verdict on each row. -/
def rowsWith (written : Bool) (rows : List Row) (verdicts : List Bool) : List Row :=
  ((rows.zip verdicts).filter (·.2 == written)).map (·.1)

/-- What has become of rows that were written one by one. -/
def ofVerdicts (rows : List Row) (verdicts : List Bool) : Outcome where
  written := rowsWith true rows verdicts
  failed := rowsWith false rows verdicts
  retried := true

/-- Every row at its position is either written or failed, and both lists keep the order. -/
structure Splits (outcome : Outcome) (rows : List Row) : Prop where
  written : outcome.written.Sublist rows
  failed : outcome.failed.Sublist rows
  all : (outcome.written ++ outcome.failed).Perm rows

theorem Splits.of_written (rows : List Row) : Splits { written := rows } rows :=
  ⟨.refl rows, List.nil_sublist rows, .of_eq (List.append_nil rows)⟩

end Outcome

/-- The entries of a cascade: its events, and the calls of its sinks. -/
def Entry.IsWriting : Entry σ → Prop
  | .event (.writerSkipped ..) | .event (.rowsWritten ..) | .event (.recordsFailed ..) => True
  | .call (.writeBatch ..) .. | .call (.writeRow ..) .. | .call (.deadLetter ..) .. => True
  | _ => False

/-- The calls of a writer, for all rows or for single ones, make entries of this kind. -/
structure ReadyWriter.Makes (kind : Entry σ → Prop) (w : ReadyWriter σ) : Prop where
  batch : ∀ action rows, (Run.call (.writeBatch w.target action rows)
    (w.writer.writeBatch action rows)).Makes kind
  row : ∀ action row, (Run.call (.writeRow w.target action row)
    (w.writer.writeRow action row)).Makes kind

theorem ReadyWriter.makes_of_isWriting {kind : Entry σ → Prop} (w : ReadyWriter σ)
    (h : ∀ entry, entry.IsWriting → kind entry) : w.Makes kind where
  batch _ _ := .call fun _ _ _ => h _ trivial
  row _ _ := .call fun _ _ _ => h _ trivial

namespace Engine

variable {kind : Entry σ → Prop}

/-! ## Delivering rows -/

/-- The single-row calls of a sink for rows, in order, and the verdict on each row. -/
inductive RowByRow (w : ReadyWriter σ) (action : WriteAction) :
    List Row → List Bool → Site σ → List (Entry σ) → Site σ → Prop
  | nil : RowByRow w action [] [] s [] s
  | written : (w.writer.sink.row action row).exec s = (.ok (), t) →
    RowByRow w action rows verdicts t es u →
    RowByRow w action (row :: rows) (true :: verdicts) s
      (.call (.writeRow w.target action row) s t true :: es) u
  | failed : (w.writer.sink.row action row).exec s = (.error (.error e), t) →
    RowByRow w action rows verdicts t es u →
    RowByRow w action (row :: rows) (false :: verdicts) s
      (.call (.writeRow w.target action row) s t false :: es) u

/-- The calls by which a sink is given rows: one for all of them and, if and only if that fails,
one for each. -/
inductive Delivered (w : ReadyWriter σ) (action : WriteAction) (rows : List Row) :
    Outcome → Site σ → List (Entry σ) → Site σ → Prop
  | bulk : (w.writer.sink.batch action rows).exec s = (.ok (), t) →
    Delivered w action rows { written := rows } s
      [.call (.writeBatch w.target action rows) s t true] t
  | eachRow : (w.writer.sink.batch action rows).exec s = (.error (.error e), t) →
    RowByRow w action rows verdicts t es u →
    Delivered w action rows (.ofVerdicts rows verdicts) s
      (.call (.writeBatch w.target action rows) s t false :: es) u

/-- The verdicts of the single calls sort the rows into those written and those refused, each in the
order in which they were handed over. -/
theorem RowByRow.splits {w : ReadyWriter σ} (h : RowByRow w action rows verdicts s es t) :
    (Outcome.ofVerdicts rows verdicts).Splits rows := by
  induction h with
  | nil => exact ⟨.refl [], .refl [], .refl []⟩
  | written _ _ ih => exact ⟨ih.written.cons_cons _, ih.failed.cons _, ih.all.cons _⟩
  | failed _ _ ih =>
    exact ⟨ih.written.cons _, ih.failed.cons_cons _, List.perm_middle.trans (ih.all.cons _)⟩

theorem Delivered.splits {w : ReadyWriter σ} (h : Delivered w action rows outcome s es t) :
    outcome.Splits rows := by
  cases h with
  | bulk => exact .of_written rows
  | eachRow _ h => exact h.splits

theorem makes_writeEach {w : ReadyWriter σ} (h : w.Makes kind) (action : WriteAction)
    (rows : List Row) : (writeEach w action rows).Makes kind := by
  induction rows with
  | nil => exact .pure _
  | cons row rows ih =>
    refine .bind (.attempt (h.row action row)) fun answer => ?_
    cases answer with
    | ok => exact .bind ih fun _ => .pure _
    | error => exact .bind ih fun _ => .pure _

/-- Delivering rows calls the sink and does nothing else. -/
theorem makes_deliver {w : ReadyWriter σ} (h : w.Makes kind) (action : WriteAction)
    (rows : List Row) : (deliver w action rows).Makes kind := by
  refine .bind (.attempt (h.batch action rows)) fun answer => ?_
  cases answer with
  | ok => exact .pure _
  | error => exact makes_writeEach h action rows

instance (w : ReadyWriter σ) (action : WriteAction) (rows : List Row) :
    Run.Adds (writeEach w action rows) :=
  (makes_writeEach (w.makes_of_isWriting fun _ h => h) action rows).adds

instance (w : ReadyWriter σ) (action : WriteAction) (rows : List Row) :
    Run.Adds (deliver w action rows) :=
  (makes_deliver (w.makes_of_isWriting fun _ h => h) action rows).adds

/-- Rows that are handed over one by one without a panic have a verdict each, and the outcome is
told by the verdicts alone. -/
theorem RowByRow.of_writeEach {w : ReadyWriter σ} (hsupports : w.writer.supports action)
    (h : (writeEach w action rows).Ends s es (.ok outcome) t) :
    ∃ verdicts, RowByRow w action rows verdicts s es t ∧ outcome = .ofVerdicts rows verdicts := by
  induction rows generalizing s es outcome with
  | nil =>
    obtain ⟨rfl, ho, rfl⟩ := Run.ends_pure_iff.mp h
    cases ho
    exact ⟨[], .nil, rfl⟩
  | cons row rows ih =>
    rw [writeEach, BoundWriter.writeRow_of_supports hsupports] at h
    rcases hexec : (w.writer.sink.row action row).exec s with ⟨(e | message) | _, s₁⟩
    all_goals have hcall := Run.ends_call_of_exec (.writeRow w.target action row) hexec
    · obtain ⟨es₁, hes, rfl⟩ := hcall.attempt.bind_iff.mp h
      obtain ⟨rest, hrest, rfl⟩ : ∃ rest, (writeEach w action rows).Ends s₁ es₁ (.ok rest) t ∧
          outcome = { rest with failed := row :: rest.failed } := by
        simpa [Run.ends_map_ok_iff] using hes
      obtain ⟨verdicts, hrows, rfl⟩ := ih hrest
      exact ⟨false :: verdicts, .failed hexec hrows, rfl⟩
    -- a panic is not caught, so it can not come before an outcome
    · obtain ⟨_, h, _⟩ := h.unique hcall.attempt.bind_error
      cases h
    · obtain ⟨es₁, hes, rfl⟩ := hcall.attempt.bind_iff.mp h
      obtain ⟨rest, hrest, rfl⟩ : ∃ rest, (writeEach w action rows).Ends s₁ es₁ (.ok rest) t ∧
          outcome = { rest with written := row :: rest.written } := by
        simpa [Run.ends_map_ok_iff] using hes
      obtain ⟨verdicts, hrows, rfl⟩ := ih hrest
      exact ⟨true :: verdicts, .written hexec hrows, rfl⟩

/-- The rows are taken by the bulk call, or one by one once it has failed. -/
theorem Delivered.of_deliver {w : ReadyWriter σ} (hsupports : w.writer.supports action)
    (h : (deliver w action rows).Ends s es (.ok outcome) t) :
    Delivered w action rows outcome s es t := by
  rw [deliver, BoundWriter.writeBatch_of_supports hsupports] at h
  rcases hexec : (w.writer.sink.batch action rows).exec s with ⟨(e | message) | _, s₁⟩
  all_goals have hcall := Run.ends_call_of_exec (.writeBatch w.target action rows) hexec
  · obtain ⟨es₁, hrest, rfl⟩ := hcall.attempt.bind_iff.mp h
    obtain ⟨verdicts, hrows, rfl⟩ := RowByRow.of_writeEach hsupports hrest
    exact .eachRow hexec hrows
  · obtain ⟨_, h, _⟩ := h.unique hcall.attempt.bind_error
    cases h
  · obtain ⟨es₁, hrest, rfl⟩ := hcall.attempt.bind_iff.mp h
    obtain ⟨rfl, ho, rfl⟩ := Run.ends_pure_iff.mp hrest
    cases ho
    exact .bulk hexec

theorem RowByRow.ends {w : ReadyWriter σ} (hsupports : w.writer.supports action)
    (h : RowByRow w action rows verdicts s es t) :
    (writeEach w action rows).Ends s es (.ok (.ofVerdicts rows verdicts)) t := by
  induction h with
  | nil => exact Run.ends_pure _
  | written hexec _ ih =>
    rw [writeEach, BoundWriter.writeRow_of_supports hsupports]
    exact (Run.ends_call_of_exec _ hexec).attempt.bind (ih.bind_pure _)
  | failed hexec _ ih =>
    rw [writeEach, BoundWriter.writeRow_of_supports hsupports]
    exact (Run.ends_call_of_exec _ hexec).attempt.bind (ih.bind_pure _)

theorem Delivered.ends {w : ReadyWriter σ} (hsupports : w.writer.supports action)
    (h : Delivered w action rows outcome s es t) :
    (deliver w action rows).Ends s es (.ok outcome) t := by
  rw [deliver, BoundWriter.writeBatch_of_supports hsupports]
  cases h with
  | bulk hexec => exact (Run.ends_call_of_exec _ hexec).attempt.bind (Run.ends_pure _)
  | eachRow hexec hrows =>
    exact (Run.ends_call_of_exec _ hexec).attempt.bind (hrows.ends hsupports)

/-! ## Dead letters -/

variable {engine : Engine σ} {key : String}

/-- The call of the writer of dead letters for failed rows, if there are any and it can be
called. -/
inductive Buried (engine : Engine σ) (key : String) :
    List Row → Site σ → List (Entry σ) → Site σ → Prop
  | nothing : Buried engine key [] s [] s
  | nowhere : failed ≠ [] → engine.prepareDeadLetter key s.context = .ok none →
    Buried engine key failed s [] s
  | buried : failed ≠ [] → engine.prepareDeadLetter key s.context = .ok (some d) →
    records = failed.map (deadRecord key s.context) →
    (d.writer.sink.batch .create records).exec s = (.ok (), t) →
    Buried engine key failed s [.call (.deadLetter d.target records) s t true] t

/-- Without an appender the failed rows are dropped, and that is no error. -/
theorem bury_ends_nowhere (hfailed : failed ≠ [])
    (hd : engine.prepareDeadLetter key s.context = .ok none) :
    (engine.bury key failed).Ends s [] (.ok ()) s := by
  rw [bury, if_neg (by simpa using hfailed)]
  refine Run.ends_context.bind_silent ?_
  rw [hd]
  exact Run.ends_pure ()

theorem bury_ends_unprepared (hfailed : failed ≠ [])
    (hd : engine.prepareDeadLetter key s.context = .error e) :
    (engine.bury key failed).Ends s [] (.error (.error e)) s := by
  rw [bury, if_neg (by simpa using hfailed)]
  refine Run.ends_context.bind_silent ?_
  rw [hd]
  exact (Run.ends_fail e).bind_error

/-- The failed rows are handed over in one bulk call, and its error is that of the dead letters. -/
theorem bury_ends (hfailed : failed ≠ [])
    (hd : engine.prepareDeadLetter key s.context = .ok (some d))
    (hexec : (d.writer.sink.batch .create (failed.map (deadRecord key s.context))).exec s =
      (answer, t)) :
    (engine.bury key failed).Ends s
      [.call (.deadLetter d.target (failed.map (deadRecord key s.context))) s t answer.isOk]
      (answer.mapError (Failure.map (.deadLetter d.target.name))) t := by
  rw [bury, if_neg (by simpa using hfailed)]
  refine Run.ends_context.bind_silent ?_
  rw [hd]
  refine (Run.ends_pure (some d)).bind_silent ?_
  rw [← BoundWriter.writeBatch_of_supports d.writer.supports_create] at hexec
  exact (Run.ends_call_of_exec _ hexec).mapError _

/-- Entries of this kind are all that writers of a pipeline make: what they announce, and the calls
of the sinks that are found for them and for the dead letters. -/
structure CoversWriting (engine : Engine σ) (key : String) (kind : Entry σ → Prop) : Prop where
  skipped : ∀ writer reason, kind (.event (.writerSkipped key writer reason))
  rowsWritten : ∀ writer action rows, kind (.event (.rowsWritten key writer action rows))
  recordsFailed : ∀ writer rows, kind (.event (.recordsFailed key writer rows))
  writer : engine.prepareWriter key ctx settings = .ok w → w.Makes kind
  deadLetter : engine.prepareDeadLetter key ctx = .ok (some d) →
    ∀ records, (Run.call (.deadLetter d.target records)
      (d.writer.writeBatch .create records)).Makes kind

theorem CoversWriting.of_isWriting (h : ∀ entry, entry.IsWriting → kind entry) :
    CoversWriting engine key kind where
  skipped _ _ := h _ trivial
  rowsWritten _ _ _ := h _ trivial
  recordsFailed _ _ := h _ trivial
  writer {_ _ w} _ := w.makes_of_isWriting h
  deadLetter _ _ := .call fun _ _ _ => h _ trivial

theorem makes_bury (h : CoversWriting engine key kind) (failed : List Row) :
    (engine.bury key failed).Makes kind := by
  rw [bury]
  split
  · exact .pure ()
  · refine .bind .context fun ctx => .ofExcept_bind fun d hd => ?_
    cases d with
    | none => exact .pure ()
    | some d => exact .mapError (h.deadLetter hd _) _

instance (engine : Engine σ) (key : String) (failed : List Row) :
    Run.Adds (engine.bury key failed) := (makes_bury (.of_isWriting fun _ h => h) failed).adds

theorem Buried.of_bury (h : (engine.bury key failed).Ends s es (.ok ()) t) :
    Buried engine key failed s es t := by
  cases failed with
  | nil =>
    obtain ⟨rfl, _, rfl⟩ := Run.ends_pure_iff.mp h
    exact .nothing
  | cons row rows =>
    have hfailed := List.cons_ne_nil row rows
    rcases hd : engine.prepareDeadLetter key s.context with e | _ | d
    · obtain ⟨_, h, _⟩ := h.unique (bury_ends_unprepared hfailed hd)
      cases h
    · obtain ⟨rfl, _, rfl⟩ := h.unique (bury_ends_nowhere hfailed hd)
      exact .nowhere hfailed hd
    · rcases hexec : (d.writer.sink.batch .create _).exec s with ⟨(e | message) | _, s₁⟩
      all_goals obtain ⟨rfl, ho, rfl⟩ := h.unique (bury_ends hfailed hd hexec)
      · cases ho
      · cases ho
      · exact .buried hfailed hd rfl hexec

theorem Buried.ends (h : Buried engine key failed s es t) :
    (engine.bury key failed).Ends s es (.ok ()) t := by
  cases h with
  | nothing => exact Run.ends_pure ()
  | nowhere hfailed hd => exact bury_ends_nowhere hfailed hd
  | buried hfailed hd hrecords hexec =>
    subst hrecords
    exact bury_ends hfailed hd hexec

/-! ## The cascade -/

theorem skip_ends (key : String) (w : ReadyWriter σ) (reason : String) (s : Site σ) :
    (skip key w reason).Ends s [.event (.writerSkipped key w.target.name reason)]
      (.ok { skipped := true }) s :=
  (Run.ends_emit _).bind (Run.ends_pure _)

theorem write_disabled {w : ReadyWriter σ} (h : settings.enabled = false) :
    engine.write key (.mk settings onSuccess onFailure) w rows = skip key w "disabled" := by
  rw [write, if_pos (by simpa using h)]

theorem write_nil {w : ReadyWriter σ} (h : settings.enabled) :
    engine.write key (.mk settings onSuccess onFailure) w [] = skip key w "no rows" := by
  rw [write, if_neg (by simpa using h)]
  rfl

theorem write_unsupported {w : ReadyWriter σ} (henabled : settings.enabled) (hrows : rows ≠ [])
    (h : w.writer.supports settings.action = false) :
    engine.write key (.mk settings onSuccess onFailure) w rows =
      Run.fail (.unsupportedAction w.target.name settings.action) := by
  rw [write, if_neg (by simpa using henabled), if_neg (by simpa using hrows),
    if_pos (by simpa using h)]

/-- A writer that has rows to write and can take them: they are delivered, those that were written
go on to the writer for successes, those that were not to the writer for failures, and last of all
to the dead letters. -/
theorem write_mk {w : ReadyWriter σ} (henabled : settings.enabled) (hrows : rows ≠ [])
    (hsupports : w.writer.supports settings.action) :
    engine.write key (.mk settings onSuccess onFailure) w rows = (do
      let outcome ← deliver w settings.action rows
      engine.passOn key (.rowsWritten key w.target.name settings.action) onSuccess outcome.written
      engine.passOn key (.recordsFailed key w.target.name) onFailure outcome.failed
      engine.bury key outcome.failed
      return outcome) := by
  rw [write, if_neg (by simpa using henabled), if_neg (by simpa using hrows),
    if_neg (by simpa using hsupports)]

theorem passOn_nil : engine.passOn key announcement next [] = pure () := by
  cases next <;> (rw [passOn]; rfl)

theorem passOn_none (h : rows ≠ []) :
    engine.passOn key announcement none rows = Run.emit (announcement rows.length) := by
  rw [passOn, if_neg (by simpa using h)]
  exact bind_pure _

theorem passOn_some (h : rows ≠ []) :
    engine.passOn key announcement (some spec) rows = (do
      Run.emit (announcement rows.length)
      let w ← Run.ofExcept (engine.prepareWriter key (← Run.context) spec.settings)
      let _ ← engine.write key spec w rows) := by
  rw [passOn, if_neg (by simpa using h)]

mutual

/-- Writing makes entries of one kind only, however deep the cascade is. By recursion on the tree of
writers, in which those that follow are looked up just before they are called. -/
theorem makes_write (h : CoversWriting engine key kind) : (spec : WriterSpec) →
    {w : ReadyWriter σ} → w.Makes kind → (rows : List Row) →
      (engine.write key spec w rows).Makes kind
  | .mk settings onSuccess onFailure, w, hw, rows => by
    have hskip (reason : String) : (skip key w reason).Makes kind :=
      .bind (.emit (h.skipped _ _)) fun _ => .pure _
    rw [write]
    split
    · exact hskip _
    split
    · exact hskip _
    split
    · exact .fail _
    refine .bind (makes_deliver hw _ _) fun outcome => ?_
    refine .bind (makes_passOn h (h.rowsWritten _ _) onSuccess _) fun _ => ?_
    refine .bind (makes_passOn h (h.recordsFailed _) onFailure _) fun _ => ?_
    exact .bind (makes_bury h _) fun _ => .pure _

theorem makes_passOn (h : CoversWriting engine key kind) {announcement : Nat → Event}
    (hannouncement : ∀ n, kind (.event (announcement n))) :
    (next : Option WriterSpec) → (rows : List Row) →
      (engine.passOn key announcement next rows).Makes kind
  | none, rows => by
    rw [passOn]
    split
    · exact .pure ()
    · exact .bind (.emit (hannouncement _)) fun _ => .pure ()
  | some spec, rows => by
    rw [passOn]
    split
    · exact .pure ()
    · refine .bind (.emit (hannouncement _)) fun _ => .bind .context fun ctx => ?_
      refine .ofExcept_bind fun w hw => ?_
      exact .bind (makes_write h spec (h.writer hw) rows) fun _ => .pure ()

end

theorem writeAll_cons (spec : WriterSpec) (w : ReadyWriter σ)
    (writers : List (WriterSpec × ReadyWriter σ)) (rows : List Row) :
    engine.writeAll key ((spec, w) :: writers) rows = (do
      (do let _ ← engine.write key spec w rows)
      engine.writeAll key writers rows) := rfl

theorem makes_writeAll (h : CoversWriting engine key kind)
    {writers : List (WriterSpec × ReadyWriter σ)}
    (hwriters : ∀ writer ∈ writers, writer.2.Makes kind) (rows : List Row) :
    (engine.writeAll key writers rows).Makes kind := by
  induction writers with
  | nil => exact .pure ()
  | cons writer writers ih =>
    obtain ⟨hfirst, hrest⟩ := List.forall_mem_cons.mp hwriters
    rw [writeAll_cons]
    exact .bind (.bind (makes_write h writer.1 hfirst rows) fun _ => .pure ()) fun _ => ih hrest

theorem writeAll_isWriting (engine : Engine σ) (key : String)
    (writers : List (WriterSpec × ReadyWriter σ)) (rows : List Row) :
    (engine.writeAll key writers rows).Makes Entry.IsWriting :=
  makes_writeAll (.of_isWriting fun _ h => h)
    (fun writer _ => writer.2.makes_of_isWriting fun _ h => h) rows

instance (engine : Engine σ) (key : String) (writers : List (WriterSpec × ReadyWriter σ))
    (rows : List Row) : Run.Adds (engine.writeAll key writers rows) :=
  (engine.writeAll_isWriting key writers rows).adds

instance (engine : Engine σ) (key : String) (spec : WriterSpec) (w : ReadyWriter σ)
    (rows : List Row) : Run.Adds (engine.write key spec w rows) :=
  (makes_write (.of_isWriting fun _ h => h) spec (w.makes_of_isWriting fun _ h => h) rows).adds

instance (engine : Engine σ) (key : String) (announcement : Nat → Event)
    (next : Option WriterSpec) (rows : List Row) :
    Run.Adds (engine.passOn key announcement next rows) :=
  have h : (engine.passOn key announcement next rows).Makes fun _ => True :=
    makes_passOn (.of_isWriting fun _ _ => trivial) (fun _ => trivial) next rows
  h.adds

mutual

/-- How a cascade deals with the rows of a writer: what its sink is called for, how the rows split
by its answers, what goes on to the writers that follow, and what is left to the dead letters. -/
inductive Accounted (engine : Engine σ) (key : String) : WriterSpec → ReadyWriter σ → List Row →
    Outcome → Site σ → List (Entry σ) → Site σ → Prop
  | disabled : settings.enabled = false →
    Accounted engine key (.mk settings onSuccess onFailure) w rows { skipped := true } s
      [.event (.writerSkipped key w.target.name "disabled")] s
  | noRows : settings.enabled →
    Accounted engine key (.mk settings onSuccess onFailure) w [] { skipped := true } s
      [.event (.writerSkipped key w.target.name "no rows")] s
  | delivered : settings.enabled → rows ≠ [] → w.writer.supports settings.action →
    Delivered w settings.action rows outcome s es₁ s₁ → outcome.Splits rows →
    PassedOn engine key (.rowsWritten key w.target.name settings.action) onSuccess
      outcome.written s₁ es₂ s₂ →
    PassedOn engine key (.recordsFailed key w.target.name) onFailure outcome.failed s₂ es₃ s₃ →
    Buried engine key outcome.failed s₃ es₄ s₄ →
    Accounted engine key (.mk settings onSuccess onFailure) w rows outcome s
      (es₁ ++ (es₂ ++ (es₃ ++ es₄))) s₄

/-- How rows go on to the writer that follows, which gets all of them or, if there are none,
nothing. -/
inductive PassedOn (engine : Engine σ) (key : String) : (Nat → Event) → Option WriterSpec →
    List Row → Site σ → List (Entry σ) → Site σ → Prop
  | nothing : PassedOn engine key announcement next [] s [] s
  | nobody : rows ≠ [] →
    PassedOn engine key announcement none rows s [.event (announcement rows.length)] s
  | handed : rows ≠ [] → engine.prepareWriter key s.context spec.settings = .ok w →
    Accounted engine key spec w rows outcome s es t →
    PassedOn engine key announcement (some spec) rows s
      (.event (announcement rows.length) :: es) t

end

mutual

/-- Every writer that ends well accounts for its rows. The recursion is on the tree of writers and
not on the run, for the relation follows the same tree. -/
theorem Accounted.of_write : (spec : WriterSpec) → {w : ReadyWriter σ} → {rows : List Row} →
    {outcome : Outcome} → {s : Site σ} → {es : List (Entry σ)} → {t : Site σ} →
    (engine.write key spec w rows).Ends s es (.ok outcome) t →
      Accounted engine key spec w rows outcome s es t
  | .mk settings onSuccess onFailure, w, rows, outcome, s, es, t, h => by
    cases henabled : settings.enabled with
    | false =>
      rw [write_disabled henabled] at h
      obtain ⟨rfl, ho, rfl⟩ := h.unique (skip_ends _ _ _ _)
      cases ho
      exact .disabled henabled
    | true =>
      by_cases hrows : rows = []
      · subst hrows
        rw [write_nil henabled] at h
        obtain ⟨rfl, ho, rfl⟩ := h.unique (skip_ends _ _ _ _)
        cases ho
        exact .noRows henabled
      cases hsupports : w.writer.supports settings.action with
      | false =>
        rw [write_unsupported henabled hrows hsupports] at h
        obtain ⟨_, h, _⟩ := Run.ends_fail_iff.mp h
        cases h
      | true =>
        rw [write_mk henabled hrows hsupports] at h
        -- each of the four parts has ended well, so each of them can be accounted for
        simp only [Run.ends_bind_ok_iff] at h
        obtain ⟨o, es₁, s₁, _, hdeliver, ⟨_, es₂, s₂, _, hsuccess, ⟨_, es₃, s₃, _, hfailure,
          ⟨_, es₄, s₄, _, hbury, hpure, rfl⟩, rfl⟩, rfl⟩, rfl⟩ := h
        obtain ⟨rfl, ho, rfl⟩ := Run.ends_pure_iff.mp hpure
        cases ho
        rw [List.append_nil]
        have hdelivered := Delivered.of_deliver hsupports hdeliver
        exact .delivered henabled hrows hsupports hdelivered hdelivered.splits
          (PassedOn.of_passOn onSuccess hsuccess) (PassedOn.of_passOn onFailure hfailure)
          (.of_bury hbury)

theorem PassedOn.of_passOn : (next : Option WriterSpec) → {announcement : Nat → Event} →
    {rows : List Row} → {s : Site σ} → {es : List (Entry σ)} → {t : Site σ} →
    (engine.passOn key announcement next rows).Ends s es (.ok ()) t →
      PassedOn engine key announcement next rows s es t
  | next, announcement, [], s, es, t, h => by
    rw [passOn_nil] at h
    obtain ⟨rfl, _, rfl⟩ := Run.ends_pure_iff.mp h
    exact .nothing
  | none, announcement, row :: rows, s, es, t, h => by
    rw [passOn_none (List.cons_ne_nil _ _)] at h
    obtain ⟨rfl, _, rfl⟩ := Run.ends_emit_iff.mp h
    exact .nobody (List.cons_ne_nil _ _)
  | some spec, announcement, row :: rows, s, es, t, h => by
    rw [passOn_some (List.cons_ne_nil _ _)] at h
    obtain ⟨_, hrest, rfl⟩ := (Run.ends_emit _).bind_iff.mp h
    have hrest := Run.ends_context.bind_silent_iff.mp hrest
    obtain ⟨w, _, _, es, hprepare, hwrite, rfl⟩ := Run.ends_bind_ok_iff.mp hrest
    obtain ⟨rfl, hprepare, rfl⟩ := Run.ends_ofExcept_ok_iff.mp hprepare
    obtain ⟨outcome, _, _, _, hwrite, hpure, rfl⟩ := Run.ends_bind_ok_iff.mp hwrite
    obtain ⟨rfl, _, rfl⟩ := Run.ends_pure_iff.mp hpure
    rw [List.append_nil]
    exact .handed (List.cons_ne_nil _ _) hprepare (Accounted.of_write spec hwrite)

end

mutual

/-- Whatever accounts for the rows is a way in which the writer ends well, so `Accounted` says all
that there is to say. -/
theorem Accounted.ends : {spec : WriterSpec} → {w : ReadyWriter σ} → {rows : List Row} →
    {outcome : Outcome} → {s : Site σ} → {es : List (Entry σ)} → {t : Site σ} →
    Accounted engine key spec w rows outcome s es t →
      (engine.write key spec w rows).Ends s es (.ok outcome) t
  | _, _, _, _, _, _, _, .disabled henabled => by
    rw [write_disabled henabled]
    exact skip_ends ..
  | _, _, _, _, _, _, _, .noRows henabled => by
    rw [write_nil henabled]
    exact skip_ends ..
  | _, _, _, _, _, _, _, .delivered henabled hrows hsupports hdelivered _ hsuccess hfailure
      hburied => by
    rw [write_mk henabled hrows hsupports]
    exact (hdelivered.ends hsupports).bind
      (hsuccess.ends.bind (hfailure.ends.bind (hburied.ends.bind_pure _)))

theorem PassedOn.ends : {announcement : Nat → Event} → {next : Option WriterSpec} →
    {rows : List Row} → {s : Site σ} → {es : List (Entry σ)} → {t : Site σ} →
    PassedOn engine key announcement next rows s es t →
      (engine.passOn key announcement next rows).Ends s es (.ok ()) t
  | _, _, _, _, _, _, .nothing => by
    rw [passOn_nil]
    exact Run.ends_pure ()
  | _, _, _, _, _, _, .nobody hrows => by
    rw [passOn_none hrows]
    exact Run.ends_emit _
  | _, _, _, _, _, _, .handed hrows hprepare haccounted => by
    rw [passOn_some hrows]
    refine (Run.ends_emit _).bind (Run.ends_context.bind_silent ?_)
    rw [hprepare]
    exact (Run.ends_pure _).bind_silent (haccounted.ends.bind_pure _)

end

/-- **No row is lost.** A cascade ends well if and only if its calls and their answers account for
every row of every writer in it. -/
theorem write_accounts {w : ReadyWriter σ} {live live' : Live σ} :
    (engine.write key spec w rows).exec live = (.ok outcome, live') ↔
      ∃ es, live'.journal = es.reverse ++ live.journal ∧
        Accounted engine key spec w rows outcome live.toSite es live'.toSite := by
  constructor
  · intro h
    obtain ⟨es, hends, hjournal⟩ := Run.ends_of_exec h
    exact ⟨es, hjournal, Accounted.of_write spec hends⟩
  · rintro ⟨es, hjournal, haccounted⟩
    exact Run.exec_of_ends haccounted.ends hjournal

/-- A sink that knows no bulk calls and refuses empty rows. -/
def sampleSink : Sink Unit where
  batch _ _ := Act.fail (.unsupported "bulk calls")
  row _ row := if row.isEmpty then Act.fail (.rejected "empty row") else pure ()

def sampleAppender : Writer Unit := ⟨true, fun _ _ => .ok ⟨fun _ _ => pure (), fun _ _ => pure ()⟩⟩

/-- An engine whose dead letters are taken by a sink that accepts everything. -/
def sampleEngine : Engine Unit where
  registry :=
    { globals :=
        [("failedRecordsAppender", .writer sampleAppender),
         ("table", .writer ⟨false, fun _ _ => .ok sampleSink⟩)] }
  scripts :=
    { load := fun _ => Access.fail (.unsupported "scripts")
      invoke := fun function _ => Access.fail (.unknownFunction function) }

def sampleRows : List Row := [[], [("id", .nat 1)]]

/-- The empty row is refused, the other one is written. -/
def sampleOutcome : Outcome := { written := [[("id", .nat 1)]], failed := [[]], retried := true }

/-- A writer whose refused rows go on to a writer that refuses them as well. -/
def sampleCascade : WriterSpec := .mk {} none (some (.mk { component := "table" } none none))

def sampleWriter : ReadyWriter Unit := ⟨⟨"table", none⟩, ⟨false, sampleSink⟩⟩

def sampleStart : Live Unit := { context := .empty, world := { state := () } }

theorem write_accounts_empty_row :
    ∃ live', (sampleEngine.write "p" sampleCascade sampleWriter sampleRows).exec sampleStart =
        (.ok sampleOutcome, live') ∧
      ∃ es, live'.journal = es.reverse ++ [] ∧
        Accounted sampleEngine "p" sampleCascade sampleWriter sampleRows sampleOutcome
          sampleStart.toSite es live'.toSite := by
  have hwrite : (sampleEngine.write "p" sampleCascade sampleWriter sampleRows).exec sampleStart =
      (.ok sampleOutcome, _) := Prod.ext (by with_unfolding_all rfl) rfl
  exact ⟨_, hwrite, write_accounts.mp hwrite⟩

end Engine

end RowFlow
