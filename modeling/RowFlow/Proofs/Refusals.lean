import RowFlow.Proofs.Plan

/-!
# Writers that are refused

A writer that is enabled and does not know its action is refused when it is made ready. A run that
ends with such an error has stopped in a flow that reads, in a context in which one of that flow's
writers is refused (`Engine.run_refused`): nothing else in a run makes such an error.
-/

namespace RowFlow

variable {σ : Type}

/-- The settings of a writer and of the writers that follow it: a writer before those for successes,
and these before those for failures. -/
def WriterSpec.nodes : WriterSpec → List WriterSettings
  | .mk settings onSuccess onFailure =>
    let successes := match onSuccess with
      | some w => w.nodes
      | none => []
    let failures := match onFailure with
      | some w => w.nodes
      | none => []
    settings :: (successes ++ failures)

theorem WriterSpec.nodes_mk (settings : WriterSettings) (onSuccess onFailure : Option WriterSpec) :
    (mk settings onSuccess onFailure).nodes =
      settings :: (onSuccess.elim [] nodes ++ onFailure.elim [] nodes) := by
  cases onSuccess <;> cases onFailure <;> simp [nodes]

theorem WriterSpec.settings_mem_nodes (spec : WriterSpec) : spec.settings ∈ spec.nodes := by
  cases spec with
  | mk =>
    rw [nodes_mk]
    exact List.mem_cons_self

def ReadFlow.nodes (flow : ReadFlow) : List WriterSettings := flow.writers.flatMap WriterSpec.nodes

theorem ReadFlow.nodes_of_mem {flow : ReadFlow} (h : spec ∈ flow.writers)
    (hnode : settings ∈ spec.nodes) : settings ∈ flow.nodes :=
  List.mem_flatMap.mpr ⟨spec, h, hnode⟩

/-- An error that is neither that of a writer which does not know its action nor that of a trigger
which is nested too deep, with no flow around it. -/
def EngineError.IsOther : EngineError → Prop
  | .unsupportedAction .. | .triggerDepth _ | .flow .. => False
  | _ => True

theorem EngineError.IsOther.root_ne {e : EngineError} (h : e.IsOther) (writer : String)
    (action : WriteAction) : e.root ≠ .unsupportedAction writer action := by
  intro hother
  cases e <;> contradiction

namespace Context

theorem render_error (ctx : Context) (template : String) :
    ErrorIs EngineError.IsOther (ctx.render template) :=
  .mapError (fun _ => trivial) _

theorem renderOption_error (ctx : Context) (template : Option String) :
    ErrorIs EngineError.IsOther (ctx.renderOption template) := by
  cases template with
  | none => trivial
  | some template =>
    exact (ctx.render_error template).map some

end Context

namespace Engine

variable {engine : Engine σ} {key : String} {ctx : Context}

/-! ## Making components ready -/

theorem prepareReader_error (engine : Engine σ) (key : String) (ctx : Context)
    (spec : ReaderSpec) : ErrorIs EngineError.IsOther (engine.prepareReader key ctx spec) := by
  refine .bind (ctx.render_error _) fun name => .bind ?_ fun reader => ?_
  · unfold findReader
    split <;> trivial
  · refine .bind (ctx.renderOption_error _) fun instruction => ?_
    exact .bind (.mapError (fun _ => trivial) _) fun bound => trivial

theorem prepareDeadLetter_error (engine : Engine σ) (key : String) (ctx : Context) :
    ErrorIs EngineError.IsOther (engine.prepareDeadLetter key ctx) := by
  unfold prepareDeadLetter
  dsimp only
  split
  · refine .bind (ctx.renderOption_error _) fun instruction => ?_
    exact .bind (.mapError (fun _ => trivial) _) fun bound => trivial
  · trivial

/-- What a writer is before it is asked whether it knows its action. -/
def bindWriter (engine : Engine σ) (key : String) (ctx : Context) (settings : WriterSettings) :
    Except EngineError (ReadyWriter σ) := do
  let name ← ctx.render settings.component
  let writer ← engine.findWriter key name
  let instruction ← ctx.renderOption settings.instruction
  let bound ← (writer.bound instruction settings.format).mapError (.instruction name)
  return ⟨⟨name, instruction⟩, bound⟩

theorem bindWriter_error (engine : Engine σ) (key : String) (ctx : Context)
    (settings : WriterSettings) :
    ErrorIs EngineError.IsOther (engine.bindWriter key ctx settings) := by
  refine .bind (ctx.render_error _) fun name => .bind ?_ fun writer => ?_
  · unfold findWriter
    split <;> trivial
  · refine .bind (ctx.renderOption_error _) fun instruction => ?_
    exact .bind (.mapError (fun _ => trivial) _) fun bound => trivial

/-- A writer is rendered, resolved and bound before its action is looked at. -/
theorem prepareWriter_eq (engine : Engine σ) (key : String) (ctx : Context)
    (settings : WriterSettings) :
    engine.prepareWriter key ctx settings = (do
      let w ← engine.bindWriter key ctx settings
      if settings.enabled && !w.writer.supports settings.action then
        throw (.unsupportedAction w.target.name settings.action)
      return w) := by
  simp only [prepareWriter, bindWriter, bind_assoc, pure_bind]

/-- A writer that can not be made ready is refused for its action, or is not even bound. -/
theorem prepareWriter_error (h : engine.prepareWriter key ctx settings = .error e) :
    engine.bindWriter key ctx settings = .error e ∨
      ∃ w, engine.bindWriter key ctx settings = .ok w ∧ settings.enabled ∧
        w.writer.supports settings.action = false ∧
        e = .unsupportedAction w.target.name settings.action := by
  rw [prepareWriter_eq] at h
  rcases bind_error_iff.mp h with hbind | ⟨w, hbind, hcheck⟩
  · exact .inl hbind
  · change (if _ then _ else _) = _ at hcheck
    split at hcheck
    · rename_i hrefused
      rw [Bool.and_eq_true, Bool.not_eq_true'] at hrefused
      cases hcheck
      exact .inr ⟨w, hbind, hrefused.1, hrefused.2, rfl⟩
    · cases hcheck

/-- The one error that is of no other kind is that of an action that is not supported. -/
theorem prepareWriter_refused (h : engine.prepareWriter key ctx settings = .error e)
    (hother : ¬ e.IsOther) : ∃ writer, e = .unsupportedAction writer settings.action := by
  rcases prepareWriter_error h with hbind | ⟨w, -, -, -, he⟩
  · exact (hother ((engine.bindWriter_error key ctx settings).of_error hbind)).elim
  · exact ⟨w.target.name, he⟩

/-- A writer that is ready and enabled knows its action. -/
theorem prepareWriter_supports (h : engine.prepareWriter key ctx settings = .ok w)
    (henabled : settings.enabled) : w.writer.supports settings.action := by
  rw [prepareWriter_eq] at h
  obtain ⟨w', -, hw⟩ := bind_ok_iff.mp h
  change (if _ then _ else _) = _ at hw
  split at hw
  · cases hw
  · rename_i hsupports
    cases hw
    simpa [henabled] using hsupports

theorem prepareWriters_error (h : engine.prepareWriters key ctx specs = .error e) :
    ∃ spec ∈ specs, engine.prepareWriter key ctx spec.settings = .error e := by
  unfold prepareWriters at h
  induction specs with
  | nil => cases h
  | cons spec specs ih =>
    rw [List.mapM_cons] at h
    rcases bind_error_iff.mp h with hfirst | ⟨ready, -, hrest⟩
    · rcases bind_error_iff.mp hfirst with hspec | ⟨w, -, hw⟩
      · exact ⟨spec, List.mem_cons_self, hspec⟩
      · cases hw
    · rcases bind_error_iff.mp hrest with hothers | ⟨others, -, hcons⟩
      · obtain ⟨spec', hmem, hspec'⟩ := ih hothers
        exact ⟨spec', List.mem_cons_of_mem _ hmem, hspec'⟩
      · cases hcons

/-! ## What breaks off a flow -/

/-- In a context, one of some writers can not be made ready because of an error. -/
def Refuses (engine : Engine σ) (key : String) (nodes : List WriterSettings) (e : EngineError)
    (ctx : Context) : Prop :=
  ∃ settings ∈ nodes, engine.prepareWriter key ctx settings = .error e

theorem Refuses.mono (h : Refuses engine key nodes e ctx)
    (hsub : ∀ settings ∈ nodes, settings ∈ nodes') : Refuses engine key nodes' e ctx := by
  obtain ⟨settings, hmem, hrefused⟩ := h
  exact ⟨settings, hsub settings hmem, hrefused⟩

theorem other_of_map {e₁ : Failure ε} {g : ε → EngineError}
    (h : Failure.error e = e₁.map g) (hg : ∀ x, (g x).IsOther) : e.IsOther := by
  cases e₁ with
  | error x =>
    cases h
    exact hg x
  | panic => cases h

/-- Dead letters are always created, which every writer supports. -/
theorem BurialBreaks.error_other (h : BurialBreaks engine key failed s es (.error e) t) :
    e.IsOther := by
  generalize hfailure : (Failure.error e : Failure EngineError) = failure at h
  cases h with
  | unprepared _ hd =>
    cases hfailure
    exact (engine.prepareDeadLetter_error key s.context).of_error hd
  | refused => exact other_of_map hfailure fun _ => trivial

mutual

/-- A writer whose action is supported can only be refused for a writer that follows it. By
recursion on the tree of writers. -/
theorem WriteBreaks.refuses : {spec : WriterSpec} → {w : ReadyWriter σ} → {rows : List Row} →
    {s : Site σ} → {es : List (Entry σ)} → {failure : Failure EngineError} → {t : Site σ} →
    WriteBreaks engine key spec w rows s es failure t →
    (spec.settings.enabled → w.writer.supports spec.settings.action) →
    failure = .error e → ¬ e.IsOther → Refuses engine key spec.nodes e t.context
  | _, _, _, _, _, _, _, .unsupported henabled _ hsupports, hready, _, _ => by
    have hsupported := hready henabled
    rw [WriterSpec.settings, hsupports] at hsupported
    cases hsupported
  | _, _, _, _, _, _, _, .delivery _ _ _ hbreaks, _, he, _ => by
    cases hbreaks <;> cases he
  | _, _, _, _, _, _, _, .success _ _ _ _ hbreaks, _, he, hother => by
    rw [WriterSpec.nodes_mk]
    refine (hbreaks.refuses he hother).mono fun settings hmem => ?_
    exact List.mem_cons_of_mem _ (List.mem_append_left _ hmem)
  | _, _, _, _, _, _, _, .failure _ _ _ _ _ hbreaks, _, he, hother => by
    rw [WriterSpec.nodes_mk]
    refine (hbreaks.refuses he hother).mono fun settings hmem => ?_
    exact List.mem_cons_of_mem _ (List.mem_append_right _ hmem)
  | _, _, _, _, _, _, _, .burial _ _ _ _ _ _ hbreaks, _, he, hother => by
    subst he
    exact (hother hbreaks.error_other).elim

theorem PassBreaks.refuses : {announcement : Nat → Event} → {next : Option WriterSpec} →
    {rows : List Row} → {s : Site σ} → {es : List (Entry σ)} → {failure : Failure EngineError} →
    {t : Site σ} → PassBreaks engine key announcement next rows s es failure t →
    failure = .error e → ¬ e.IsOther →
      Refuses engine key (next.elim [] WriterSpec.nodes) e t.context
  | _, some spec, _, _, _, _, _, .unprepared _ hprepare, he, hother => by
    cases he
    exact ⟨spec.settings, spec.settings_mem_nodes, hprepare⟩
  | _, some spec, _, _, _, _, _, .writer _ hprepare hbreaks, he, hother =>
    hbreaks.refuses (prepareWriter_supports hprepare) he hother

end

theorem fails_transformRow (engine : Engine σ) (spec : TransformerSpec) (row : Row) :
    (engine.transformRow spec row).Fails EngineError.IsOther := by
  have hrow (template : String) : ErrorIs EngineError.IsOther (renderRow template row) := by
    refine .bind ?_ fun v => ?_
    · unfold renderValue
      split
      · trivial
      · split <;> trivial
    · split <;> trivial
  have hanswer (function : String) (v : Value) :
      ErrorIs EngineError.IsOther (rowAnswer function v) := by
    unfold rowAnswer
    split <;> trivial
  unfold transformRow
  split
  · exact .bind (.ofExcept (hrow _)) fun _ => .pure _
  · exact .bind (.mapError (fun _ => trivial) _) fun v => .ofExcept (hanswer _ v)
  · exact .pure _

theorem fails_transformAll (engine : Engine σ) (spec : TransformerSpec) (rows : List Row) :
    (engine.transformAll spec rows).Fails EngineError.IsOther := by
  unfold transformAll
  split
  · refine .bind (.ofExcept ?_) fun v => .ofExcept (.mapError (fun _ => trivial) _)
    unfold renderValue
    split
    · trivial
    · split <;> trivial
  · exact .mapError (fun _ => trivial) _
  · exact .pure _

theorem fails_applyFilter (engine : Engine σ) (spec : ReaderSpec) (rows : List Row) :
    (engine.applyFilter spec rows).Fails EngineError.IsOther := by
  unfold applyFilter
  split
  · exact .pure _
  · exact .mapError (fun _ => trivial) _

theorem EachBreaks.error_other {spec : TransformerSpec} {failure : Failure EngineError}
    (h : EachBreaks engine spec rows s es failure t) (he : failure = .error e) : e.IsOther := by
  induction h with
  | here hrow =>
    subst he
    exact (engine.fails_transformRow spec _).of_ends hrow
  | later _ _ ih => exact ih he

theorem TransformBreaks.error_other {spec : ReaderSpec}
    (h : TransformBreaks engine spec rows s es (.error e) t) : e.IsOther := by
  generalize hfailure : (Failure.error e : Failure EngineError) = failure at h
  cases h with
  | each _ _ hbreaks => exact hbreaks.error_other hfailure.symm
  | all _ _ hends =>
    subst hfailure
    exact (engine.fails_transformAll _ _).of_ends hends
  | filter _ hends =>
    subst hfailure
    exact (engine.fails_applyFilter _ _).of_ends hends

/-- Writers that are ready, each in some context, are among the writers of a flow. -/
def Ready (engine : Engine σ) (key : String) (flow : ReadFlow)
    (writers : List (WriterSpec × ReadyWriter σ)) : Prop :=
  ∀ spec w, (spec, w) ∈ writers →
    spec ∈ flow.writers ∧ ∃ ctx, engine.prepareWriter key ctx spec.settings = .ok w

theorem Prepared.ready {writers : List (WriterSpec × ReadyWriter σ)}
    (h : Prepared engine key flow ctx r writers) : Ready engine key flow writers := by
  intro spec w hmem
  obtain ⟨hspec, hprepare⟩ := prepareWriters_ok h.writers hmem
  exact ⟨hspec, ctx, hprepare⟩

theorem WritersBreak.refuses {flow : ReadFlow} {writers : List (WriterSpec × ReadyWriter σ)}
    (h : WritersBreak engine key rows writers s es (.error e) t)
    (hready : Ready engine key flow writers)
    (hother : ¬ e.IsOther) :
    Refuses engine key flow.nodes e t.context := by
  generalize hfailure : (Failure.error e : Failure EngineError) = failure at h
  induction h with
  | here hbreaks =>
    obtain ⟨hspec, ctx, hprepare⟩ := hready _ _ List.mem_cons_self
    refine (hbreaks.refuses (prepareWriter_supports hprepare) hfailure.symm hother).mono
      fun settings hmem => ReadFlow.nodes_of_mem hspec hmem
  | later _ _ ih =>
    exact ih (fun spec w hmem => hready spec w (List.mem_cons_of_mem _ hmem)) hfailure

theorem BatchBreaks.refuses {flow : ReadFlow} {writers : List (WriterSpec × ReadyWriter σ)}
    (h : BatchBreaks engine key label spec writers index batch s es (.error e) t)
    (hready : Ready engine key flow writers)
    (hother : ¬ e.IsOther) :
    Refuses engine key flow.nodes e t.context := by
  cases h with
  | untransformed hbreaks => exact (hother hbreaks.error_other).elim
  | unwritten _ hbreaks => exact hbreaks.refuses hready hother

theorem ConsumptionBreaks.refuses {flow : ReadFlow} {writers : List (WriterSpec × ReadyWriter σ)}
    {batches : Batches σ}
    (h : ConsumptionBreaks engine key label spec writers reader index batches s es (.error e) t)
    (hready : Ready engine key flow writers)
    (hother : ¬ e.IsOther) :
    Refuses engine key flow.nodes e t.context := by
  generalize hfailure : (Failure.error e : Failure EngineError) = failure at h
  induction h with
  | refused =>
    exact (hother (other_of_map hfailure fun _ => trivial)).elim
  | batch _ _ hbreaks =>
    subst hfailure
    exact hbreaks.refuses hready hother
  | later _ _ _ _ ih => exact ih hfailure

/-- The error of a batch is not lost to the closing of the cursor. -/
theorem error_of_afterClosing {closed : Except (Failure AdapterError) Unit}
    (h : Failure.error e = afterClosing e₁ closed) : e = e₁ := by
  rcases closed with (_ | _) | _ <;> cases h <;> rfl

/-- A flow that reads ends with the error of a writer that does not know its action only in a
context in which one of its writers is refused. -/
theorem ReadBreaks.refuses (h : ReadBreaks engine key label flow s es (.error e) t)
    (hother : ¬ e.IsOther) :
    Refuses engine key flow.nodes e t.context := by
  generalize hfailure : (Failure.error e : Failure EngineError) = failure at h
  cases h with
  | noReader hr =>
    cases hfailure
    exact (hother ((engine.prepareReader_error key s.context flow.reader).of_error hr)).elim
  | noWriters _ hwriters =>
    cases hfailure
    obtain ⟨spec, hspec, hprepare⟩ := prepareWriters_error hwriters
    exact ⟨spec.settings, ReadFlow.nodes_of_mem hspec spec.settings_mem_nodes, hprepare⟩
  | oneUnread | allUnread | unopened | unclosed =>
    exact (hother (other_of_map hfailure fun _ => trivial)).elim
  | oneUntransformed _ _ _ _ hbreaks | allUntransformed _ _ _ _ hbreaks =>
    subst hfailure
    exact (hother hbreaks.error_other).elim
  | oneUnwritten _ hprepared _ _ _ _ hbreaks | allUnwritten _ hprepared _ _ _ _ hbreaks =>
    subst hfailure
    exact hbreaks.refuses hprepared.ready hother
  | interrupted => cases hfailure
  | stopped hopened hbreaks _ hcontext =>
    rw [hcontext]
    cases error_of_afterClosing hfailure
    exact hbreaks.refuses hopened.prepared.ready hother

/-! ## What breaks off a run -/

theorem fails_carryOut_hook {stage : Stage} (h : stage.step? = some (.hook stageKey phase form)) :
    (engine.carryOut stage).Fails EngineError.IsOther := by
  cases stage with
  | inlineScript =>
    refine .bind (.begin _) fun _ => .bind .context fun ctx => ?_
    exact .bind (.ofExcept (ctx.render_error _)) fun source => .mapError (fun _ => trivial) _
  | runnable =>
    refine .bind (.begin _) fun _ => .bind .context fun ctx => ?_
    refine .bind (.ofExcept (ctx.render_error _)) fun name => .bind (.ofExcept ?_) fun run => ?_
    · unfold findRunnable
      split <;> trivial
    · exact .mapError (fun _ => trivial) _
  | scriptCall =>
    exact .bind (.begin _) fun _ => .bind (.mapError (fun _ => trivial) _) fun _ => .pure ()
  | set | read | trigger | merge => cases h

/-- A trigger is refused because it is nested too deep, or else because its pipeline is not
stored. -/
theorem entered_error (h : engine.entered depth flow = .error e) :
    (maxTriggerDepth < depth ∧ e = .triggerDepth maxTriggerDepth) ∨
      (depth ≤ maxTriggerDepth ∧ e = .pipelineNotFound flow.pipelineKey) := by
  unfold entered findPipeline at h
  split at h
  · rename_i hdeep
    cases h
    exact .inl ⟨hdeep, rfl⟩
  · rename_i hdeep
    split at h <;> cases h
    exact .inr ⟨Nat.le_of_not_lt hdeep, rfl⟩

/-- The flows around an error leave the one in which it has come up the innermost. -/
theorem Surrounds.error {failure failure' : Failure EngineError}
    (h : Surrounds failure failure') (he : failure' = .error e) :
    ∃ e₁, failure = .error e₁ ∧ e.root = e₁.root ∧
      ∀ place, e₁.flows.getLast? = some place → e.flows.getLast? = some place := by
  induction h generalizing e with
  | refl => exact ⟨e, he, rfl, fun _ => id⟩
  | @flow failure' key label _ ih =>
    cases failure' with
    | panic => cases he
    | error e' =>
      cases he
      obtain ⟨e₁, hfailure, hroot, hplace⟩ := ih rfl
      refine ⟨e₁, hfailure, hroot, fun place hlast => ?_⟩
      rw [EngineError.flows, List.getLast?_cons, hplace place hlast]
      rfl

/-- A stored pipeline with the key has the flow. -/
def Reads (engine : Engine σ) (key : String) (flow : ReadFlow) : Prop :=
  ∃ stored p, engine.pipelines.find? stored = some p ∧ p.key = key ∧ .read flow ∈ p.flows

/-- A stage that reads in the body of a stored pipeline is one of its flows, or inside one that
triggers. -/
theorem reads_of_mem_stages {flow : ReadFlow} (hp : engine.pipelines.find? stored = some p)
    (hinside : ∀ t, .read key flow ∈ inside t → engine.Reads key flow)
    (h : .read key flow ∈ p.stages inside depth) : engine.Reads key flow := by
  have hhook (phase : Phase) (hook : Option Hook) :
      .read key flow ∉ hook.elim [] (Hook.stages p.key phase) := by
    cases hook <;> simp [Hook.stages]
  simp only [Pipeline.stages, List.mem_append, hhook, false_or, or_false,
    List.mem_flatMap] at h
  obtain ⟨f, hf, hstage⟩ := h
  cases f with
  | read flow' =>
    cases List.mem_singleton.mp hstage
    exact ⟨stored, p, hp, rfl, hf⟩
  | trigger t =>
    rcases List.mem_cons.mp hstage with heq | hmem
    · cases heq
    · exact hinside t hmem

theorem reads_of_mem_triggerStages {flow : ReadFlow}
    (h : .read key flow ∈ engine.triggerStages levels depth t) : engine.Reads key flow := by
  induction levels generalizing depth t with
  | zero => cases h
  | succ levels ih =>
    rw [triggerStages] at h
    split at h
    · cases h
    · rename_i p hp
      obtain ⟨params, -, hmem⟩ := List.mem_flatMap.mp h
      rcases List.mem_cons.mp hmem with heq | hmem
      · cases heq
      · exact reads_of_mem_stages hp (fun t ht => ih ht) hmem

/-- A flow of a plan that reads stands in a stored definition. -/
theorem reads_of_mem_plan {flow : ReadFlow} (hp : engine.pipelines.find? stored = some p)
    (h : .read key flow ∈ engine.plan levels runId p index sets) : engine.Reads key flow := by
  induction sets generalizing index with
  | nil => cases h
  | cons params rest ih =>
    rcases List.mem_cons.mp h with heq | hmem
    · cases heq
    · rcases List.mem_append.mp hmem with hbody | hrest
      · exact reads_of_mem_stages hp (fun t ht => reads_of_mem_triggerStages ht) hbody
      · exact ih hrest

/-- The error of a run is that of a writer of a stored pipeline, which does not know its action
when it is made ready in a context. -/
structure Refusal (engine : Engine σ) (e : EngineError) (stored : String) (p : Pipeline)
    (settings : WriterSettings) (ctx : Context) : Prop where
  pipeline : engine.pipelines.find? stored = some p
  writer : ∃ flow, .read flow ∈ p.flows ∧ settings ∈ flow.nodes
  place : ∃ label, e.flows.getLast? = some (p.key, label)
  refused : engine.prepareWriter p.key ctx settings = .error e.root

/-- What a stage that breaks off has to do with a writer that does not know its action. -/
theorem StageBreaks.refusal {stage : Stage} (h : StageBreaks engine stage s es (.error e) t)
    (hends : (engine.carryOut stage).Ends s es (.error (.error e)) t)
    (hreads : ∀ key flow, stage = .read key flow → engine.Reads key flow)
    (hroot : e.root = .unsupportedAction writer action) :
    ∃ stored p settings, Refusal engine e stored p settings t.context := by
  generalize hfailure : (Failure.error e : Failure EngineError) = failure at h
  cases h with
  | @read key flow _ _ failure' _ hbreaks =>
    cases failure' with
    | panic => cases hfailure
    | error e' =>
      cases hfailure
      have hother : ¬ e'.IsOther := fun h => h.root_ne writer action hroot
      obtain ⟨settings, hnode, hrefused⟩ := hbreaks.refuses hother
      obtain ⟨w, rfl⟩ := prepareWriter_refused hrefused hother
      obtain ⟨stored, p, hp, rfl, hflow⟩ := hreads key flow rfl
      exact ⟨stored, p, settings, hp, ⟨flow, hflow, hnode⟩, ⟨_, rfl⟩, hrefused⟩
  | form hform =>
    exact (((fails_carryOut_hook hform).of_ends hends).root_ne writer action hroot).elim
  | @trigger depth flow e' _ _ hentered =>
    cases hfailure
    rcases entered_error hentered with ⟨-, rfl⟩ | ⟨-, rfl⟩ <;> cases hroot

theorem Resolved.error_other {p : Pipeline} {given : Option (List Row)}
    {answer : Except (Failure EngineError) (List Row)}
    (h : Resolved engine p given s es answer t) (he : answer = .error (.error e)) : e.IsOther := by
  cases h with
  | given | empty | provided => cases he
  | unusable =>
    cases he
    trivial
  | failed => exact other_of_map (Except.error.inj he).symm fun _ => trivial

/-- **A run ends with the error of a writer that does not know its action** only in a context in
which this is so of a writer of a stored pipeline. -/
theorem run_refused {given : Option (List Row)}
    (h : (engine.run runId key given).Ends s es (.error (.error e)) t)
    (hroot : e.root = .unsupportedAction writer action) :
    ∃ stored p settings, Refusal engine e stored p settings t.context := by
  generalize hanswer : (Except.error (.error e) : Except (Failure EngineError) Unit) = answer at h
  cases RunOf.of_run 0 h with
  | unknown =>
    cases hanswer
    cases hroot
  | unresolved _ hresolved =>
    cases hanswer
    exact ((hresolved.error_other rfl).root_ne writer action hroot).elim
  | followed hp _ hcarried =>
    generalize hplan : engine.plan _ _ _ _ _ = stages at hcarried
    cases hcarried with
    | whole => cases hanswer
    | @broke before _ _ _ stage _ failure _ _ after _ hends hbreaks hsurrounds =>
      obtain ⟨e₁, rfl, hroot₁, hplace⟩ := hsurrounds.error (Except.error.inj hanswer).symm
      have hmem : stage ∈ engine.plan _ _ _ _ _ := hplan ▸ List.mem_append_cons_self
      obtain ⟨stored, p, settings, hrefusal⟩ := hbreaks.refusal hends
        (fun key flow hstage => reads_of_mem_plan hp (hstage ▸ hmem)) (hroot₁ ▸ hroot)
      obtain ⟨label, hlabel⟩ := hrefusal.place
      exact ⟨stored, p, settings, hrefusal.pipeline, hrefusal.writer, ⟨label, hplace _ hlabel⟩,
        hroot₁ ▸ hrefusal.refused⟩

end Engine

end RowFlow
