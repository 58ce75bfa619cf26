import RowFlow.Proofs.Breakdown
import RowFlow.Service.Basic

/-!
# The plan of a run

What a run is going to do can be written down before it begins, as a list of stages: for each
parameter set the forms of the hook before, the flows in order, and the forms of the hook after,
where a flow that triggers a pipeline is followed by the stages of that pipeline's body, once for
each of its parameter sets (`Engine.plan`). A run carries out the stages one after another, each
once. It ends well if and only if it carries out all of them, and otherwise the stage that breaks
off is the last thing it does (`Carried`, `Engine.run_follows_plan`).
-/

namespace RowFlow

variable {σ : Type}

/-- The step that an entry begins. -/
def Entry.step? : Entry σ → Option Step
  | .step begun => some begun
  | _ => none

theorem Entry.IsReading.step? {entry : Entry σ} (h : entry.IsReading) : entry.step? = none := by
  cases entry with
  | step =>
    rcases h with h | h <;> contradiction
  | event | call => rfl

/-! ## Plans -/

/-- What a plan is made of. -/
inductive Stage where
  /-- A parameter set of the run begins. -/
  | set (runId key : String) (index : Nat) (params : Row)
  | inlineScript (key : String) (phase : Phase) (template : String)
  | runnable (key : String) (phase : Phase) (template : String)
  | scriptCall (key : String) (phase : Phase) (call : ScriptCall)
  | read (key : String) (flow : ReadFlow)
  /-- A flow that triggers a pipeline, whose body would be nested so deep. -/
  | trigger (key : String) (depth : Nat) (flow : TriggerFlow)
  /-- A parameter set of a trigger begins. -/
  | merge (params : Row)

/-- The step that a stage is, if it is a form of a hook or a flow. -/
def Stage.step? : Stage → Option Step
  | .inlineScript key phase _ => some (.hook key phase .inlineScript)
  | .runnable key phase _ => some (.hook key phase .runnable)
  | .scriptCall key phase _ => some (.hook key phase .scriptCall)
  | .read key flow => some (.flow key (.read flow))
  | .trigger key _ flow => some (.flow key (.trigger flow))
  | .set .. | .merge _ => none

def Hook.stages (key : String) (phase : Phase) (hook : Hook) : List Stage :=
  (hook.inlineScript.map (.inlineScript key phase)).toList ++
    ((hook.runnable.map (.runnable key phase)).toList ++
      (hook.scriptCall.map (.scriptCall key phase)).toList)

/-- The stages of a flow in a body that is nested so deep, given those of the bodies that are
triggered. -/
def Flow.stages (inside : TriggerFlow → List Stage) (key : String) (depth : Nat) :
    Flow → List Stage
  | .read flow => [.read key flow]
  | .trigger flow => .trigger key (depth + 1) flow :: inside flow

/-- The hook before, the flows in order, the hook after. -/
def Pipeline.stages (inside : TriggerFlow → List Stage) (depth : Nat) (p : Pipeline) :
    List Stage :=
  p.pre.elim [] (Hook.stages p.key .pre) ++
    (p.flows.flatMap (Flow.stages inside p.key depth) ++ p.post.elim [] (Hook.stages p.key .post))

namespace Engine

/-- The body of a triggered pipeline, at its depth, once for each parameter set of the trigger. The
plan is written out for so many levels of bodies. -/
def triggerStages (engine : Engine σ) : (levels depth : Nat) → TriggerFlow → List Stage
  | 0, _, _ => []
  | levels + 1, depth, flow =>
    match engine.pipelines.find? flow.pipelineKey with
    | none => []
    | some p => (triggerParams flow).flatMap fun params =>
      .merge params :: p.stages (engine.triggerStages levels (depth + 1)) depth

/-- The plan of a run of a pipeline with parameter sets that are counted from an index. -/
def plan (engine : Engine σ) (levels : Nat) (runId : String) (p : Pipeline) :
    Nat → List Row → List Stage
  | _, [] => []
  | index, params :: rest =>
    .set runId p.key index params :: (p.stages (engine.triggerStages levels 1) 0 ++
      engine.plan levels runId p (index + 1) rest)

/-- The pipeline that a trigger runs, unless its body is nested too deep. -/
def entered (engine : Engine σ) (depth : Nat) (flow : TriggerFlow) :
    Except EngineError Pipeline :=
  if maxTriggerDepth < depth then .error (.triggerDepth maxTriggerDepth)
  else engine.findPipeline flow.pipelineKey

/-- What a run does in a stage. -/
def carryOut (engine : Engine σ) : Stage → Run σ EngineError Unit
  | .set runId key index params => do
    Run.modifyContext fun _ => initialContext runId key params
    Run.emit (.paramsStarted runId key index params)
  | .inlineScript key phase template => engine.runInlineScript key phase template
  | .runnable key phase template => engine.runRunnable key phase template
  | .scriptCall key phase call => engine.runScriptCall key phase call
  | .read key flow => engine.runFlow (fun _ => return) key (.read flow)
  | .trigger key depth flow =>
    let enter flow := do let _ ← Run.ofExcept (engine.entered depth flow)
    engine.runFlow enter key (.trigger flow)
  | .merge params => Run.modifyContext (·.merge params)

/-- The stages of a hook are its forms. -/
theorem step?_of_mem_hook {hook : Option Hook} (h : stage ∈ hook.elim [] (Hook.stages key phase)) :
    ∃ form, stage.step? = some (.hook key phase form) := by
  cases hook with
  | none => cases h
  | some hook =>
    simp only [Option.elim_some, Hook.stages, List.mem_append, Option.mem_toList,
      Option.map_eq_some_iff] at h
    rcases h with ⟨_, -, rfl⟩ | ⟨_, -, rfl⟩ | ⟨_, -, rfl⟩
    all_goals exact ⟨_, rfl⟩

/-! ## What a run adds -/

section Adds

variable (engine : Engine σ) (key : String)

instance {α : Type} (form : Option α) (run : α → Run σ EngineError Unit) [∀ a, Run.Adds (run a)] :
    Run.Adds (whenGiven form run) := by
  unfold whenGiven
  split <;> infer_instance

instance (phase : Phase) (template : String) :
    Run.Adds (engine.runInlineScript key phase template) := by
  unfold runInlineScript
  infer_instance

instance (phase : Phase) (template : String) :
    Run.Adds (engine.runRunnable key phase template) := by
  unfold runRunnable
  infer_instance

instance (phase : Phase) (call : ScriptCall) :
    Run.Adds (engine.runScriptCall key phase call) := by
  unfold runScriptCall invoke
  infer_instance

instance (phase : Phase) (hook : Option Hook) : Run.Adds (engine.runHook key phase hook) := by
  unfold runHook
  infer_instance

variable (trigger : TriggerFlow → Run σ EngineError Unit) [∀ flow, Run.Adds (trigger flow)]

instance (flow : Flow) : Run.Adds (engine.runFlow trigger key flow) := by
  cases flow <;> (unfold runFlow; infer_instance)

instance (p : Pipeline) : Run.Adds (engine.runBody trigger p) := by
  unfold runBody
  infer_instance

instance (levels : Nat) (flow : TriggerFlow) : Run.Adds (engine.runTrigger levels flow) := by
  induction levels generalizing flow with
  | zero =>
    unfold runTrigger
    infer_instance
  | succ levels ih =>
    unfold runTrigger
    infer_instance

instance (p : Pipeline) : Run.Adds (engine.runPipeline p) := by
  unfold runPipeline
  infer_instance

instance (runId : String) (p : Pipeline) (index : Nat) (sets : List Row) :
    Run.Adds (engine.runSets runId p index sets) := by
  induction sets generalizing index with
  | nil =>
    unfold runSets
    infer_instance
  | cons params rest ih =>
    unfold runSets
    infer_instance

instance (p : Pipeline) (given : Option (List Row)) :
    Run.Adds (engine.resolveParams p given) := by
  unfold resolveParams invokeForRows invoke
  split <;> infer_instance

instance (runId key : String) (given : Option (List Row)) :
    Run.Adds (engine.runAll runId key given) := by
  unfold runAll
  infer_instance

instance (stage : Stage) : Run.Adds (engine.carryOut stage) := by
  cases stage <;> (unfold carryOut; infer_instance)

end Adds

/-- Announces how a run has ended, and ends in the same way. -/
def conclude (runId key : String) : Except EngineError Unit → Run σ EngineError Unit
  | .ok () => Run.emit (.runCompleted runId key)
  | .error e => do
    Run.emit (.runFailed runId key e.message)
    Run.fail e

/-- The last entries of a run that ends with an answer. -/
def lastEntries (runId key : String) : Except (Failure EngineError) Unit → List (Entry σ)
  | .ok () => [.event (.runCompleted runId key)]
  | .error (.error e) => [.event (.runFailed runId key e.message)]
  | .error (.panic _) => []

theorem conclude_ends (runId key : String) (answer : Except EngineError Unit) (s : Site σ) :
    (conclude runId key answer).Ends s (lastEntries runId key (answer.mapError .error))
      (answer.mapError .error) s := by
  cases answer with
  | ok => exact Run.ends_emit _
  | error e => exact (Run.ends_emit _).bind (Run.ends_fail e)

/-- A run is announced, gone through, and concluded whatever has come of it. -/
theorem run_eq (engine : Engine σ) (runId key : String) (given : Option (List Row)) :
    engine.run runId key given = (do
      Run.emit (.runStarted runId key)
      conclude runId key (← (engine.runAll runId key given).attempt)) := by
  rw [run]
  congr!

instance (runId key : String) (answer : Except EngineError Unit) :
    Run.Adds (conclude (σ := σ) runId key answer) :=
  Run.adds_of_ends (conclude_ends runId key answer)

instance (engine : Engine σ) (runId key : String) (given : Option (List Row)) :
    Run.Adds (engine.run runId key given) := by
  rw [run_eq]
  infer_instance

theorem run_ends {engine : Engine σ} (h : (engine.runAll runId key given).Ends s es answer t) :
    (engine.run runId key given).Ends s
      (.event (.runStarted runId key) :: (es ++ lastEntries runId key answer)) answer t := by
  rw [run_eq, ← List.singleton_append]
  refine (Run.ends_emit _).bind ?_
  rcases Run.panic_or_eq_mapError answer with ⟨message, rfl⟩ | ⟨x, rfl⟩
  · rw [lastEntries, List.append_nil]
    exact h.attempt.bind_error
  · exact h.attempt_ok.bind (conclude_ends ..)

/-! ## Carrying out a plan -/

variable {engine : Engine σ}

/-- How a stage breaks off. Only a flow that reads makes more than one call. -/
inductive StageBreaks (engine : Engine σ) :
    Stage → Site σ → List (Entry σ) → Failure EngineError → Site σ → Prop
  | read : ReadBreaks engine key (s.context.label flow.id) flow s es e t →
    StageBreaks engine (.read key flow) s
      (.step (.flow key (.read flow)) ::
        .event (.flowStarted key (s.context.label flow.id) (s.context.label flow.desc)) :: es)
      (e.map (.flow key (s.context.label flow.id))) t
  | form {stage : Stage} : stage.step? = some (.hook key phase form) → Run.AtMostOneCall es →
    StageBreaks engine stage s (.step (.hook key phase form) :: es) e t
  | trigger : engine.entered depth flow = .error e →
    StageBreaks engine (.trigger key depth flow) s
      [.step (.flow key (.trigger flow)),
        .event (.flowStarted key (s.context.label flow.id) (s.context.label flow.desc))]
      (.error (.flow key (s.context.label flow.id) e)) s

/-- An error may be wrapped with the flows around the stage in which it has come up. -/
inductive Surrounds : Failure EngineError → Failure EngineError → Prop
  | refl : Surrounds e e
  | flow : Surrounds e e' → Surrounds e (e'.map (.flow key label))

/-- Stages are carried out one after another, each once. -/
inductive CarriedOut (engine : Engine σ) : List Stage → Site σ → List (Entry σ) → Site σ → Prop
  | nil : CarriedOut engine [] s [] s
  | cons : (engine.carryOut stage).Ends s es (.ok ()) t → CarriedOut engine stages t es' u →
    CarriedOut engine (stage :: stages) s (es ++ es') u

/-- Stages are carried out up to the end, or up to one that breaks off. -/
inductive Carried (engine : Engine σ) : List Stage → Site σ → List (Entry σ) →
    Except (Failure EngineError) Unit → Site σ → Prop
  | whole : CarriedOut engine stages s es t → Carried engine stages s es (.ok ()) t
  | broke : CarriedOut engine before s es t →
    (engine.carryOut stage).Ends t es' (.error e) u → StageBreaks engine stage t es' e u →
    Surrounds e e' →
    Carried engine (before ++ stage :: after) s (es ++ es') (.error e') u

/-- Stages that were carried out after others have been carried out with them. -/
theorem CarriedOut.append (h : CarriedOut engine stages s es t)
    (h' : CarriedOut engine stages' t es' u) :
    CarriedOut engine (stages ++ stages') s (es ++ es') u := by
  induction h with
  | nil => exact h'
  | cons hstage _ ih =>
    rw [List.append_assoc]
    exact .cons hstage (ih h')

namespace Carried

theorem broke_first (h : (engine.carryOut stage).Ends s es (.error e) t)
    (hbreaks : StageBreaks engine stage s es e t) (after : List Stage) :
    Carried engine (stage :: after) s es (.error e) t :=
  .broke .nil h hbreaks .refl

theorem whole_first (h : (engine.carryOut stage).Ends s es (.ok ()) t)
    (h' : Carried engine stages t es' answer u) :
    Carried engine (stage :: stages) s (es ++ es') answer u := by
  cases h' with
  | whole h' => exact .whole (.cons h h')
  | broke h' hstage hbreaks hsurrounds =>
    rw [← List.append_assoc, ← List.cons_append]
    exact .broke (.cons h h') hstage hbreaks hsurrounds

theorem append (h : CarriedOut engine stages s es t) (h' : Carried engine stages' t es' answer u) :
    Carried engine (stages ++ stages') s (es ++ es') answer u := by
  cases h' with
  | whole h' => exact .whole (h.append h')
  | broke h' hstage hbreaks hsurrounds =>
    rw [← List.append_assoc, ← List.append_assoc]
    exact .broke (h.append h') hstage hbreaks hsurrounds

/-- What comes after stages that break off is of no account. -/
theorem cut (h : Carried engine stages s es (.error e) t) (stages' : List Stage) :
    Carried engine (stages ++ stages') s es (.error e) t := by
  cases h with
  | broke h hstage hbreaks hsurrounds =>
    rw [List.append_assoc]
    exact .broke h hstage hbreaks hsurrounds

/-- An error that is put into a flow still comes from the stage that broke off. -/
theorem mapError (h : Carried engine stages s es answer t) (key label : String) :
    Carried engine stages s es (answer.mapError (Failure.map (.flow key label))) t := by
  cases h with
  | whole h => exact .whole h
  | broke h hstage hbreaks hsurrounds => exact .broke h hstage hbreaks (.flow hsurrounds)

end Carried

/-! ## The stages of a run -/

/-- Whatever the part does, it carries out the stages. -/
structure Carries (engine : Engine σ) (run : Run σ EngineError Unit) (stages : List Stage) :
    Prop where
  carried : ∀ {s es answer t}, run.Ends s es answer t → Carried engine stages s es answer t

namespace Carries

variable {run run' : Run σ EngineError Unit} {α β : Type}

theorem nil : Carries engine (pure ()) [] := by
  refine ⟨fun h => ?_⟩
  obtain ⟨rfl, rfl, rfl⟩ := Run.ends_pure_iff.mp h
  exact .whole .nil

theorem bind [Run.Adds run] [Run.Adds run'] (h : Carries engine run stages)
    (h' : Carries engine run' stages') :
    Carries engine (do run; run') (stages ++ stages') := by
  refine ⟨fun hends => ?_⟩
  rcases Run.ends_bind_iff.mp hends with ⟨e, rfl, hrun⟩ | ⟨⟨⟩, es₁, t, es₂, hrun, hrun', rfl⟩
  · exact (h.carried hrun).cut stages'
  · cases h.carried hrun with
    | whole hwhole => exact .append hwhole (h'.carried hrun')

theorem forM {part : β → Run σ EngineError Unit} [∀ b, Run.Adds (part b)] {stages : β → List Stage}
    (h : ∀ b, Carries engine (part b) (stages b)) (bs : List β) :
    Carries engine (bs.forM part) (bs.flatMap stages) := by
  induction bs with
  | nil => exact .nil
  | cons b bs ih => exact (h b).bind ih

theorem whenGiven {part : α → Run σ EngineError Unit} {stage : α → Stage}
    (h : ∀ a, Carries engine (part a) [stage a]) (form : Option α) :
    Carries engine (whenGiven form part) (form.map stage).toList := by
  cases form with
  | none => exact .nil
  | some a => exact h a

/-- A part is a stage, if it breaks off in the ways of the stage. -/
theorem of_stage (stage : Stage) (h : ∀ {s es e t}, (engine.carryOut stage).Ends s es (.error e) t →
    StageBreaks engine stage s es e t) : Carries engine (engine.carryOut stage) [stage] := by
  refine ⟨fun {s es answer t} hends => ?_⟩
  cases answer with
  | ok =>
    have hwhole := CarriedOut.cons hends .nil
    rw [List.append_nil] at hwhole
    exact .whole hwhole
  | error e => exact .broke_first hends (h hends) []

end Carries

/-- The part begins a step, and then makes at most one call. -/
def IsForm (begun : Step) (run : Run σ EngineError Unit) : Prop :=
  ∃ rest : Run σ EngineError Unit, run = (do Run.begin begun; rest) ∧ rest.CallsOnce

theorem isForm_inlineScript (engine : Engine σ) (key : String) (phase : Phase)
    (template : String) :
    IsForm (.hook key phase .inlineScript) (engine.runInlineScript key phase template) := by
  refine ⟨_, rfl, .after (fun _ => Run.ends_context) fun ctx => ?_⟩
  exact .after (fun _ => Run.ends_ofExcept _) fun source => .mapError (.access _ _) _

theorem isForm_runnable (engine : Engine σ) (key : String) (phase : Phase) (template : String) :
    IsForm (.hook key phase .runnable) (engine.runRunnable key phase template) := by
  refine ⟨_, rfl, .after (fun _ => Run.ends_context) fun ctx => ?_⟩
  refine .after (fun _ => Run.ends_ofExcept _) fun name => ?_
  exact .after (fun _ => Run.ends_ofExcept _) fun run => .mapError (.call _ _) _

theorem isForm_scriptCall (engine : Engine σ) (key : String) (phase : Phase) (call : ScriptCall) :
    IsForm (.hook key phase .scriptCall) (engine.runScriptCall key phase call) :=
  ⟨_, rfl, .bind_ofExcept (.mapError (.access _ _) _) fun _ => .ok ()⟩

/-- A form of a hook is begun before it makes its call, if it makes any. -/
theorem IsForm.ends {run : Run σ EngineError Unit} (h : IsForm begun run)
    (hends : run.Ends s es answer t) :
    ∃ es', es = .step begun :: es' ∧ Run.AtMostOneCall es' := by
  obtain ⟨rest, rfl, hrest⟩ := h
  have := hrest.adds
  obtain ⟨es', hafter, rfl⟩ := (Run.ends_begin begun).bind_iff.mp hends
  exact ⟨es', rfl, hrest.of_ends hafter⟩

theorem carries_form (stage : Stage) (hstep : stage.step? = some (.hook key phase form))
    (h : IsForm (.hook key phase form) (engine.carryOut stage)) :
    Carries engine (engine.carryOut stage) [stage] := by
  refine .of_stage stage fun hends => ?_
  obtain ⟨es, rfl, hcalls⟩ := h.ends hends
  exact .form hstep hcalls

theorem carries_inlineScript (key : String) (phase : Phase) (template : String) :
    Carries engine (engine.runInlineScript key phase template)
      [.inlineScript key phase template] :=
  carries_form (.inlineScript key phase template) rfl (engine.isForm_inlineScript ..)

theorem carries_runnable (key : String) (phase : Phase) (template : String) :
    Carries engine (engine.runRunnable key phase template) [.runnable key phase template] :=
  carries_form (.runnable key phase template) rfl (engine.isForm_runnable ..)

theorem carries_scriptCall (key : String) (phase : Phase) (call : ScriptCall) :
    Carries engine (engine.runScriptCall key phase call) [.scriptCall key phase call] :=
  carries_form (.scriptCall key phase call) rfl (engine.isForm_scriptCall ..)

theorem carries_hook (key : String) (phase : Phase) (hook : Option Hook) :
    Carries engine (engine.runHook key phase hook) (hook.elim [] (Hook.stages key phase)) := by
  cases hook with
  | none => exact .nil
  | some hook =>
    refine .bind (.whenGiven (carries_inlineScript key phase) _) ?_
    exact .bind (.whenGiven (carries_runnable key phase) _)
      (.whenGiven (carries_scriptCall key phase) _)

section Flows

variable {trigger : TriggerFlow → Run σ EngineError Unit} [∀ flow, Run.Adds (trigger flow)]

/-- What a flow does once it has been announced. -/
def insideFlow (engine : Engine σ) (trigger : TriggerFlow → Run σ EngineError Unit)
    (key label : String) : Flow → Run σ EngineError Unit
  | .trigger flow => trigger flow
  | .read flow => engine.readFlow key label flow

instance (key label : String) (flow : Flow) :
    Run.Adds (engine.insideFlow trigger key label flow) := by
  cases flow <;> (unfold insideFlow; infer_instance)

theorem runFlow_eq (engine : Engine σ) (trigger : TriggerFlow → Run σ EngineError Unit)
    (key : String) (flow : Flow) :
    engine.runFlow trigger key flow = (do
      let ctx ← Run.context
      Run.begin (.flow key flow)
      Run.emit (.flowStarted key (ctx.label flow.id) (ctx.label flow.desc))
      (engine.insideFlow trigger key (ctx.label flow.id) flow).mapError
        (.flow key (ctx.label flow.id))) := by
  cases flow <;> rfl

/-- A flow is begun and announced, and an error inside it is put into the flow. -/
theorem runFlow_ends_iff : (engine.runFlow trigger key flow).Ends s es answer t ↔
    ∃ es' answer', (engine.insideFlow trigger key (s.context.label flow.id) flow).Ends s es'
        answer' t ∧
      es = .step (.flow key flow) ::
        .event (.flowStarted key (s.context.label flow.id) (s.context.label flow.desc)) :: es' ∧
      answer = answer'.mapError (Failure.map (.flow key (s.context.label flow.id))) := by
  rw [runFlow_eq, Run.ends_context.bind_silent_iff, (Run.ends_begin _).bind_iff]
  constructor
  · rintro ⟨es₁, hannounced, rfl⟩
    obtain ⟨es₂, hinside, rfl⟩ := (Run.ends_emit _).bind_iff.mp hannounced
    obtain ⟨answer', hflow, rfl⟩ := Run.ends_mapError_iff.mp hinside
    exact ⟨es₂, answer', hflow, rfl, rfl⟩
  · rintro ⟨es', answer', hinside, rfl, rfl⟩
    exact ⟨_, (Run.ends_emit _).bind (hinside.mapError _), rfl⟩

omit [∀ flow, Run.Adds (trigger flow)] in
theorem carries_read (key : String) (flow : ReadFlow) :
    Carries engine (engine.runFlow trigger key (.read flow)) [.read key flow] := by
  refine .of_stage (.read key flow) fun h => ?_
  rw [carryOut] at h
  obtain ⟨es', answer, hread, rfl, hanswer⟩ := runFlow_ends_iff.mp h
  cases answer with
  | ok => cases hanswer
  | error e =>
    cases hanswer
    exact .read (.of_readFlow hread)

/-- The stage of a trigger does nothing but begin and announce it: what is inside are stages of
their own. -/
theorem carryOut_trigger (engine : Engine σ) (key : String) (depth : Nat) (flow : TriggerFlow)
    (s : Site σ) :
    (engine.carryOut (.trigger key depth flow)).Ends s
      [.step (.flow key (.trigger flow)),
        .event (.flowStarted key (s.context.label flow.id) (s.context.label flow.desc))]
      (match engine.entered depth flow with
        | .error e => .error (.error (.flow key (s.context.label flow.id) e))
        | .ok _ => .ok ()) s := by
  rw [carryOut]
  cases hentered : engine.entered depth flow with
  | error e =>
    refine runFlow_ends_iff.mpr ⟨[], .error (.error e), ?_, rfl, rfl⟩
    rw [insideFlow, hentered]
    exact (Run.ends_fail e).bind_error
  | ok p =>
    refine runFlow_ends_iff.mpr ⟨[], .ok (), ?_, rfl, rfl⟩
    rw [insideFlow, hentered]
    exact (Run.ends_pure p).bind_silent (Run.ends_pure ())

/-- What triggers do, in bodies whose own triggers would nest so deep: they are refused, or carry
out the stages inside. -/
structure Expands (engine : Engine σ) (trigger : TriggerFlow → Run σ EngineError Unit)
    (depth : Nat) (inside : TriggerFlow → List Stage) : Prop where
  refused : ∀ {flow e}, engine.entered depth flow = .error e →
    ∀ s, (trigger flow).Ends s [] (.error (.error e)) s
  entered : ∀ {flow p}, engine.entered depth flow = .ok p →
    Carries engine (trigger flow) (inside flow)

/-- The stages inside a trigger follow that of the trigger. -/
theorem carries_trigger (h : Expands engine trigger depth inside) (key : String)
    (flow : TriggerFlow) :
    Carries engine (engine.runFlow trigger key (.trigger flow))
      (.trigger key depth flow :: inside flow) := by
  refine ⟨fun {s es answer t} hends => ?_⟩
  obtain ⟨es', answer', hinside, rfl, rfl⟩ := runFlow_ends_iff.mp hends
  have hstage := engine.carryOut_trigger key depth flow s
  cases hentered : engine.entered depth flow with
  | error e =>
    obtain ⟨rfl, rfl, rfl⟩ := hinside.unique (h.refused hentered s)
    rw [hentered] at hstage
    exact .broke_first hstage (.trigger hentered) (inside flow)
  | ok p =>
    rw [hentered] at hstage
    exact .whole_first hstage (((h.entered hentered).carried hinside).mapError _ _)

theorem carries_body (h : Expands engine trigger (depth + 1) inside) (p : Pipeline) :
    Carries engine (engine.runBody trigger p) (p.stages inside depth) := by
  refine (carries_hook p.key .pre p.pre).bind (.bind (.forM (fun flow => ?_) p.flows) ?_)
  · cases flow with
    | read flow => exact carries_read p.key flow
    | trigger flow => exact carries_trigger h p.key flow
  · exact carries_hook p.key .post p.post

end Flows

theorem carries_merge (params : Row) :
    Carries engine (Run.modifyContext (·.merge params)) [.merge params] := by
  refine .of_stage (.merge params) fun h => ?_
  rw [carryOut] at h
  obtain ⟨-, ha, -⟩ := h.unique (Run.ends_modifyContext _)
  cases ha

theorem findPipeline_ok_iff :
    engine.findPipeline key = .ok p ↔ engine.pipelines.find? key = some p := by
  unfold findPipeline
  split <;> simp_all

/-- The levels of bodies that are left and the depth of the next one add up, and a plan that is
written out for more levels is just longer where the run does not get to. -/
theorem expands_runTrigger (engine : Engine σ) (extra levels depth : Nat)
    (hlevels : depth + levels = maxTriggerDepth + 1) :
    Expands engine (engine.runTrigger levels) depth
      (engine.triggerStages (levels + extra) depth) := by
  induction levels generalizing depth with
  | zero =>
    have hdeep : maxTriggerDepth < depth := by omega
    refine ⟨fun {flow e} he s => ?_, fun hp => ?_⟩
    · rw [Engine.entered, if_pos hdeep] at he
      cases he
      exact Run.ends_fail _
    · rw [Engine.entered, if_pos hdeep] at hp
      cases hp
  | succ levels ih =>
    have hdeep : ¬ maxTriggerDepth < depth := by omega
    refine ⟨fun {flow e} he s => ?_, fun {flow p} hp => ?_⟩
    · rw [Engine.entered, if_neg hdeep] at he
      rw [runTrigger, he]
      exact (Run.ends_fail e).bind_error
    · rw [Engine.entered, if_neg hdeep] at hp
      have hstages : engine.triggerStages (levels + 1 + extra) depth flow =
          (triggerParams flow).flatMap fun params => .merge params ::
            p.stages (engine.triggerStages (levels + extra) (depth + 1)) depth := by
        rw [Nat.add_right_comm, triggerStages, findPipeline_ok_iff.mp hp]
      rw [hstages]
      refine ⟨fun hends => ?_⟩
      rw [runTrigger, hp] at hends
      have hsets := (Run.ends_pure p).bind_silent_iff.mp hends
      have hbody := carries_body (ih (depth + 1) (by omega)) p
      exact (Carries.forM (fun params => (carries_merge params).bind hbody) _).carried hsets

theorem runSets_cons (engine : Engine σ) (runId : String) (p : Pipeline) (index : Nat)
    (params : Row) (rest : List Row) :
    engine.runSets runId p index (params :: rest) = (do
      engine.carryOut (.set runId p.key index params)
      engine.runPipeline p
      engine.runSets runId p (index + 1) rest) := by
  simp only [runSets, carryOut, bind_assoc]

theorem carries_set (runId key : String) (index : Nat) (params : Row) :
    Carries engine (engine.carryOut (.set runId key index params))
      [.set runId key index params] := by
  refine .of_stage (.set runId key index params) fun h => ?_
  rw [carryOut] at h
  obtain ⟨-, ha, -⟩ := h.unique ((Run.ends_modifyContext _).bind (Run.ends_emit _))
  cases ha

/-- Going through the parameter sets carries out the plan, however far beyond the limit it is
written out. -/
theorem carries_plan (engine : Engine σ) (extra : Nat) (runId : String) (p : Pipeline)
    (index : Nat) (sets : List Row) :
    Carries engine (engine.runSets runId p index sets)
      (engine.plan (maxTriggerDepth + extra) runId p index sets) := by
  induction sets generalizing index with
  | nil => exact .nil
  | cons params rest ih =>
    rw [runSets_cons]
    have hbody : Carries engine (engine.runPipeline p)
        (p.stages (engine.triggerStages (maxTriggerDepth + extra) 1) 0) :=
      carries_body (expands_runTrigger engine extra maxTriggerDepth 1 (by omega)) p
    exact (carries_set runId p.key index params).bind (hbody.bind (ih (index + 1)))

/-! ## The steps of a run -/

theorem IsForm.steps {run : Run σ EngineError Unit} (h : IsForm begun run)
    (hends : run.Ends s es answer t) : es.filterMap Entry.step? = [begun] := by
  obtain ⟨es', rfl, hcalls⟩ := h.ends hends
  cases hcalls <;> rfl

/-- A stage begins the step that it is, and no other. -/
theorem carryOut_steps {stage : Stage} (h : (engine.carryOut stage).Ends s es answer t) :
    es.filterMap Entry.step? = stage.step?.toList := by
  cases stage with
  | set =>
    rw [carryOut] at h
    obtain ⟨rfl, -, -⟩ := h.unique ((Run.ends_modifyContext _).bind (Run.ends_emit _))
    rfl
  | inlineScript => exact (engine.isForm_inlineScript ..).steps h
  | runnable => exact (engine.isForm_runnable ..).steps h
  | scriptCall => exact (engine.isForm_scriptCall ..).steps h
  | read key flow =>
    rw [carryOut] at h
    obtain ⟨es', _, hread, rfl, -⟩ := runFlow_ends_iff.mp h
    have hreading := (engine.readFlow_isReading key _ flow).of_ends hread
    have hnone : es'.filterMap Entry.step? = [] :=
      List.filterMap_eq_nil_iff.mpr fun entry he => (hreading entry he).step?
    exact congrArg (Step.flow key (.read flow) :: ·) hnone
  | trigger key depth flow =>
    obtain ⟨rfl, -, -⟩ := h.unique (engine.carryOut_trigger key depth flow s)
    rfl
  | merge params =>
    rw [carryOut] at h
    obtain ⟨rfl, -, -⟩ := h.unique (Run.ends_modifyContext _)
    rfl

theorem steps_cons (stage : Stage) (stages : List Stage) :
    (stage :: stages).filterMap Stage.step? =
      stage.step?.toList ++ stages.filterMap Stage.step? := by
  cases hstep : stage.step? <;> simp [hstep]

/-- Stages that are all carried out begin exactly their steps. -/
theorem CarriedOut.steps (h : CarriedOut engine stages s es t) :
    es.filterMap Entry.step? = stages.filterMap Stage.step? := by
  induction h with
  | nil => rfl
  | cons hstage _ ih => rw [List.filterMap_append, carryOut_steps hstage, ih, steps_cons]

/-- The steps that have been begun are the first ones of the plan. -/
theorem Carried.steps_prefix (h : Carried engine stages s es answer t) :
    es.filterMap Entry.step? <+: stages.filterMap Stage.step? := by
  cases h with
  | whole h => exact h.steps ▸ List.prefix_rfl
  | broke hbefore hstage =>
    rw [List.filterMap_append, List.filterMap_append, hbefore.steps, carryOut_steps hstage,
      steps_cons, ← List.append_assoc]
    exact List.prefix_append _ _

/-- A stage that breaks off after others have been carried out is not carried out there. -/
theorem CarriedOut.not_broke (h : CarriedOut engine (before ++ stage :: after) s es t)
    (hbefore : CarriedOut engine before s es₁ s₁) :
    ¬ (engine.carryOut stage).Ends s₁ es₂ (.error e) u := by
  induction hbefore generalizing es with
  | nil =>
    cases h with
    | cons hstage =>
      intro hbroke
      obtain ⟨-, ha, -⟩ := hbroke.unique hstage
      cases ha
  | cons hfirst _ ih =>
    cases h with
    | cons hstage hrest =>
      obtain ⟨-, -, rfl⟩ := hfirst.unique hstage
      exact ih hrest

/-- A run ends well if and only if it carries out its whole plan. -/
theorem Carried.ok_iff (h : Carried engine stages s es answer t) :
    answer = .ok () ↔ CarriedOut engine stages s es t := by
  cases h with
  | whole h => exact ⟨fun _ => h, fun _ => rfl⟩
  | broke h hstage => exact ⟨nofun, fun hwhole => (hwhole.not_broke h hstage).elim⟩

/-! ## Runs -/

/-- The parameter sets of a run: the caller's if there are any, else the rows that the provider
answers, else one that is empty. -/
inductive Resolved (engine : Engine σ) (p : Pipeline) : Option (List Row) → Site σ →
    List (Entry σ) → Except (Failure EngineError) (List Row) → Site σ → Prop
  | given : sets ≠ [] → Resolved engine p (some sets) s [] (.ok sets) s
  | empty : given.getD [] = [] → p.paramsProvider = none →
    Resolved engine p given s [] (.ok [[]]) s
  | provided : given.getD [] = [] → p.paramsProvider = some call →
    args = call.args ++ [.text p.key] →
    (engine.scripts.invoke call.function args).exec s.world = (.ok v, t.world) →
    t.context = s.context → rowsOfValue v = .ok sets →
    Resolved engine p given s [.call (.function call.function args) s t true] (.ok sets) t
  | unusable : given.getD [] = [] → p.paramsProvider = some call →
    args = call.args ++ [.text p.key] →
    (engine.scripts.invoke call.function args).exec s.world = (.ok v, t.world) →
    t.context = s.context → rowsOfValue v = .error e →
    Resolved engine p given s [.call (.function call.function args) s t true]
      (.error (.error (.script (.badReturn call.function e)))) t
  | failed : given.getD [] = [] → p.paramsProvider = some call →
    args = call.args ++ [.text p.key] →
    (engine.scripts.invoke call.function args).exec s.world = (.error e, t.world) →
    t.context = s.context →
    Resolved engine p given s [.call (.function call.function args) s t false]
      (.error (e.map .script)) t

theorem Resolved.of_provider {given : Option (List Row)} (hgiven : given.getD [] = [])
    (hcall : p.paramsProvider = some call)
    (h : ((engine.invokeForRows call.function (call.args ++ [.text p.key])).mapError
      .script).Ends s es answer t) : Resolved engine p given s es answer t := by
  rcases hexec :
      (engine.scripts.invoke call.function (call.args ++ [.text p.key])).exec s.world with
    ⟨e | v, world⟩
  all_goals
    have hends := Run.ends_access_of_exec
      (.function call.function (call.args ++ [.text p.key])) hexec
  · obtain ⟨rfl, rfl, rfl⟩ := h.unique (hends.bind_error.mapError _)
    exact .failed hgiven hcall rfl hexec rfl
  · have hrows : (engine.invokeForRows call.function (call.args ++ [.text p.key])).Ends s _ _ _ :=
      hends.bind (Run.ends_ofExcept _)
    obtain ⟨rfl, rfl, rfl⟩ := h.unique (hrows.mapError _)
    cases hsets : rowsOfValue v with
    | error e => exact .unusable hgiven hcall rfl hexec rfl hsets
    | ok sets => exact .provided hgiven hcall rfl hexec rfl hsets

/-- Parameter sets come from the caller or from the provider, or there is a single one that is
empty. -/
theorem Resolved.of_resolveParams {given : Option (List Row)}
    (h : (engine.resolveParams p given).Ends s es answer t) :
    Resolved engine p given s es answer t := by
  rcases given with _ | _ | ⟨row, rows⟩
  case some.cons =>
    obtain ⟨rfl, rfl, rfl⟩ := Run.ends_pure_iff.mp h
    exact .given (List.cons_ne_nil _ _)
  all_goals
    unfold resolveParams at h
    cases hprovider : p.paramsProvider with
    | none =>
      rw [hprovider] at h
      obtain ⟨rfl, rfl, rfl⟩ := Run.ends_pure_iff.mp h
      exact .empty rfl hprovider
    | some call =>
      rw [hprovider] at h
      exact .of_provider rfl hprovider h

/-- A run, from the site in which it begins: it looks its pipeline up, resolves its parameter sets,
and carries out its plan, which is written out for so many levels of triggered bodies. -/
inductive RunOf (engine : Engine σ) (levels : Nat) (runId key : String)
    (given : Option (List Row)) : Site σ → List (Entry σ) → Except (Failure EngineError) Unit →
      Site σ → Prop
  | unknown : engine.pipelines.find? key = none →
    RunOf engine levels runId key given s
      (.event (.runStarted runId key) ::
        lastEntries runId key (.error (.error (.pipelineNotFound key))))
      (.error (.error (.pipelineNotFound key))) s
  | unresolved : engine.pipelines.find? key = some p →
    Resolved engine p given s es (.error e) t →
    RunOf engine levels runId key given s
      (.event (.runStarted runId key) :: (es ++ lastEntries runId key (.error e))) (.error e) t
  | followed : engine.pipelines.find? key = some p →
    Resolved engine p given s es (.ok sets) t →
    Carried engine (engine.plan levels runId p 0 sets) t es' answer u →
    es'.filterMap Entry.step? <+: (engine.plan levels runId p 0 sets).filterMap Stage.step? →
    (answer = .ok () ↔ CarriedOut engine (engine.plan levels runId p 0 sets) t es' u) →
    RunOf engine levels runId key given s
      (.event (.runStarted runId key) :: (es ++ (es' ++ lastEntries runId key answer))) answer u

/-- Every run follows its plan, up to where it breaks off. -/
theorem RunOf.of_run {given : Option (List Row)} (extra : Nat)
    (h : (engine.run runId key given).Ends s es answer t) :
    RunOf engine (maxTriggerDepth + extra) runId key given s es answer t := by
  obtain ⟨es', answer', t', hall⟩ := Run.Adds.ends (engine.runAll runId key given) s
  obtain ⟨rfl, rfl, rfl⟩ := h.unique (run_ends hall)
  rw [runAll] at hall
  cases hfound : engine.pipelines.find? key with
  | none =>
    rw [findPipeline, hfound] at hall
    obtain ⟨rfl, rfl, rfl⟩ := hall.unique (Run.ends_fail _).bind_error
    exact .unknown hfound
  | some p =>
    rw [findPipeline, hfound] at hall
    have hall := (Run.ends_pure p).bind_silent_iff.mp hall
    rcases Run.ends_bind_iff.mp hall with
      ⟨e, rfl, hresolve⟩ | ⟨sets, es₁, s₁, es₂, hresolve, hsets, rfl⟩
    · exact .unresolved hfound (.of_resolveParams hresolve)
    · have hcarried := (carries_plan engine extra runId p 0 sets).carried hsets
      rw [List.append_assoc]
      exact .followed hfound (.of_resolveParams hresolve) hcarried hcarried.steps_prefix
        hcarried.ok_iff

/-! ### The entries of a run -/

section
variable {kind : Entry σ → Prop}

theorem CarriedOut.makes (hstages : ∀ stage ∈ stages, (engine.carryOut stage).Makes kind)
    (h : CarriedOut engine stages s es t) : ∀ entry ∈ es, kind entry := by
  induction h with
  | nil => exact List.forall_mem_nil _
  | cons hstage _ ih =>
    obtain ⟨hfirst, hrest⟩ := List.forall_mem_cons.mp hstages
    exact List.forall_mem_append.mpr ⟨hfirst.of_ends hstage, ih hrest⟩

theorem Carried.makes (hstages : ∀ stage ∈ stages, (engine.carryOut stage).Makes kind)
    (h : Carried engine stages s es answer t) : ∀ entry ∈ es, kind entry := by
  cases h with
  | whole h => exact h.makes hstages
  | broke h hstage =>
    obtain ⟨hbefore, hrest⟩ := List.forall_mem_append.mp hstages
    have hlast := (List.forall_mem_cons.mp hrest).1
    exact List.forall_mem_append.mpr ⟨h.makes hbefore, hlast.of_ends hstage⟩

theorem Resolved.makes {given : Option (List Row)}
    (hfunction : ∀ entry, entry.IsFunctionCall → kind entry)
    (h : Resolved engine p given s es answer t) : ∀ entry ∈ es, kind entry := by
  cases h with
  | given | empty => exact List.forall_mem_nil _
  | provided | unusable | failed => exact List.forall_mem_singleton.mpr (hfunction _ trivial)

theorem lastEntries_makes (hevent : ∀ event, kind (.event event)) (runId key : String)
    (answer : Except (Failure EngineError) Unit) :
    ∀ entry ∈ (lastEntries runId key answer : List (Entry σ)), kind entry := by
  rcases answer with (e | message) | ⟨⟩
  · exact List.forall_mem_singleton.mpr (hevent _)
  · exact List.forall_mem_nil _
  · exact List.forall_mem_singleton.mpr (hevent _)

/-- If the stages of its plan make entries of a kind, then so does a run: its other entries are
events, and the function call of its provider. -/
theorem makes_of_run {given : Option (List Row)} (hevent : ∀ event, kind (.event event))
    (hfunction : ∀ entry, entry.IsFunctionCall → kind entry)
    (hstages : ∀ p sets, engine.pipelines.find? key = some p →
      ∀ stage ∈ engine.plan maxTriggerDepth runId p 0 sets, (engine.carryOut stage).Makes kind)
    (h : (engine.run runId key given).Ends s es answer t) : ∀ entry ∈ es, kind entry := by
  have hlast := lastEntries_makes (σ := σ) hevent runId key
  cases RunOf.of_run 0 h with
  | unknown => exact List.forall_mem_cons.mpr ⟨hevent _, hlast _⟩
  | unresolved _ hresolved =>
    refine List.forall_mem_cons.mpr ⟨hevent _, List.forall_mem_append.mpr ?_⟩
    exact ⟨hresolved.makes hfunction, hlast _⟩
  | followed hp hresolved hcarried =>
    refine List.forall_mem_cons.mpr ⟨hevent _, List.forall_mem_append.mpr ?_⟩
    refine ⟨hresolved.makes hfunction, List.forall_mem_append.mpr ⟨?_, hlast _⟩⟩
    exact hcarried.makes (hstages _ _ hp)

end

end Engine

/-! ## The runs of a service -/

namespace Service

variable {τ : Type}

/-- What the service answers for a run; a panic comes out as an error with its text. -/
def result (panicText : String → String) :
    Except (Failure EngineError) Unit → Except EngineError Unit
  | .ok () => .ok ()
  | .error (.error e) => .error e
  | .error (.panic message) => .error (.interrupted (panicText message))

theorem perform_run (run : Run σ ε α) (s : Service σ τ) :
    (perform run).run s =
      ((run.exec ⟨⟨.empty, s.world⟩, s.journal⟩).1, { s with
        world := (run.exec ⟨⟨.empty, s.world⟩, s.journal⟩).2.world
        journal := (run.exec ⟨⟨.empty, s.world⟩, s.journal⟩).2.journal }) := rfl

/-- What a service answers depends on its task only in the text of a panic. -/
theorem transport_perform (runId key : String) (given : Option (List Row)) (s : Service σ τ) :
    (transport runId key given).run s =
      (result (s.panicText s.tasks) ((perform (s.engine.run runId key given)).run s).1,
        ((perform (s.engine.run runId key given)).run s).2) := by
  simp only [transport, StateT.run_bind, StateT.run_get, pure_bind]
  rcases (perform (s.engine.run runId key given)).run s with ⟨(e | message) | _, s'⟩ <;> rfl

/-- The service after a run that has made entries and ended at a site. -/
def after (s : Service σ τ) (es : List (Entry σ)) (t : Site σ) : Service σ τ :=
  { s with world := t.world, journal := es.reverse ++ s.journal }

theorem transport_run {runId key : String} {given : Option (List Row)} {s : Service σ τ}
    (h : (s.engine.run runId key given).Ends ⟨.empty, s.world⟩ es answer t) :
    (transport runId key given).run s =
      (result (s.panicText s.tasks) answer, s.after es t) := by
  have hperform : (perform (s.engine.run runId key given)).run s = (answer, s.after es t) := by
    rw [perform_run, h.exec s.journal]
    rfl
  rw [transport_perform, hperform]

end Service

end RowFlow
