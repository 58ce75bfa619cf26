import RowFlow.Proofs.Literals
import RowFlow.Proofs.Refusals
import RowFlow.Proofs.Registration

/-!
# Actions of writers

Whether a writer knows its action is asked twice: at registration, as far as its name is known then,
and whenever a run makes it ready. A definition is refused for the first of its writers that clashes
with its action (`Registry.checkWriters_error_iff`), so one that is in place has no such writer. A
run finds under a literal name what was foreseen at registration (`Registry.foresee_eq_resolve`),
and so it is refused only for writers whose names are templates (`Service.register_checks_actions`).
-/

namespace RowFlow

variable {σ τ : Type}

/-! ## The first writer that clashes with its action -/

/-- The writers of a flow that reads, in order, each with the id of the flow. -/
def Flow.nodes : Flow → List (String × WriterSettings)
  | .read flow => flow.nodes.map (flow.id, ·)
  | .trigger _ => []

def Pipeline.nodes (p : Pipeline) : List (String × WriterSettings) := p.flows.flatMap Flow.nodes

/-- The first element of a list that has a property. -/
def IsFirst {α : Type} (P : α → Prop) (as : List α) (a : α) : Prop :=
  P a ∧ ∃ before after, as = before ++ a :: after ∧ ∀ b ∈ before, ¬ P b

namespace Registry

/-- The component that a name stands for, of some components or else of the global ones. -/
inductive Foresees (r : Registry σ) (components : Dict (Component σ)) (name : String) :
    Component σ → Prop
  | own : components.find? name = some component → Foresees r components name component
  | global : components.find? name = none → r.globals.find? name = some component →
    Foresees r components name component

/-- An enabled writer with a literal name is asked for more than to create, but only appends. -/
structure Clashes (r : Registry σ) (components : Dict (Component σ)) (settings : WriterSettings) :
    Prop where
  literal : ¬ ['{', '{'] <:+: settings.component.toList
  enabled : settings.enabled
  action : settings.action ≠ .create
  appendOnly : ∃ w : Writer σ,
    r.Foresees components settings.component (.writer w) ∧ w.appendOnly

variable (r : Registry σ) (components : Dict (Component σ))

theorem foresee_eq_some_iff {name : String} {component : Component σ} :
    r.foresee components name = some component ↔ r.Foresees components name component := by
  unfold foresee resolve
  constructor
  · intro h
    split at h
    · rename_i hown
      cases h
      exact .own hown
    · rename_i hown
      exact .global hown h
  · rintro (hown | ⟨hown, hglobal⟩)
    · rw [hown]
    · rw [hown]
      exact hglobal

theorem contradicts_iff {settings : WriterSettings} :
    r.contradicts components settings ↔ r.Clashes components settings := by
  rw [contradicts, Bool.and_eq_true, Bool.and_eq_true, Bool.and_eq_true, isLiteral_iff,
    decide_eq_true_iff]
  constructor
  · rintro ⟨⟨⟨hliteral, henabled⟩, haction⟩, hwriter⟩
    split at hwriter
    · rename_i w hw
      exact ⟨hliteral, henabled, haction, w, (r.foresee_eq_some_iff components).mp hw, hwriter⟩
    · cases hwriter
  · rintro ⟨hliteral, henabled, haction, w, hw, happend⟩
    rw [(r.foresee_eq_some_iff components).mpr hw]
    exact ⟨⟨⟨hliteral, henabled⟩, haction⟩, happend⟩

theorem contradiction?_mk (settings : WriterSettings) (onSuccess onFailure : Option WriterSpec) :
    r.contradiction? components (.mk settings onSuccess onFailure) =
      if r.contradicts components settings then some settings
      else (onSuccess.bind (r.contradiction? components)).or
        (onFailure.bind (r.contradiction? components)) := by
  cases onSuccess <;> cases onFailure <;> rw [contradiction?] <;> rfl

theorem contradiction?_eq : (spec : WriterSpec) →
    r.contradiction? components spec = spec.nodes.find? (r.contradicts components)
  | .mk settings onSuccess onFailure => by
    have hsuccess : onSuccess.bind (r.contradiction? components) =
        (onSuccess.elim [] WriterSpec.nodes).find? (r.contradicts components) := by
      cases onSuccess with
      | none => rfl
      | some w => exact contradiction?_eq w
    have hfailure : onFailure.bind (r.contradiction? components) =
        (onFailure.elim [] WriterSpec.nodes).find? (r.contradicts components) := by
      cases onFailure with
      | none => rfl
      | some w => exact contradiction?_eq w
    rw [contradiction?_mk, hsuccess, hfailure, WriterSpec.nodes_mk, List.find?_cons,
      List.find?_append]
    cases r.contradicts components settings <;> rfl

/-- What a check answers, given the writer that it has found. -/
def verdict : Option (String × WriterSettings) → Except DefinitionError Unit
  | some (flow, settings) => .error (.unsupportedAction flow settings.component settings.action)
  | none => .ok ()

theorem checkFlow_eq (flow : Flow) :
    r.checkFlow components flow =
      verdict (flow.nodes.find? fun node => r.contradicts components node.2) := by
  cases flow with
  | trigger => rfl
  | read flow =>
    have hfound : flow.nodes.find? (r.contradicts components) =
        flow.writers.findSome? (r.contradiction? components) := by
      rw [ReadFlow.nodes, List.find?_flatMap]
      exact congrArg (List.findSome? · flow.writers) (funext (r.contradiction?_eq components)).symm
    rw [checkFlow, Flow.nodes, List.find?_map, ← hfound]
    cases hnode : flow.nodes.find? (r.contradicts components) <;> simp [hnode, verdict]

theorem checkWriters_eq (p : Pipeline) :
    r.checkWriters components p =
      verdict (p.nodes.find? fun node => r.contradicts components node.2) := by
  rw [checkWriters, Pipeline.nodes]
  induction p.flows with
  | nil => rfl
  | cons flow flows ih =>
    rw [List.flatMap_cons, List.find?_append]
    change (do r.checkFlow components flow; flows.forM (r.checkFlow components)) = _
    rw [checkFlow_eq, ih]
    cases flow.nodes.find? fun node => r.contradicts components node.2 <;> rfl

section Verdict

variable {found : Option (String × WriterSettings)}

theorem verdict_ok_iff : verdict found = .ok () ↔ found = none := by
  cases found <;> simp [verdict]

theorem verdict_refuses_iff :
    (∃ flow writer action, verdict found = .error (.unsupportedAction flow writer action)) ↔
      found ≠ none := by
  cases found <;> simp [verdict]

theorem verdict_error_iff :
    verdict found = .error (.unsupportedAction flow writer action) ↔
      ∃ settings, found = some (flow, settings) ∧ settings.component = writer ∧
        settings.action = action := by
  cases found with
  | none => simp [verdict]
  | some node =>
    obtain ⟨flow', settings⟩ := node
    simp only [verdict, Except.error.injEq, DefinitionError.unsupportedAction.injEq,
      Option.some.injEq, Prod.mk.injEq]
    constructor
    · rintro ⟨rfl, rfl, rfl⟩
      exact ⟨settings, ⟨rfl, rfl⟩, rfl, rfl⟩
    · rintro ⟨_, ⟨rfl, rfl⟩, rfl, rfl⟩
      exact ⟨rfl, rfl, rfl⟩

end Verdict

section Nodes

variable {nodes : List (String × WriterSettings)} {p : Pipeline}

theorem find?_contradicts_none_iff :
    nodes.find? (fun node => r.contradicts components node.2) = none ↔
      ∀ node ∈ nodes, ¬ r.Clashes components node.2 := by
  simp only [List.find?_eq_none, contradicts_iff]

/-- The writer that is found is the first one that clashes with its action. -/
theorem find?_contradicts_some_iff :
    nodes.find? (fun node => r.contradicts components node.2) = some node ↔
      IsFirst (fun node => r.Clashes components node.2) nodes node := by
  simp only [List.find?_eq_some_iff_append, IsFirst, Bool.not_eq_true', ← Bool.not_eq_true,
    contradicts_iff]

theorem checkWriters_ok_iff :
    r.checkWriters components p = .ok () ↔ ∀ node ∈ p.nodes, ¬ r.Clashes components node.2 := by
  rw [checkWriters_eq, verdict_ok_iff, find?_contradicts_none_iff]

theorem checkWriters_refuses_iff :
    (∃ flow writer action,
        r.checkWriters components p = .error (.unsupportedAction flow writer action)) ↔
      ∃ node ∈ p.nodes, r.Clashes components node.2 := by
  rw [checkWriters_eq, verdict_refuses_iff, ne_eq, find?_contradicts_none_iff]
  simp only [not_forall, not_not, exists_prop]

theorem checkWriters_error_iff :
    r.checkWriters components p = .error (.unsupportedAction flow writer action) ↔
      ∃ settings, IsFirst (fun node => r.Clashes components node.2) p.nodes (flow, settings) ∧
        settings.component = writer ∧ settings.action = action := by
  simp only [checkWriters_eq, verdict_error_iff, find?_contradicts_some_iff]

end Nodes

/-- What a name stands for while a pipeline runs is what was foreseen. -/
theorem foresee_eq_resolve {r' : Registry σ} (hcomponents : r'.componentsOf key = components)
    (hglobals : r'.globals = r.globals) (name : String) :
    r.foresee components name = r'.resolve (some key) name := by
  subst hcomponents
  unfold foresee resolve
  rw [hglobals]
  rfl

end Registry

/-! ## Runs of a definition that is in place -/

namespace Engine

variable {engine : Engine σ}

/-- The component of a literal name is looked up under that name, in every context. -/
theorem bindWriter_literal (hliteral : isLiteral settings.component)
    (h : engine.bindWriter key ctx settings = .ok w) :
    ∃ writer : Writer σ,
      engine.registry.resolve (some key) settings.component = some (.writer writer) ∧
        w.writer.appendOnly = writer.appendOnly := by
  obtain ⟨name, hname, h⟩ := bind_ok_iff.mp h
  obtain ⟨writer, hwriter, h⟩ := bind_ok_iff.mp h
  obtain ⟨instruction, -, h⟩ := bind_ok_iff.mp h
  obtain ⟨bound, hbound, hready⟩ := bind_ok_iff.mp h
  cases hready
  rw [Context.render, Template.render_literal hliteral] at hname
  cases hname
  refine ⟨writer, ?_, ?_⟩
  · unfold findWriter at hwriter
    split at hwriter <;> cases hwriter
    assumption
  · unfold Writer.bound at hbound
    cases hsink : writer.bind instruction settings.format with
    | error e =>
      rw [hsink] at hbound
      cases hbound
    | ok sink =>
      rw [hsink] at hbound
      cases hbound
      rfl

/-- A writer with a literal name is refused in a run only if it clashes with its action. -/
theorem clashes_of_refused {r : Registry σ}
    (h : engine.prepareWriter key ctx settings = .error (.unsupportedAction writer action))
    (hliteral : isLiteral settings.component)
    (hforeseen : r.foresee components settings.component =
      engine.registry.resolve (some key) settings.component) :
    r.Clashes components settings := by
  rcases prepareWriter_error h with hbind | ⟨w, hbind, henabled, hrefused, -⟩
  · cases (engine.bindWriter_error key ctx settings).of_error hbind
  · obtain ⟨writer, hwriter, hsame⟩ := bindWriter_literal hliteral hbind
    rw [BoundWriter.supports, hsame, Bool.or_eq_false_iff, Bool.not_eq_false',
      decide_eq_false_iff_not] at hrefused
    obtain ⟨happend, haction⟩ := hrefused
    refine ⟨(isLiteral_iff _).mp hliteral, henabled, haction, writer, ?_, happend⟩
    exact (r.foresee_eq_some_iff components).mp (hforeseen.trans hwriter)

/-- The definition under a key, its components and the global ones are the same. -/
structure Keeps (key : String) (before after : Engine σ) : Prop where
  definition : after.pipelines.find? key = before.pipelines.find? key
  components : after.registry.componentsOf key = before.registry.componentsOf key
  globals : after.registry.globals = before.registry.globals

end Engine

/-- The error is not that of a writer that clashes with its action. -/
def DefinitionError.IsSupported : DefinitionError → Prop
  | .unsupportedAction .. => False
  | _ => True

theorem Engine.loadScripts_supports (engine : Engine σ) (folder : Option String)
    (paths : List String) :
    (engine.loadScripts folder paths).Fails DefinitionError.IsSupported :=
  .forM (fun _ => .bind (.mapError (fun _ => trivial) _) fun _ => .mapError (fun _ => trivial) _)
    paths

theorem Hands.supports (h : Hands key before schedules (.error e) after) : e.IsSupported := by
  generalize hanswer : (Except.error e : Except DefinitionError Unit) = answer at h
  induction h with
  | nobody | done => cases hanswer
  | refused =>
    cases hanswer
    trivial
  | taken _ _ ih => exact ih hanswer

namespace Service

variable {folder : Option String} {s : Service σ τ}

theorem check_eq {r : Registry σ} (hpipeline : Pipeline.ofYaml key text = .ok p)
    (hbuilt : r.buildAll p.components = .ok components) :
    check r key text = (r.checkWriters components p).map fun _ => ⟨p, components⟩ := by
  rw [check, hpipeline]
  change (do
    let components ← r.buildAll p.components
    r.checkWriters components p
    return (⟨p, components⟩ : Checked σ)) = _
  rw [hbuilt]
  change (do
    r.checkWriters components p
    return (⟨p, components⟩ : Checked σ)) = _
  cases r.checkWriters components p <;> rfl

theorem check_ok_writers {r : Registry σ} (h : check r key text = .ok c) :
    r.checkWriters c.components c.pipeline = .ok () := by
  obtain ⟨p, -, h⟩ := bind_ok_iff.mp h
  obtain ⟨components, -, h⟩ := bind_ok_iff.mp h
  obtain ⟨⟨⟩, hwriters, hchecked⟩ := bind_ok_iff.mp h
  cases hchecked
  exact hwriters

theorem perform_error {run : Run σ ε α} {P : ε → Prop} (h : run.Fails P)
    (hperform : (perform run).run s = (.error (.error e), s')) : P e := by
  let live : Live σ := ⟨⟨.empty, s.world⟩, s.journal⟩
  have hanswer : (run.exec live).1 = .error (.error e) := by
    rw [perform_run] at hperform
    exact congrArg Prod.fst hperform
  have hexec : run.exec live = (.error (.error e), (run.exec live).2) := Prod.ext hanswer rfl
  exact h.error hexec

/-- Neither scripts nor schedules are refused for an action. -/
theorem registerIn_refuses_iff :
    ((registerIn folder key text).run s).1 = .error (.unsupportedAction flow writer action) ↔
      check s.engine.registry key text = .error (.unsupportedAction flow writer action) := by
  cases hcheck : check s.engine.registry key text with
  | error e => simp [registerIn_refused hcheck]
  | ok c =>
    refine ⟨fun h => ?_, nofun⟩
    rw [registerIn_checked hcheck] at h
    rcases hscripts : (perform (s.engine.loadScripts folder c.pipeline.scripts)).run s with
      ⟨(e | message) | _, s₁⟩
    · rw [hscripts] at h
      cases h
      exact (perform_error (s.engine.loadScripts_supports folder _) hscripts).elim
    · rw [hscripts] at h
      cases h
    · obtain ⟨answer, last, hschedules, hhands⟩ :=
        scheduleAll_hands key (activeSchedules c.pipeline) ((install c).run s₁).2
      rw [hscripts] at h
      dsimp only at h
      rw [hschedules] at h
      subst h
      exact hhands.supports.elim

/-- A registration that has not been refused has put in place what it has checked. -/
theorem registerIn_ok (h : (registerIn folder key text).run s = (.ok (), s')) :
    ∃ c, check s.engine.registry key text = .ok c ∧
      Installed key c.pipeline s.engine s'.engine ∧
      s'.engine.registry.componentsOf key = c.components := by
  cases hcheck : check s.engine.registry key text with
  | error e =>
    rw [registerIn_refused hcheck] at h
    cases h
  | ok c =>
    obtain ⟨hpipeline, hbuilt⟩ := check_ok hcheck
    have hkey := Pipeline.ofYaml_key hpipeline
    obtain ⟨answer, world, journal, hscripts, -⟩ :=
      perform_loadScripts s.engine folder c.pipeline.scripts s
    rw [registerIn_checked hcheck, hscripts] at h
    rcases answer with (e | message) | _
    · cases h
    · cases h
    · obtain ⟨answer, last, hschedules, -⟩ := scheduleAll_hands key
        (activeSchedules c.pipeline) ((install c).run { s with world, journal }).2
      dsimp only at h
      rw [hschedules] at h
      cases h
      refine ⟨c, rfl, installed_install hkey hbuilt, ?_⟩
      subst hkey
      exact (Registry.componentsOf_install ..).trans (if_pos rfl)

/-- A run that a service makes, of any pipeline and with any parameter sets, ends with the error of
a writer that does not know its action only for a writer of a stored pipeline, and never for one of
the pipeline under the key whose name is literal. -/
def RefusesOnlyTemplates (key : String) (s : Service σ τ) : Prop :=
  ∀ runId other given e s' writer action,
    (transport runId other given).run s = (.error e, s') →
    e.root = .unsupportedAction writer action →
    (∃ stored p settings ctx, s.engine.Refusal e stored p settings ctx) ∧
      ∀ p settings ctx, s.engine.Refusal e key p settings ctx →
        ['{', '{'] <:+: settings.component.toList

/-- A run whose component panics does not end with such an error. -/
theorem transport_error {runId key : String} {given : Option (List Row)}
    (h : (transport runId key given).run s = (.error e, s'))
    (hroot : e.root = .unsupportedAction writer action) :
    ∃ es t, (s.engine.run runId key given).Ends ⟨.empty, s.world⟩ es (.error (.error e)) t := by
  obtain ⟨es, answer, t, hends⟩ := Run.Adds.ends (s.engine.run runId key given) ⟨.empty, s.world⟩
  rw [transport_run hends] at h
  rcases answer with (e' | message) | _
  · cases h
    exact ⟨es, t, hends⟩
  · cases h
    cases hroot
  · cases h

theorem refusesOnlyTemplates_of_registerIn {s' s'' : Service σ τ}
    (h : (registerIn folder key text).run s = (.ok (), s'))
    (hkeeps : Engine.Keeps key s'.engine s''.engine) : RefusesOnlyTemplates key s'' := by
  obtain ⟨c, hcheck, hinstalled, hcomponents⟩ := registerIn_ok h
  intro runId other given e s₁ writer action hrun hroot
  refine ⟨?_, fun p settings ctx hrefusal => ?_⟩
  · obtain ⟨es, t, hends⟩ := transport_error hrun hroot
    obtain ⟨stored, p, settings, hrefusal⟩ := Engine.run_refused hends hroot
    exact ⟨stored, p, settings, _, hrefusal⟩
  · by_contra hliteral
    obtain ⟨hpipeline, -⟩ := check_ok hcheck
    have hsame : some c.pipeline = some p := by
      rw [← hinstalled.definition, ← hkeeps.definition, hrefusal.pipeline]
    cases hsame
    obtain ⟨flow, hflow, hnode⟩ := hrefusal.writer
    have hmem : (flow.id, settings) ∈ c.pipeline.nodes :=
      List.mem_flatMap.mpr ⟨.read flow, hflow, List.mem_map_of_mem hnode⟩
    have hforeseen := Registry.foresee_eq_resolve s.engine.registry c.components
      (hkeeps.components.trans hcomponents) (hkeeps.globals.trans hinstalled.globals)
      settings.component
    have hrefused := hrefusal.refused
    rw [hroot, Pipeline.ofYaml_key hpipeline] at hrefused
    exact (Registry.checkWriters_ok_iff _ _).mp (check_ok_writers hcheck) _ hmem
      (Engine.clashes_of_refused hrefused ((isLiteral_iff _).mpr hliteral) hforeseen)

/-- **The check of a registration is exact and sound.** A definition whose components build is
refused for an action if and only if one of its writers clashes with its own, and the first of these
is named. Once a definition is in place, and as long as it stays there and the global components
stay the same, no run is refused for one of its writers with a literal name. -/
theorem register_checks_actions {s : Service σ τ}
    (hpipeline : Pipeline.ofYaml key text = .ok p)
    (hbuilt : s.engine.registry.buildAll p.components = .ok components) :
    ((∃ flow writer action,
        ((register key text).run s).1 = .error (.unsupportedAction flow writer action)) ↔
      ∃ node ∈ p.nodes, s.engine.registry.Clashes components node.2) ∧
    (∀ flow writer action,
      ((register key text).run s).1 = .error (.unsupportedAction flow writer action) ↔
        ∃ settings,
          IsFirst (fun node => s.engine.registry.Clashes components node.2) p.nodes
            (flow, settings) ∧
          settings.component = writer ∧ settings.action = action) ∧
    ∀ s' s'' : Service σ τ, (register key text).run s = (.ok (), s') →
      Engine.Keeps key s'.engine s''.engine → RefusesOnlyTemplates key s'' := by
  have hrefuses (flow writer : String) (action : WriteAction) :
      ((register key text).run s).1 = .error (.unsupportedAction flow writer action) ↔
        s.engine.registry.checkWriters components p =
          .error (.unsupportedAction flow writer action) := by
    rw [register_run, registerIn_refuses_iff, check_eq hpipeline hbuilt]
    cases s.engine.registry.checkWriters components p <;> simp [Except.map]
  refine ⟨?_, fun flow writer action => ?_, fun s' s'' h hkeeps => ?_⟩
  · simp only [hrefuses, Registry.checkWriters_refuses_iff]
  · rw [hrefuses, Registry.checkWriters_error_iff]
  · rw [register_run] at h
    exact refusesOnlyTemplates_of_registerIn h hkeeps

/-- A service with a source and with a log that only appends. -/
def sampleLog : Service Unit Unit where
  engine :=
    { registry :=
        { globals :=
            [("source", .reader ⟨fun _ _ => .ok
                { findOne := fun _ => pure none
                  findAll := fun _ => pure []
                  findBatches := fun _ _ => pure (.ofList []) }⟩),
              ("log", .writer ⟨true, fun _ _ => .ok ⟨fun _ _ => pure (), fun _ _ => pure ()⟩⟩)] }
      scripts :=
        { load := fun _ => Access.fail (.unsupported "scripts")
          invoke := fun function _ => Access.fail (.unknownFunction function) } }
  history := ()
  world := { state := () }
  runId _ := "run"

/-- The second writer clashes with its action. -/
def sampleUpdate : String :=
  "\n".intercalate
    ["flows:", "- id: copy", "  reader:", "    beanName: source", "  writers:",
      "  - beanName: log", "    onFailure:", "      beanName: log", "      action: UPDATE"]

/-- What the writer is, only a run can tell. -/
def sampleTemplate : String :=
  "\n".intercalate
    ["flows:", "- id: copy", "  reader:", "    beanName: source", "  writers:",
      "  - beanName: \"{{to}}\"", "    action: UPDATE"]

/-- The first definition is refused for its second writer. The second one is put in place, and a run
of it is refused. -/
theorem register_checks_actions_log :
    (∃ p components, Pipeline.ofYaml "p" sampleUpdate = .ok p ∧
      sampleLog.engine.registry.buildAll p.components = .ok components ∧
      ((register "p" sampleUpdate).run sampleLog).1 =
        .error (.unsupportedAction "copy" "log" .update) ∧
      ∃ node ∈ p.nodes, sampleLog.engine.registry.Clashes components node.2) ∧
    ∃ s, (register "p" sampleTemplate).run sampleLog = (.ok (), s) ∧
      ((transport "run" "p" (some [[("to", .text "log")]])).run s).1.mapError (·.root.message) =
        .error "writer 'log' is append-only and cannot UPDATE" ∧
      RefusesOnlyTemplates "p" s := by
  have hbuilds (text : String)
      (h : (Pipeline.ofYaml "p" text >>= fun p =>
        (sampleLog.engine.registry.buildAll p.components).map fun _ => ()) = .ok ()) :
      ∃ p components, Pipeline.ofYaml "p" text = .ok p ∧
        sampleLog.engine.registry.buildAll p.components = .ok components := by
    obtain ⟨p, hp, h⟩ := bind_ok_iff.mp h
    cases hcomponents : sampleLog.engine.registry.buildAll p.components with
    | error e =>
      rw [hcomponents] at h
      cases h
    | ok components => exact ⟨p, components, hp, hcomponents⟩
  constructor
  · obtain ⟨p, components, hp, hcomponents⟩ := hbuilds sampleUpdate (by decide +kernel)
    have hrefused : ((register "p" sampleUpdate).run sampleLog).1 =
        .error (.unsupportedAction "copy" "log" .update) := by
      decide +kernel
    exact ⟨p, components, hp, hcomponents, hrefused,
      (register_checks_actions hp hcomponents).1.mp ⟨_, _, _, hrefused⟩⟩
  · obtain ⟨p, components, hp, hcomponents⟩ := hbuilds sampleTemplate (by decide +kernel)
    have hregistered : ((register "p" sampleTemplate).run sampleLog).1 = .ok () := by
      decide +kernel
    have hrun : (register "p" sampleTemplate).run sampleLog =
        (.ok (), ((register "p" sampleTemplate).run sampleLog).2) := by
      rw [← hregistered, Prod.mk.eta]
    refine ⟨_, hrun, by decide +kernel, ?_⟩
    exact (register_checks_actions hp hcomponents).2.2 _ _ hrun ⟨rfl, rfl, rfl⟩

end Service

end RowFlow
