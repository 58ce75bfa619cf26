import RowFlow.Proofs.Run
import RowFlow.Service.Registration

/-!
# Registration

A registration either is refused and leaves the engine and the scheduler as they are, or it puts a
definition in place of the one under its key, and of its components, and then hands its schedules
to the scheduler (`Service.register_registers`). Only the scheduler can refuse a definition that is
already in place (`Service.check_error`, `Engine.loadScripts_fails`).
-/

namespace RowFlow

variable {σ τ : Type}

/-! ## The errors of the stages -/

/-- The error does not come from a scheduler. -/
def DefinitionError.IsInherent : DefinitionError → Prop
  | .schedule .. => False
  | _ => True

theorem FlowConfig.check_error (index : Nat) (f : FlowConfig) :
    ErrorIs DefinitionError.IsInherent (f.check index) := by
  unfold check
  split
  · trivial
  · trivial
  · split <;> trivial
  · split <;> trivial

theorem FlowConfig.checkAll_error (index : Nat) (fs : List FlowConfig) :
    ErrorIs DefinitionError.IsInherent (checkAll index fs) := by
  induction fs generalizing index with
  | nil => trivial
  | cons f fs ih => exact (check_error index f).bind fun _ => ih (index + 1)

/-- A text can be refused for what it says, but not for the service it is given to. -/
theorem Pipeline.ofYaml_error (key text : String) :
    ErrorIs DefinitionError.IsInherent (Pipeline.ofYaml key text) := by
  refine .bind (.bind (.mapError (fun _ => trivial) _) fun config => ?_) fun config => ?_
  · exact (FlowConfig.checkAll_error 0 config.flows).bind fun _ => trivial
  · exact (FlowConfig.checkAll_error 0 config.flows).bind fun _ => trivial

namespace Registry

variable (r : Registry σ)

theorem buildAll_error (specs : Dict ComponentSpec) :
    ErrorIs DefinitionError.IsInherent (r.buildAll specs) := by
  induction specs with
  | nil => trivial
  | cons spec specs ih =>
    refine .bind ?_ fun component => ih.bind fun _ => trivial
    unfold build
    split
    · trivial
    · exact .mapError (fun _ => trivial) _

theorem checkWriters_error (components : Dict (Component σ)) (p : Pipeline) :
    ErrorIs DefinitionError.IsInherent (r.checkWriters components p) := by
  refine .forM (fun flow => ?_) p.flows
  unfold checkFlow
  split
  · trivial
  · split <;> trivial

end Registry

/-- A script that can not be read or loaded is a fault of the definition that names it. -/
theorem Engine.loadScripts_fails (engine : Engine σ) (folder : Option String)
    (paths : List String) :
    (engine.loadScripts folder paths).Fails DefinitionError.IsInherent :=
  .forM (fun _ => .bind (.mapError (fun _ => trivial) _) fun _ => .mapError (fun _ => trivial) _)
    paths

theorem Service.check_error (r : Registry σ) (key text : String) :
    ErrorIs DefinitionError.IsInherent (check r key text) :=
  (Pipeline.ofYaml_error key text).bind fun p => (r.buildAll_error p.components).bind fun c =>
    (r.checkWriters_error c p).bind fun _ => trivial

/-! ## What a definition declares -/

theorem Pipeline.ofYaml_key {key text : String} {p : Pipeline} (h : Pipeline.ofYaml key text = .ok p) :
    p.key = key := by
  obtain ⟨config, -, hpipeline⟩ := bind_ok_iff.mp h
  obtain ⟨flows, -, hp⟩ := bind_ok_iff.mp hpipeline
  cases hp
  rfl

namespace Registry

/-- Every declaration has been built, in order and under its own name. -/
inductive Built (r : Registry σ) : Dict ComponentSpec → Dict (Component σ) → Prop
  | nil : Built r [] []
  | cons : r.build name spec = .ok component → Built r specs components →
    Built r ((name, spec) :: specs) ((name, component) :: components)

/-- If the components are built, there is one for each declaration, made by its factory. -/
theorem Built.of_buildAll {r : Registry σ} {specs : Dict ComponentSpec}
    (h : r.buildAll specs = .ok components) : r.Built specs components := by
  induction specs generalizing components with
  | nil =>
    cases h
    exact .nil
  | cons spec specs ih =>
    obtain ⟨component, hspec, hrest⟩ := bind_ok_iff.mp h
    obtain ⟨rest, hspecs, hcons⟩ := bind_ok_iff.mp hrest
    cases hcons
    exact .cons hspec (ih hspecs)

theorem componentsOf_install (r : Registry σ) (key : String) (components : Dict (Component σ))
    (other : String) : (r.install key components).componentsOf other =
      if key = other then components else r.componentsOf other := by
  unfold install componentsOf
  cases components with
  | nil =>
    simp only [List.isEmpty_nil, if_true, Dict.find?_erase]
    split <;> rfl
  | cons component components =>
    simp only [List.isEmpty_cons, Bool.false_eq_true, if_false, Dict.find?_insert]
    split <;> rfl

end Registry

/-- A definition is in place: it is stored under its key, the components of the key are those that
it declares, and everything else is as before. -/
structure Installed (key : String) (p : Pipeline) (before after : Engine σ) : Prop where
  definition : after.pipelines.find? key = some p
  components : before.registry.Built p.components (after.registry.componentsOf key)
  otherDefinitions : ∀ other, other ≠ key →
    after.pipelines.find? other = before.pipelines.find? other
  otherComponents : ∀ other, other ≠ key →
    after.registry.componentsOf other = before.registry.componentsOf other
  globals : after.registry.globals = before.registry.globals
  factories : after.registry.factories = before.registry.factories

/-- Schedules are handed to a scheduler, if there is one, up to the first that it refuses. -/
inductive Hands (key : String) : Option Scheduler → List Schedule →
    Except DefinitionError Unit → Option Scheduler → Prop
  | nobody : Hands key none schedules (.ok ()) none
  | done : Hands key (some scheduler) [] (.ok ()) (some scheduler)
  | refused : scheduler.schedule key schedule = .error message →
    Hands key (some scheduler) (schedule :: rest) (.error (.schedule schedule.name message))
      (some scheduler)
  | taken : scheduler.schedule key schedule = .ok scheduler' →
    Hands key (some scheduler') rest answer last →
    Hands key (some scheduler) (schedule :: rest) answer last

namespace Service
variable {folder : Option String} {key text : String} {s : Service σ τ}
  {scheduler scheduler' : Scheduler}

/-- A definition that is refused by the check leaves the service as it is. -/
theorem registerIn_refused (h : check s.engine.registry key text = .error e) :
    (registerIn folder key text).run s = (.error e, s) := by
  simp [registerIn, h]
  rfl

theorem registerIn_checked (h : check s.engine.registry key text = .ok c) :
    (registerIn folder key text).run s =
      match (perform (s.engine.loadScripts folder c.pipeline.scripts)).run s with
      | (.error (.error e), s) => (.error e, s)
      | (.error (.panic message), s) => (.error (.script key message), s)
      | (.ok (), s) => (scheduleAll key (activeSchedules c.pipeline)).run ((install c).run s).2 := by
  simp [registerIn, h]
  generalize (perform (s.engine.loadScripts folder c.pipeline.scripts)).run s = r
  obtain ⟨(e | message) | _, s₁⟩ := r <;> rfl

theorem check_ok (h : check (σ := σ) r key text = .ok c) :
    Pipeline.ofYaml key text = .ok c.pipeline ∧ r.Built c.pipeline.components c.components := by
  obtain ⟨p, hpipeline, hcomponents⟩ := bind_ok_iff.mp h
  obtain ⟨components, hbuilt, hwriters⟩ := bind_ok_iff.mp hcomponents
  obtain ⟨⟨⟩, -, hchecked⟩ := bind_ok_iff.mp hwriters
  cases hchecked
  exact ⟨hpipeline, .of_buildAll hbuilt⟩

/-! ## Handing over schedules -/

theorem scheduleAll_nobody (hs : s.scheduler = none) (schedules : List Schedule) :
    (scheduleAll key schedules).run s = (.ok (), s) := by
  induction schedules with
  | nil => rfl
  | cons schedule rest ih =>
    simpa [scheduleAll, hs] using ih

/-- The schedules after one that is refused are not handed over. -/
theorem scheduleAll_refused (hs : s.scheduler = some scheduler)
    (h : scheduler.schedule key schedule = .error message) (rest : List Schedule) :
    (scheduleAll key (schedule :: rest)).run s = (.error (.schedule schedule.name message), s) := by
  simp [scheduleAll, hs, h]
  rfl

theorem scheduleAll_taken (hs : s.scheduler = some scheduler)
    (h : scheduler.schedule key schedule = .ok scheduler') (rest : List Schedule) :
    (scheduleAll key (schedule :: rest)).run s =
      (scheduleAll key rest).run { s with scheduler := some scheduler' } := by
  simp [scheduleAll, hs, h]

/-- Handing over schedules changes the scheduler and nothing else. -/
theorem scheduleAll_hands (key : String) (schedules : List Schedule) (s : Service σ τ) :
    ∃ answer last, (scheduleAll key schedules).run s = (answer, { s with scheduler := last }) ∧
      Hands key s.scheduler schedules answer last := by
  induction schedules generalizing s with
  | nil =>
    refine ⟨.ok (), s.scheduler, rfl, ?_⟩
    cases s.scheduler with
    | none => exact .nobody
    | some scheduler => exact .done
  | cons schedule rest ih =>
    cases hs : s.scheduler with
    | none =>
      refine ⟨.ok (), none, ?_, .nobody⟩
      rw [scheduleAll_nobody hs, ← hs]
    | some scheduler =>
      cases hschedule : scheduler.schedule key schedule with
      | error message =>
        refine ⟨_, some scheduler, ?_, .refused hschedule⟩
        rw [scheduleAll_refused hs hschedule, ← hs]
      | ok scheduler' =>
        obtain ⟨answer, last, hrest, hhands⟩ := ih { s with scheduler := some scheduler' }
        exact ⟨answer, last, (scheduleAll_taken hs hschedule rest).trans hrest,
          .taken hschedule hhands⟩

/-! ## Registering -/

/-- Loading scripts works on the world and the journal alone. -/
theorem perform_loadScripts (engine : Engine σ) (folder : Option String) (paths : List String)
    (s : Service σ τ) : ∃ answer world journal,
      (perform (engine.loadScripts folder paths)).run s = (answer, { s with world, journal }) ∧
      ∀ e, answer = .error (.error e) → e.IsInherent := by
  refine ⟨_, _, _, rfl, fun e he => ?_⟩
  exact (engine.loadScripts_fails folder paths).error (Prod.ext he rfl)

/-- The definition and its components are put in place together. -/
theorem installed_install {c : Checked σ} (hkey : c.pipeline.key = key)
    (hbuilt : s.engine.registry.Built c.pipeline.components c.components) :
    Installed key c.pipeline s.engine ((install c).run s).2.engine := by
  subst hkey
  have hregistry : ((install c).run s).2.engine.registry =
    s.engine.registry.install c.pipeline.key c.components := rfl
  have hpipelines : ((install c).run s).2.engine.pipelines =
    s.engine.pipelines.insert c.pipeline.key c.pipeline := rfl
  refine ⟨?_, ?_, fun other hother => ?_, fun other hother => ?_, rfl, rfl⟩
  · rw [hpipelines, Dict.find?_insert_self]
  · rw [hregistry, Registry.componentsOf_install, if_pos rfl]
    exact hbuilt
  · rw [hpipelines, Dict.find?_insert_of_ne hother.symm]
  · rw [hregistry, Registry.componentsOf_install, if_neg hother.symm]

/-- How a registration ends. -/
inductive Registered (key text : String) (s : Service σ τ) :
    Except DefinitionError Unit → Service σ τ → Prop
  | refused : e.IsInherent → s'.engine = s.engine → s'.scheduler = s.scheduler →
    Registered key text s (.error e) s'
  | installed : Pipeline.ofYaml key text = .ok p → Installed key p s.engine s'.engine →
    Hands key s.scheduler (activeSchedules p) answer s'.scheduler →
    Registered key text s answer s'

/-- What registering does is told stage by stage, in the order in which the stages can fail. -/
theorem registerIn_registers (folder : Option String) (key text : String) (s : Service σ τ) :
    Registered key text s ((registerIn folder key text).run s).1
      ((registerIn folder key text).run s).2 := by
  have herror := check_error s.engine.registry key text
  cases hcheck : check s.engine.registry key text with
  | error e =>
    rw [hcheck] at herror
    rw [registerIn_refused hcheck]
    exact .refused herror rfl rfl
  | ok c =>
    obtain ⟨hpipeline, hbuilt⟩ := check_ok hcheck
    obtain ⟨answer, world, journal, hscripts, hinherent⟩ :=
      perform_loadScripts s.engine folder c.pipeline.scripts s
    rw [registerIn_checked hcheck, hscripts]
    rcases answer with (e | message) | _
    · exact .refused (hinherent e rfl) rfl rfl
    -- a panic of the scripts is reworded, as an error of a script
    · exact .refused trivial rfl rfl
    · obtain ⟨answer, last, hschedules, hhands⟩ := scheduleAll_hands key
        (activeSchedules c.pipeline) ((install c).run { s with world, journal }).2
      dsimp only
      rw [hschedules]
      exact .installed hpipeline (installed_install (Pipeline.ofYaml_key hpipeline) hbuilt) hhands

theorem register_run (key text : String) (s : Service σ τ) :
    (register key text).run s = (registerIn s.folder key text).run s := by
  change (get >>= fun s => registerIn s.folder key text : Operation σ τ _).run s = _
  rw [StateT.run_bind, StateT.run_get]
  rfl

/-- **Registration is whole or not at all**, unless the scheduler refuses a schedule of a definition
that is already in place. -/
theorem register_registers (key text : String) (s : Service σ τ) :
    Registered key text s ((register key text).run s).1 ((register key text).run s).2 := by
  rw [register_run]
  exact registerIn_registers s.folder key text s

/-- A service whose scheduler refuses every schedule. -/
def sampleService : Service Unit Unit where
  engine :=
    { registry := {}
      scripts :=
        { load := fun _ => Access.fail (.unsupported "scripts")
          invoke := fun function _ => Access.fail (.unknownFunction function) } }
  scheduler := some { refusal := fun _ _ _ => some "no such time" }
  history := ()
  world := { state := () }
  runId _ := "run"

def sampleDefinition : String := "schedules: [{scheduleName: nightly, cron: {expression: daily}}]"

theorem register_refused_schedule :
    ((register "p" sampleDefinition).run sampleService).1.isOk = false ∧
      sampleService.engine.pipelines.keys = [] ∧
      ((register "p" sampleDefinition).run sampleService).2.engine.pipelines.keys = ["p"] :=
  ⟨by decide +kernel, rfl, by decide +kernel⟩

end Service

end RowFlow
