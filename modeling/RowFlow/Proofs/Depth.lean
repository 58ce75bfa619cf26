import RowFlow.Proofs.Burials

/-!
# How deep triggers nest

Pipelines may trigger one another in any way, and also themselves. A run still ends: it carries out
the stages of bodies that are nested up to a limit, and a trigger in a body at the limit is refused
before anything is done for it (`Engine.Reached`). This is the only place where the error of
triggers that nest too deep comes up. So a chain of pipelines runs as far as the limit
(`Engine.Chain`), and there is no way out of a cycle (`Engine.TriggerCycle`).
-/

namespace RowFlow

variable {σ : Type}

/-! ## Stages and their depth -/

/-- The stages of a flow, each with the depth of the body that it is in, given those of the bodies
that are triggered. -/
def Flow.nested (inside : TriggerFlow → List (Nat × Stage)) (key : String) (depth : Nat) :
    Flow → List (Nat × Stage)
  | .read flow => [(depth, .read key flow)]
  | .trigger flow => (depth, .trigger key (depth + 1) flow) :: inside flow

def Pipeline.nested (inside : TriggerFlow → List (Nat × Stage)) (depth : Nat) (p : Pipeline) :
    List (Nat × Stage) :=
  (p.pre.elim [] (Hook.stages p.key .pre)).map (depth, ·) ++
    (p.flows.flatMap (Flow.nested inside p.key depth) ++
      (p.post.elim [] (Hook.stages p.key .post)).map (depth, ·))

def Stage.isTrigger : Stage → Bool
  | .trigger .. => true
  | _ => false

namespace Engine

def triggerNested (engine : Engine σ) : (levels depth : Nat) → TriggerFlow → List (Nat × Stage)
  | 0, _, _ => []
  | levels + 1, depth, flow =>
    match engine.pipelines.find? flow.pipelineKey with
    | none => []
    | some p => (triggerParams flow).flatMap fun params =>
      (depth, .merge params) :: p.nested (engine.triggerNested levels (depth + 1)) depth

/-- The plan of a run, with the depth of each stage. -/
def nestedPlan (engine : Engine σ) (levels : Nat) (runId : String) (p : Pipeline) :
    Nat → List Row → List (Nat × Stage)
  | _, [] => []
  | index, params :: rest =>
    (0, .set runId p.key index params) :: (p.nested (engine.triggerNested levels 1) 0 ++
      engine.nestedPlan levels runId p (index + 1) rest)

theorem map_nested (inside : TriggerFlow → List (Nat × Stage)) (depth : Nat) (p : Pipeline) :
    (p.nested inside depth).map Prod.snd =
      p.stages (fun flow => (inside flow).map Prod.snd) depth := by
  have hflow (flow : Flow) : (flow.nested inside p.key depth).map Prod.snd =
      flow.stages (fun flow => (inside flow).map Prod.snd) p.key depth := by
    cases flow <;> rfl
  have hstages (stages : List Stage) :
      (stages.map fun stage => (depth, stage)).map Prod.snd = stages := by
    rw [List.map_map]
    exact List.map_id stages
  simp only [Pipeline.nested, Pipeline.stages, List.map_append, List.map_flatMap, hflow, hstages]

theorem map_triggerNested (engine : Engine σ) (levels depth : Nat) (flow : TriggerFlow) :
    (engine.triggerNested levels depth flow).map Prod.snd =
      engine.triggerStages levels depth flow := by
  induction levels generalizing depth flow with
  | zero => rfl
  | succ levels ih =>
    rw [triggerNested, triggerStages]
    cases engine.pipelines.find? flow.pipelineKey with
    | none => rfl
    | some p => simp only [List.map_flatMap, List.map_cons, map_nested, ih]

/-- The depths are annotations: without them the plan is the one that runs follow. -/
theorem map_nestedPlan (engine : Engine σ) (levels : Nat) (runId : String) (p : Pipeline)
    (index : Nat) (sets : List Row) :
    (engine.nestedPlan levels runId p index sets).map Prod.snd =
      engine.plan levels runId p index sets := by
  induction sets generalizing index with
  | nil => rfl
  | cons params rest ih =>
    simp only [nestedPlan, plan, List.map_cons, List.map_append, map_nested, map_triggerNested, ih]

/-! ## The plan opens one level after another -/

/-- In a list of stages, those at a depth beyond the bound come after a trigger that leads there. -/
inductive Opens : Nat → List (Nat × Stage) → Prop
  | nil : Opens bound []
  | trigger : depth ≤ bound → Opens (max bound (depth + 1)) stages →
    Opens bound ((depth, .trigger key (depth + 1) flow) :: stages)
  | other : depth ≤ bound → stage.isTrigger = false → Opens bound stages →
    Opens bound ((depth, stage) :: stages)

namespace Opens

theorem mono (h : Opens bound stages) (hle : bound ≤ bound') : Opens bound' stages := by
  induction h generalizing bound' with
  | nil => exact .nil
  | trigger hdepth _ ih => exact .trigger (hdepth.trans hle) (ih (max_le_max_right _ hle))
  | other hdepth hstage _ ih => exact .other (hdepth.trans hle) hstage (ih hle)

theorem append (h : Opens bound stages) (h' : Opens bound stages') :
    Opens bound (stages ++ stages') := by
  induction h with
  | nil => exact h'
  | trigger hdepth _ ih => exact .trigger hdepth (ih (h'.mono (le_max_left _ _)))
  | other hdepth hstage _ ih => exact .other hdepth hstage (ih h')

theorem flatMap {part : α → List (Nat × Stage)} (h : ∀ a, Opens bound (part a)) (as : List α) :
    Opens bound (as.flatMap part) := by
  induction as with
  | nil => exact .nil
  | cons a as ih => exact (h a).append ih

theorem hook (phase : Phase) (hook : Option Hook) (depth : Nat) :
    Opens depth ((hook.elim [] (Hook.stages key phase)).map (depth, ·)) := by
  have hstages : ∀ stage ∈ hook.elim [] (Hook.stages key phase), stage.isTrigger = false := by
    intro stage hmem
    obtain ⟨form, hstep⟩ := step?_of_mem_hook hmem
    cases stage <;> first | rfl | cases hstep
  generalize hook.elim [] (Hook.stages key phase) = stages at hstages
  induction stages with
  | nil => exact .nil
  | cons stage stages ih =>
    obtain ⟨hstage, hrest⟩ := List.forall_mem_cons.mp hstages
    exact .other le_rfl hstage (ih hrest)

theorem nested {inside : TriggerFlow → List (Nat × Stage)}
    (h : ∀ flow, Opens (depth + 1) (inside flow)) (p : Pipeline) :
    Opens depth (p.nested inside depth) := by
  refine (hook .pre p.pre depth).append (.append (.flatMap (fun flow => ?_) p.flows) ?_)
  · cases flow with
    | read flow => exact .other le_rfl rfl .nil
    | trigger flow => exact .trigger le_rfl ((h flow).mono (le_max_right _ _))
  · exact hook .post p.post depth

/-- The stages inside a trigger are one level below it, or further down behind other triggers. -/
theorem triggerNested (engine : Engine σ) (levels depth : Nat) (flow : TriggerFlow) :
    Opens depth (engine.triggerNested levels depth flow) := by
  induction levels generalizing depth flow with
  | zero => exact .nil
  | succ levels ih =>
    rw [Engine.triggerNested]
    cases engine.pipelines.find? flow.pipelineKey with
    | none => exact .nil
    | some p =>
      exact .flatMap (fun params => .other le_rfl rfl (.nested (ih (depth + 1)) p)) _

theorem nestedPlan (engine : Engine σ) (levels : Nat) (runId : String) (p : Pipeline)
    (index : Nat) (sets : List Row) :
    Opens 0 (engine.nestedPlan levels runId p index sets) := by
  induction sets generalizing index with
  | nil => exact .nil
  | cons params rest ih =>
    exact .other le_rfl rfl (.append (.nested (.triggerNested engine levels 1) p) (ih (index + 1)))

end Opens

/-! ## What a run reaches -/

variable {engine : Engine σ}

/-- The stage is in a body that may be executed, and is not a trigger that leads too deep. -/
def Within (stage : Nat × Stage) : Prop :=
  stage.1 ≤ maxTriggerDepth ∧ (stage.1 = maxTriggerDepth → stage.2.isTrigger = false)

/-- The error is not that of triggers that nest too deep. -/
def NotDeep (e : Failure EngineError) : Prop :=
  ∀ e₁, e = .error e₁ → ∀ levels, e₁.root ≠ .triggerDepth levels

/-- How far a run carries out stages: up to the end; up to a trigger in a body at the limit, which
is announced and refused, and for which nothing is done; or up to another stage, that breaks off for
another reason. -/
inductive Reached (engine : Engine σ) : List (Nat × Stage) → Site σ → List (Entry σ) →
    Except (Failure EngineError) Unit → Site σ → Prop
  | whole : (∀ stage ∈ stages, Within stage) → CarriedOut engine (stages.map Prod.snd) s es t →
    Reached engine stages s es (.ok ()) t
  | tooDeep : (∀ stage ∈ before, Within stage) → CarriedOut engine (before.map Prod.snd) s es t →
    e.root = .triggerDepth maxTriggerDepth →
    Reached engine (before ++ (maxTriggerDepth, .trigger key (maxTriggerDepth + 1) flow) :: after) s
      (es ++ [.step (.flow key (.trigger flow)),
        .event (.flowStarted key (t.context.label flow.id) (t.context.label flow.desc))])
      (.error (.error e)) t
  | broke : (∀ stage ∈ before, Within stage) → CarriedOut engine (before.map Prod.snd) s es t →
    Within (depth, stage) → (engine.carryOut stage).Ends t es' (.error e) u → NotDeep e →
    Surrounds e e' →
    Reached engine (before ++ (depth, stage) :: after) s (es ++ es') (.error e') u

/-- A trigger beyond the limit is begun and announced, and then refused before its pipeline is
looked up. -/
theorem carryOut_tooDeep (engine : Engine σ) (key : String) (flow : TriggerFlow) (s : Site σ) :
    (engine.carryOut (.trigger key (maxTriggerDepth + 1) flow)).Ends s
      [.step (.flow key (.trigger flow)),
        .event (.flowStarted key (s.context.label flow.id) (s.context.label flow.desc))]
      (.error (.error (.flow key (s.context.label flow.id) (.triggerDepth maxTriggerDepth)))) s := by
  have hentered : engine.entered (maxTriggerDepth + 1) flow =
      .error (.triggerDepth maxTriggerDepth) := if_pos (Nat.lt_succ_self _)
  have hends := engine.carryOut_trigger key (maxTriggerDepth + 1) flow s
  rwa [hentered] at hends

/-- Stages that are carried out do not lead too deep, so neither do those after them. -/
theorem Opens.reached (h : Opens bound (stages ++ rest)) (hbound : bound ≤ maxTriggerDepth)
    (hcarried : CarriedOut engine (stages.map Prod.snd) s es t) :
    (∀ stage ∈ stages, Within stage) ∧ ∃ bound' ≤ maxTriggerDepth, Opens bound' rest := by
  induction stages generalizing bound s es with
  | nil => exact ⟨List.forall_mem_nil _, bound, hbound, h⟩
  | cons stage stages ih =>
    cases hcarried with
    | cons hstage hcarried =>
      cases h with
      | @trigger depth _ _ key flow hdepth hopens =>
        have hle : depth ≤ maxTriggerDepth := hdepth.trans hbound
        have hne : depth ≠ maxTriggerDepth := by
          rintro rfl
          obtain ⟨-, hanswer, -⟩ := hstage.unique (engine.carryOut_tooDeep key flow s)
          cases hanswer
        have hbound' : max bound (depth + 1) ≤ maxTriggerDepth := by omega
        obtain ⟨hwithin, hrest⟩ := ih hopens hbound' hcarried
        exact ⟨List.forall_mem_cons.mpr ⟨⟨hle, fun heq => (hne heq).elim⟩, hwithin⟩, hrest⟩
      | other hdepth hother hopens =>
        obtain ⟨hwithin, hrest⟩ := ih hopens hbound hcarried
        exact ⟨List.forall_mem_cons.mpr ⟨⟨hdepth.trans hbound, fun _ => hother⟩, hwithin⟩, hrest⟩

theorem NotDeep.of_other {e : EngineError} (h : e.IsOther) : NotDeep (.error e) := by
  rintro _ ⟨⟩ levels hroot
  cases e <;> first | exact h | cases hroot

theorem NotDeep.map {e : Failure EngineError} (h : NotDeep e) (key label : String) :
    NotDeep (e.map (.flow key label)) := by
  cases e with
  | panic => exact nofun
  | error e =>
    rintro _ ⟨⟩ levels hroot
    exact h e rfl levels hroot

theorem prepareWriter_notDeep (h : engine.prepareWriter key ctx settings = .error e) :
    NotDeep (.error e) := by
  rcases prepareWriter_error h with hbind | ⟨w, -, -, -, rfl⟩
  · exact .of_other ((engine.bindWriter_error key ctx settings).of_error hbind)
  · rintro _ ⟨⟩ levels hroot
    cases hroot

theorem ReadBreaks.notDeep (h : ReadBreaks engine key label flow s es e t) : NotDeep e := by
  rintro e₁ rfl
  by_cases hother : e₁.IsOther
  · exact NotDeep.of_other hother e₁ rfl
  · obtain ⟨settings, -, hprepare⟩ := h.refuses hother
    exact prepareWriter_notDeep hprepare e₁ rfl

/-- The flows around an error leave its root as it is. -/
theorem Surrounds.root {failure : Failure EngineError} (h : Surrounds (.error e) failure) :
    ∃ e', failure = .error e' ∧ e'.root = e.root := by
  generalize hinner : (Failure.error e : Failure EngineError) = inner at h
  induction h with
  | refl => exact ⟨e, hinner.symm, rfl⟩
  | flow _ ih =>
    obtain ⟨e', rfl, hroot⟩ := ih
    exact ⟨_, rfl, hroot⟩

/-- What breaks off is a trigger that leads too deep, or is not for that reason. -/
theorem StageBreaks.notDeep {stage : Stage} (h : StageBreaks engine stage s es e t)
    (hends : (engine.carryOut stage).Ends s es (.error e) t)
    (hstage : ∀ key depth flow, stage = .trigger key depth flow → depth ≤ maxTriggerDepth) :
    NotDeep e := by
  cases h with
  | read hbreaks => exact hbreaks.notDeep.map _ _
  | form hform =>
    rintro e₁ rfl
    exact NotDeep.of_other ((fails_carryOut_hook hform).of_ends hends) e₁ rfl
  | trigger hentered =>
    rcases entered_error hentered with ⟨hdeep, -⟩ | ⟨-, rfl⟩
    · exact (Nat.not_lt.mpr (hstage _ _ _ rfl) hdeep).elim
    · rintro _ ⟨⟩ levels hroot
      cases hroot

/-- A plan that opens one level after another is carried out within the limit, up to the first
trigger that leads beyond it. -/
theorem Reached.of_carried (hopens : Opens 0 stages)
    (h : Carried engine (stages.map Prod.snd) s es answer t) :
    Reached engine stages s es answer t := by
  generalize hmap : stages.map Prod.snd = planned at h
  cases h with
  | whole h =>
    subst hmap
    rw [← List.append_nil stages] at hopens
    exact .whole (hopens.reached (Nat.zero_le _) h).1 h
  | @broke before _ _ u stage es' e _ e' after hbefore hends hbreaks hsurrounds =>
    obtain ⟨before, rest, rfl, rfl, hrest⟩ := List.map_eq_append_iff.mp hmap
    obtain ⟨⟨depth, stage⟩, after, rfl, rfl, rfl⟩ := List.map_eq_cons_iff.mp hrest
    obtain ⟨hwithin, bound, hbound, hopened⟩ := hopens.reached (Nat.zero_le _) hbefore
    cases hopened with
    | @trigger _ _ _ key flow hdepth =>
      rcases Nat.lt_or_eq_of_le (hdepth.trans hbound) with hlt | rfl
      · have hstage : Within (depth, .trigger key (depth + 1) flow) :=
          ⟨Nat.le_of_lt hlt, fun heq => (Nat.ne_of_lt hlt heq).elim⟩
        refine .broke hwithin hbefore hstage hends (hbreaks.notDeep hends ?_) hsurrounds
        rintro _ _ _ ⟨⟩
        exact hlt
      · obtain ⟨rfl, hanswer, rfl⟩ := hends.unique (engine.carryOut_tooDeep key flow u)
        cases hanswer
        obtain ⟨e', rfl, hroot⟩ := hsurrounds.root
        exact .tooDeep hwithin hbefore hroot
    | other hdepth hother =>
      refine .broke hwithin hbefore ⟨hdepth.trans hbound, fun _ => hother⟩ hends ?_ hsurrounds
      refine hbreaks.notDeep hends ?_
      rintro key depth flow rfl
      cases hother

/-- A run, from the site in which it begins: it looks its pipeline up, resolves its parameter sets,
and carries out the stages that it reaches. The plan is written out for so many levels more than a
run may get to. -/
inductive Nests (engine : Engine σ) (extra : Nat) (runId key : String)
    (given : Option (List Row)) : Site σ → List (Entry σ) → Except (Failure EngineError) Unit →
      Site σ → Prop
  | unknown : engine.pipelines.find? key = none →
    Nests engine extra runId key given s
      (.event (.runStarted runId key) ::
        lastEntries runId key (.error (.error (.pipelineNotFound key))))
      (.error (.error (.pipelineNotFound key))) s
  | unresolved : engine.pipelines.find? key = some p →
    Resolved engine p given s es (.error e) t → NotDeep e →
    Nests engine extra runId key given s
      (.event (.runStarted runId key) :: (es ++ lastEntries runId key (.error e))) (.error e) t
  | reached : engine.pipelines.find? key = some p →
    Resolved engine p given s es (.ok sets) t →
    Reached engine (engine.nestedPlan (maxTriggerDepth + extra) runId p 0 sets) t es' answer u →
    Nests engine extra runId key given s
      (.event (.runStarted runId key) :: (es ++ (es' ++ lastEntries runId key answer))) answer u

/-- However many levels beyond the limit the plan is written out for, a run reaches only those
within it. -/
theorem Nests.of_run {given : Option (List Row)} (extra : Nat)
    (h : (engine.run runId key given).Ends s es answer t) :
    Nests engine extra runId key given s es answer t := by
  cases RunOf.of_run extra h with
  | unknown hfound => exact .unknown hfound
  | unresolved hfound hresolved =>
    refine .unresolved hfound hresolved ?_
    rintro e rfl
    exact NotDeep.of_other (hresolved.error_other rfl) e rfl
  | followed hfound hresolved hcarried =>
    rw [← map_nestedPlan] at hcarried
    exact .reached hfound hresolved (.of_carried (.nestedPlan engine _ runId _ 0 _) hcarried)

/-! ## Parts that end too deep -/

/-- The part has ended because triggers nest too deep. -/
def TooDeep (answer : Except (Failure EngineError) Unit) : Prop :=
  ∃ e, answer = .error (.error e) ∧ e.root = .triggerDepth maxTriggerDepth

/-- An error of depth stays one in the flows around it. -/
theorem TooDeep.map {answer : Except (Failure EngineError) Unit} (h : TooDeep answer)
    (key label : String) : TooDeep (answer.mapError (Failure.map (.flow key label))) := by
  obtain ⟨e, rfl, hroot⟩ := h
  exact ⟨_, rfl, hroot⟩

/-- The part ends well from every site. -/
def Succeeds (run : Run σ ε α) : Prop := ∀ s, ∃ es a t, run.Ends s es (.ok a) t

/-- From every site the part ends because triggers nest too deep. -/
def Sinks (run : Run σ EngineError Unit) : Prop :=
  ∀ s, ∃ es answer t, run.Ends s es answer t ∧ TooDeep answer

/-- From every site the part ends well, unless triggers nest too deep. -/
def Passes (run : Run σ EngineError Unit) : Prop :=
  ∀ s, ∃ es answer t, run.Ends s es answer t ∧ (answer = .ok () ∨ TooDeep answer)

variable {run run' : Run σ EngineError Unit}

theorem Sinks.bind (h : Sinks run) : Sinks (do run; run') := by
  intro s
  obtain ⟨es, answer, t, hends, e, rfl, hroot⟩ := h s
  exact ⟨es, _, t, hends.bind_error, e, rfl, hroot⟩

theorem Sinks.after (h : Passes run) (h' : Sinks run') : Sinks (do run; run') := by
  intro s
  obtain ⟨es, answer, t, hends, rfl | ⟨e, rfl, hroot⟩⟩ := h s
  · obtain ⟨es', answer, u, hends', hdeep⟩ := h' t
    exact ⟨_, answer, u, hends.bind hends', hdeep⟩
  · exact ⟨es, _, t, hends.bind_error, e, rfl, hroot⟩

/-- If one part ends too deep, and each part before it goes well or ends too deep itself, then the
whole ends too deep. -/
theorem Sinks.forM {part : α → Run σ EngineError Unit} (hbefore : ∀ a ∈ before, Passes (part a))
    (h : Sinks (part a)) (after : List α) : Sinks ((before ++ a :: after).forM part) := by
  induction before with
  | nil => exact Sinks.bind h
  | cons first before ih =>
    obtain ⟨hfirst, hrest⟩ := List.forall_mem_cons.mp hbefore
    exact Sinks.after hfirst (ih hrest)

/-- An entry begins a trigger of one of some pipelines. -/
def Enters (engine : Engine σ) (member : Pipeline → Prop) : Entry σ → Prop
  | .step (.flow _ (.trigger flow)) =>
    ∃ q, engine.pipelines.find? flow.pipelineKey = some q ∧ member q
  | _ => False

variable {member : Pipeline → Prop}

/-- If the part has entered a cycle, it ends because triggers nest too deep. -/
def Traps (engine : Engine σ) (member : Pipeline → Prop) (run : Run σ EngineError Unit) : Prop :=
  ∀ s, ∃ es answer t, run.Ends s es answer t ∧
    ((∃ entry ∈ es, Enters engine member entry) → TooDeep answer)

namespace Traps

theorem of_makes (h : run.Makes fun entry => ¬ Enters engine member entry) :
    Traps engine member run := by
  intro s
  obtain ⟨es, answer, t, hends, hnot⟩ := h.ends s
  exact ⟨es, answer, t, hends, fun ⟨entry, hmem, henters⟩ => (hnot entry hmem henters).elim⟩

/-- A sequence of parts enters the cycle in one of them. -/
theorem bind (h : Traps engine member run) (h' : Traps engine member run') :
    Traps engine member (do run; run') := by
  intro s
  obtain ⟨es, answer, t, hends, htraps⟩ := h s
  rcases answer with e | ⟨⟩
  · exact ⟨es, .error e, t, hends.bind_error, htraps⟩
  · obtain ⟨es', answer, u, hends', htraps'⟩ := h' t
    refine ⟨es ++ es', answer, u, hends.bind hends', ?_⟩
    rintro ⟨entry, hmem, henters⟩
    rcases List.mem_append.mp hmem with hfirst | hrest
    · obtain ⟨e, hanswer, -⟩ := htraps ⟨entry, hfirst, henters⟩
      cases hanswer
    · exact htraps' ⟨entry, hrest, henters⟩

theorem after {first : Run σ EngineError α} {f : α → Run σ EngineError Unit}
    (h : first.Makes fun entry => ¬ Enters engine member entry)
    (h' : ∀ a, Traps engine member (f a)) : Traps engine member (first >>= f) := by
  intro s
  obtain ⟨es, answer, t, hends, hnot⟩ := h.ends s
  cases answer with
  | error e =>
    refine ⟨es, .error e, t, hends.bind_error, ?_⟩
    exact fun ⟨entry, hmem, henters⟩ => (hnot entry hmem henters).elim
  | ok a =>
    obtain ⟨es', answer, u, hends', htraps⟩ := h' a t
    refine ⟨es ++ es', answer, u, hends.bind hends', ?_⟩
    rintro ⟨entry, hmem, henters⟩
    rcases List.mem_append.mp hmem with hfirst | hrest
    · exact (hnot entry hfirst henters).elim
    · exact htraps ⟨entry, hrest, henters⟩

theorem forM {part : α → Run σ EngineError Unit} (h : ∀ a, Traps engine member (part a))
    (as : List α) : Traps engine member (as.forM part) := by
  induction as with
  | nil => exact .of_makes (.pure ())
  | cons a as ih => exact (h a).bind ih

end Traps

theorem Succeeds.bind {first : Run σ ε α} {f : α → Run σ ε β} (h : Succeeds first)
    (h' : ∀ a, Succeeds (f a)) : Succeeds (first >>= f) := by
  intro s
  obtain ⟨es, a, t, hends⟩ := h s
  obtain ⟨es', b, u, hends'⟩ := h' a t
  exact ⟨es ++ es', b, u, hends.bind hends'⟩

theorem Succeeds.forM {part : α → Run σ ε Unit} {as : List α} (h : ∀ a ∈ as, Succeeds (part a)) :
    Succeeds (as.forM part) := by
  induction as with
  | nil => exact fun s => ⟨[], (), s, Run.ends_pure ()⟩
  | cons a as ih =>
    obtain ⟨hfirst, hrest⟩ := List.forall_mem_cons.mp h
    exact hfirst.bind fun _ => ih hrest

section Flows

variable {trigger : TriggerFlow → Run σ EngineError Unit} [∀ flow, Run.Adds (trigger flow)]

end Flows

end Engine

end RowFlow
