import RowFlow.Proofs.Announcements

/-!
# The flows around an error

An error that comes up in a flow is wrapped once for each flow that has been started and has not
finished. The relation `Goes` tells how a run goes through the stages of a body, when its flows
finish, and at which place and from which cause it breaks off (`Fault`); it does not speak of
wrapped errors. The flows that are unfinished at any moment can be told from the journal and those
moments (`unfinished`). An error of a run is its cause with the unfinished flows around it, the
outermost first (`Engine.run_error`).
-/

namespace RowFlow

variable {σ : Type}

namespace EngineError

/-- An error with no flow around it. -/
def IsRoot : EngineError → Prop
  | .flow .. => False
  | _ => True

/-- An error with flows around it, the outermost first. -/
def within (places : List (String × String)) (e : EngineError) : EngineError :=
  places.foldr (fun place e => .flow place.1 place.2 e) e

theorem IsRoot.root {e : EngineError} (h : e.IsRoot) : e.root = e := by
  cases e with
  | flow => exact h.elim
  | _ => rfl

theorem IsRoot.flows {e : EngineError} (h : e.IsRoot) : e.flows = [] := by
  cases e with
  | flow => exact h.elim
  | _ => rfl

theorem IsOther.isRoot {e : EngineError} (h : e.IsOther) : e.IsRoot := by
  cases e with
  | flow => exact h.elim
  | _ => trivial

theorem root_within (places : List (String × String)) (e : EngineError) :
    (e.within places).root = e.root := by
  induction places with
  | nil => rfl
  | cons place places ih => exact ih

/-- The flows around an error are those it is put into, followed by its own. -/
theorem flows_within (places : List (String × String)) (e : EngineError) :
    (e.within places).flows = places ++ e.flows := by
  induction places with
  | nil => rfl
  | cons place places ih => exact congrArg (place :: ·) ih

end EngineError

/-! ## Unfinished flows -/

/-- An entry of the journal, or the moment at which a flow finishes. -/
inductive Moment (σ : Type) where
  | entry (entry : Entry σ)
  | finished

def Moment.entry? : Moment σ → Option (Entry σ)
  | .entry made => some made
  | .finished => none

def journalOf (moments : List (Moment σ)) : List (Entry σ) := moments.filterMap Moment.entry?

theorem journalOf_append (moments moments' : List (Moment σ)) :
    journalOf (moments ++ moments') = journalOf moments ++ journalOf moments' :=
  List.filterMap_append ..

@[simp] theorem journalOf_entries (es : List (Entry σ)) : journalOf (es.map .entry) = es := by
  induction es with
  | nil => rfl
  | cons entry es ih => exact congrArg (entry :: ·) ih

/-- The flows that are unfinished after a moment, given those before it: the flow that is started
becomes the innermost, and it is always the innermost that finishes. -/
def openAfter : List (String × String) → Moment σ → List (String × String)
  | places, .entry (.event (.flowStarted key label _)) => places ++ [(key, label)]
  | places, .finished => places.dropLast
  | places, _ => places

/-- The pipelines and labels of the flows that have been started and have not finished, from the
outermost to the innermost. -/
def unfinished (moments : List (Moment σ)) : List (String × String) := moments.foldl openAfter []

def Entry.startsFlow : Entry σ → Bool
  | .event (.flowStarted ..) => true
  | _ => false

/-- Entries that start no flow leave open what is open. -/
theorem foldl_openAfter_entries {es : List (Entry σ)} (h : ∀ entry ∈ es, entry.startsFlow = false)
    (places : List (String × String)) : (es.map Moment.entry).foldl openAfter places = places := by
  induction es with
  | nil => rfl
  | cons entry es ih =>
    obtain ⟨hentry, hes⟩ := List.forall_mem_cons.mp h
    have hsame : openAfter places (.entry entry) = places := by
      unfold openAfter
      split
      · rename_i heq
        cases heq
        cases hentry
      · contradiction
      · rfl
    rw [List.map_cons, List.foldl_cons, hsame, ih hes]

/-- Where a run breaks off. -/
inductive Place where
  /-- Before its first parameter set. -/
  | outside
  /-- In a hook of a body that is nested so deep. -/
  | hook (depth : Nat)
  /-- In a flow of a body that is nested so deep. -/
  | flow (depth : Nat)

/-- How many flows there are around a place. -/
def Place.flows : Place → Nat
  | .outside => 0
  | .hook depth => depth
  | .flow depth => depth + 1

/-- Where a run breaks off, and why. -/
structure Fault where
  place : Place
  cause : EngineError

/-- What a run answers that breaks off in such flows, or not at all. -/
def outcome (places : List (String × String)) : Option Fault → Except EngineError Unit
  | none => .ok ()
  | some fault => .error (fault.cause.within places)

namespace Engine

variable {engine : Engine σ}

/-- The moments of a flow: it is announced, and then its own moments follow. -/
def announced (key : String) (flow : Flow) (s : Site σ) (inside : List (Moment σ)) :
    List (Moment σ) :=
  .entry (.step (.flow key flow)) ::
    .entry (.event (.flowStarted key (s.context.label flow.id) (s.context.label flow.desc))) ::
      inside

/-- How a run goes through the stages of a body that is nested so deep, and where it breaks off. The
stages of a triggered body, which belong to the next depth, stand inside the flow that has triggered
it: for each parameter set of the trigger, those of the body itself. -/
inductive Goes (engine : Engine σ) :
    Nat → List Stage → Site σ → List (Moment σ) → Option Fault → Site σ → Prop
  | nil : Goes engine depth [] s [] none s
  | beside : (∀ key flow, stage.step? ≠ some (.flow key flow)) →
    (engine.carryOut stage).Ends s es (.ok ()) t → Goes engine depth stages t moments fault u →
    Goes engine depth (stage :: stages) s (es.map .entry ++ moments) fault u
  | hookFails : stage.step? = some (.hook key phase form) →
    (engine.carryOut stage).Ends s es (.error (.error e)) t →
    Goes engine depth (stage :: stages) s (es.map .entry) (some ⟨.hook depth, e⟩) t
  | read : (engine.readFlow key (s.context.label flow.id) flow).Ends s es (.ok ()) t →
    Goes engine depth stages t moments fault u →
    Goes engine depth (.read key flow :: stages) s
      (announced key (.read flow) s (es.map .entry ++ .finished :: moments)) fault u
  | readFails : (engine.readFlow key (s.context.label flow.id) flow).Ends s es
      (.error (.error e)) t →
    Goes engine depth (.read key flow :: stages) s (announced key (.read flow) s (es.map .entry))
      (some ⟨.flow depth, e⟩) t
  | refused : engine.entered (depth + 1) flow = .error e →
    Goes engine depth (.trigger key (depth + 1) flow :: stages) s
      (announced key (.trigger flow) s []) (some ⟨.flow depth, e⟩) s
  | triggered : engine.entered (depth + 1) flow = .ok p →
    Goes engine (depth + 1) (engine.triggerStages 1 (depth + 1) flow) s inside none t →
    Goes engine depth stages t moments fault u →
    Goes engine depth (.trigger key (depth + 1) flow :: stages) s
      (announced key (.trigger flow) s (inside ++ .finished :: moments)) fault u
  | triggerFails : engine.entered (depth + 1) flow = .ok p →
    Goes engine (depth + 1) (engine.triggerStages 1 (depth + 1) flow) s inside (some fault) t →
    Goes engine depth (.trigger key (depth + 1) flow :: stages) s
      (announced key (.trigger flow) s inside) (some fault) t

/-- The flows that are left unfinished in a body that is nested so deep. -/
def Left (depth : Nat) (places : List (String × String)) : Option Fault → Prop
  | none => places = []
  | some fault => depth + places.length = fault.place.flows

/-- The outermost of the flows is one of the pipeline, and each flow has triggered the pipeline of
the next. -/
inductive Nested (engine : Engine σ) : Pipeline → List (String × String) → Prop
  | nil : Nested engine p []
  | innermost : flow ∈ p.flows → Nested engine p [(p.key, Context.label ctx flow.id)]
  | inside : .trigger flow ∈ p.flows → engine.entered depth flow = .ok q →
    Nested engine q places → Nested engine p ((p.key, Context.label ctx flow.id) :: places)

/-- The flows among the stages are flows of the pipeline. -/
def FlowsOf (p : Pipeline) (stages : List Stage) : Prop :=
  ∀ stage ∈ stages, ∀ key flow, stage.step? = some (.flow key flow) → key = p.key ∧ flow ∈ p.flows

theorem flowsOf_body (engine : Engine σ) (p : Pipeline) (depth : Nat) :
    FlowsOf p (p.stages (engine.triggerStages 0 (depth + 1)) depth) := by
  intro stage hmem key flow hstep
  rcases List.mem_append.mp hmem with hhook | hmem
  · obtain ⟨form, hform⟩ := step?_of_mem_hook hhook
    cases hform.symm.trans hstep
  rcases List.mem_append.mp hmem with hflow | hhook
  · obtain ⟨f, hf, hstage⟩ := List.mem_flatMap.mp hflow
    cases f with
    | read | trigger =>
      cases List.mem_singleton.mp hstage
      cases hstep
      exact ⟨rfl, hf⟩
  · obtain ⟨form, hform⟩ := step?_of_mem_hook hhook
    cases hform.symm.trans hstep

theorem entered_ok (h : engine.entered depth flow = .ok p) :
    depth ≤ maxTriggerDepth ∧ engine.pipelines.find? flow.pipelineKey = some p := by
  unfold entered at h
  split at h
  · cases h
  · exact ⟨Nat.le_of_not_lt ‹_›, findPipeline_ok_iff.mp h⟩

theorem flowsOf_triggerStages (hp : engine.entered depth flow = .ok p) :
    FlowsOf p (engine.triggerStages 1 depth flow) := by
  intro stage hmem key f hstep
  rw [triggerStages, (entered_ok hp).2] at hmem
  obtain ⟨params, -, hmem⟩ := List.mem_flatMap.mp hmem
  rcases List.mem_cons.mp hmem with rfl | hbody
  · cases hstep
  · exact flowsOf_body engine p depth stage hbody key f hstep

/-- A plan that does not go into triggers has no flows but those of the pipeline. -/
theorem flowsOf_plan (engine : Engine σ) (runId : String) (p : Pipeline) (index : Nat)
    (sets : List Row) : FlowsOf p (engine.plan 0 runId p index sets) := by
  induction sets generalizing index with
  | nil => exact List.forall_mem_nil _
  | cons params rest ih =>
    intro stage hmem key flow hstep
    rcases List.mem_cons.mp hmem with rfl | hmem
    · cases hstep
    rcases List.mem_append.mp hmem with hbody | hrest
    · exact flowsOf_body engine p 0 stage hbody key flow hstep
    · exact ih (index + 1) stage hrest key flow hstep

theorem foldl_announced (key : String) (flow : Flow) (s : Site σ) (inside : List (Moment σ))
    (outer : List (String × String)) :
    (announced key flow s inside).foldl openAfter outer =
      inside.foldl openAfter (outer ++ [(key, s.context.label flow.id)]) := rfl

theorem announced_append (key : String) (flow : Flow) (s : Site σ)
    (inside moments : List (Moment σ)) :
    announced key flow s (inside ++ moments) = announced key flow s inside ++ moments := rfl

theorem startsFlow_of_isReading {entry : Entry σ} (h : entry.IsReading) :
    entry.startsFlow = false := by
  cases entry with
  | step | call => rfl
  | event told =>
    cases told with
    | flowStarted => cases h.of_event.2
    | _ => rfl

theorem startsFlow_of_beside {stage : Stage}
    (hstage : ∀ key flow, stage.step? ≠ some (.flow key flow))
    (h : (engine.carryOut stage).Ends s es answer t) :
    ∀ entry ∈ es, entry.startsFlow = false := by
  obtain ⟨marks, htells, hchronicle⟩ := StageChronicle.of_carryOut h
  rw [← htells.entries]
  cases hchronicle with
  | set => exact List.forall_mem_singleton.mpr rfl
  | hook _ hcalls =>
    rw [entriesOf_entries]
    cases hcalls with
    | nothing => exact List.forall_mem_singleton.mpr rfl
    | one => exact List.forall_mem_cons.mpr ⟨rfl, List.forall_mem_singleton.mpr rfl⟩
  | read | trigger => exact (hstage _ _ rfl).elim
  | merge => exact List.forall_mem_nil _

/-- Nothing inside a flow that reads starts another flow. -/
theorem startsFlow_of_readFlow (h : (engine.readFlow key label flow).Ends s es answer t) :
    ∀ entry ∈ es, entry.startsFlow = false :=
  fun entry hmem =>
    startsFlow_of_isReading ((engine.readFlow_isReading key label flow).of_ends h entry hmem)

/-- What has been unfinished before stays so, and what is left unfinished is inside it. -/
theorem Goes.left (h : Goes engine depth stages s moments fault t) :
    ∃ places, (∀ outer, moments.foldl openAfter outer = outer ++ places) ∧
      Left depth places fault ∧ ∀ p, FlowsOf p stages → Nested engine p places := by
  induction h with
  | nil => exact ⟨[], fun outer => (List.append_nil outer).symm, rfl, fun _ _ => .nil⟩
  | beside hstage hends _ ih =>
    obtain ⟨places, hplaces, hleft, hnested⟩ := ih
    refine ⟨places, fun outer => ?_, hleft, fun p hp => hnested p (List.forall_mem_cons.mp hp).2⟩
    rw [List.foldl_append, foldl_openAfter_entries (startsFlow_of_beside hstage hends), hplaces]
  | hookFails hstage hends =>
    have hbeside := startsFlow_of_beside (by simp [hstage]) hends
    refine ⟨[], fun outer => ?_, rfl, fun _ _ => .nil⟩
    rw [foldl_openAfter_entries hbeside, List.append_nil]
  | read hread _ ih =>
    obtain ⟨places, hplaces, hleft, hnested⟩ := ih
    refine ⟨places, fun outer => ?_, hleft, fun p hp => hnested p (List.forall_mem_cons.mp hp).2⟩
    rw [foldl_announced, List.foldl_append, foldl_openAfter_entries (startsFlow_of_readFlow hread),
      List.foldl_cons, openAfter, List.dropLast_concat, hplaces]
  | @readFails key flow s _ _ _ _ _ hread =>
    refine ⟨[(key, s.context.label flow.id)], fun outer => ?_, rfl, fun p hp => ?_⟩
    · rw [foldl_announced, foldl_openAfter_entries (startsFlow_of_readFlow hread)]
      rfl
    · obtain ⟨rfl, hflow⟩ := (List.forall_mem_cons.mp hp).1 key (.read flow) rfl
      exact .innermost hflow
  | @refused _ flow _ key _ s =>
    refine ⟨[(key, s.context.label flow.id)], fun _ => rfl, rfl, fun p hp => ?_⟩
    obtain ⟨rfl, hflow⟩ := (List.forall_mem_cons.mp hp).1 key (.trigger flow) rfl
    exact .innermost hflow
  | triggered _ _ _ ihinside ih =>
    obtain ⟨inner, hinner, rfl, -⟩ := ihinside
    obtain ⟨places, hplaces, hleft, hnested⟩ := ih
    refine ⟨places, fun outer => ?_, hleft, fun p hp => hnested p (List.forall_mem_cons.mp hp).2⟩
    rw [foldl_announced, List.foldl_append, hinner, List.append_nil, List.foldl_cons, openAfter,
      List.dropLast_concat, hplaces]
  | @triggerFails _ flow _ s _ _ _ key _ hentered _ ih =>
    obtain ⟨inner, hinner, hleft, hnested⟩ := ih
    refine ⟨(key, s.context.label flow.id) :: inner, fun outer => ?_, ?_, fun p hp => ?_⟩
    · rw [foldl_announced, hinner, List.append_assoc]
      rfl
    · rw [Left, List.length_cons, Nat.add_comm inner.length, ← Nat.add_assoc]
      exact hleft
    · obtain ⟨rfl, hflow⟩ := (List.forall_mem_cons.mp hp).1 key (.trigger flow) rfl
      exact .inside hflow hentered (hnested _ (flowsOf_triggerStages hentered))

theorem Goes.foldl_openAfter (h : Goes engine depth stages s moments fault t)
    (outer : List (String × String)) :
    moments.foldl openAfter outer = outer ++ unfinished moments := by
  obtain ⟨places, hplaces, -⟩ := h.left
  rw [hplaces, unfinished, hplaces, List.nil_append]

/-- A run that goes well leaves no flow unfinished, and a fault leaves as many as there are around
it. -/
theorem Goes.left_unfinished (h : Goes engine depth stages s moments fault t) :
    Left depth (unfinished moments) fault := by
  obtain ⟨places, hplaces, hleft, -⟩ := h.left
  rwa [unfinished, hplaces, List.nil_append]

/-- The unfinished flows stand inside each other as the triggers do. -/
theorem Goes.nested (h : Goes engine depth stages s moments fault t) (hp : FlowsOf p stages) :
    Nested engine p (unfinished moments) := by
  obtain ⟨places, hplaces, -, hnested⟩ := h.left
  rw [unfinished, hplaces, List.nil_append]
  exact hnested p hp

theorem Goes.append (h : Goes engine depth stages s moments none t)
    (h' : Goes engine depth stages' t moments' fault u) :
    Goes engine depth (stages ++ stages') s (moments ++ moments') fault u := by
  generalize hnone : (none : Option Fault) = before at h
  induction h with
  | nil => exact h'
  | beside hstage hends _ ih =>
    rw [List.append_assoc]
    exact .beside hstage hends (ih h' hnone)
  | hookFails | readFails | refused | triggerFails => cases hnone
  | read hread _ ih =>
    rw [← announced_append, List.append_assoc]
    exact .read hread (ih h' hnone)
  | triggered hentered hinside _ _ ih =>
    rw [← announced_append, List.append_assoc]
    exact .triggered hentered hinside (ih h' hnone)

/-- What was to come after a fault makes no difference. -/
theorem Goes.cut (h : Goes engine depth stages s moments (some fault) t)
    (stages' : List Stage) : Goes engine depth (stages ++ stages') s moments (some fault) t := by
  generalize hsome : some fault = reached at h
  induction h with
  | nil => cases hsome
  | beside hstage hends _ ih => exact .beside hstage hends (ih hsome)
  | hookFails hstage hends => exact .hookFails hstage hends
  | read hread _ ih => exact .read hread (ih hsome)
  | readFails hread => exact .readFails hread
  | refused hentered => exact .refused hentered
  | triggered hentered hinside _ _ ih => exact .triggered hentered hinside (ih hsome)
  | triggerFails hentered hinside => exact .triggerFails hentered hinside

/-! ## Where the errors of a run come from -/

/-- Unless it panics, the part goes through the stages, and it answers the cause for which it breaks
off with the unfinished flows around it. -/
structure Follows (engine : Engine σ) (depth : Nat) (stages : List Stage)
    (run : Run σ EngineError Unit) : Prop where
  goes : ∀ (answer : Except EngineError Unit) {s es t}, run.Ends s es (answer.mapError .error) t →
    ∃ moments fault, Goes engine depth stages s moments fault t ∧ journalOf moments = es ∧
      answer = outcome (unfinished moments) fault

namespace Follows

variable {run run' : Run σ EngineError Unit} {β : Type}

theorem nil : Follows engine depth [] (pure ()) := by
  refine ⟨fun answer s es t hends => ?_⟩
  obtain ⟨rfl, hanswer, rfl⟩ := Run.ends_pure_iff.mp hends
  cases answer with
  | error => cases hanswer
  | ok => exact ⟨[], none, .nil, rfl, rfl⟩

/-- The second part is reached only if the first has no fault. -/
theorem bind [Run.Adds run] [Run.Adds run'] (h : Follows engine depth stages run)
    (h' : Follows engine depth stages' run') :
    Follows engine depth (stages ++ stages') (do run; run') := by
  refine ⟨fun answer s es t hends => ?_⟩
  rcases Run.ends_bind_iff.mp hends with ⟨e, hanswer, hrun⟩ | ⟨⟨⟩, es₁, u, es₂, hrun, hrun', rfl⟩
  · cases answer with
    | ok => cases hanswer
    | error e =>
      cases hanswer
      obtain ⟨moments, fault, hgoes, hjournal, houtcome⟩ := h.goes (.error e) hrun
      cases fault with
      | none => cases houtcome
      | some fault => exact ⟨moments, some fault, hgoes.cut stages', hjournal, houtcome⟩
  · obtain ⟨moments, fault, hgoes, rfl, houtcome⟩ := h.goes (.ok ()) hrun
    obtain ⟨moments', fault', hgoes', rfl, rfl⟩ := h'.goes answer hrun'
    cases fault with
    | some fault => cases houtcome
    | none =>
      refine ⟨_, fault', hgoes.append hgoes', journalOf_append .., ?_⟩
      have hnothing : unfinished moments = [] := hgoes.left_unfinished
      have hlater : unfinished (moments ++ moments') = unfinished moments' := by
        rw [unfinished, List.foldl_append, hgoes.foldl_openAfter, hnothing]
        rfl
      rw [hlater]

theorem forM {part : β → Run σ EngineError Unit} [∀ b, Run.Adds (part b)] {stages : β → List Stage}
    (h : ∀ b, Follows engine depth (stages b) (part b)) (bs : List β) :
    Follows engine depth (bs.flatMap stages) (bs.forM part) := by
  induction bs with
  | nil => exact .nil
  | cons b bs ih => exact (h b).bind ih

theorem whenGiven {part : β → Run σ EngineError Unit} {stage : β → Stage}
    (h : ∀ b, Follows engine depth [stage b] (part b)) (form : Option β) :
    Follows engine depth (form.map stage).toList (whenGiven form part) := by
  cases form with
  | none => exact .nil
  | some b => exact h b

/-- A stage beside the flows breaks off only if it is a form of a hook. -/
theorem of_stage (stage : Stage) (hstage : ∀ key flow, stage.step? ≠ some (.flow key flow))
    (h : ∀ {s es e t}, (engine.carryOut stage).Ends s es (.error e) t →
      ∃ key phase form, stage.step? = some (.hook key phase form)) :
    Follows engine depth [stage] (engine.carryOut stage) := by
  refine ⟨fun answer s es t hends => ?_⟩
  cases answer with
  | ok =>
    refine ⟨es.map .entry ++ [], none, .beside hstage hends .nil, ?_, rfl⟩
    rw [List.append_nil, journalOf_entries]
  | error e =>
    obtain ⟨key, phase, form, hhook⟩ := h hends
    have hnothing : unfinished (es.map .entry) = [] :=
      foldl_openAfter_entries (startsFlow_of_beside hstage hends) []
    refine ⟨es.map .entry, some ⟨.hook depth, e⟩, .hookFails hhook hends, journalOf_entries es, ?_⟩
    rw [hnothing]
    rfl

theorem of_step? (stage : Stage) (hstage : stage.step? = some (.hook key phase form)) :
    Follows engine depth [stage] (engine.carryOut stage) :=
  .of_stage stage (by simp [hstage]) fun _ => ⟨key, phase, form, hstage⟩

theorem hook (key : String) (phase : Phase) (hook : Option Hook) :
    Follows engine depth (hook.elim [] (Hook.stages key phase))
      (engine.runHook key phase hook) := by
  cases hook with
  | none => exact .nil
  | some hook =>
    refine .bind (.whenGiven (fun template => ?_) _) (.bind (.whenGiven (fun template => ?_) _)
      (.whenGiven (fun call => ?_) _))
    · exact .of_step? (.inlineScript key phase template) rfl
    · exact .of_step? (.runnable key phase template) rfl
    · exact .of_step? (.scriptCall key phase call) rfl

theorem merge (params : Row) :
    Follows engine depth [.merge params] (Run.modifyContext (·.merge params)) := by
  refine .of_stage (.merge params) (by simp [Stage.step?]) fun hends => ?_
  rw [carryOut] at hends
  obtain ⟨-, hanswer, -⟩ := hends.unique (Run.ends_modifyContext _)
  cases hanswer

theorem set (runId key : String) (index : Nat) (params : Row) :
    Follows engine depth [.set runId key index params]
      (engine.carryOut (.set runId key index params)) := by
  refine .of_stage _ (by simp [Stage.step?]) fun hends => ?_
  rw [carryOut] at hends
  obtain ⟨-, hanswer, -⟩ := hends.unique ((Run.ends_modifyContext _).bind (Run.ends_emit _))
  cases hanswer

end Follows

/-! ### Flows -/

theorem journalOf_announced (key : String) (flow : Flow) (s : Site σ) (inside : List (Moment σ)) :
    journalOf (announced key flow s inside) = .step (.flow key flow) ::
      .event (.flowStarted key (s.context.label flow.id) (s.context.label flow.desc)) ::
        journalOf inside := rfl

section Flows

variable {trigger : TriggerFlow → Run σ EngineError Unit} [∀ flow, Run.Adds (trigger flow)]

/-- A flow that ends has ended inside, and its error is the one from inside with the flow around
it. -/
theorem runFlow_ends {answer : Except EngineError Unit}
    (h : (engine.runFlow trigger key flow).Ends s es (answer.mapError .error) t) :
    ∃ (es' : List (Entry σ)) (inside : Except EngineError Unit),
      (engine.insideFlow trigger key (s.context.label flow.id) flow).Ends s es'
        (inside.mapError .error) t ∧
      es = .step (.flow key flow) ::
        .event (.flowStarted key (s.context.label flow.id) (s.context.label flow.desc)) :: es' ∧
      answer = inside.mapError (.flow key (s.context.label flow.id)) := by
  obtain ⟨es', answer', hinside, rfl, hanswer⟩ := runFlow_ends_iff.mp h
  rcases answer' with (e | message) | ⟨⟩
  · cases answer with
    | ok => cases hanswer
    | error =>
      cases hanswer
      exact ⟨es', .error e, hinside, rfl, rfl⟩
  · cases answer <;> cases hanswer
  · cases answer with
    | ok => exact ⟨es', .ok (), hinside, rfl, rfl⟩
    | error => cases hanswer

theorem follows_read (key : String) (flow : ReadFlow) :
    Follows engine depth [.read key flow] (engine.runFlow trigger key (.read flow)) := by
  refine ⟨fun answer s es t hends => ?_⟩
  obtain ⟨es', inside, hread, rfl, rfl⟩ := runFlow_ends hends
  cases inside with
  | ok =>
    refine ⟨_, none, .read hread .nil, ?_, rfl⟩
    rw [journalOf_announced, journalOf_append, journalOf_entries]
    exact congrArg (_ :: _ :: ·) (List.append_nil es')
  | error e =>
    refine ⟨_, _, .readFails hread, ?_, ?_⟩
    · rw [journalOf_announced, journalOf_entries]
    · rw [unfinished, foldl_announced, foldl_openAfter_entries (startsFlow_of_readFlow hread)]
      rfl

/-- A trigger that is refused is a fault of its own flow. One that is entered has the faults of the
stages inside. -/
theorem follows_trigger
    (hrefused : ∀ {flow e}, engine.entered (depth + 1) flow = .error e →
      ∀ s, (trigger flow).Ends s [] (.error (.error e)) s)
    (hentered : ∀ {flow p}, engine.entered (depth + 1) flow = .ok p →
      Follows engine (depth + 1) (engine.triggerStages 1 (depth + 1) flow) (trigger flow))
    (key : String) (flow : TriggerFlow) :
    Follows engine depth [.trigger key (depth + 1) flow]
      (engine.runFlow trigger key (.trigger flow)) := by
  refine ⟨fun answer s es t hends => ?_⟩
  obtain ⟨es', inside, hinside, rfl, rfl⟩ := runFlow_ends hends
  cases hp : engine.entered (depth + 1) flow with
  | error e =>
    obtain ⟨rfl, hanswer, rfl⟩ := hinside.unique (hrefused hp s)
    cases inside with
    | ok => cases hanswer
    | error =>
      cases hanswer
      exact ⟨_, _, .refused hp, rfl, rfl⟩
  | ok p =>
    obtain ⟨moments, fault, hgoes, rfl, rfl⟩ := (hentered hp).goes _ hinside
    cases fault with
    | none =>
      refine ⟨_, none, .triggered hp hgoes .nil, ?_, rfl⟩
      rw [journalOf_announced, journalOf_append]
      exact congrArg (_ :: _ :: ·) (List.append_nil _)
    | some fault =>
      refine ⟨_, some fault, .triggerFails hp hgoes, rfl, ?_⟩
      have hplaces : unfinished (announced key (.trigger flow) s moments) =
          (key, s.context.label flow.id) :: unfinished moments := hgoes.foldl_openAfter _
      rw [hplaces]
      rfl

theorem follows_body
    (hrefused : ∀ {flow e}, engine.entered (depth + 1) flow = .error e →
      ∀ s, (trigger flow).Ends s [] (.error (.error e)) s)
    (hentered : ∀ {flow p}, engine.entered (depth + 1) flow = .ok p →
      Follows engine (depth + 1) (engine.triggerStages 1 (depth + 1) flow) (trigger flow))
    (p : Pipeline) :
    Follows engine depth (p.stages (engine.triggerStages 0 (depth + 1)) depth)
      (engine.runBody trigger p) := by
  refine (Follows.hook p.key .pre p.pre).bind (.bind (.forM (fun flow => ?_) p.flows) ?_)
  · cases flow with
    | read flow => exact follows_read p.key flow
    | trigger flow => exact follows_trigger hrefused hentered p.key flow
  · exact Follows.hook p.key .post p.post

end Flows

/-- By induction on the levels that are left, which go down as the depth goes up. -/
theorem follows_runTrigger (engine : Engine σ) (levels depth : Nat)
    (hlevels : depth + levels = maxTriggerDepth + 1) {flow : TriggerFlow}
    (hp : engine.entered depth flow = .ok p) :
    Follows engine depth (engine.triggerStages 1 depth flow) (engine.runTrigger levels flow) := by
  induction levels generalizing depth flow p with
  | zero =>
    have hdepth : depth ≤ maxTriggerDepth := (entered_ok hp).1
    omega
  | succ levels ih =>
    have hfound : engine.pipelines.find? flow.pipelineKey = some p := (entered_ok hp).2
    have hbody : Follows engine depth (p.stages (engine.triggerStages 0 (depth + 1)) depth)
        (engine.runBody (engine.runTrigger levels) p) :=
      follows_body (engine.expands_runTrigger 0 levels (depth + 1) (by omega)).refused
        (fun hp => ih (depth + 1) (by omega) hp) p
    have hsets := Follows.forM (fun params => (Follows.merge params).bind hbody)
      (triggerParams flow)
    refine ⟨fun answer _ _ _ hends => ?_⟩
    rw [runTrigger, findPipeline_ok_iff.mpr hfound] at hends
    rw [triggerStages, hfound]
    exact hsets.goes answer ((Run.ends_pure p).bind_silent_iff.mp hends)

theorem follows_runSets (engine : Engine σ) (runId : String) (p : Pipeline) (index : Nat)
    (sets : List Row) :
    Follows engine 0 (engine.plan 0 runId p index sets) (engine.runSets runId p index sets) := by
  induction sets generalizing index with
  | nil => exact .nil
  | cons params rest ih =>
    rw [runSets_cons]
    have hbody : Follows engine 0 (p.stages (engine.triggerStages 0 1) 0) (engine.runPipeline p) :=
      follows_body (engine.expands_runTrigger 0 maxTriggerDepth 1 (by omega)).refused
        (fun hp => engine.follows_runTrigger maxTriggerDepth 1 (by omega) hp) p
    exact (Follows.set runId p.key index params).bind (hbody.bind (ih (index + 1)))

/-! ## Causes -/

/-- What breaks off a flow that reads is not an error of another flow. -/
theorem ReadBreaks.cause_isRoot (h : ReadBreaks engine key label flow s es (.error e) t) :
    e.IsRoot := by
  by_cases hother : e.IsOther
  · exact hother.isRoot
  · obtain ⟨settings, -, hprepare⟩ := h.refuses hother
    obtain ⟨writer, rfl⟩ := prepareWriter_refused hprepare hother
    trivial

/-- A body breaks off for a cause that has no flow around it. -/
theorem Goes.cause_isRoot (h : Goes engine depth stages s moments (some fault) t) :
    fault.cause.IsRoot := by
  generalize hsome : some fault = reached at h
  induction h with
  | nil => cases hsome
  | beside _ _ _ ih | read _ _ ih | triggered _ _ _ _ ih => exact ih hsome
  | triggerFails _ _ ih =>
    cases hsome
    exact ih rfl
  | hookFails hhook hends =>
    cases hsome
    exact ((fails_carryOut_hook hhook).of_ends hends).isRoot
  | readFails hread =>
    cases hsome
    exact (ReadBreaks.of_readFlow hread).cause_isRoot
  | refused hentered =>
    cases hsome
    rcases entered_error hentered with ⟨-, rfl⟩ | ⟨-, rfl⟩ <;> trivial

/-! ## Runs that fail -/

/-- What a run goes through, once it has been announced, up to where it breaks off. -/
inductive Course (engine : Engine σ) (runId key : String) (given : Option (List Row)) :
    Site σ → List (Moment σ) → Fault → Site σ → Prop
  | unknown : engine.pipelines.find? key = none →
    Course engine runId key given s [] ⟨.outside, .pipelineNotFound key⟩ s
  | unresolved : engine.pipelines.find? key = some p →
    Resolved engine p given s es (.error (.error e)) t →
    Course engine runId key given s (es.map .entry) ⟨.outside, e⟩ t
  | followed : engine.pipelines.find? key = some p →
    Resolved engine p given s es (.ok sets) t →
    Goes engine 0 (engine.plan 0 runId p 0 sets) t moments (some fault) u →
    Course engine runId key given s (es.map .entry ++ moments) fault u

theorem Resolved.startsFlow {given : Option (List Row)}
    (h : Resolved engine p given s es answer t) : ∀ entry ∈ es, entry.startsFlow = false := by
  cases h with
  | given | empty => exact List.forall_mem_nil _
  | provided | unusable | failed => exact List.forall_mem_singleton.mpr rfl

namespace Course

variable {given : Option (List Row)}

/-- The error of a run is its cause, within the flows that are unfinished. -/
theorem of_runAll (h : (engine.runAll runId key given).Ends s es (.error (.error e)) t) :
    ∃ moments fault, Course engine runId key given s moments fault t ∧
      journalOf moments = es ∧ e = fault.cause.within (unfinished moments) := by
  rw [runAll] at h
  cases hfound : engine.pipelines.find? key with
  | none =>
    rw [findPipeline, hfound] at h
    obtain ⟨rfl, hanswer, rfl⟩ := h.unique (Run.ends_fail _).bind_error
    cases hanswer
    exact ⟨[], _, .unknown hfound, rfl, rfl⟩
  | some p =>
    rw [findPipeline, hfound] at h
    have h := (Run.ends_pure p).bind_silent_iff.mp h
    rcases Run.ends_bind_error_iff.mp h with hresolve | ⟨sets, es₁, u, es₂, hresolve, hsets, rfl⟩
    · have hresolved := Resolved.of_resolveParams hresolve
      refine ⟨_, _, .unresolved hfound hresolved, journalOf_entries es, ?_⟩
      rw [unfinished, foldl_openAfter_entries hresolved.startsFlow]
      rfl
    · have hresolved := Resolved.of_resolveParams hresolve
      obtain ⟨moments, fault, hgoes, rfl, houtcome⟩ :=
        (engine.follows_runSets runId p 0 sets).goes (.error e) hsets
      cases fault with
      | none => cases houtcome
      | some fault =>
        refine ⟨_, fault, .followed hfound hresolved hgoes, ?_, ?_⟩
        · rw [journalOf_append, journalOf_entries]
        · rw [unfinished, List.foldl_append, foldl_openAfter_entries hresolved.startsFlow]
          exact Except.error.inj houtcome

/-- A run that breaks off does so for a cause that has no flow around it, in as many flows as there
are around its place, and these lie inside each other. -/
theorem unfinished (h : Course engine runId key given s moments fault t) :
    fault.cause.IsRoot ∧ (RowFlow.unfinished moments).length = fault.place.flows ∧
      ∀ p, engine.pipelines.find? key = some p → Nested engine p (RowFlow.unfinished moments) := by
  cases h with
  | unknown => exact ⟨trivial, rfl, fun _ _ => .nil⟩
  | unresolved _ hresolved =>
    rw [RowFlow.unfinished, foldl_openAfter_entries hresolved.startsFlow]
    exact ⟨(hresolved.error_other rfl).isRoot, rfl, fun _ _ => .nil⟩
  | followed hfound hresolved hgoes =>
    rw [RowFlow.unfinished, List.foldl_append, foldl_openAfter_entries hresolved.startsFlow]
    refine ⟨hgoes.cause_isRoot, ?_, fun p hp => ?_⟩
    · rw [← hgoes.left_unfinished, Nat.zero_add, RowFlow.unfinished]
    · cases hfound.symm.trans hp
      exact hgoes.nested (engine.flowsOf_plan runId _ 0 _)

end Course

/-- **What an error of a run consists of.** Where a run breaks off, the error is its cause, which is
no flow's, with a flow around it for each flow that has been started and has not finished: those are
the flows around the place, from a flow of the run's own pipeline to the one triggered innermost. -/
theorem run_error (h : (engine.run runId key given).exec live = (.error (.error e), live')) :
    ∃ moments fault, Course engine runId key given live.toSite moments fault live'.toSite ∧
      live'.journal = .event (.runFailed runId key e.message) ::
        ((journalOf moments).reverse ++ .event (.runStarted runId key) :: live.journal) ∧
      fault.cause.IsRoot ∧ e = fault.cause.within (unfinished moments) ∧ e.root = fault.cause ∧
      e.flows = unfinished moments ∧ e.flows.length = fault.place.flows ∧
      ∀ p, engine.pipelines.find? key = some p → Nested engine p e.flows := by
  obtain ⟨es, hends, hjournal⟩ := Run.ends_of_exec h
  obtain ⟨es', answer, t, hall⟩ := Run.Adds.ends (engine.runAll runId key given) live.toSite
  obtain ⟨rfl, rfl, ht⟩ := hends.unique (run_ends hall)
  rw [← ht] at hall
  obtain ⟨moments, fault, hcourse, rfl, rfl⟩ := Course.of_runAll hall
  obtain ⟨hcause, hlength, hnested⟩ := hcourse.unfinished
  have hroot : (fault.cause.within (unfinished moments)).root = fault.cause := by
    rw [EngineError.root_within, hcause.root]
  have hflows : (fault.cause.within (unfinished moments)).flows = unfinished moments := by
    rw [EngineError.flows_within, hcause.flows, List.append_nil]
  refine ⟨moments, fault, hcourse, ?_, hcause, rfl, hroot, hflows, ?_, ?_⟩
  · rw [hjournal]
    simp [lastEntries]
  · rw [hflows, hlength]
  · rw [hflows]
    exact hnested

/-- A pipeline that triggers one whose reader is missing. -/
def sampleUnread : Engine Unit := { sampleTriggering with registry := sampleEngine.registry }

theorem run_error_unread :
    ∃ live' e, (sampleUnread.run "r" "parent" none).exec sampleStart = (.error (.error e), live') ∧
      ∃ moments fault,
        Course sampleUnread "r" "parent" none sampleStart.toSite moments fault live'.toSite ∧
        live'.journal = .event (.runFailed "r" "parent" e.message) ::
          ((journalOf moments).reverse ++ [.event (.runStarted "r" "parent")]) ∧
        fault.cause.IsRoot ∧ e = fault.cause.within (unfinished moments) ∧ e.root = fault.cause ∧
        e.flows = unfinished moments ∧ e.flows.length = fault.place.flows ∧
        ∀ p, sampleUnread.pipelines.find? "parent" = some p → Nested sampleUnread p e.flows := by
  obtain ⟨live₁, hall⟩ : ∃ live₁, (sampleUnread.runAll "r" "parent" none).exec sampleStart =
      (.error (.error (.flow "parent" "" (.flow "child" "copy" (.componentNotFound "source")))),
        live₁) := ⟨_, Prod.ext (by cbv) rfl⟩
  obtain ⟨es, hends, -⟩ := Run.ends_of_exec hall
  have hrun : (sampleUnread.run "r" "parent" none).exec sampleStart = _ := (run_ends hends).exec []
  exact ⟨_, _, hrun, run_error hrun⟩

end Engine

end RowFlow
