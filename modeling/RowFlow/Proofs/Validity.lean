import RowFlow.Proofs.Commands
import RowFlow.Proofs.Refusals

/-!
# Valid definitions

A definition is a pipeline if and only if all of its flows are valid, and then its flows are those
of the pipeline, one for one (`PipelineConfig.Defines`). Otherwise it is refused for the first flow
that is not valid (`FlowConfig.FirstFlaw`). So no flow that a service runs from a definition reads
in batches of no rows (`Service.Sized`).
-/

namespace RowFlow

variable {σ τ : Type}

/-! ## Flows -/

namespace FlowConfig

/-- The definition of a flow is valid. -/
structure Valid (f : FlowConfig) : Prop where
  /-- It has a reader or a trigger, and not both. -/
  single : f.reader.isSome ≠ f.trigger.isSome
  batchSize : ∀ spec, f.reader = some spec → spec.mode = .batched → 0 < spec.batchSize
  triggerKey : ∀ spec, f.trigger = some spec →
    ∃ c ∈ spec.pipelineKey.toList, Text.isBlank c = false

/-- What is wrong with the definition of a flow at a position. -/
inductive Flaw (f : FlowConfig) (index : Nat) : DefinitionError → Prop
  | empty : f.reader = none → f.trigger = none → Flaw f index (.emptyFlow index f.id)
  | ambiguous : f.reader.isSome → f.trigger.isSome → Flaw f index (.ambiguousFlow index f.id)
  | batchSize : f.reader = some spec → f.trigger = none → spec.mode = .batched →
    spec.batchSize = 0 → Flaw f index (.zeroBatchSize index f.id)
  | triggerKey : f.reader = none → f.trigger = some spec →
    (∀ c ∈ spec.pipelineKey.toList, Text.isBlank c) → Flaw f index (.emptyTriggerKey index f.id)

/-- The first flaw of some definitions that start at a position: all before it are valid. -/
def FirstFlaw (start : Nat) (fs : List FlowConfig) (e : DefinitionError) : Prop :=
  ∃ before f after, fs = before ++ f :: after ∧ (∀ g ∈ before, g.Valid) ∧
    f.Flaw (start + before.length) e

/-- The flow is what the definition says: it reads or triggers. -/
inductive StandsFor (f : FlowConfig) : Flow → Prop
  | read : f.reader = some spec → f.trigger = none →
    StandsFor f (.read ⟨f.id, f.desc, spec, f.writers⟩)
  | trigger : f.reader = none → f.trigger = some spec →
    StandsFor f (.trigger ⟨f.id, f.desc, spec.pipelineKey, spec.params⟩)

/-- How a message begins that is about a flow at a position. -/
def mention (index : Nat) (f : FlowConfig) : String := s!"flow #{index} ('{f.id}') "

variable {f : FlowConfig} {fs : List FlowConfig} {index : Nat} {e : DefinitionError} {flow : Flow}

/-- A message names the flow by its position and its id before it says what is wrong with it. -/
theorem Flaw.message (h : f.Flaw index e) : ∃ what, e.message = mention index f ++ what := by
  have hmessage (what : String) {rest : String} (hrest : rest = "') " ++ what) :
      s!"flow #{index} ('{f.id}" ++ rest = mention index f ++ what := by
    subst hrest
    simp only [mention, String.append_assoc]
    rfl
  cases h with
  | empty => exact ⟨_, hmessage "declares neither a reader nor a pipeline trigger" rfl⟩
  | ambiguous => exact ⟨_, hmessage "declares both a reader and a pipeline trigger" rfl⟩
  | batchSize => exact ⟨_, hmessage "uses BATCHED mode with a batch size of 0" rfl⟩
  | triggerKey => exact ⟨_, hmessage "triggers a pipeline with an empty key" rfl⟩

theorem Flaw.not_valid (h : f.Flaw index e) : ¬f.Valid := by
  intro hvalid
  cases h with
  | empty hreader htrigger =>
    apply hvalid.single
    simp [hreader, htrigger]
  | ambiguous hreader htrigger =>
    apply hvalid.single
    simp [hreader, htrigger]
  | batchSize hreader _ hmode hsize =>
    have hpos := hvalid.batchSize _ hreader hmode
    omega
  | triggerKey _ htrigger hblank =>
    obtain ⟨c, hc, hnot⟩ := hvalid.triggerKey _ htrigger
    simp [hblank c hc] at hnot

/-- No definition of a flow has two flaws: the kinds exclude each other. -/
theorem Flaw.unique (h : f.Flaw index e) (h' : f.Flaw index e') : e = e' := by
  cases h <;> cases h' <;> simp_all

theorem flaw_of_check (h : f.check index = .error e) : f.Flaw index e := by
  unfold check at h
  split at h
  case h_1 hreader htrigger =>
    cases h
    exact .empty hreader htrigger
  case h_2 hreader htrigger =>
    cases h
    exact .ambiguous (by simp [hreader]) (by simp [htrigger])
  case h_3 hreader htrigger =>
    split at h
    · next hsize =>
      cases h
      exact .batchSize hreader htrigger hsize.1 hsize.2
    · cases h
  case h_4 hreader htrigger =>
    split at h
    · next hblank =>
      cases h
      exact .triggerKey hreader htrigger (List.all_eq_true.mp hblank)
    · cases h

theorem valid_of_check (h : f.check index = .ok ()) : f.Valid := by
  unfold check at h
  split at h
  case h_1 => cases h
  case h_2 => cases h
  case h_3 spec hreader htrigger =>
    split at h
    · cases h
    · next hsize =>
      constructor
      · simp [hreader, htrigger]
      · intro spec' hspec hmode
        cases hreader.symm.trans hspec
        exact Nat.pos_of_ne_zero fun hzero => hsize ⟨hmode, hzero⟩
      · intro spec' hspec
        cases htrigger.symm.trans hspec
  case h_4 spec hreader htrigger =>
    split at h
    · cases h
    · next hblank =>
      constructor
      · simp [hreader, htrigger]
      · intro spec' hspec
        cases hreader.symm.trans hspec
      · intro spec' hspec
        cases htrigger.symm.trans hspec
        simpa [Text.isAllBlank] using hblank

/-- A definition is valid, or it has a flaw: the one that its check tells. -/
theorem check_cases (f : FlowConfig) (index : Nat) :
    f.check index = .ok () ∧ f.Valid ∨ ∃ e, f.check index = .error e ∧ f.Flaw index e := by
  cases h : f.check index with
  | ok => exact .inl ⟨rfl, valid_of_check h⟩
  | error e => exact .inr ⟨e, rfl, flaw_of_check h⟩

theorem check_ok_iff : f.check index = .ok () ↔ f.Valid := by
  refine ⟨valid_of_check, fun hvalid => ?_⟩
  obtain ⟨h, -⟩ | ⟨e, -, hflaw⟩ := f.check_cases index
  · exact h
  · exact absurd hvalid hflaw.not_valid

theorem check_error_iff : f.check index = .error e ↔ f.Flaw index e := by
  refine ⟨flaw_of_check, fun hflaw => ?_⟩
  obtain ⟨-, hvalid⟩ | ⟨e', h, hflaw'⟩ := f.check_cases index
  · exact absurd hvalid hflaw.not_valid
  · rw [h, hflaw'.unique hflaw]

theorem checkAll_cons (index : Nat) (f : FlowConfig) (fs : List FlowConfig) :
    checkAll index (f :: fs) = (do f.check index; checkAll (index + 1) fs) := rfl

theorem checkAll_ok_iff : checkAll index fs = .ok () ↔ ∀ f ∈ fs, f.Valid := by
  induction fs generalizing index with
  | nil => simp [checkAll]
  | cons f fs ih =>
    rw [checkAll_cons, bind_ok_iff, List.forall_mem_cons]
    constructor
    · rintro ⟨⟨⟩, hfirst, hrest⟩
      exact ⟨check_ok_iff.mp hfirst, ih.mp hrest⟩
    · rintro ⟨hfirst, hrest⟩
      exact ⟨(), check_ok_iff.mpr hfirst, ih.mpr hrest⟩

/-- The first flow that is not valid is the one that is told, with its position in the whole
definition. -/
theorem checkAll_error_iff : checkAll index fs = .error e ↔ FirstFlaw index fs e := by
  induction fs generalizing index with
  | nil => simp [checkAll, FirstFlaw]
  | cons f fs ih =>
    have hnext (n : Nat) : index + 1 + n = index + (n + 1) := by omega
    rw [checkAll_cons, bind_error_iff]
    constructor
    · rintro (hfirst | ⟨⟨⟩, hfirst, hrest⟩)
      · exact ⟨[], f, fs, rfl, List.forall_mem_nil _, check_error_iff.mp hfirst⟩
      · obtain ⟨before, g, after, rfl, hbefore, hflaw⟩ := ih.mp hrest
        refine ⟨f :: before, g, after, rfl, ?_, hnext before.length ▸ hflaw⟩
        exact List.forall_mem_cons.mpr ⟨check_ok_iff.mp hfirst, hbefore⟩
    · rintro ⟨before, g, after, hfs, hbefore, hflaw⟩
      rcases List.cons_eq_append_iff.mp hfs with ⟨rfl, hcons⟩ | ⟨before, rfl, rfl⟩
      · cases hcons
        exact .inl (check_error_iff.mpr hflaw)
      · obtain ⟨hfirst, hbefore⟩ := List.forall_mem_cons.mp hbefore
        refine .inr ⟨(), check_ok_iff.mpr hfirst, ih.mpr ?_⟩
        exact ⟨before, g, after, rfl, hbefore, (hnext before.length).symm ▸ hflaw⟩

/-! ### Conversion -/

theorem flow?_eq_some_iff : f.flow? = some flow ↔ f.StandsFor flow := by
  unfold flow?
  constructor
  · intro h
    split at h
    · next hreader htrigger =>
      cases h
      exact .read hreader htrigger
    · next hreader htrigger =>
      cases h
      exact .trigger hreader htrigger
    · cases h
  · intro h
    cases h with
    | read hreader htrigger => simp [hreader, htrigger]
    | trigger hreader htrigger => simp [hreader, htrigger]

/-- What the conversion drops is not valid. -/
theorem Valid.standsFor (h : f.Valid) : ∃ flow, f.StandsFor flow := by
  have hsingle := h.single
  cases hreader : f.reader with
  | some spec =>
    cases htrigger : f.trigger with
    | some => simp [hreader, htrigger] at hsingle
    | none => exact ⟨_, .read hreader htrigger⟩
  | none =>
    cases htrigger : f.trigger with
    | some spec => exact ⟨_, .trigger hreader htrigger⟩
    | none => simp [hreader, htrigger] at hsingle

/-- Nothing is dropped from valid definitions: each of them stands for one flow. -/
theorem filterMap_flow?_eq_iff {flows : List Flow} (h : ∀ f ∈ fs, f.Valid) :
    fs.filterMap flow? = flows ↔ List.Forall₂ StandsFor fs flows := by
  induction fs generalizing flows with
  | nil => simp [eq_comm]
  | cons f fs ih =>
    obtain ⟨hfirst, hrest⟩ := List.forall_mem_cons.mp h
    obtain ⟨flow, hflow⟩ := hfirst.standsFor
    rw [List.filterMap_cons_some (flow?_eq_some_iff.mpr hflow)]
    constructor
    · rintro rfl
      exact .cons hflow ((ih hrest).mp rfl)
    · intro hflows
      cases hflows with
      | cons hflow' hflows' =>
        cases (flow?_eq_some_iff.mpr hflow).symm.trans (flow?_eq_some_iff.mpr hflow')
        rw [(ih hrest).mpr hflows']

end FlowConfig

/-! ## Definitions -/

/-- At least one form of the hook is given. -/
def Hook.HasForm (hook : Hook) : Prop :=
  hook.inlineScript.isSome ∨ hook.runnable.isSome ∨ hook.scriptCall.isSome

theorem Hook.filter_eq_some_iff {given : Option Hook} {hook : Hook} :
    given.filter (!·.isEmpty) = some hook ↔ given = some hook ∧ hook.HasForm := by
  have hform : (!hook.isEmpty) = true ↔ hook.HasForm := by
    cases hscript : hook.inlineScript <;> cases hrunnable : hook.runnable <;>
      cases hcall : hook.scriptCall <;> simp [Hook.isEmpty, HasForm, hscript, hrunnable, hcall]
  rw [Option.filter_eq_some_iff, hform]

namespace PipelineConfig

/-- The pipeline is what the definition says. Its flows stand for those of the definition one for
one, in order. A hook is dropped if none of its forms is given, and nothing else is. -/
structure Defines (c : PipelineConfig) (key : String) (p : Pipeline) : Prop where
  key : p.key = key
  flows : List.Forall₂ FlowConfig.StandsFor c.flows p.flows
  pre : ∀ hook, p.pre = some hook ↔ c.pre = some hook ∧ hook.HasForm
  post : ∀ hook, p.post = some hook ↔ c.post = some hook ∧ hook.HasForm
  schedules : p.schedules = c.schedules
  scheduleEnabled : p.scheduleEnabled = c.scheduleEnabled
  paramsProvider : p.paramsProvider = c.paramsProvider
  components : p.components = c.components
  scripts : p.scripts = c.scripts

variable {c : PipelineConfig} {key : String} {p : Pipeline}

theorem toPipeline_error_iff :
    c.toPipeline key = .error e ↔ FlowConfig.FirstFlaw 0 c.flows e := by
  rw [toPipeline, bind_error_iff, check, FlowConfig.checkAll_error_iff]
  constructor
  · rintro (h | ⟨-, -, h⟩)
    · exact h
    · cases h
  · exact .inl

/-- A definition is converted to a pipeline if and only if its flows are valid and it defines that
pipeline. -/
theorem toPipeline_ok_iff :
    c.toPipeline key = .ok p ↔ (∀ f ∈ c.flows, f.Valid) ∧ c.Defines key p := by
  rw [toPipeline, bind_ok_iff, check]
  constructor
  · rintro ⟨⟨⟩, hcheck, hp⟩
    have hvalid := FlowConfig.checkAll_ok_iff.mp hcheck
    cases hp
    refine ⟨hvalid, ⟨rfl, ?_, ?_, ?_, rfl, rfl, rfl, rfl, rfl⟩⟩
    · exact (FlowConfig.filterMap_flow?_eq_iff hvalid).mp rfl
    · intro hook
      exact Hook.filter_eq_some_iff
    · intro hook
      exact Hook.filter_eq_some_iff
  · rintro ⟨hvalid, h⟩
    refine ⟨(), FlowConfig.checkAll_ok_iff.mpr hvalid, ?_⟩
    have hflows := (FlowConfig.filterMap_flow?_eq_iff hvalid).mpr h.flows
    have hpre : c.pre.filter (!·.isEmpty) = p.pre :=
      Option.ext fun hook => Hook.filter_eq_some_iff.trans (h.pre hook).symm
    have hpost : c.post.filter (!·.isEmpty) = p.post :=
      Option.ext fun hook => Hook.filter_eq_some_iff.trans (h.post hook).symm
    rw [hflows, hpre, hpost, ← h.key, ← h.schedules, ← h.scheduleEnabled, ← h.paramsProvider,
      ← h.components, ← h.scripts]
    rfl

theorem toPipeline_isOk_iff :
    (∃ p, c.toPipeline key = .ok p) ↔ ∀ f ∈ c.flows, f.Valid := by
  constructor
  · rintro ⟨p, hp⟩
    exact (toPipeline_ok_iff.mp hp).1
  · intro hvalid
    cases h : c.toPipeline key with
    | ok p => exact ⟨p, rfl⟩
    | error e =>
      obtain ⟨before, f, after, hflows, -, hflaw⟩ := toPipeline_error_iff.mp h
      refine absurd (hvalid f ?_) hflaw.not_valid
      simp [hflows]

end PipelineConfig

/-! ## Batch sizes -/

/-- If it reads in batches, they are not empty. -/
def ReaderSpec.Sized (spec : ReaderSpec) : Prop := spec.mode = .batched → 0 < spec.batchSize

def Pipeline.Sized (p : Pipeline) : Prop := ∀ flow, .read flow ∈ p.flows → flow.reader.Sized

/-- A flow that begins has a reader of this kind, and batches that are asked for are not empty. -/
def Entry.Sized : Entry σ → Prop
  | .step (.flow _ (.read flow)) => flow.reader.Sized
  | .call (.openBatches _ size) .. => 0 < size
  | _ => True

theorem Entry.IsFunctionCall.sized {entry : Entry σ} (h : entry.IsFunctionCall) : entry.Sized := by
  unfold Entry.Sized
  split <;> trivial

theorem Entry.IsWriting.sized {entry : Entry σ} (h : entry.IsWriting) : entry.Sized := by
  unfold Entry.Sized
  split <;> trivial

/-- Batches are asked for in the size that stands in the definition. -/
theorem CoversReading.sized {spec : ReaderSpec} (h : spec.Sized) :
    CoversReading spec (Entry.Sized : Entry σ → Prop) where
  function _ h := h.sized
  batchRead _ _ _ _ := trivial
  findOne _ _ _ _ _ := trivial
  findAll _ _ _ _ _ := trivial
  -- the one call that tells a size
  openBatches hmode _ _ _ _ _ := h hmode
  nextBatch _ _ _ _ _ := trivial
  closeBatches _ _ _ _ _ := trivial

theorem PipelineConfig.Defines.sized {c : PipelineConfig} {key : String} (h : c.Defines key p)
    (hvalid : ∀ f ∈ c.flows, f.Valid) : p.Sized := by
  intro flow hflow
  rw [← (FlowConfig.filterMap_flow?_eq_iff hvalid).mpr h.flows] at hflow
  obtain ⟨f, hf, hstands⟩ := List.mem_filterMap.mp hflow
  cases FlowConfig.flow?_eq_some_iff.mp hstands with
  | read hreader => exact (hvalid f hf).batchSize _ hreader

/-- No text defines a flow that reads in batches of no rows. -/
theorem Pipeline.ofYaml_sized {key text : String} (h : Pipeline.ofYaml key text = .ok p) :
    p.Sized := by
  obtain ⟨c, -, hp⟩ := bind_ok_iff.mp h
  obtain ⟨hvalid, hdefines⟩ := PipelineConfig.toPipeline_ok_iff.mp hp
  exact hdefines.sized hvalid

namespace Engine

variable {engine : Engine σ}

/-- Every definition that is stored has batches of at least one row. -/
def Sized (engine : Engine σ) : Prop :=
  ∀ key p, engine.pipelines.find? key = some p → p.Sized

theorem sized_carryOut {stage : Stage}
    (h : ∀ key flow, stage = .read key flow → flow.reader.Sized) :
    (engine.carryOut stage).Makes Entry.Sized := by
  cases stage with
  | set => exact .bind (.nothing fun _ => Run.ends_modifyContext _) fun _ => .emit trivial
  | inlineScript =>
    refine .bind (.begin trivial) fun _ => .bind .context fun ctx => .bind (.ofExcept _) fun _ => ?_
    exact .mapError (.access fun _ _ _ _ => trivial) _
  | runnable =>
    refine .bind (.begin trivial) fun _ => .bind .context fun ctx => .bind (.ofExcept _) fun _ => ?_
    exact .bind (.ofExcept _) fun _ => .mapError (.call fun _ _ _ => trivial) _
  | scriptCall =>
    refine .bind (.begin trivial) fun _ => ?_
    exact .bind (.mapError (.access fun _ _ _ _ => trivial) _) fun _ => .pure ()
  | read key flow =>
    have hsized := h key flow rfl
    refine .bind .context fun ctx => .bind (.begin hsized) fun _ => ?_
    refine .bind (.emit trivial) fun _ => ?_
    exact .mapError (makes_readFlow (.sized hsized) (.of_isWriting fun _ h => h.sized) _) _
  | trigger =>
    refine .bind .context fun ctx => .bind (.begin trivial) fun _ => ?_
    refine .bind (.emit trivial) fun _ => ?_
    exact .mapError (.bind (.ofExcept _) fun _ => .pure ()) _
  | merge =>
    rw [carryOut]
    exact .nothing fun _ => Run.ends_modifyContext _

/-- The flows that a run begins are those of stored definitions. -/
theorem sized_run (hsized : engine.Sized) (runId key : String) (given : Option (List Row)) :
    (engine.run runId key given).Makes Entry.Sized := by
  constructor
  intro s
  obtain ⟨es, answer, t, hends⟩ := Run.Adds.ends (engine.run runId key given) s
  refine ⟨es, answer, t, hends, ?_⟩
  refine makes_of_run (fun _ => trivial) (fun _ hcall => hcall.sized) ?_ hends
  intro p sets hp stage hstage
  apply sized_carryOut
  rintro flowKey flow rfl
  obtain ⟨stored, q, hq, -, hflow⟩ := reads_of_mem_plan hp hstage
  exact hsized stored q hq flow hflow

theorem sized_loadScripts (engine : Engine σ) (folder : Option String) (paths : List String) :
    (engine.loadScripts folder paths).Makes Entry.Sized := by
  apply Run.Makes.forM
  intro path
  refine .bind (.mapError (.nothing fun _ => Run.ends_onDisk _) _) fun source => ?_
  exact .mapError (.access fun _ _ _ _ => trivial) _

end Engine

namespace Service

/-- The definitions that are stored have batches of at least one row, and so had all flows that
have been run. -/
structure Sized (s : Service σ τ) : Prop where
  stored : s.engine.Sized
  journal : ∀ entry ∈ s.journal, entry.Sized

theorem perform_sized {run : Run σ ε α} (h : run.Makes Entry.Sized) :
    Keeps Sized (perform run : Operation σ τ _) := by
  constructor
  intro s hs
  obtain ⟨es, answer, t, hends, hsized⟩ := h.ends ⟨.empty, s.world⟩
  rw [perform_run, hends.exec s.journal]
  refine ⟨hs.stored, ?_⟩
  intro entry hentry
  rcases List.mem_append.mp hentry with hnew | hold
  · exact hsized entry (List.mem_reverse.mp hnew)
  · exact hs.journal entry hold

theorem install_sized {c : Checked σ} (h : c.pipeline.Sized) :
    Keeps Sized (install c : Operation σ τ Unit) := by
  constructor
  intro s hs
  refine ⟨?_, hs.journal⟩
  intro key p hp
  have hstored : (s.engine.pipelines.insert c.pipeline.key c.pipeline).find? key = some p := hp
  rw [Dict.find?_insert] at hstored
  split at hstored
  · cases hstored
    exact h
  · exact hs.stored key p hstored

/-- A definition is stored only once it has been checked. -/
theorem registerIn_sized (folder : Option String) (key text : String) :
    Keeps Sized (registerIn folder key text : Operation σ τ _) := by
  refine .bind ⟨fun _ hs => hs⟩ fun s => ?_
  dsimp only
  split
  · exact .pure _
  · next c hcheck =>
    have hc : c.pipeline.Sized := Pipeline.ofYaml_sized (check_ok hcheck).1
    refine .bind (perform_sized (Engine.sized_loadScripts ..)) fun answer => ?_
    split
    · exact .pure _
    · exact .pure _
    · refine .bind (install_sized hc) fun _ => ⟨fun t ht => ?_⟩
      obtain ⟨answer, last, hrun, -⟩ := scheduleAll_hands key (activeSchedules c.pipeline) t
      rw [hrun]
      exact ⟨ht.stored, ht.journal⟩

variable [RunStore τ]

theorem lasting_sized : Lasting (Sized : Service σ τ → Prop) := by
  constructor
  · intro s t hengine _ hjournal hs
    exact ⟨hengine ▸ hs.stored, hjournal ▸ hs.journal⟩
  · intro record params
    constructor
    intro s hs
    have hmakes := Engine.sized_run hs.stored record.runId record.pipeline params
    have hdone := (perform_sized hmakes).keeps s hs
    obtain ⟨begun, ended, hrun⟩ := runRecorded_run record params s
    rw [hrun]
    exact ⟨hdone.stored, hdone.journal⟩

end Service

/-- **Which definitions are pipelines.** A definition is converted if and only if each of its flows
is valid, and the pipeline is what it says; otherwise the first flow that is not valid is named. So
a service that starts with nothing and is given definitions never runs a flow that reads in batches
of no rows. -/
theorem PipelineConfig.converts_valid [RunStore τ] (c : PipelineConfig) (key : String)
    {s : Service σ τ} (hpipelines : s.engine.pipelines = []) (hjournal : s.journal = [])
    (commands : List Command) :
    ((∃ p, c.toPipeline key = .ok p) ↔ ∀ f ∈ c.flows, f.Valid) ∧
    (∀ p, c.toPipeline key = .ok p ↔ (∀ f ∈ c.flows, f.Valid) ∧ c.Defines key p) ∧
    (∀ e, c.toPipeline key = .error e ↔ FlowConfig.FirstFlaw 0 c.flows e) ∧
    (∀ index f e, FlowConfig.Flaw f index e →
      ∃ what, e.message = FlowConfig.mention index f ++ what) ∧
    ∀ entry ∈ (s.through commands).journal, entry.Sized := by
  have hstart : s.Sized := by
    constructor
    · intro key p hp
      rw [hpipelines] at hp
      cases hp
    · simp [hjournal]
  refine ⟨toPipeline_isOk_iff, fun p => toPipeline_ok_iff, fun e => toPipeline_error_iff, ?_, ?_⟩
  · intro index f e h
    exact h.message
  · exact (Service.lasting_sized.through Service.registerIn_sized commands hstart).journal

/-- A service whose reader serves batches. -/
def Service.sampleBatching : Service Unit MemoryStore where
  engine := Engine.sampleReading
  history := RunStore.empty
  world := { state := () }
  runId _ := "run"

def Service.sampleBatches : List Command :=
  [.register "p" "flows: [{reader: {beanName: numbers, batchSize: 2}}]", .run "p" none]

/-- The second flow neither reads nor triggers. -/
def PipelineConfig.sampleFlawed : PipelineConfig where
  flows := [{ id := "a", reader := some { component := "numbers" } }, { id := "b" }]

theorem PipelineConfig.converts_valid_batches :
    Service.sampleBatching.engine.pipelines = [] ∧ Service.sampleBatching.journal = [] ∧
    let journal := (Service.sampleBatching.through Service.sampleBatches).journal
    (∀ entry ∈ journal, entry.Sized) ∧
    (journal.filterMap fun
      | .call (.openBatches _ size) .. => some size
      | _ => none) = [2] ∧
    FlowConfig.FirstFlaw 0 sampleFlawed.flows (.emptyFlow 1 "b") := by
  obtain ⟨-, -, hrefused, -, hsized⟩ :=
    converts_valid (s := Service.sampleBatching) sampleFlawed "p" rfl rfl Service.sampleBatches
  refine ⟨rfl, rfl, hsized, by decide +kernel, ?_⟩
  exact (hrefused _).mp rfl

end RowFlow
