import RowFlow.Proofs.Burials
import RowFlow.Proofs.Chronicle

/-!
# What a run announces

The events of a run have a form that observers can rely on (`Engine.Announces`). The run announces
itself first and last, and nowhere else. It announces its parameter sets in order and without gaps,
all of them if it ends well. After a flow has been announced, and before the next flow or parameter
set is, the batches that its cursor has answered are announced, counted from one. And whatever has
been written is accounted for: a writer that ends well has announced that it was skipped, or how
many rows were written and how many were not (`Engine.Told`).
-/

namespace RowFlow

variable {σ : Type}

/-! ## Events -/

def Entry.event? : Entry σ → Option Event
  | .event told => some told
  | _ => none

def eventsOf (es : List (Entry σ)) : List Event := es.filterMap Entry.event?

namespace Event

/-- Whether the run begins or ends. -/
def isOfRun : Event → Bool
  | .runStarted .. | .runCompleted .. | .runFailed .. => true
  | _ => false

def isOfSet : Event → Bool
  | .paramsStarted .. => true
  | _ => false

def isOfBatch : Event → Bool
  | .batchRead .. => true
  | _ => false

/-- Whether a flow or a parameter set begins. -/
def opens : Event → Bool
  | .paramsStarted .. | .flowStarted .. => true
  | _ => false

theorem opens_of_isOfSet {event : Event} (h : event.isOfSet) : event.opens := by
  cases event with
  | paramsStarted => rfl
  | _ => cases h

end Event

theorem eventsOf_append (es es' : List (Entry σ)) :
    eventsOf (es ++ es') = eventsOf es ++ eventsOf es' := List.filterMap_append ..

theorem mem_eventsOf {es : List (Entry σ)} : event ∈ eventsOf es ↔ .event event ∈ es := by
  rw [eventsOf, List.mem_filterMap]
  constructor
  · rintro ⟨entry, hmem, hevent⟩
    cases entry with
    | event =>
      cases hevent
      exact hmem
    | step | call => cases hevent
  · intro hmem
    exact ⟨.event event, hmem, rfl⟩

/-- An event of a flow that reads is neither one of the run nor does it begin a flow or a parameter
set. -/
theorem Entry.IsReading.of_event {told : Event} (h : (Entry.event told : Entry σ).IsReading) :
    told.isOfRun = false ∧ told.opens = false := by
  cases told with
  | batchRead | rowsWritten | writerSkipped | recordsFailed => exact ⟨rfl, rfl⟩
  | runStarted | paramsStarted | flowStarted | runCompleted | runFailed =>
    rcases h with h | h <;> exact h.elim

/-- No batch is announced in the work with a batch. -/
theorem Entry.IsWork.of_event {told : Event} (h : (Entry.event told : Entry σ).IsWork) :
    told.isOfBatch = false := by
  cases told with
  | batchRead => rcases h with h | h <;> exact h.elim
  | _ => rfl

theorem Entry.IsWork.isReading {entry : Entry σ} (h : entry.IsWork) : entry.IsReading :=
  h.elim (·.isReading) (·.isReading)

theorem filter_eventsOf_eq_nil {es : List (Entry σ)} {kind : Event → Bool}
    (h : ∀ event, .event event ∈ es → kind event = false) : (eventsOf es).filter kind = [] :=
  List.filter_eq_nil_iff.mpr fun event hmem => by simp [h event (mem_eventsOf.mp hmem)]

theorem entriesOf_changes (changes : List Change) :
    entriesOf (changes.map .change : List (Mark σ)) = [] :=
  List.filterMap_eq_nil_iff.mpr fun _ hmem => by
    obtain ⟨change, -, rfl⟩ := List.mem_map.mp hmem
    rfl

/-- The parameter set that a stage announces. -/
def Stage.announced? : Stage → Option Event
  | .set runId key index params => some (.paramsStarted runId key index params)
  | _ => none

namespace Engine

variable {engine : Engine σ}

/-! ## The batches of a flow -/

/-- The announcements of batches that are counted from a number on. -/
def batchEvents (key label : String) (index : Nat) (batches : List (List Row)) : List Event :=
  (batches.zipIdx index).map fun (batch, i) => .batchRead key label i batch.length

theorem makes_fetch (engine : Engine σ) (spec : ReaderSpec) (r : ReadyReader σ) :
    (engine.fetch spec r).Makes fun entry => entry.IsReading ∧ entry.event? = none := by
  have hfunction (entry : Entry σ) (h : entry.IsFunctionCall) :
      entry.IsReading ∧ entry.event? = none := by
    refine ⟨h.isReading, ?_⟩
    cases entry with
    | event => exact h.elim
    | step | call => rfl
  refine .bind .context fun ctx => ?_
  split
  · refine .bind (.mapError (.access fun _ _ _ _ => ⟨trivial, rfl⟩) _) fun found => ?_
    cases found with
    | none => exact .pure []
    | some row => exact (engine.makes_transform spec [row]).mono hfunction
  · refine .bind (.mapError (.access fun _ _ _ _ => ⟨trivial, rfl⟩) _) fun found => ?_
    exact (engine.makes_transform spec found).mono hfunction

theorem entriesOf_roundMarks (reader : Target) (key label : String) (index size : Nat)
    (batch : List Row) (s t : Site σ) (work : List (Entry σ)) :
    entriesOf (roundMarks reader key label index size batch s t work) =
      .call (.nextBatch reader) s t true ::
        .event (.batchRead key label index batch.length) :: work :=
  congrArg (_ :: _ :: ·) (entriesOf_entries work)

theorem roundMarks_isReading {work : List (Entry σ)} (h : ∀ entry ∈ work, entry.IsWork) :
    ∀ entry ∈ entriesOf (roundMarks reader key label index size batch s t work),
      entry.IsReading := by
  rw [entriesOf_roundMarks]
  intro entry hmem
  rcases List.mem_cons.mp hmem with rfl | hmem
  · trivial
  rcases List.mem_cons.mp hmem with rfl | hmem
  · trivial
  · exact (h entry hmem).isReading

theorem batchEvents_roundMarks {work : List (Entry σ)} (h : ∀ entry ∈ work, entry.IsWork) :
    (eventsOf (entriesOf (roundMarks reader key label index size batch s t work))).filter
      Event.isOfBatch = [.batchRead key label index batch.length] := by
  have hwork : (eventsOf work).filter Event.isOfBatch = [] :=
    filter_eventsOf_eq_nil fun _ hmem => (h _ hmem).of_event
  rw [entriesOf_roundMarks]
  exact congrArg (Event.batchRead key label index batch.length :: ·) hwork

theorem Rounds.isReading {batches : Batches σ}
    (h : Rounds reader key label size index batches marks answered) :
    ∀ entry ∈ entriesOf marks, entry.IsReading := by
  induction h with
  | ended => exact List.forall_mem_singleton.mpr trivial
  | broke _ hwork => exact roundMarks_isReading hwork
  | went _ hwork _ ih =>
    rw [entriesOf_append]
    exact List.forall_mem_append.mpr ⟨roundMarks_isReading hwork, ih⟩

/-- The batches of a cursor are announced in order, counted from the index of the first. -/
theorem Rounds.batchEvents {batches : Batches σ}
    (h : Rounds reader key label size index batches marks answered) :
    (eventsOf (entriesOf marks)).filter Event.isOfBatch =
      Engine.batchEvents key label index answered := by
  induction h with
  | ended => rfl
  | broke _ hwork => exact batchEvents_roundMarks hwork
  | went _ hwork _ ih =>
    rw [entriesOf_append, eventsOf_append, List.filter_append, batchEvents_roundMarks hwork, ih]
    rfl

theorem ReadChronicle.isReading (h : ReadChronicle engine key label flow s marks answered) :
    ∀ entry ∈ entriesOf marks, entry.IsReading := by
  cases h with
  | unprepared => exact List.forall_mem_nil _
  | unfetched _ _ hfetch =>
    rw [entriesOf_entries]
    exact fun entry hmem => ((engine.makes_fetch ..).of_ends hfetch entry hmem).1
  | fetched _ _ hfetch hwriting =>
    rw [entriesOf_append, entriesOf_append, entriesOf_entries, entriesOf_changes,
      entriesOf_entries, List.nil_append]
    refine List.forall_mem_append.mpr ⟨fun entry hmem => ?_, fun entry hmem => ?_⟩
    · exact ((engine.makes_fetch ..).of_ends hfetch entry hmem).1
    · exact (hwriting entry hmem).isReading
  | unopened => exact List.forall_mem_singleton.mpr trivial
  | unclosed _ hrounds => exact List.forall_mem_cons.mpr ⟨trivial, hrounds.isReading⟩
  | closed _ hrounds =>
    refine List.forall_mem_cons.mpr ⟨trivial, ?_⟩
    change ∀ entry ∈ entriesOf (_ ++ _), _
    rw [entriesOf_append]
    exact List.forall_mem_append.mpr
      ⟨hrounds.isReading, List.forall_mem_singleton.mpr trivial⟩

/-- The batches that a flow announces are those that its cursor has answered, in order. -/
theorem ReadChronicle.batchEvents (h : ReadChronicle engine key label flow s marks answered) :
    (eventsOf (entriesOf marks)).filter Event.isOfBatch =
      Engine.batchEvents key label 1 answered := by
  have hfetched {es : List (Entry σ)}
      (hevents : ∀ entry ∈ es, entry.IsReading ∧ entry.event? = none) :
      (eventsOf es).filter Event.isOfBatch = [] :=
    filter_eventsOf_eq_nil fun _ hmem => nomatch (hevents _ hmem).2
  cases h with
  | unprepared => rfl
  | unfetched _ _ hfetch =>
    rw [entriesOf_entries]
    exact hfetched ((engine.makes_fetch ..).of_ends hfetch)
  | fetched _ _ hfetch hwriting =>
    rw [entriesOf_append, entriesOf_append, entriesOf_entries, entriesOf_changes,
      entriesOf_entries, List.nil_append, eventsOf_append, List.filter_append,
      hfetched ((engine.makes_fetch ..).of_ends hfetch)]
    exact filter_eventsOf_eq_nil fun _ hmem => Entry.IsWork.of_event (.inr (hwriting _ hmem))
  | unopened => rfl
  | unclosed _ hrounds => exact hrounds.batchEvents
  | closed _ hrounds =>
    change (eventsOf (entriesOf (_ ++ _))).filter _ = _
    rw [entriesOf_append, eventsOf_append, List.filter_append, hrounds.batchEvents]
    exact List.append_nil _

/-! ## Sections -/

/-- An entry that neither begins a flow that reads nor announces a batch. -/
def IsBeside : Entry σ → Prop
  | .step (.flow _ (.read _)) | .event (.batchRead ..) => False
  | _ => True

/-- The entries of a run: flows that read, each announced before anything is done for it, and
entries beside them. -/
inductive Sectioned (engine : Engine σ) : List (Entry σ) → Prop
  | nil : Sectioned engine []
  | beside : IsBeside entry → Sectioned engine es → Sectioned engine (entry :: es)
  | read {flow : ReadFlow} {s : Site σ} :
    ReadChronicle engine key (s.context.label flow.id) flow s marks answered →
    Sectioned engine es →
    Sectioned engine (.step (.flow key (.read flow)) ::
      .event (.flowStarted key (s.context.label flow.id) (s.context.label flow.desc)) ::
        (entriesOf marks ++ es))

namespace Sectioned

theorem append (h : Sectioned engine es) (h' : Sectioned engine es') :
    Sectioned engine (es ++ es') := by
  induction h with
  | nil => exact h'
  | beside hbeside _ ih => exact .beside hbeside ih
  | read hread _ ih =>
    rw [List.cons_append, List.cons_append, List.append_assoc]
    exact .read hread ih

end Sectioned

/-- The events up to the next that announces a flow or a parameter set. -/
def sectionOf (es : List (Entry σ)) : List Event :=
  (eventsOf es).takeWhile fun event => !event.opens

/-- No entry of a flow that reads opens another section, so all its events belong to its own. -/
theorem sectionOf_append {es : List (Entry σ)} (h : ∀ entry ∈ es, entry.IsReading)
    (es' : List (Entry σ)) : sectionOf (es ++ es') = eventsOf es ++ sectionOf es' := by
  rw [sectionOf, eventsOf_append, List.takeWhile_append_of_pos]
  · rfl
  · intro event hmem
    simp [(h _ (mem_eventsOf.mp hmem)).of_event.2]

/-- What follows a flow announces no batches before another flow is announced. -/
theorem Sectioned.quiet (h : Sectioned engine es) :
    (sectionOf es).filter Event.isOfBatch = [] := by
  induction h with
  | nil => rfl
  | @beside entry es hbeside _ ih =>
    cases entry with
    | step | call => exact ih
    | event told =>
      have htold : told.isOfBatch = false := by
        cases told with
        | batchRead => exact hbeside.elim
        | _ => rfl
      change ((told :: eventsOf es).takeWhile _).filter _ = []
      rw [List.takeWhile_cons]
      split
      · rw [List.filter_cons_of_neg (by simp [htold])]
        exact ih
      · rfl
  | read => rfl

/-- An entry that is not in the first part of a list is found in the second. -/
theorem append_eq_of_not_mem (first : List α) {second before after : List α} {a : α}
    (h : first ++ second = before ++ a :: after) (hnew : a ∉ first) :
    ∃ before', before = first ++ before' ∧ second = before' ++ a :: after := by
  rcases List.append_eq_append_iff.mp h with ⟨before', hbefore, hsecond⟩ | ⟨rest, hfirst, hrest⟩
  · exact ⟨before', hbefore, hsecond⟩
  · cases rest with
    | nil => exact ⟨[], by simp [hfirst], hrest.symm⟩
    | cons b rest =>
      obtain ⟨rfl, -⟩ := List.cons_eq_cons.mp hrest
      exact (hnew (by simp [hfirst])).elim

/-- Every flow that reads and has been begun is one of the flows that the entries are made of. -/
theorem Sectioned.find (h : Sectioned engine es)
    (hsplit : es = before ++ .step (.flow key (.read flow)) :: after) :
    ∃ s marks answered rest,
      ReadChronicle engine key (s.context.label flow.id) flow s marks answered ∧
      after = .event (.flowStarted key (s.context.label flow.id) (s.context.label flow.desc)) ::
        (entriesOf marks ++ rest) ∧ Sectioned engine rest := by
  induction h generalizing before with
  | nil => cases before <;> cases hsplit
  | beside hbeside _ ih =>
    cases before with
    | nil =>
      cases hsplit
      exact hbeside.elim
    | cons first before =>
      cases hsplit
      exact ih rfl
  | @read key' marks answered es flow' s hread hrest ih =>
    cases before with
    | nil =>
      cases hsplit
      exact ⟨s, marks, answered, es, hread, rfl, hrest⟩
    | cons first before =>
      obtain ⟨rfl, hafter⟩ := List.cons_eq_cons.mp hsplit
      -- the flow begins after the one that is announced here
      have hnew : .step (.flow key (.read flow)) ∉ .event (.flowStarted key'
          (s.context.label flow'.id) (s.context.label flow'.desc)) :: entriesOf marks := by
        intro hmem
        rcases List.mem_cons.mp hmem with hmem | hmem
        · cases hmem
        · rcases hread.isReading _ hmem with h | h <;> exact h
      obtain ⟨before', -, hafter⟩ := append_eq_of_not_mem (_ :: entriesOf marks) hafter hnew
      exact ih hafter

/-! ## Stages -/

/-- What is heard of stages that are carried out up to the end or up to one that breaks off: nothing
of the run itself, the first of the parameter sets or all of them, and flows. -/
structure Heard (engine : Engine σ) (stages : List Stage) (es : List (Entry σ))
    (answer : Except (Failure EngineError) Unit) : Prop where
  inner : ∀ event ∈ eventsOf es, event.isOfRun = false
  begun : (eventsOf es).filter Event.isOfSet <+: stages.filterMap Stage.announced?
  all : answer = .ok () →
    (eventsOf es).filter Event.isOfSet = stages.filterMap Stage.announced?
  sectioned : Sectioned engine es

namespace Heard

theorem of_all (inner : ∀ event ∈ eventsOf es, event.isOfRun = false)
    (all : (eventsOf es).filter Event.isOfSet = stages.filterMap Stage.announced?)
    (sectioned : Sectioned engine es) : Heard engine stages es answer :=
  ⟨inner, all ▸ List.prefix_rfl, fun _ => all, sectioned⟩

theorem of_stage {stage : Stage} (h : StageChronicle engine stage s marks) :
    Heard engine [stage] (entriesOf marks) (.ok ()) := by
  cases h with
  | set => exact of_all (List.forall_mem_singleton.mpr rfl) rfl (.beside trivial .nil)
  | @hook key phase form es _ stage hstep hcalls =>
    have hnone : stage.announced? = none := by
      cases stage with
      | set => cases hstep
      | _ => rfl
    rw [entriesOf_entries]
    cases hcalls with
    | nothing =>
      exact of_all (List.forall_mem_nil _) (by simp [hnone, eventsOf, Entry.event?])
        (.beside trivial .nil)
    | one =>
      exact of_all (List.forall_mem_nil _) (by simp [hnone, eventsOf, Entry.event?])
        (.beside trivial (.beside trivial .nil))
  | read hread =>
    have hreading (event : Event) (hmem : event ∈ eventsOf (entriesOf _)) :=
      (hread.isReading _ (mem_eventsOf.mp hmem)).of_event
    refine of_all (List.forall_mem_cons.mpr ⟨rfl, fun event hmem => (hreading event hmem).1⟩)
      (List.filter_eq_nil_iff.mpr fun event hmem hset => ?_) ?_
    · rcases List.mem_cons.mp hmem with rfl | hmem
      · cases hset
      · have hopens := event.opens_of_isOfSet hset
        rw [(hreading event hmem).2] at hopens
        cases hopens
    · have hsection := Sectioned.read hread .nil
      rwa [List.append_nil] at hsection
  | trigger =>
    exact of_all (List.forall_mem_singleton.mpr rfl) rfl (.beside trivial (.beside trivial .nil))
  | merge => exact of_all (List.forall_mem_nil _) rfl .nil

theorem broke {stage : Stage} (h : Heard engine [stage] es (.ok ())) (stages : List Stage)
    (e : Failure EngineError) : Heard engine (stage :: stages) es (.error e) := by
  refine ⟨h.inner, ?_, nofun, h.sectioned⟩
  have hstages : (stage :: stages).filterMap Stage.announced? =
      [stage].filterMap Stage.announced? ++ stages.filterMap Stage.announced? :=
    List.filterMap_append (l := [stage])
  rw [h.all rfl, hstages]
  exact List.prefix_append _ _

theorem append (h : Heard engine stages es (.ok ())) (h' : Heard engine stages' es' answer) :
    Heard engine (stages ++ stages') (es ++ es') answer := by
  refine ⟨?_, ?_, fun hok => ?_, h.sectioned.append h'.sectioned⟩
  · rw [eventsOf_append]
    exact List.forall_mem_append.mpr ⟨h.inner, h'.inner⟩
  · rw [eventsOf_append, List.filter_append, h.all rfl, List.filterMap_append]
    exact (List.prefix_append_right_inj _).mpr h'.begun
  · rw [eventsOf_append, List.filter_append, h.all rfl, List.filterMap_append, h'.all hok]

/-- What is heard of a plan is put together from what is heard of its stages. -/
theorem of_chronicle (h : Chronicle engine stages s marks answer) :
    Heard engine stages (entriesOf marks) answer := by
  induction h with
  | nil => exact of_all (List.forall_mem_nil _) rfl .nil
  | broke hstage => exact (of_stage hstage).broke _ _
  | cons hstage _ _ ih =>
    rw [entriesOf_append]
    exact (of_stage hstage).append ih

end Heard

/-- The announcements of parameter sets that are counted from a number on. -/
def setEvents (runId key : String) (index : Nat) (sets : List Row) : List Event :=
  (sets.zipIdx index).map fun (params, i) => .paramsStarted runId key i params

theorem announced_of_mem_stages {p : Pipeline} {stage : Stage} {inside : TriggerFlow → List Stage}
    (hinside : ∀ flow, ∀ stage ∈ inside flow, stage.announced? = none)
    (h : stage ∈ p.stages inside depth) : stage.announced? = none := by
  have hhook {phase : Phase} {hook : Option Hook}
      (hmem : stage ∈ hook.elim [] (Hook.stages p.key phase)) : stage.announced? = none := by
    obtain ⟨form, hstep⟩ := step?_of_mem_hook hmem
    cases stage with
    | set => cases hstep
    | _ => rfl
  simp only [Pipeline.stages, List.mem_append, List.mem_flatMap] at h
  rcases h with hmem | ⟨flow, -, hmem⟩ | hmem
  · exact hhook hmem
  · cases flow with
    | read flow =>
      obtain rfl := List.mem_singleton.mp hmem
      rfl
    | trigger flow =>
      rcases List.mem_cons.mp hmem with rfl | hmem
      · rfl
      · exact hinside flow stage hmem
  · exact hhook hmem

/-- Triggered pipelines announce no parameter sets: they merge them. -/
theorem announced_of_mem_triggerStages {stage : Stage}
    (h : stage ∈ engine.triggerStages levels depth flow) : stage.announced? = none := by
  induction levels generalizing depth flow stage with
  | zero => cases h
  | succ levels ih =>
    rw [triggerStages] at h
    split at h
    · cases h
    · obtain ⟨params, -, hmem⟩ := List.mem_flatMap.mp h
      rcases List.mem_cons.mp hmem with rfl | hmem
      · rfl
      · exact announced_of_mem_stages (fun _ _ hinside => ih hinside) hmem

/-- The plan of a run begins its parameter sets in order, counted from the first. -/
theorem announced_plan (engine : Engine σ) (levels : Nat) (runId : String) (p : Pipeline)
    (index : Nat) (sets : List Row) :
    (engine.plan levels runId p index sets).filterMap Stage.announced? =
      setEvents runId p.key index sets := by
  induction sets generalizing index with
  | nil => rfl
  | cons params rest ih =>
    have hbody : (p.stages (engine.triggerStages levels 1) 0).filterMap Stage.announced? = [] :=
      List.filterMap_eq_nil_iff.mpr fun stage hmem =>
        announced_of_mem_stages (fun _ _ => announced_of_mem_triggerStages) hmem
    change Event.paramsStarted runId p.key index params :: (_ ++ _ : List Stage).filterMap _ = _
    rw [List.filterMap_append, hbody, ih]
    rfl

/-! ## Writers -/

mutual

/-- What a writer with so many rows announces: that it is skipped, or how many rows have been
written and how many have not, each with what the writer that follows announces about them. -/
inductive Told (key : String) : WriterSpec → (writer : String) → (rows : Nat) → List Event → Prop
  | disabled : settings.enabled = false →
    Told key (.mk settings onSuccess onFailure) writer rows
      [.writerSkipped key writer "disabled"]
  | noRows : settings.enabled →
    Told key (.mk settings onSuccess onFailure) writer 0 [.writerSkipped key writer "no rows"]
  | counted : settings.enabled → 0 < rows → written + failed = rows →
    ToldOn key (.rowsWritten key writer settings.action) onSuccess written events →
    ToldOn key (.recordsFailed key writer) onFailure failed events' →
    Told key (.mk settings onSuccess onFailure) writer rows (events ++ events')

/-- What is announced about rows that go on to the writer that follows, if there are any. -/
inductive ToldOn (key : String) : (Nat → Event) → Option WriterSpec → (rows : Nat) →
    List Event → Prop
  | nothing : ToldOn key announcement next 0 []
  | nobody : 0 < rows → ToldOn key announcement none rows [announcement rows]
  | handed : 0 < rows → Told key spec writer rows events →
    ToldOn key announcement (some spec) rows (announcement rows :: events)

end

theorem RowByRow.eventsOf {w : ReadyWriter σ} (h : RowByRow w action rows verdicts s es t) :
    eventsOf es = [] := by
  induction h with
  | nil => rfl
  | written _ _ ih | failed _ _ ih => exact ih

theorem Delivered.eventsOf {w : ReadyWriter σ} (h : Delivered w action rows outcome s es t) :
    eventsOf es = [] := by
  cases h with
  | bulk => rfl
  | eachRow _ hrows => exact hrows.eventsOf

theorem Buried.eventsOf (h : Buried engine key failed s es t) : eventsOf es = [] := by
  cases h <;> rfl

mutual

/-- The counts add up because the outcome splits the rows. By recursion on the tree of writers. -/
theorem Accounted.told : {spec : WriterSpec} → {w : ReadyWriter σ} → {rows : List Row} →
    {outcome : Outcome} → {s : Site σ} → {es : List (Entry σ)} → {t : Site σ} →
    Accounted engine key spec w rows outcome s es t →
      Told key spec w.target.name rows.length (eventsOf es)
  | _, _, _, _, _, _, _, .disabled henabled => .disabled henabled
  | _, _, _, _, _, _, _, .noRows henabled => .noRows henabled
  | _, _, _, _, _, _, _, .delivered henabled hrows _ hdelivered hsplits hsuccess hfailure
      hburied => by
    have hcount := hsplits.all.length_eq
    rw [List.length_append] at hcount
    rw [eventsOf_append, eventsOf_append, eventsOf_append, hdelivered.eventsOf, hburied.eventsOf,
      List.nil_append, List.append_nil]
    exact .counted henabled (List.length_pos_iff.mpr hrows) hcount hsuccess.told hfailure.told

theorem PassedOn.told : {announcement : Nat → Event} → {next : Option WriterSpec} →
    {rows : List Row} → {s : Site σ} → {es : List (Entry σ)} → {t : Site σ} →
    PassedOn engine key announcement next rows s es t →
      ToldOn key announcement next rows.length (eventsOf es)
  | _, _, _, _, _, _, .nothing => .nothing
  | _, _, _, _, _, _, .nobody hrows => .nobody (List.length_pos_iff.mpr hrows)
  | _, _, _, _, _, _, .handed hrows _ haccounted =>
    .handed (List.length_pos_iff.mpr hrows) haccounted.told

end

/-! ## Runs -/

/-- The announcement of how a run has ended. -/
def ending (runId key : String) : Except EngineError Unit → Event
  | .ok () => .runCompleted runId key
  | .error e => .runFailed runId key e.message

/-- The announcements of the parameter sets that a run is to go through: those that it has resolved,
or none if it can not resolve any. -/
inductive SetsOf (engine : Engine σ) (runId key : String) (given : Option (List Row))
    (s : Site σ) : List Event → Prop
  | unknown : engine.pipelines.find? key = none → SetsOf engine runId key given s []
  | unresolved : engine.pipelines.find? key = some p →
    Resolved engine p given s es (.error e) t → SetsOf engine runId key given s []
  | resolved : engine.pipelines.find? key = some p →
    Resolved engine p given s es (.ok sets) t →
    SetsOf engine runId key given s (setEvents runId p.key 0 sets)

/-- What a run announces. -/
structure Announces (engine : Engine σ) (runId key : String) (given : Option (List Row))
    (s : Site σ) (es : List (Entry σ)) (answer : Except EngineError Unit) : Prop where
  /-- The run announces itself first and last, and nowhere else. -/
  bounds : ∃ inner, eventsOf es = .runStarted runId key :: (inner ++ [ending runId key answer]) ∧
    ∀ event ∈ inner, event.isOfRun = false
  /-- The parameter sets are announced in order, all of them if the run ends well. -/
  sets : ∃ announced, SetsOf engine runId key given s announced ∧
    (eventsOf es).filter Event.isOfSet <+: announced ∧
    (answer = .ok () → (eventsOf es).filter Event.isOfSet = announced)
  /-- A flow that reads is announced, and before the next flow or parameter set is, so are the
  batches that its cursor has answered, counted from one. -/
  sections : ∀ before flowKey flow after,
    es = before ++ .step (.flow flowKey (.read flow)) :: after →
    ∃ s label desc rest marks answered, after = .event (.flowStarted flowKey label desc) :: rest ∧
      ReadChronicle engine flowKey label flow s marks answered ∧ entriesOf marks <+: rest ∧
      (sectionOf rest).filter Event.isOfBatch = batchEvents flowKey label 1 answered

theorem Resolved.heard {given : Option (List Row)}
    (h : Resolved engine p given s es resolved t) (answer : Except (Failure EngineError) Unit) :
    Heard engine [] es answer := by
  cases h with
  | given | empty => exact .of_all (List.forall_mem_nil _) rfl .nil
  | provided | unusable | failed =>
    exact .of_all (List.forall_mem_nil _) rfl (.beside trivial .nil)

theorem Announces.of_heard {given : Option (List Row)} {answer : Except EngineError Unit}
    (hsets : SetsOf engine runId key given s announced)
    (hstages : stages.filterMap Stage.announced? = announced) (h : Heard engine stages es full)
    (hfull : answer.mapError .error = full) :
    Announces engine runId key given s
      (.event (.runStarted runId key) :: (es ++ lastEntries runId key full)) answer := by
  have hlast : (lastEntries runId key full : List (Entry σ)) =
      [.event (ending runId key answer)] := by
    subst hfull
    cases answer <;> rfl
  have hending : (ending runId key answer).isOfSet = false := by
    cases answer <;> rfl
  have hevents : eventsOf (.event (.runStarted runId key) :: (es ++ lastEntries runId key full)) =
      .runStarted runId key :: (eventsOf es ++ [ending runId key answer]) := by
    rw [hlast, ← List.singleton_append, eventsOf_append, eventsOf_append]
    rfl
  have hfilter : (eventsOf (.event (.runStarted runId key) ::
      (es ++ lastEntries runId key full))).filter Event.isOfSet =
        (eventsOf es).filter Event.isOfSet := by
    rw [hevents, List.filter_cons_of_neg (by simp [Event.isOfSet]), List.filter_append,
      List.filter_cons_of_neg (by simp [hending])]
    exact List.append_nil _
  subst hstages
  refine ⟨⟨eventsOf es, hevents, h.inner⟩, ⟨_, hsets, ?_, fun hok => ?_⟩, ?_⟩
  · rw [hfilter]
    exact h.begun
  · rw [hfilter]
    exact h.all (by rw [← hfull, hok]; rfl)
  · intro before flowKey flow after hsplit
    have hsectioned : Sectioned engine
        (.event (.runStarted runId key) :: (es ++ lastEntries runId key full)) := by
      rw [hlast]
      refine .beside trivial (h.sectioned.append (.beside ?_ .nil))
      cases answer <;> trivial
    obtain ⟨s, marks, answered, rest, hread, hafter, hrest⟩ := hsectioned.find hsplit
    refine ⟨s, _, _, _, marks, answered, hafter, hread, List.prefix_append _ _, ?_⟩
    rw [sectionOf_append hread.isReading, List.filter_append, hread.batchEvents, hrest.quiet]
    exact List.append_nil _

/-- The form of the events is read off the chronicle of the run, part by part. -/
theorem Announces.of_run {given : Option (List Row)} {answer : Except EngineError Unit}
    (h : (engine.run runId key given).Ends s es (answer.mapError .error) t) :
    Announces engine runId key given s es answer := by
  obtain ⟨marks, htells, hchronicle⟩ := RunChronicle.of_run h
  rw [← htells.entries]
  generalize hfull : answer.mapError Failure.error = full at hchronicle
  cases hchronicle with
  | unknown hfound =>
    have hnothing (answer : Except (Failure EngineError) Unit) :
        Heard engine [] ([] : List (Entry σ)) answer := .of_all (List.forall_mem_nil _) rfl .nil
    exact .of_heard (.unknown hfound) rfl (hnothing _) hfull
  | unresolved hfound hresolved =>
    change Announces engine runId key given s
      (.event (.runStarted runId key) :: entriesOf (_ ++ _)) answer
    rw [entriesOf_append, entriesOf_entries, entriesOf_entries]
    exact .of_heard (.unresolved hfound hresolved) rfl (hresolved.heard _) hfull
  | followed hfound hresolved hcarried =>
    change Announces engine runId key given s
      (.event (.runStarted runId key) :: entriesOf (_ ++ (_ ++ _))) answer
    rw [entriesOf_append, entriesOf_append, entriesOf_entries, entriesOf_entries,
      ← List.append_assoc]
    exact .of_heard (.resolved hfound hresolved) (engine.announced_plan ..)
      ((hresolved.heard _).append (.of_chronicle hcarried)) hfull

/-- **What a run announces.** The events of a run in which nothing panics have the form that
observers rely on, and whatever is written and ends well is accounted for. -/
theorem run_announces (engine : Engine σ) :
    (∀ runId key given (live live' : Live σ) (answer : Except EngineError Unit),
      (engine.run runId key given).exec live = (answer.mapError .error, live') →
      ∃ es, live'.journal = es.reverse ++ live.journal ∧
        Announces engine runId key given live.toSite es answer) ∧
    ∀ key spec w rows (live live' : Live σ) outcome,
      (engine.write key spec w rows).exec live = (.ok outcome, live') →
      ∃ es, live'.journal = es.reverse ++ live.journal ∧
        Told key spec w.target.name rows.length (eventsOf es) := by
  refine ⟨fun runId key given live live' answer h => ?_,
    fun key spec w rows live live' outcome h => ?_⟩
  · obtain ⟨es, hends, hjournal⟩ := Run.ends_of_exec h
    exact ⟨es, hjournal, .of_run hends⟩
  · obtain ⟨es, hends, hjournal⟩ := Run.ends_of_exec h
    exact ⟨es, hjournal, (Accounted.of_write spec hends).told⟩

/-- A reader of three rows, of which its cursor serves one and then two. -/
def sampleCounted : Reader Unit where
  bind _ _ := .ok {
    findOne := fun _ => pure none
    findAll := fun _ => pure []
    findBatches := fun _ _ =>
      pure (.ofList [[[("id", .nat 1)]], [[("id", .nat 2)], [("id", .nat 3)]]]) }

/-- A flow that reads in batches, whose rows are all refused. -/
def sampleCounting : ReadFlow where
  id := "copy"
  desc := ""
  reader := { component := "numbers", mode := .batched }
  writers := [.mk { component := "full" } none none]

/-- A pipeline that reads in batches before and after it triggers one in which a row is refused. -/
def sampleAnnouncing : Engine Unit :=
  { sampleTriggering with
    pipelines := ("p", samplePipeline "p" [.read sampleCounting, .trigger ⟨"", "", "child", none⟩,
      .read sampleCounting]) :: sampleTriggering.pipelines
    registry := sampleTriggering.registry.register "numbers" (.reader sampleCounted) }

theorem run_announces_refused_row :
    (∃ live', (sampleAnnouncing.run "r" "p" none).exec sampleStart = (.ok (), live') ∧
      (eventsOf live'.journal.reverse).filter Event.isOfBatch =
        [.batchRead "p" "copy" 1 1, .batchRead "p" "copy" 2 2, .batchRead "p" "copy" 1 1,
          .batchRead "p" "copy" 2 2] ∧
      ∃ es, live'.journal = es.reverse ++ [] ∧
        Announces sampleAnnouncing "r" "p" none sampleStart.toSite es (.ok ())) ∧
    ∃ live', (sampleEngine.write "p" sampleCascade sampleWriter sampleRows).exec sampleStart =
        (.ok sampleOutcome, live') ∧
      ∃ es, live'.journal = es.reverse ++ [] ∧ Told "p" sampleCascade "table" 2 (eventsOf es) := by
  constructor
  · have hok : ((sampleAnnouncing.run "r" "p" none).exec sampleStart).1 = .ok () := by cbv
    refine ⟨_, Prod.ext hok rfl, by cbv, ?_⟩
    exact (run_announces sampleAnnouncing).1 "r" "p" none sampleStart _ (.ok ()) (Prod.ext hok rfl)
  · obtain ⟨live', hwrite⟩ : ∃ live',
        (sampleEngine.write "p" sampleCascade sampleWriter sampleRows).exec sampleStart =
          (.ok sampleOutcome, live') := ⟨_, Prod.ext (by with_unfolding_all rfl) rfl⟩
    exact ⟨live', hwrite, (run_announces sampleEngine).2 "p" sampleCascade sampleWriter sampleRows
      sampleStart live' sampleOutcome hwrite⟩

end Engine

end RowFlow
