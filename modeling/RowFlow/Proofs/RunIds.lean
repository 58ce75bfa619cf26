import RowFlow.Proofs.Announcements
import RowFlow.Proofs.Conduct

/-!
# The run id in the context

A parameter set of a run begins with the run id in a variable, and then the parameters are put over
it; those of triggers are merged later on. So the variable is no better protected than any other:
components see the run id in it if and only if the last parameter under its name, if there is one,
is that very id (`Engine.run_id_seen_iff`). A caller can have a run go under another run's id.
-/

namespace RowFlow

variable {σ α β : Type}

theorem lastGiven_append (gives : α → Option β) (as bs : List α) :
    lastGiven gives (as ++ bs) = (lastGiven gives bs).or (lastGiven gives as) := by
  rw [lastGiven, List.reverse_append, List.findSome?_append]
  rfl

/-! ## The parameters of a set -/

/-- The parameters that have been given since a parameter set of the run has begun, if one has: its
own, and those of the triggers since. -/
def Change.givenAfter (given : Option Row) : Change → Option Row
  | .set _ _ params => some params
  | .merge params => given.map (· ++ params)
  | .batch .. | .capture .. => given

def paramsSince (changes : List Change) : Option Row := changes.foldl Change.givenAfter none

/-- What the variable of the run id holds after parameters have been given. -/
def shownRunId (runId : String) (params : Row) : Option Value :=
  (lastGiven (Context.gives Context.runIdKey) params).getD (some (.text runId))

theorem shownRunId_eq_iff : shownRunId runId params = some (.text runId) ↔
    ∀ stored, lastGiven (Context.gives Context.runIdKey) params = some stored →
      stored = some (.text runId) := by
  unfold shownRunId
  cases lastGiven (Context.gives Context.runIdKey) params <;> simp

theorem get?_initialContext (runId key : String) (params : Row) :
    (Engine.initialContext runId key params).get? Context.runIdKey = shownRunId runId params := by
  unfold Engine.initialContext
  rw [Context.get?_set _ (by nofun), if_neg (by decide), Context.get?_merge,
    Context.get?_set _ (by nofun), if_pos rfl]
  rfl

theorem get?_merge_shown {ctx : Context}
    (h : ctx.get? Context.runIdKey = shownRunId runId given) (params : Row) :
    (ctx.merge params).get? Context.runIdKey = shownRunId runId (given ++ params) := by
  rw [Context.get?_merge, h, shownRunId, shownRunId, lastGiven_append]
  cases lastGiven (Context.gives Context.runIdKey) params <;> rfl

/-- A set that has begun is not forgotten. -/
theorem paramsSince_of_mem (h : .set runId key params ∈ changes) :
    ∃ given, paramsSince changes = some given := by
  unfold paramsSince
  induction changes using List.reverseRecOn with
  | nil => cases h
  | append_singleton changes change ih =>
    rw [List.foldl_concat]
    rcases List.mem_append.mp h with hmem | hmem
    · obtain ⟨given, hgiven⟩ := ih hmem
      rw [hgiven]
      cases change <;> exact ⟨_, rfl⟩
    · cases List.mem_singleton.mp hmem
      exact ⟨params, rfl⟩

/-! ## Between the marks of a run -/

/-- Among the marks, no call of a component changes a variable, and no flow shows its rows in it. -/
structure Untouched (name : String) (marks : List (Mark σ)) : Prop where
  calls : ∀ what before after ok, .entry (.call what before after ok) ∈ marks →
    what.isScript = false → after.context.get? name = before.context.get? name
  captures : ∀ value, .change (.capture name value) ∉ marks

theorem Untouched.tail {marks : List (Mark σ)} (h : Untouched name (mark :: marks)) :
    Untouched name marks :=
  ⟨fun what before after ok hmem => h.calls what before after ok (.tail _ hmem),
    fun value hmem => h.captures value (.tail _ hmem)⟩

theorem Untouched.left {marks more : List (Mark σ)} (h : Untouched name (marks ++ more)) :
    Untouched name marks :=
  ⟨fun what before after ok hmem => h.calls what before after ok (List.mem_append_left _ hmem),
    fun value hmem => h.captures value (List.mem_append_left _ hmem)⟩

/-- The variable of the run id is left to the parameters that are given. -/
theorem Threaded.get?_runId {marks : List (Mark σ)} (h : Threaded ctx marks ctx')
    (huntouched : Untouched Context.runIdKey marks)
    (hsets : ∀ other key params, .change (.set other key params) ∈ marks → other = runId)
    (hgiven : ∀ params, given = some params →
      ctx.get? Context.runIdKey = shownRunId runId params) :
    ∀ params, (changesOf marks).foldl Change.givenAfter given = some params →
      ctx'.get? Context.runIdKey = shownRunId runId params := by
  induction h generalizing given with
  | nil => exact hgiven
  | step _ ih | event _ ih =>
    exact ih huntouched.tail (fun other key params hmem => hsets other key params (.tail _ hmem))
      hgiven
  | @call _ _ _ what _ _ _ hbefore hscript _ ih =>
    refine ih huntouched.tail (fun other key params hmem => hsets other key params (.tail _ hmem))
      fun params hparams => ?_
    rw [← hgiven params hparams]
    cases hwhat : what.isScript with
    | true => rw [hscript hwhat]
    | false => rw [huntouched.calls _ _ _ _ (.head _) hwhat, hbefore]
  | @change _ _ _ change _ ih =>
    refine ih huntouched.tail (fun other key params hmem => hsets other key params (.tail _ hmem))
      fun params hparams => ?_
    cases change with
    | set other key own =>
      cases hsets other key own (.head _)
      cases hparams
      exact get?_initialContext runId key params
    | merge own =>
      obtain ⟨before, hbefore, rfl⟩ := Option.map_eq_some_iff.mp hparams
      exact get?_merge_shown (hgiven before hbefore) own
    | batch index size =>
      have hnone : (Change.batch index size).gives Context.runIdKey = none := by
        with_unfolding_all rfl
      rw [Context.get?_after, hnone]
      exact hgiven params hparams
    | capture shown value =>
      have hother : shown ≠ Context.runIdKey := by
        rintro rfl
        exact huntouched.captures value (.head _)
      rw [Context.get?_after, Change.gives, Context.gives, if_neg hother]
      exact hgiven params hparams

/-- The variable is left as it is. -/
def Context.Keeps (name : String) (ctx ctx' : Context) : Prop := ctx'.get? name = ctx.get? name

instance (name : String) : Std.Refl (Context.Keeps name) := ⟨fun _ => rfl⟩

/-- Whether an entry is a call of a component. -/
def Entry.IsComponentCall : Entry σ → Prop
  | .call what .. => what.isScript = false
  | _ => False

namespace Engine

variable {engine : Engine σ} {change : Change}

/-! ## The changes of a run -/

/-- The changes of a stage. -/
inductive Does : Stage → Change → Prop
  | set : Does (.set runId key index params) (.set runId key params)
  | merge : Does (.merge params) (.merge params)
  | batch : Does (.read key flow) (.batch index flow.reader.batchSize)
  | capture : flow.reader.capture = some name → Does (.read key flow) (.capture name value)

theorem change_not_mem_entries (change : Change) (es : List (Entry σ)) :
    Mark.change change ∉ es.map .entry := by
  intro hmem
  obtain ⟨_, -, heq⟩ := List.mem_map.mp hmem
  cases heq

theorem mem_captures (h : change ∈ captures spec rows) :
    ∃ name value, spec.capture = some name ∧ change = .capture name value := by
  have hcaptured {value : Value} (hmem : change ∈ captured spec value) :
      ∃ name value, spec.capture = some name ∧ change = .capture name value := by
    unfold captured at hmem
    cases hcapture : spec.capture with
    | none => simp [hcapture] at hmem
    | some name =>
      rw [hcapture] at hmem
      exact ⟨name, value, rfl, List.mem_singleton.mp hmem⟩
  unfold captures at h
  split at h
  · cases h
  · exact hcaptured h
  · exact hcaptured h

theorem roundMarks_change (h : .change change ∈
    roundMarks reader key label index size batch s t work) : change = .batch index size := by
  simp only [roundMarks, List.mem_cons, reduceCtorEq, false_or, Mark.change.injEq] at h
  exact h.resolve_right (change_not_mem_entries change work)

theorem Rounds.does {batches : Batches σ}
    (h : Rounds reader key label size index batches marks answered)
    (hmem : .change change ∈ marks) : ∃ index, change = .batch index size := by
  induction h with
  | ended => simp at hmem
  | broke => exact ⟨_, roundMarks_change hmem⟩
  | went _ _ _ ih =>
    rcases List.mem_append.mp hmem with hmem | hmem
    · exact ⟨_, roundMarks_change hmem⟩
    · exact ih hmem

theorem ReadChronicle.does (h : ReadChronicle engine key label flow s marks answered)
    (hmem : .change change ∈ marks) : Does (.read key flow) change := by
  cases h with
  | unprepared => cases hmem
  | unfetched => exact (change_not_mem_entries _ _ hmem).elim
  | fetched =>
    rcases List.mem_append.mp hmem with hmem | hmem
    · exact (change_not_mem_entries _ _ hmem).elim
    rcases List.mem_append.mp hmem with hmem | hmem
    · obtain ⟨shown, hshown, heq⟩ := List.mem_map.mp hmem
      cases heq
      obtain ⟨name, value, hcapture, rfl⟩ := mem_captures hshown
      exact .capture hcapture
    · exact (change_not_mem_entries _ _ hmem).elim
  | unopened => simp at hmem
  | unclosed _ hrounds =>
    obtain ⟨index, rfl⟩ := hrounds.does (by simpa using hmem)
    exact .batch
  | closed _ hrounds =>
    obtain ⟨index, rfl⟩ := hrounds.does (by simpa using hmem)
    exact .batch

theorem StageChronicle.does {stage : Stage} (h : StageChronicle engine stage s marks)
    (hmem : .change change ∈ marks) : Does stage change := by
  cases h with
  | set =>
    obtain rfl : change = _ := by simpa using hmem
    exact .set
  | hook => exact (change_not_mem_entries _ _ hmem).elim
  | read hread => exact hread.does (by simpa using hmem)
  | trigger => simp at hmem
  | merge =>
    obtain rfl : change = _ := by simpa using hmem
    exact .merge

theorem Chronicle.does (h : Chronicle engine stages s marks answer)
    (hmem : .change change ∈ marks) : ∃ stage ∈ stages, Does stage change := by
  induction h with
  | nil => cases hmem
  | broke hstage => exact ⟨_, List.mem_cons_self, hstage.does hmem⟩
  | cons hstage _ _ ih =>
    rcases List.mem_append.mp hmem with hmem | hmem
    · exact ⟨_, List.mem_cons_self, hstage.does hmem⟩
    · obtain ⟨stage, hstage, hdoes⟩ := ih hmem
      exact ⟨stage, List.mem_cons_of_mem _ hstage, hdoes⟩

theorem runId_of_mem_plan (h : .set other key index params ∈ engine.plan levels runId p first sets) :
    other = runId := by
  induction sets generalizing first with
  | nil => cases h
  | cons own rest ih =>
    rcases List.mem_cons.mp h with heq | hmem
    · cases heq
      rfl
    · rcases List.mem_append.mp hmem with hbody | hrest
      · cases announced_of_mem_stages (fun _ _ => announced_of_mem_triggerStages) hbody
      · exact ih hrest

/-- The changes of a run are those of the stages of its plan. -/
theorem RunChronicle.does {given : Option (List Row)}
    (h : RunChronicle engine runId key given s marks answer) (hmem : .change change ∈ marks) :
    ∃ p sets, engine.pipelines.find? key = some p ∧
      ∃ stage ∈ engine.plan maxTriggerDepth runId p 0 sets, Does stage change := by
  cases h with
  | unknown =>
    rcases List.mem_cons.mp hmem with hmem | hmem
    · cases hmem
    · exact (change_not_mem_entries _ _ hmem).elim
  | unresolved =>
    rcases List.mem_cons.mp hmem with hmem | hmem
    · cases hmem
    rcases List.mem_append.mp hmem with hmem | hmem
    all_goals exact (change_not_mem_entries _ _ hmem).elim
  | followed hfound _ hchronicle =>
    rcases List.mem_cons.mp hmem with hmem | hmem
    · cases hmem
    rcases List.mem_append.mp hmem with hmem | hmem
    · exact (change_not_mem_entries _ _ hmem).elim
    rcases List.mem_append.mp hmem with hmem | hmem
    · exact ⟨_, _, hfound, hchronicle.does hmem⟩
    · exact (change_not_mem_entries _ _ hmem).elim

/-- The parameter sets of a run begin with its own id. -/
theorem RunChronicle.set_runId {given : Option (List Row)}
    (h : RunChronicle engine runId key given s marks answer)
    (hmem : .change (.set other shown params) ∈ marks) : other = runId := by
  obtain ⟨p, sets, -, stage, hstage, hdoes⟩ := h.does hmem
  cases hdoes
  exact runId_of_mem_plan hstage

/-! ## Components are called in parameter sets -/

theorem Resolved.not_component {given : Option (List Row)}
    (h : Resolved engine p given s es answer t) : ∀ entry ∈ es, ¬ entry.IsComponentCall := by
  cases h with
  | given | empty => exact List.forall_mem_nil _
  | provided | unusable | failed => exact List.forall_mem_singleton.mpr nofun

theorem lastEntries_not_component (runId key : String)
    (answer : Except (Failure EngineError) Unit) :
    ∀ entry ∈ (lastEntries runId key answer : List (Entry σ)), ¬ entry.IsComponentCall := by
  rcases answer with (e | message) | ⟨⟩
  · exact List.forall_mem_singleton.mpr nofun
  · exact List.forall_mem_nil _
  · exact List.forall_mem_singleton.mpr nofun

/-- A plan that is followed at all begins with a parameter set. -/
theorem Chronicle.begins
    (h : Chronicle engine (engine.plan levels runId p index sets) s marks answer) :
    marks = [] ∨ ∃ params rest, marks = .change (.set runId p.key params) :: rest := by
  cases sets with
  | nil =>
    cases h
    exact .inl rfl
  | cons params rest =>
    cases h with
    | broke hstage =>
      cases hstage with
      | set => exact .inr ⟨params, _, rfl⟩
      | hook hstep => cases hstep
    | cons hstage =>
      cases hstage with
      | set => exact .inr ⟨params, _, rfl⟩
      | hook hstep => cases hstep

theorem not_mem_of_not_component {es : List (Entry σ)} {entry : Entry σ}
    (hentry : entry.IsComponentCall)
    (h : ∀ other ∈ es, ¬ other.IsComponentCall) : Mark.entry entry ∉ es.map .entry := by
  intro hmem
  obtain ⟨other, hother, heq⟩ := List.mem_map.mp hmem
  cases heq
  exact h entry hother hentry

/-- Before a run calls a component, it begins a parameter set. -/
theorem RunChronicle.set_before {given : Option (List Row)} {entry : Entry σ}
    (h : RunChronicle engine runId key given s (earlier ++ .entry entry :: later) answer)
    (hentry : entry.IsComponentCall) :
    ∃ shown params, .change (.set runId shown params) ∈ earlier := by
  have hstarted : Mark.entry entry ≠ .entry (.event (.runStarted runId key)) := by
    rintro ⟨⟩
    exact hentry
  have hlast (answer : Except (Failure EngineError) Unit) :
      Mark.entry entry ∉ (lastEntries runId key answer).map .entry :=
    not_mem_of_not_component hentry (lastEntries_not_component runId key answer)
  generalize hmarks : earlier ++ .entry entry :: later = marks at h
  have hmem : Mark.entry entry ∈ marks := hmarks ▸ List.mem_append_right _ List.mem_cons_self
  cases h with
  | unknown =>
    exact (hlast _ (List.mem_of_ne_of_mem hstarted hmem)).elim
  | unresolved _ hresolved =>
    have hfirst := not_mem_of_not_component hentry hresolved.not_component
    rcases List.mem_append.mp (List.mem_of_ne_of_mem hstarted hmem) with hmem | hmem
    · exact (hfirst hmem).elim
    · exact (hlast _ hmem).elim
  | followed _ hresolved hchronicle =>
    have hfirst := not_mem_of_not_component hentry hresolved.not_component
    obtain ⟨before, rfl, hrest⟩ := append_eq_of_not_mem (_ :: _) hmarks.symm
      (List.not_mem_cons_of_ne_of_not_mem hstarted hfirst)
    rcases hchronicle.begins with rfl | ⟨params, rest, rfl⟩
    · refine (hlast answer ?_).elim
      rw [← List.nil_append (List.map _ _), hrest]
      exact List.mem_append_right _ List.mem_cons_self
    · cases before with
      | nil => cases hrest
      | cons mark before =>
        cases (List.cons.inj hrest).1
        exact ⟨_, params, List.mem_append_right _ List.mem_cons_self⟩

/-- What neither the components nor the flows of an engine touch is left untouched by its runs. -/
theorem RunChronicle.untouched {given : Option (List Row)}
    (h : RunChronicle engine runId key given s marks answer)
    (hentries : ∀ entry ∈ entriesOf marks, entry.Moves (Context.Keeps name))
    (hcaptures : ∀ key flow, engine.Reads key flow → flow.reader.capture ≠ some name) :
    Untouched name marks := by
  refine ⟨fun what before after ok hmem hwhat => ?_, fun value hmem => ?_⟩
  · have hentry : .call what before after ok ∈ entriesOf marks :=
      List.mem_filterMap.mpr ⟨_, hmem, rfl⟩
    exact hentries _ hentry hwhat
  · obtain ⟨p, sets, hfound, stage, hstage, hdoes⟩ := h.does hmem
    cases hdoes with
    | capture hcapture => exact hcaptures _ _ (reads_of_mem_plan hfound hstage) hcapture

/-- **The run id can be displaced.** Before a component is called, a parameter set of the run has
begun. As long as no component has changed the variable of the run id, and no flow has shown its
rows in it, the component sees what the last parameter under that name says, of those that have been
given since, to the run or by a trigger, and the run id if there is none. So it sees the run id if
and only if that parameter does not say otherwise, even if the components and the flows of the
engine never touch the variable. -/
theorem run_id_seen_iff (engine : Engine σ) (runId key : String) (given : Option (List Row))
    (live : Live σ) :
    ∃ marks, ((engine.run runId key given).exec live).2.journal =
        (entriesOf marks).reverse ++ live.journal ∧
      RunChronicle engine runId key given live.toSite marks
        ((engine.run runId key given).exec live).1 ∧
      (engine.registry.Moves (Context.Keeps Context.runIdKey) →
        (∀ key flow, engine.Reads key flow → flow.reader.capture ≠ some Context.runIdKey) →
        Untouched Context.runIdKey marks) ∧
      ∀ earlier what s t ok later, marks = earlier ++ .entry (.call what s t ok) :: later →
        what.isScript = false → Untouched Context.runIdKey earlier →
        ∃ params, paramsSince (changesOf earlier) = some params ∧
          s.context.get? Context.runIdKey =
            (lastGiven (Context.gives Context.runIdKey) params).getD (some (.text runId)) ∧
          (s.context.get? Context.runIdKey = some (.text runId) ↔
            ∀ stored, lastGiven (Context.gives Context.runIdKey) params = some stored →
              stored = some (.text runId)) := by
  have hexec : (engine.run runId key given).exec live = (_, _) := rfl
  obtain ⟨es, hends, hjournal⟩ := Run.ends_of_exec hexec
  obtain ⟨marks, htells, hchronicle⟩ := RunChronicle.of_run hends
  refine ⟨marks, htells.entries ▸ hjournal, hchronicle, fun hmoves hcaptures => ?_, ?_⟩
  · exact hchronicle.untouched (htells.entries ▸ moves_of_run hmoves hends) hcaptures
  rintro earlier what s t ok later rfl hwhat huntouched
  obtain ⟨shown, params, hset⟩ := hchronicle.set_before hwhat
  have hchange : .set runId shown params ∈ changesOf earlier :=
    List.mem_filterMap.mpr ⟨_, hset, rfl⟩
  obtain ⟨given, hgiven⟩ := paramsSince_of_mem hchange
  have hsets (other key : String) (params : Row)
      (hmem : .change (.set other key params) ∈ earlier) : other = runId :=
    hchronicle.set_runId (List.mem_append_left _ hmem)
  obtain ⟨ctx, hearlier, hlater⟩ := htells.threaded.split
  have hctx : ctx.get? Context.runIdKey = shownRunId runId given :=
    hearlier.get?_runId huntouched hsets (fun _ hnone => by cases hnone) given hgiven
  have hs : s.context = ctx := by
    cases hlater with
    | call hbefore => exact hbefore
  exact ⟨given, hgiven, hs ▸ hctx, by rw [hs, hctx]; exact shownRunId_eq_iff⟩

theorem sampleTriggering_keeps :
    sampleTriggering.registry.Moves (Context.Keeps Context.runIdKey) := by
  intro key name component hresolve
  have hfind : Dict.find? sampleTriggering.registry.globals name = some component := by
    cases key <;> exact hresolve
  have hsink {sink bound : Sink Unit} (hbatch : ∀ action rows s,
      ((sink.batch action rows).exec s).2.context = s.context)
      (hrow : ∀ action row s, ((sink.row action row).exec s).2.context = s.context)
      (hbound : (.ok sink : Except ReadError _) = .ok bound) :
      bound.Moves (Context.Keeps Context.runIdKey) := by
    cases hbound
    exact ⟨fun action rows => .of_refl (hbatch action rows), fun action row =>
      .of_refl (hrow action row)⟩
  simp only [sampleTriggering, Dict.find?] at hfind
  split at hfind
  · cases hfind
    exact fun _ _ _ => hsink (fun _ _ _ => rfl) fun _ _ _ => rfl
  split at hfind
  · cases hfind
    exact fun _ _ _ => hsink (fun _ _ _ => rfl) fun _ _ _ => rfl
  split at hfind
  · cases hfind
    trivial
  · cases hfind

theorem sampleTriggering_captures {flow : ReadFlow} (h : sampleTriggering.Reads key flow) :
    flow.reader.capture ≠ some Context.runIdKey := by
  obtain ⟨stored, p, hfound, -, hflow⟩ := h
  simp only [sampleTriggering, Dict.find?] at hfound
  split at hfound
  · cases hfound
    cases List.mem_singleton.mp hflow
    exact (Option.some_ne_none _).symm
  split at hfound
  · cases hfound
    cases List.mem_singleton.mp hflow
  · cases hfound

theorem run_id_seen_iff_triggering :
    ∃ marks, ((sampleTriggering.run "r" "parent" none).exec sampleStart).2.journal =
        (entriesOf marks).reverse ++ [] ∧
      Untouched Context.runIdKey marks ∧
      ∀ earlier what s t ok later, marks = earlier ++ .entry (.call what s t ok) :: later →
        what.isScript = false → ∃ params, paramsSince (changesOf earlier) = some params ∧
          (s.context.get? Context.runIdKey = some (.text "r") ↔
            ∀ stored, lastGiven (Context.gives Context.runIdKey) params = some stored →
              stored = some (.text "r")) := by
  obtain ⟨marks, hjournal, -, hstatic, hcalls⟩ :=
    run_id_seen_iff sampleTriggering "r" "parent" none sampleStart
  have huntouched := hstatic sampleTriggering_keeps fun _ _ => sampleTriggering_captures
  refine ⟨marks, hjournal, huntouched, fun earlier what s t ok later hmarks hwhat => ?_⟩
  have hearlier : Untouched Context.runIdKey earlier := (hmarks ▸ huntouched).left
  obtain ⟨params, hparams, -, hiff⟩ := hcalls earlier what s t ok later hmarks hwhat hearlier
  exact ⟨params, hparams, hiff⟩

/-- The run id that a component sees when it is called. -/
def seenRunId? : Entry σ → Option (Option String)
  | .call what s _ _ => if what.isScript then none else some s.context.runId?
  | _ => none

/-- A caller's parameter displaces the run id for all components, also in a triggered pipeline. The
components do not touch it, and no flow shows its rows in it. -/
theorem run_id_displaced :
    sampleTriggering.registry.Moves (Context.Keeps Context.runIdKey) ∧
    (∀ key flow, sampleTriggering.Reads key flow →
      flow.reader.capture ≠ some Context.runIdKey) ∧
    ∃ live', (sampleTriggering.run "r" "parent"
        (some [[("pipelineRunId", .text "forged")]])).exec sampleStart = (.ok (), live') ∧
      live'.journal.filterMap seenRunId? = List.replicate 7 (some "forged") :=
  ⟨sampleTriggering_keeps, fun _ _ => sampleTriggering_captures, _, Prod.ext (by cbv) rfl, by cbv⟩

end Engine

end RowFlow
