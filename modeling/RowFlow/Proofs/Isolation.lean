import RowFlow.Proofs.Plan

/-!
# Parameter sets do not see each other

Each parameter set of a run begins in a context of its own. So a run with two lists of parameter
sets, one after the other, is a run with the first list and then, if that ends well, a run with the
second: the calls are made in the same contexts, the components are left in the same state, and the
result is the same (`Service.transport_append`). Only the announcements of the runs and of the
parameter sets tell the difference.
-/

namespace RowFlow

variable {σ τ : Type}

/-- Whether an entry announces a run or a parameter set. -/
def Entry.announces : Entry σ → Bool
  | .event (.runStarted ..) | .event (.paramsStarted ..) => true
  | .event (.runCompleted ..) | .event (.runFailed ..) => true
  | _ => false

/-- What has been done in a run, without the announcements of runs and parameter sets. -/
def deeds (es : List (Entry σ)) : List (Entry σ) := es.filter fun entry => !entry.announces

theorem deeds_append (es es' : List (Entry σ)) : deeds (es ++ es') = deeds es ++ deeds es' :=
  List.filter_append ..

theorem deeds_reverse (es : List (Entry σ)) : deeds es.reverse = (deeds es).reverse :=
  List.filter_reverse

namespace Engine

variable {engine : Engine σ}

/-- The parameter sets are numbered on, and nothing else is carried over. -/
theorem runSets_append (engine : Engine σ) (runId : String) (p : Pipeline) (index : Nat)
    (sets sets' : List Row) :
    engine.runSets runId p index (sets ++ sets') = (do
      engine.runSets runId p index sets
      engine.runSets runId p (index + sets.length) sets') := by
  induction sets generalizing index with
  | nil => exact (pure_bind ..).symm
  | cons params rest ih =>
    have hindex : index + 1 + rest.length = index + (params :: rest).length := by
      rw [List.length_cons]
      omega
    rw [List.cons_append, runSets_cons, runSets_cons, ih, hindex]
    simp only [bind_assoc]

/-- A parameter set begins in a context that depends neither on the context before it nor on the
number of the set. -/
theorem carryOut_set (engine : Engine σ) (runId key : String) (index : Nat) (params : Row)
    (s : Site σ) :
    (engine.carryOut (.set runId key index params)).Ends s
      [.event (.paramsStarted runId key index params)] (.ok ())
      { s with context := initialContext runId key params } :=
  (Run.ends_modifyContext _).bind (Run.ends_emit _)

/-- What is done for parameter sets depends neither on the context before them nor on the number of
the first. -/
theorem runSets_isolated (h : (engine.runSets runId p index sets).Ends s es answer t)
    (s' : Site σ) (hworld : s'.world = s.world) (index' : Nat) :
    ∃ es' t', (engine.runSets runId p index' sets).Ends s' es' answer t' ∧ t'.world = t.world ∧
      deeds es' = deeds es := by
  induction sets generalizing index index' s s' es with
  | nil =>
    obtain ⟨rfl, rfl, rfl⟩ := Run.ends_pure_iff.mp h
    exact ⟨[], s', Run.ends_pure (), hworld, rfl⟩
  | cons params rest ih =>
    rw [runSets_cons] at h
    obtain ⟨es₁, hset, rfl⟩ := (engine.carryOut_set runId p.key index params s).bind_iff.mp h
    -- from here on both are at the same site
    have hsite : ({ s with context := initialContext runId p.key params } : Site σ) =
        { s' with context := initialContext runId p.key params } := by
      rw [hworld]
    rw [hsite] at hset
    have hbegin := engine.carryOut_set runId p.key index' params s'
    rw [runSets_cons]
    rcases Run.ends_bind_iff.mp hset with
      ⟨e, rfl, hbody⟩ | ⟨_, es₂, u, es₃, hbody, hrest, rfl⟩
    · exact ⟨_, t, hbegin.bind hbody.bind_error, rfl, by simp [deeds, Entry.announces]⟩
    · obtain ⟨es', t', hends, hlast, hdeeds⟩ := ih hrest u rfl (index' + 1)
      refine ⟨_, t', hbegin.bind (hbody.bind hends), hlast, ?_⟩
      simp only [deeds_append, hdeeds]
      rfl

/-- The entries of a run, with its announcements around them. -/
def runEntries (runId key : String) (es : List (Entry σ))
    (answer : Except (Failure EngineError) Unit) : List (Entry σ) :=
  .event (.runStarted runId key) :: (es ++ lastEntries runId key answer)

/-- How a run is announced is no deed of its components. -/
theorem deeds_runEntries (runId key : String) (es : List (Entry σ))
    (answer : Except (Failure EngineError) Unit) :
    deeds (runEntries runId key es answer) = deeds es := by
  have hlast : deeds (lastEntries runId key answer : List (Entry σ)) = [] := by
    rcases answer with (e | message) | _ <;> rfl
  calc deeds (runEntries runId key es answer)
    _ = deeds (es ++ lastEntries runId key answer) := rfl
    _ = deeds es := by rw [deeds_append, hlast, List.append_nil]

theorem run_sets (hfound : engine.pipelines.find? key = some p) (hsets : sets ≠ [])
    (h : (engine.runSets runId p 0 sets).Ends s es answer t) :
    (engine.run runId key (some sets)).Ends s (runEntries runId key es answer) answer t := by
  have hall : engine.runAll runId key (some sets) = engine.runSets runId p 0 sets := by
    cases sets with
    | nil => contradiction
    | cons params rest =>
      rw [runAll, findPipeline, hfound]
      exact (pure_bind ..).trans (pure_bind ..)
  rw [← hall] at h
  exact run_ends h

theorem run_unknown (runId : String) (hfound : engine.pipelines.find? key = none)
    (given : Option (List Row)) (s : Site σ) :
    (engine.run runId key given).Ends s
      (runEntries runId key [] (.error (.error (.pipelineNotFound key))))
      (.error (.error (.pipelineNotFound key))) s := by
  refine run_ends ?_
  rw [runAll, findPipeline, hfound]
  exact (Run.ends_fail _).bind_error

end Engine

namespace Service

/-- Runs of a pipeline with two lists of parameter sets, the second only if the first ends well. -/
def transportInTurn (runId key : String) (sets sets' : List Row) :
    Operation σ τ (Except EngineError Unit) := do
  match ← transport runId key (some sets) with
  | .ok () => transport runId key (some sets')
  | .error e => return .error e

/-- If the first of two runs fails, there is no second. -/
theorem transportInTurn_stopped {runId key : String} {s s' : Service σ τ}
    (h : (transport runId key (some sets)).run s = (.error e, s')) (sets' : List Row) :
    (transportInTurn runId key sets sets').run s = (.error e, s') := by
  simp only [transportInTurn, StateT.run_bind]
  rw [h]
  rfl

theorem transportInTurn_went {runId key : String} {s s' : Service σ τ}
    (h : (transport runId key (some sets)).run s = (.ok (), s')) (sets' : List Row) :
    (transportInTurn runId key sets sets').run s = (transport runId key (some sets')).run s' := by
  simp only [transportInTurn, StateT.run_bind]
  rw [h]
  rfl

/-- The services differ at most in what has been announced. -/
structure Alike (s s' : Service σ τ) : Prop where
  others : { s with journal := [] } = { s' with journal := [] }
  deeds : deeds s.journal = deeds s'.journal

/-- **Parameter sets are isolated.** A run with two lists of parameter sets does what a run with the
first and then, if that has ended well, a run with the second do. -/
theorem transport_append (runId key : String) {sets sets' : List Row} (hsets : sets ≠ [])
    (hsets' : sets' ≠ []) (s : Service σ τ) :
    ((transport runId key (some (sets ++ sets'))).run s).1 =
        ((transportInTurn runId key sets sets').run s).1 ∧
      Alike ((transport runId key (some (sets ++ sets'))).run s).2
        ((transportInTurn runId key sets sets').run s).2 := by
  cases hfound : s.engine.pipelines.find? key with
  | none =>
    have hwhole := transport_run (Engine.run_unknown runId hfound (some (sets ++ sets')) _)
    have hfirst := transport_run (Engine.run_unknown runId hfound (some sets) _)
    rw [transportInTurn_stopped hfirst, hwhole]
    exact ⟨rfl, rfl, rfl⟩
  | some p =>
    have happend : sets ++ sets' ≠ [] := by simp [hsets]
    obtain ⟨es, answer, t, hends⟩ := Run.Adds.ends (s.engine.runSets runId p 0 sets)
      ⟨.empty, s.world⟩
    have hfirst := transport_run (Engine.run_sets hfound hsets hends)
    cases answer with
    | error e =>
      have hboth : (s.engine.runSets runId p 0 (sets ++ sets')).Ends ⟨.empty, s.world⟩ es
          (.error e) t := by
        rw [Engine.runSets_append]
        exact hends.bind_error
      have hwhole := transport_run (Engine.run_sets hfound happend hboth)
      have hstopped : ∃ e', result (s.panicText s.tasks) (.error e) = .error e' := by
        cases e <;> exact ⟨_, rfl⟩
      obtain ⟨e', he⟩ := hstopped
      rw [he] at hfirst hwhole
      rw [transportInTurn_stopped hfirst, hwhole]
      exact ⟨rfl, rfl, rfl⟩
    | ok =>
      -- the second run begins in an empty context, the second list where the first has ended
      obtain ⟨es', answer', t', hends'⟩ := Run.Adds.ends (s.engine.runSets runId p 0 sets')
        ⟨.empty, t.world⟩
      obtain ⟨es'', t'', hrest, hworld, hdeeds⟩ :=
        Engine.runSets_isolated hends' t rfl (0 + sets.length)
      have hboth : (s.engine.runSets runId p 0 (sets ++ sets')).Ends ⟨.empty, s.world⟩
          (es ++ es'') answer' t'' := by
        rw [Engine.runSets_append]
        exact hends.bind hrest
      have hwhole := transport_run (Engine.run_sets hfound happend hboth)
      let s₁ := s.after (Engine.runEntries runId key es (.ok ())) t
      have hsecond : (transport runId key (some sets')).run s₁ =
          (result (s.panicText s.tasks) answer',
            s₁.after (Engine.runEntries runId key es' answer') t') :=
        transport_run (Engine.run_sets hfound hsets' hends')
      rw [transportInTurn_went hfirst, hsecond, hwhole]
      refine ⟨rfl, ?_, ?_⟩
      · simp only [after, hworld]
        rfl
      · simp only [s₁, after, deeds_append, deeds_reverse, Engine.deeds_runEntries, hdeeds,
          List.reverse_append, List.append_assoc]

/-- A service whose pipeline refuses a parameter set that finds the mark of an earlier one. -/
def sampleMarking : Service Unit Unit where
  engine :=
    { pipelines :=
        [("p",
          { key := "p", flows := [], pre := some { runnable := some "mark" }, post := none,
            schedules := [], scheduleEnabled := true, paramsProvider := none, components := [],
            scripts := [] })]
      registry :=
        { globals :=
            [("mark", .runnable fun site =>
              match site.context.get? "mark" with
              | none => (.ok (), { site with context := site.context.set "mark" (.bool true) })
              | some _ => (.error (.error "marked"), site))] }
      scripts :=
        { load := fun _ => Access.fail (.unsupported "scripts")
          invoke := fun function _ => Access.fail (.unknownFunction function) } }
  history := ()
  world := { state := () }
  runId _ := "run"

theorem transport_append_marking :
    ((transport "run" "p" (some ([[("id", .nat 1)]] ++ [[("id", .nat 2)]]))).run sampleMarking).1 =
        .ok () ∧
      ((transportInTurn "run" "p" [[("id", .nat 1)]] [[("id", .nat 2)]]).run sampleMarking).1 =
        .ok () ∧
      Alike
        ((transport "run" "p" (some ([[("id", .nat 1)]] ++ [[("id", .nat 2)]]))).run
          sampleMarking).2
        ((transportInTurn "run" "p" [[("id", .nat 1)]] [[("id", .nat 2)]]).run sampleMarking).2 := by
  obtain ⟨hresult, halike⟩ := transport_append "run" "p" (List.cons_ne_nil [("id", Value.nat 1)] [])
    (List.cons_ne_nil [("id", Value.nat 2)] []) sampleMarking
  have hwhole : ((transport "run" "p" (some ([[("id", .nat 1)]] ++ [[("id", .nat 2)]]))).run
      sampleMarking).1 = .ok () := by
    cbv
  exact ⟨hwhole, hresult ▸ hwhole, halike⟩

end Service

end RowFlow
