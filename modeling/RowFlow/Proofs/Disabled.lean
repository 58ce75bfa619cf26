import RowFlow.Proofs.Breakdown

/-!
# Writers that are disabled

A flow has all its writers made ready before it reads, and those that are disabled as well. Once
they are ready, the disabled ones do nothing but announce that they are skipped, so the flow goes on
as if they were not there. It is different before: a disabled writer that can not be made ready ends
the flow (`Engine.disabled_harmless_iff`).
-/

namespace RowFlow

variable {σ : Type}

/-- Whether an entry announces that a writer is skipped. -/
def Entry.skips : Entry σ → Bool
  | .event (.writerSkipped ..) => true
  | _ => false

/-- What has been done, without the announcements of skipped writers. -/
def acts (es : List (Entry σ)) : List (Entry σ) := es.filter fun entry => !entry.skips

theorem acts_append (es es' : List (Entry σ)) : acts (es ++ es') = acts es ++ acts es' :=
  List.filter_append ..

theorem acts_reverse (es : List (Entry σ)) : acts es.reverse = (acts es).reverse :=
  List.filter_reverse

/-! ## Parts that differ in what they skip -/

namespace Run

variable {ε ε' α β : Type}

/-- From every site the parts do the same and end in the same way, but for the writers that they
announce as skipped. -/
structure Matches (run run' : Run σ ε α) : Prop where
  ends : ∀ s, ∃ es es' answer t, run.Ends s es answer t ∧ run'.Ends s es' answer t ∧
    acts es = acts es'

namespace Matches

variable {run run' : Run σ ε α} {f f' : α → Run σ ε β}

theorem refl (run : Run σ ε α) [Adds run] : Matches run run := by
  refine ⟨fun s => ?_⟩
  obtain ⟨es, answer, t, h⟩ := Adds.ends run s
  exact ⟨es, es, answer, t, h, h, rfl⟩

theorem bind (h : Matches run run') (h' : ∀ a, Matches (f a) (f' a)) :
    Matches (run >>= f) (run' >>= f') := by
  refine ⟨fun s => ?_⟩
  obtain ⟨es, es', answer, t, hrun, hrun', hacts⟩ := h.ends s
  cases answer with
  | error e => exact ⟨es, es', .error e, t, hrun.bind_error, hrun'.bind_error, hacts⟩
  | ok a =>
    obtain ⟨fs, fs', answer, u, hf, hf', hlast⟩ := (h' a).ends t
    refine ⟨es ++ fs, es' ++ fs', answer, u, hrun.bind hf, hrun'.bind hf', ?_⟩
    rw [acts_append, acts_append, hacts, hlast]

theorem attempt (h : Matches run run') :
    Matches (run.attempt : Run σ ε' (Except ε α)) run'.attempt := by
  refine ⟨fun s => ?_⟩
  obtain ⟨es, es', answer, t, hrun, hrun', hacts⟩ := h.ends s
  exact ⟨es, es', _, t, hrun.attempt, hrun'.attempt, hacts⟩

/-- A part that does nothing but skip can be left out. -/
theorem without {skipping : Run σ ε β} {part part' : Run σ ε α}
    (h : ∀ s, ∃ es b, skipping.Ends s es (.ok b) s ∧ acts es = [])
    (h' : Matches part part') : Matches (do let _ ← skipping; part) part' := by
  refine ⟨fun s => ?_⟩
  obtain ⟨es, b, hskip, hnone⟩ := h s
  obtain ⟨fs, fs', answer, t, hpart, hpart', hacts⟩ := h'.ends s
  refine ⟨es ++ fs, fs', answer, t, hskip.bind hpart, hpart', ?_⟩
  rw [acts_append, hnone, List.nil_append, hacts]

end Matches

/-- Begun in a run on its way, the parts end with the same answer and leave the same behind, but for
the writers that they announce as skipped. -/
structure Agree (run run' : Run σ ε α) (live : Live σ) : Prop where
  answer : (run.exec live).1 = (run'.exec live).1
  site : (run.exec live).2.toSite = (run'.exec live).2.toSite
  acts : acts (run.exec live).2.journal = acts (run'.exec live).2.journal

theorem Agree.of_exec {run run' rest rest' : Run σ ε α} {live : Live σ}
    (h : Agree rest rest' live) (hrun : rest.exec live = run.exec live)
    (hrun' : rest'.exec live = run'.exec live) : Agree run run' live :=
  ⟨hrun ▸ hrun' ▸ h.answer, hrun ▸ hrun' ▸ h.site, hrun ▸ hrun' ▸ h.acts⟩

theorem Agree.of_eq {run run' : Run σ ε α} {live : Live σ} (h : run.exec live = run'.exec live) :
    Agree run run' live :=
  ⟨by rw [h], by rw [h], by rw [h]⟩

/-- Parts that match act alike from every site. -/
theorem Matches.agree {run run' : Run σ ε α} (h : Matches run run') (live : Live σ) :
    Agree run run' live := by
  obtain ⟨es, es', answer, t, hrun, hrun', hacts⟩ := h.ends live.toSite
  have hexec := hrun.exec live.journal
  have hexec' := hrun'.exec live.journal
  constructor
  · rw [hexec, hexec']
  · rw [hexec, hexec']
  · rw [hexec, hexec', acts_append, acts_append, acts_reverse, acts_reverse, hacts]

/-- From every site the part begins with a call. -/
structure CallsFirst (run : Run σ ε α) : Prop where
  ends : ∀ s, ∃ what t succeeded es answer u,
    run.Ends s (.call what s t succeeded :: es) answer u

namespace CallsFirst

variable {run : Run σ ε α} {f : α → Run σ ε β}

theorem access (what : Call) (call : Access σ ε α) : CallsFirst (Run.access what call) :=
  ⟨fun _ => ⟨_, _, _, [], _, _, ends_call what call.toAct⟩⟩

theorem mapError (h : CallsFirst run) (g : ε → ε') : CallsFirst (run.mapError g) := by
  refine ⟨fun s => ?_⟩
  obtain ⟨what, t, succeeded, es, answer, u, hends⟩ := h.ends s
  exact ⟨what, t, succeeded, es, _, u, hends.mapError g⟩

theorem bind (h : CallsFirst run) (hadds : ∀ a, Adds (f a)) : CallsFirst (run >>= f) := by
  refine ⟨fun s => ?_⟩
  obtain ⟨what, t, succeeded, es, answer, u, hends⟩ := h.ends s
  cases answer with
  | error e => exact ⟨what, t, succeeded, es, .error e, u, hends.bind_error⟩
  | ok a =>
    obtain ⟨es', answer, v, hends'⟩ := Adds.ends (f a) u
    exact ⟨what, t, succeeded, es ++ es', answer, v, hends.bind hends'⟩

theorem after_context {f : Context → Run σ ε β} (h : ∀ ctx, CallsFirst (f ctx)) :
    CallsFirst (Run.context >>= f) := by
  refine ⟨fun s => ?_⟩
  obtain ⟨what, t, succeeded, es, answer, u, hends⟩ := (h s.context).ends s
  exact ⟨what, t, succeeded, es, answer, u, ends_context.bind_silent hends⟩

/-- A call is more than the announcement of a skipped writer. -/
theorem acts_ne (h : CallsFirst run) (live : Live σ) :
    acts (run.exec live).2.journal ≠ acts live.journal := by
  obtain ⟨what, t, succeeded, es, answer, u, hends⟩ := h.ends live.toSite
  intro heq
  rw [hends.exec live.journal, acts_append, acts_reverse] at heq
  have hnone : acts (.call what live.toSite t succeeded :: es) = [] :=
    List.reverse_eq_nil_iff.mp (List.append_left_eq_self.mp heq)
  cases hnone

end CallsFirst

end Run

namespace Engine

variable {engine : Engine σ} {key : String}

/-- The writers that are enabled, each with what it has been made ready as. -/
def enabledOnly (writers : List (WriterSpec × ReadyWriter σ)) : List (WriterSpec × ReadyWriter σ) :=
  writers.filter fun writer => writer.1.settings.enabled

/-! ## Without the disabled writers -/

/-- A writer that is disabled says so and does nothing. -/
theorem write_skips {w : ReadyWriter σ} (h : spec.settings.enabled = false) (s : Site σ) :
    ∃ es outcome, (engine.write key spec w rows).Ends s es (.ok outcome) s ∧ acts es = [] := by
  cases spec with
  | mk settings onSuccess onFailure =>
    have hskip : engine.write key (.mk settings onSuccess onFailure) w rows =
        skip key w "disabled" := write_disabled h
    rw [hskip]
    exact ⟨_, _, skip_ends key w "disabled" s, rfl⟩

/-- Writers that are skipped make no difference to the others. -/
theorem matches_writeAll (writers : List (WriterSpec × ReadyWriter σ)) (rows : List Row) :
    Run.Matches (engine.writeAll key writers rows)
      (engine.writeAll key (enabledOnly writers) rows) := by
  induction writers with
  | nil => exact .refl _
  | cons writer writers ih =>
    obtain ⟨spec, w⟩ := writer
    cases henabled : spec.settings.enabled with
    | true =>
      have hkept : enabledOnly ((spec, w) :: writers) = (spec, w) :: enabledOnly writers :=
        List.filter_cons_of_pos henabled
      rw [hkept, writeAll_cons, writeAll_cons]
      exact .bind (.refl _) fun _ => ih
    | false =>
      have hleft : enabledOnly ((spec, w) :: writers) = enabledOnly writers :=
        List.filter_cons_of_neg (by simp [henabled])
      rw [hleft, writeAll_cons, bind_assoc]
      refine .without (fun s => write_skips henabled s) ?_
      rw [pure_bind]
      exact ih

theorem matches_processBatch (flow : String) (spec : ReaderSpec)
    (writers : List (WriterSpec × ReadyWriter σ)) (index : Nat) (batch : List Row) :
    Run.Matches (engine.processBatch key flow spec writers index batch)
      (engine.processBatch key flow spec (enabledOnly writers) index batch) := by
  rw [processBatch_eq, processBatch_eq]
  refine .bind (.refl _) fun _ => .bind (.refl _) fun _ => .bind (.refl _) fun _ => ?_
  split
  · refine .bind (.refl _) fun rows => ?_
    split
    · exact matches_writeAll writers rows
    · exact .refl _
  · exact .refl _

theorem matches_consume {onBatch onBatch' : Nat → List Row → Run σ EngineError Unit}
    (h : ∀ index batch, Run.Matches (onBatch index batch) (onBatch' index batch))
    (reader : Target) (index : Nat) (batches : Batches σ) :
    Run.Matches (consume reader onBatch index batches) (consume reader onBatch' index batches) := by
  induction batches generalizing index with
  | last finish => exact .refl ((Run.access (.nextBatch reader) finish).mapError _)
  | next read rest ih =>
    rw [consume, consume]
    refine .bind (.refl _) fun batch => ?_
    cases batch with
    | none => exact .refl _
    | some batch => exact .bind (.refl _) fun world => .bind (h index batch) fun _ => ih world _

theorem matches_readInBatches (flow : String) (spec : ReaderSpec) (r : ReadyReader σ)
    (writers : List (WriterSpec × ReadyWriter σ)) :
    Run.Matches (engine.readInBatches key flow spec r writers)
      (engine.readInBatches key flow spec r (enabledOnly writers)) := by
  refine .bind (.refl _) fun ctx => .bind (.refl _) fun cursor => ?_
  refine .bind (.attempt (matches_consume (fun index batch => ?_) r.target 1 _)) fun _ => .refl _
  exact matches_processBatch flow spec writers index batch

theorem matches_readOne (spec : ReaderSpec) (r : ReadyReader σ)
    (writers : List (WriterSpec × ReadyWriter σ)) :
    Run.Matches (engine.readOne key spec r writers)
      (engine.readOne key spec r (enabledOnly writers)) := by
  rw [readOne_eq, readOne_eq]
  refine .bind (.refl _) fun ctx => .bind (.refl _) fun found => ?_
  cases found with
  | none => exact .refl _
  | some row =>
    refine .bind (.refl _) fun rows => ?_
    cases rows with
    | nil => exact .refl (pure ())
    | cons row rows => exact .bind (.refl _) fun _ => matches_writeAll writers [row]

theorem matches_readAll (spec : ReaderSpec) (r : ReadyReader σ)
    (writers : List (WriterSpec × ReadyWriter σ)) :
    Run.Matches (engine.readAll key spec r writers)
      (engine.readAll key spec r (enabledOnly writers)) := by
  refine .bind (.refl _) fun ctx => .bind (.refl _) fun found => ?_
  exact .bind (.refl _) fun rows => .bind (.refl _) fun _ => matches_writeAll writers rows

/-! ## Making writers ready -/

theorem prepareWriters_cons (engine : Engine σ) (key : String) (ctx : Context) (spec : WriterSpec)
    (specs : List WriterSpec) :
    engine.prepareWriters key ctx (spec :: specs) = (do
      let w ← engine.prepareWriter key ctx spec.settings
      let writers ← engine.prepareWriters key ctx specs
      return (spec, w) :: writers) := by
  simp only [prepareWriters, List.mapM_cons, bind_assoc, pure_bind]

/-- If all writers can be made ready, then so can those that are enabled, and they are the same. -/
theorem prepareWriters_enabled_ok (h : engine.prepareWriters key ctx specs = .ok writers) :
    engine.prepareWriters key ctx (specs.filter fun spec => spec.settings.enabled) =
      .ok (enabledOnly writers) := by
  induction specs generalizing writers with
  | nil =>
    cases h
    rfl
  | cons spec specs ih =>
    rw [prepareWriters_cons] at h
    obtain ⟨w, hw, hrest⟩ := bind_ok_iff.mp h
    obtain ⟨rest, hspecs, hcons⟩ := bind_ok_iff.mp hrest
    cases hcons
    have hrest := ih hspecs
    cases henabled : spec.settings.enabled with
    | true =>
      have hspecs : (spec :: specs).filter (fun spec => spec.settings.enabled) =
          spec :: specs.filter fun spec => spec.settings.enabled := List.filter_cons_of_pos henabled
      have hready : enabledOnly ((spec, w) :: rest) = (spec, w) :: enabledOnly rest :=
        List.filter_cons_of_pos henabled
      rw [hspecs, hready, prepareWriters_cons, hw, hrest]
      rfl
    | false =>
      have hready : enabledOnly ((spec, w) :: rest) = enabledOnly rest :=
        List.filter_cons_of_neg (by simp [henabled])
      rw [List.filter_cons_of_neg (by simp [henabled]), hrest, hready]

/-- If all disabled writers can be made ready, it is an enabled one that can not. -/
theorem prepareWriters_enabled_error (h : engine.prepareWriters key ctx specs = .error e)
    (hdisabled : ∀ spec ∈ specs, spec.settings.enabled = false →
      ∃ w, engine.prepareWriter key ctx spec.settings = .ok w) :
    engine.prepareWriters key ctx (specs.filter fun spec => spec.settings.enabled) = .error e := by
  induction specs with
  | nil => cases h
  | cons spec specs ih =>
    have hothers : ∀ other ∈ specs, other.settings.enabled = false →
        ∃ w, engine.prepareWriter key ctx other.settings = .ok w :=
      fun other hmem => hdisabled other (List.mem_cons_of_mem spec hmem)
    rw [prepareWriters_cons] at h
    cases henabled : spec.settings.enabled with
    | true =>
      have hspecs : (spec :: specs).filter (fun spec => spec.settings.enabled) =
          spec :: specs.filter fun spec => spec.settings.enabled := List.filter_cons_of_pos henabled
      rw [hspecs, prepareWriters_cons]
      rcases bind_error_iff.mp h with hfirst | ⟨w, hw, hrest⟩
      · rw [hfirst]
        rfl
      rcases bind_error_iff.mp hrest with hspecs | ⟨_, -, hpure⟩
      · rw [hw, ih hspecs hothers]
        rfl
      · cases hpure
    | false =>
      rw [List.filter_cons_of_neg (by simp [henabled])]
      obtain ⟨w, hw⟩ := hdisabled spec List.mem_cons_self henabled
      rcases bind_error_iff.mp h with hfirst | ⟨_, -, hrest⟩
      · rw [hw] at hfirst
        cases hfirst
      rcases bind_error_iff.mp hrest with hspecs | ⟨_, -, hpure⟩
      · exact ih hspecs hothers
      · cases hpure

/-! ## Reading with what is ready -/

/-- A flow ends at once if its reader or one of its writers can not be made ready. -/
theorem readFlow_exec (engine : Engine σ) (key label : String) (flow : ReadFlow) (live : Live σ) :
    (engine.readFlow key label flow).exec live =
      match engine.prepareReader key live.context flow.reader with
      | .error e => (.error (.error e), live)
      | .ok r =>
        match engine.prepareWriters key live.context flow.writers with
        | .error e => (.error (.error e), live)
        | .ok writers => (engine.readReady key label flow.reader r writers).exec live := by
  have hcontext : (Run.context : Run σ EngineError Context).exec live =
      (.ok live.context, live) := rfl
  rw [readFlow_ready, Run.exec_bind_of_ok hcontext]
  cases hreader : engine.prepareReader key live.context flow.reader with
  | error e => rfl
  | ok r =>
    have hready : (Run.ofExcept (.ok r) : Run σ EngineError _).exec live = (.ok r, live) := rfl
    rw [Run.exec_bind_of_ok hready]
    cases hwriters : engine.prepareWriters key live.context flow.writers with
    | error e => rfl
    | ok writers => rfl

theorem matches_readReady (engine : Engine σ) (key label : String) (spec : ReaderSpec)
    (r : ReadyReader σ) (writers : List (WriterSpec × ReadyWriter σ)) :
    Run.Matches (engine.readReady key label spec r writers)
      (engine.readReady key label spec r (enabledOnly writers)) := by
  unfold readReady
  split
  · exact matches_readOne spec r writers
  · exact matches_readAll spec r writers
  · exact matches_readInBatches label spec r writers

/-- A flow that is ready begins with a call, in each of the ways in which it can read. -/
theorem callsFirst_readReady (engine : Engine σ) (key label : String) (spec : ReaderSpec)
    (r : ReadyReader σ) (writers : List (WriterSpec × ReadyWriter σ)) :
    (engine.readReady key label spec r writers).CallsFirst := by
  unfold readReady
  split
  · rw [readOne_eq]
    refine .after_context fun ctx => .bind (.mapError (.access _ _) _) fun found => ?_
    cases found <;> infer_instance
  · exact .after_context fun ctx => .bind (.mapError (.access _ _) _) fun found => inferInstance
  · exact .after_context fun ctx => .bind (.mapError (.access _ _) _) fun cursor => inferInstance

end Engine

/-- The flow without the writers that are disabled. -/
def ReadFlow.withoutDisabled (flow : ReadFlow) : ReadFlow :=
  { flow with writers := flow.writers.filter fun spec => spec.settings.enabled }

namespace Engine

variable {engine : Engine σ} {key label : String} {flow : ReadFlow} {live : Live σ}

theorem agree_of_writers
    (h : ∀ r e, engine.prepareReader key live.context flow.reader = .ok r →
      engine.prepareWriters key live.context flow.writers = .error e →
      engine.prepareWriters key live.context flow.withoutDisabled.writers = .error e) :
    Run.Agree (engine.readFlow key label flow) (engine.readFlow key label flow.withoutDisabled)
      live := by
  have hreader : engine.prepareReader key live.context flow.withoutDisabled.reader =
      engine.prepareReader key live.context flow.reader := rfl
  have hrun := readFlow_exec engine key label flow live
  have hrun' := readFlow_exec engine key label flow.withoutDisabled live
  rw [hreader] at hrun'
  cases hr : engine.prepareReader key live.context flow.reader with
  | error e =>
    rw [hr] at hrun hrun'
    exact .of_eq (hrun.trans hrun'.symm)
  | ok r =>
    rw [hr] at hrun hrun'
    cases hwriters : engine.prepareWriters key live.context flow.writers with
    | error e =>
      rw [hwriters] at hrun
      rw [h r e hr hwriters] at hrun'
      exact .of_eq (hrun.trans hrun'.symm)
    | ok writers =>
      have henabled : engine.prepareWriters key live.context flow.withoutDisabled.writers =
          .ok (enabledOnly writers) := prepareWriters_enabled_ok hwriters
      rw [hwriters] at hrun
      rw [henabled] at hrun'
      have hready := (engine.matches_readReady key label flow.reader r writers).agree live
      exact hready.of_exec hrun.symm hrun'.symm

theorem writers_of_agree (hreader : engine.prepareReader key live.context flow.reader = .ok r)
    (hwriters : engine.prepareWriters key live.context flow.writers = .error e)
    (h : Run.Agree (engine.readFlow key label flow)
      (engine.readFlow key label flow.withoutDisabled) live) :
    engine.prepareWriters key live.context flow.withoutDisabled.writers = .error e := by
  have hreader' : engine.prepareReader key live.context flow.withoutDisabled.reader = .ok r :=
    hreader
  have hrun := readFlow_exec engine key label flow live
  have hrun' := readFlow_exec engine key label flow.withoutDisabled live
  rw [hreader, hwriters] at hrun
  rw [hreader'] at hrun'
  cases henabled : engine.prepareWriters key live.context flow.withoutDisabled.writers with
  | error e' =>
    rw [henabled] at hrun'
    have hanswer := h.answer
    rw [hrun, hrun'] at hanswer
    cases hanswer
    rfl
  | ok writers =>
    -- without the disabled writers the flow makes a call, and with them it makes none
    rw [henabled] at hrun'
    have hacts := h.acts
    rw [hrun, hrun'] at hacts
    exact ((engine.callsFirst_readReady key label _ r writers).acts_ne live hacts.symm).elim

/-- **Disabled writers must exist.** A flow does the same without its disabled writers if and only
if these are not the ones because of which its writers can not be made ready. So it does whenever
each of them can be made ready; otherwise the flow ends with the error before it has done anything,
whatever its other writers are. -/
theorem disabled_harmless_iff (engine : Engine σ) (key label : String) (flow : ReadFlow)
    (live : Live σ) :
    (Run.Agree (engine.readFlow key label flow) (engine.readFlow key label flow.withoutDisabled)
        live ↔
      ∀ r e, engine.prepareReader key live.context flow.reader = .ok r →
        engine.prepareWriters key live.context flow.writers = .error e →
        engine.prepareWriters key live.context flow.withoutDisabled.writers = .error e) ∧
    ((∀ spec ∈ flow.writers, spec.settings.enabled = false →
        ∃ w, engine.prepareWriter key live.context spec.settings = .ok w) →
      Run.Agree (engine.readFlow key label flow) (engine.readFlow key label flow.withoutDisabled)
        live) ∧
    ∀ r e, engine.prepareReader key live.context flow.reader = .ok r →
      engine.prepareWriters key live.context flow.writers = .error e →
      (engine.readFlow key label flow).exec live = (.error (.error e), live) := by
  refine ⟨⟨fun h r e hreader hwriters => writers_of_agree hreader hwriters h, fun h => ?_⟩,
    fun h => ?_, fun r e hreader hwriters => ?_⟩
  · exact agree_of_writers h
  · exact agree_of_writers fun _ e _ hwriters => prepareWriters_enabled_error hwriters h
  · have hrun := readFlow_exec engine key label flow live
    rwa [hreader, hwriters] at hrun

/-- A flow that writes to a table, and has a disabled writer with the name of a component. -/
def sampleDisabled (component : String) : ReadFlow where
  id := "copy"
  desc := ""
  reader := { component := "numbers", mode := .allAtOnce }
  writers :=
    [.mk { component, enabled := false } none none, .mk { component := "table" } none none]

theorem disabled_harmless_iff_table :
    (∀ spec ∈ (sampleDisabled "table").writers, spec.settings.enabled = false →
      ∃ w, sampleReading.prepareWriter "p" sampleStart.context spec.settings = .ok w) ∧
    Run.Agree (sampleReading.readFlow "p" "copy" (sampleDisabled "table"))
      (sampleReading.readFlow "p" "copy" (sampleDisabled "table").withoutDisabled) sampleStart := by
  have hready : ∀ spec ∈ (sampleDisabled "table").writers, spec.settings.enabled = false →
      ∃ w, sampleReading.prepareWriter "p" sampleStart.context spec.settings = .ok w := by
    intro spec hmem henabled
    rcases List.mem_pair.mp hmem with rfl | rfl
    · exact ⟨_, by with_unfolding_all rfl⟩
    · cases henabled
  exact ⟨hready, (disabled_harmless_iff sampleReading "p" "copy" (sampleDisabled "table")
    sampleStart).2.1 hready⟩

/-- A disabled writer that does not exist ends the flow, which would end well without it. -/
theorem disabled_writer_ends_flow :
    (sampleReading.readFlow "p" "copy" (sampleDisabled "missing")).exec sampleStart =
      (.error (.error (.componentNotFound "missing")), sampleStart) ∧
    ((sampleReading.readFlow "p" "copy" (sampleDisabled "missing").withoutDisabled).exec
      sampleStart).1 = .ok () ∧
    ¬ Run.Agree (sampleReading.readFlow "p" "copy" (sampleDisabled "missing"))
      (sampleReading.readFlow "p" "copy" (sampleDisabled "missing").withoutDisabled)
      sampleStart := by
  have hwith : (sampleReading.readFlow "p" "copy" (sampleDisabled "missing")).exec sampleStart =
      (.error (.error (.componentNotFound "missing")), sampleStart) :=
    Prod.ext (by with_unfolding_all rfl) (by with_unfolding_all rfl)
  have hwithout : ((sampleReading.readFlow "p" "copy"
      (sampleDisabled "missing").withoutDisabled).exec sampleStart).1 = .ok () := by cbv
  refine ⟨hwith, hwithout, fun h => ?_⟩
  have hanswer := h.answer
  rw [hwith, hwithout] at hanswer
  cases hanswer

end Engine

end RowFlow
