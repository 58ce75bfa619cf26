import RowFlow.Proofs.Chronicle
import RowFlow.Proofs.Refusals

/-!
# What components do to the context

If every component of an engine changes the context as a relation says, then so does every call of a
component in a run (`Engine.moves_of_run`). A run calls the components that it has looked up, and no
others: the runnables of hooks, and the sinks that writers and the writer of dead letters have been
bound to. Readers can not change the context at all.
-/

namespace RowFlow

variable {σ ε ε' α β : Type} {R : Context → Context → Prop}

/-- Wherever the call is made, and however it ends, it takes the context as the relation says. -/
structure Act.Moves (R : Context → Context → Prop) (act : Act σ ε α) : Prop where
  exec : ∀ s, R s.context (act.exec s).2.context

structure Sink.Moves (R : Context → Context → Prop) (sink : Sink σ) : Prop where
  batch : ∀ action rows, (sink.batch action rows).Moves R
  row : ∀ action row, (sink.row action row).Moves R

/-- The calls of a component in any bound form take the context as the relation says. -/
def Component.Moves (R : Context → Context → Prop) : Component σ → Prop
  | .reader _ => True
  | .writer w => ∀ text format sink, w.bind text format = .ok sink → sink.Moves R
  | .runnable run => run.Moves R

/-- Whatever a name stands for in a pipeline takes the context as the relation says. -/
def Registry.Moves (R : Context → Context → Prop) (r : Registry σ) : Prop :=
  ∀ key name component, r.resolve key name = some component → component.Moves R

/-- If the entry is a call of a component, it has taken the context as the relation says. -/
def Entry.Moves (R : Context → Context → Prop) : Entry σ → Prop
  | .call what before after _ => what.isScript = false → R before.context after.context
  | _ => True

theorem Entry.IsFunctionCall.moves {entry : Entry σ} (h : entry.IsFunctionCall) :
    entry.Moves R := by
  cases entry with
  | call what =>
    cases what with
    | function => exact nofun
    | _ => cases h
  | _ => cases h

/-- No reader and no function of a script is given the context. -/
theorem CoversReading.moves [Std.Refl R] (spec : ReaderSpec) :
    CoversReading spec (Entry.Moves R : Entry σ → Prop) where
  function _ h := h.moves
  batchRead _ _ _ _ := trivial
  findOne _ _ _ _ h _ := h ▸ Std.Refl.refl _
  findAll _ _ _ _ h _ := h ▸ Std.Refl.refl _
  openBatches _ _ _ _ _ h _ := h ▸ Std.Refl.refl _
  nextBatch _ _ _ _ h _ := h ▸ Std.Refl.refl _
  closeBatches _ _ _ _ h _ := h ▸ Std.Refl.refl _

theorem Act.Moves.of_refl [Std.Refl R] {act : Act σ ε α}
    (h : ∀ s, (act.exec s).2.context = s.context) : act.Moves R :=
  ⟨fun s => h s ▸ Std.Refl.refl _⟩

theorem BoundWriter.moves_writeBatch [Std.Refl R] {w : BoundWriter σ} (h : w.sink.Moves R)
    (action : WriteAction) (rows : List Row) : (w.writeBatch action rows).Moves R := by
  unfold writeBatch
  split
  · exact h.batch action rows
  · exact .of_refl fun _ => rfl

theorem BoundWriter.moves_writeRow [Std.Refl R] {w : BoundWriter σ} (h : w.sink.Moves R)
    (action : WriteAction) (row : Row) : (w.writeRow action row).Moves R := by
  unfold writeRow
  split
  · exact h.row action row
  · exact .of_refl fun _ => rfl

namespace Run.Makes

/-- A call takes the context as its component does. -/
theorem act {what : Call} {act : Act σ ε α} (h : act.Moves R) :
    Makes (Entry.Moves R) (Run.call what act) := by
  refine ⟨fun s => ⟨_, _, _, ends_call what act, fun entry he => ?_⟩⟩
  cases List.mem_singleton.mp he
  exact fun _ => h.exec s

theorem moves_access [Std.Refl R] (what : Call) (call : Access σ ε α) :
    Makes (Entry.Moves R) (Run.access what call) :=
  .access fun _ _ _ hcontext _ => hcontext ▸ Std.Refl.refl _

end Run.Makes

namespace Engine

variable {engine : Engine σ} {key : String}

/-! ## Components that are ready -/

theorem moves_bound {w : Writer σ} (hw : (Component.writer w).Moves R)
    (h : (w.bound text format).mapError f = .ok bound) : bound.sink.Moves R := by
  obtain ⟨sink, hbind, rfl⟩ := map_ok_iff.mp (mapError_ok_iff.mp h)
  exact hw text format sink hbind

/-- A sink has been bound by a writer that stands in the registry. -/
theorem moves_prepareWriter (hmoves : engine.registry.Moves R)
    (h : engine.prepareWriter key ctx settings = .ok w) : w.writer.sink.Moves R := by
  obtain ⟨name, -, h⟩ := bind_ok_iff.mp h
  obtain ⟨writer, hfind, h⟩ := bind_ok_iff.mp h
  obtain ⟨text, -, h⟩ := bind_ok_iff.mp h
  obtain ⟨bound, hbound, h⟩ := bind_ok_iff.mp h
  have hw : w = ⟨⟨name, text⟩, bound⟩ := by
    change (if _ then _ else _) = _ at h
    split at h
    · cases h
    · cases h
      rfl
  subst hw
  unfold findWriter at hfind
  split at hfind
  · rename_i hresolve
    cases hfind
    exact moves_bound (hmoves _ _ _ hresolve) hbound
  · cases hfind
  · cases hfind

theorem moves_prepareDeadLetter (hmoves : engine.registry.Moves R)
    (h : engine.prepareDeadLetter key ctx = .ok (some d)) : d.writer.sink.Moves R := by
  unfold prepareDeadLetter at h
  dsimp only at h
  split at h
  · rename_i hresolve
    obtain ⟨text, -, h⟩ := bind_ok_iff.mp h
    obtain ⟨bound, hbound, h⟩ := bind_ok_iff.mp h
    cases h
    exact moves_bound (hmoves _ _ _ hresolve) hbound
  · cases h

/-- A hook runs a component that stands in the registry. -/
theorem moves_findRunnable {act : Act σ String Unit} (hmoves : engine.registry.Moves R)
    (h : engine.findRunnable key name = .ok act) : act.Moves R := by
  unfold findRunnable at h
  split at h
  · rename_i hresolve
    cases h
    exact hmoves _ _ _ hresolve
  · cases h
  · cases h

/-! ## Flows -/

theorem moves_readyWriter [Std.Refl R] {w : ReadyWriter σ} (h : w.writer.sink.Moves R) :
    w.Makes (Entry.Moves R) where
  batch action rows := .act (BoundWriter.moves_writeBatch h action rows)
  row action row := .act (BoundWriter.moves_writeRow h action row)

/-- A flow calls sinks that have been bound by writers of the registry, and no others. -/
theorem CoversWriting.moves [Std.Refl R] (hmoves : engine.registry.Moves R) (key : String) :
    CoversWriting engine key (Entry.Moves R) where
  skipped _ _ := trivial
  rowsWritten _ _ _ := trivial
  recordsFailed _ _ := trivial
  writer h := moves_readyWriter (moves_prepareWriter hmoves h)
  deadLetter h _ := .act (BoundWriter.moves_writeBatch (moves_prepareDeadLetter hmoves h) _ _)

theorem moves_readFlow [Std.Refl R] (hmoves : engine.registry.Moves R) (key label : String)
    (flow : ReadFlow) : (engine.readFlow key label flow).Makes (Entry.Moves R) :=
  makes_readFlow (.moves flow.reader) (.moves hmoves key) label

/-! ## Runs -/

theorem moves_carryOut [Std.Refl R] (hmoves : engine.registry.Moves R) (stage : Stage) :
    (engine.carryOut stage).Makes (Entry.Moves R) := by
  cases stage with
  | set =>
    exact .bind (.nothing fun _ => Run.ends_modifyContext _) fun _ => .emit trivial
  | inlineScript =>
    refine .bind (.begin trivial) fun _ => .bind .context fun ctx => .bind (.ofExcept _) fun _ => ?_
    exact .mapError (.moves_access _ _) _
  | runnable =>
    refine .bind (.begin trivial) fun _ => .bind .context fun ctx => .bind (.ofExcept _) fun _ => ?_
    exact .ofExcept_bind fun run hrun => .mapError (.act (moves_findRunnable hmoves hrun)) _
  | scriptCall =>
    exact .bind (.begin trivial) fun _ => .bind (.mapError (.moves_access _ _) _) fun _ => .pure ()
  | read key flow =>
    refine .bind .context fun ctx => ?_
    refine .bind (.begin trivial) fun _ => .bind (.emit trivial) fun _ => ?_
    exact .mapError (moves_readFlow hmoves key _ flow) _
  | trigger =>
    refine .bind .context fun ctx => ?_
    refine .bind (.begin trivial) fun _ => .bind (.emit trivial) fun _ => ?_
    exact .mapError (.bind (.ofExcept _) fun _ => .pure ()) _
  | merge params =>
    rw [carryOut]
    exact .nothing fun _ => Run.ends_modifyContext _

/-- If all components change the context as the relation says, then so do all calls of a run. -/
theorem moves_of_run [Std.Refl R] {given : Option (List Row)} (hmoves : engine.registry.Moves R)
    (h : (engine.run runId key given).Ends s es answer t) : ∀ entry ∈ es, entry.Moves R := by
  refine makes_of_run (fun _ => trivial) (fun _ hcall => hcall.moves) ?_ h
  exact fun _ _ _ stage _ => moves_carryOut hmoves stage

end Engine

end RowFlow
