import RowFlow.Proofs.RowFiles
import RowFlow.Proofs.Writes

/-!
# Rows that are handed over in variables

The writer of variables puts rows into a variable, and so does a flow that shows its rows in one.
The reader of variables gives them back, and a flow that reads them with it begins with these very
rows (`Engine.variable_hands_over`). In between the context may be rewritten in any way beside the
variable (`Context.RewrittenBeside`). There is one exception: the row without fields, when it has
been put there as a single row, is found when one row is asked for, but not when all are.
-/

namespace RowFlow

variable {σ : Type} {name : String} {ctx ctx' ctx'' : Context}

/-! ## Rewriting the context beside a variable -/

/-- The write leaves the variable of a name alone. -/
def Write.Spares (name : String) : Write → Prop
  | .set written _ => written ≠ name
  | .remove removed => removed ≠ name
  | .clear => False

theorem Write.Spares.gives {w : Write} (h : w.Spares name) : w.gives name = none := by
  cases w with
  | set written value => exact if_neg h
  | remove removed => exact if_neg h
  | clear => exact h.elim

namespace Context

/-- One context can be made of the other by writes to other variables than that of a name. To merge
parameters is to make such writes, if none of them has this name. -/
def RewrittenBeside (name : String) (ctx ctx' : Context) : Prop :=
  ∃ writes, (∀ w ∈ writes, Write.Spares name w) ∧ ctx' = ctx.writeAll writes

instance : Std.Refl (RewrittenBeside name) := ⟨fun _ => ⟨[], List.forall_mem_nil _, rfl⟩⟩

namespace RewrittenBeside

theorem trans (h : RewrittenBeside name ctx ctx') (h' : RewrittenBeside name ctx' ctx'') :
    RewrittenBeside name ctx ctx'' := by
  obtain ⟨writes, hwrites, rfl⟩ := h
  obtain ⟨more, hmore, rfl⟩ := h'
  refine ⟨writes ++ more, ?_, (writeAll_append ..).symm⟩
  simp only [List.forall_mem_append]
  exact ⟨hwrites, hmore⟩

theorem get?_eq (h : RewrittenBeside name ctx ctx') : ctx'.get? name = ctx.get? name := by
  obtain ⟨writes, hwrites, rfl⟩ := h
  induction writes generalizing ctx with
  | nil => rfl
  | cons w writes ih =>
    obtain ⟨hfirst, hrest⟩ := List.forall_mem_cons.mp hwrites
    calc (ctx.writeAll (w :: writes)).get? name
      _ = (ctx.write w).get? name := ih hrest
      _ = ctx.get? name := by rw [get?_write, hfirst.gives, Option.getD_none]

end RewrittenBeside

end Context

/-- What a mark of a run tells has been done beside the variable of a name. -/
def Mark.Spares (name : String) : Mark σ → Prop
  | .entry made => made.Moves (Context.RewrittenBeside name)
  | .change made => ∀ w ∈ made.writes, w.Spares name

/-- If all marks between two points of a run tell what is done beside the variable, then between
these points the context is rewritten beside it. -/
theorem Threaded.rewrittenBeside {marks : List (Mark σ)} (h : Threaded ctx marks ctx')
    (hmarks : ∀ mark ∈ marks, mark.Spares name) : ctx.RewrittenBeside name ctx' := by
  induction h with
  | nil => exact Std.Refl.refl _
  | step _ ih | event _ ih => exact ih (List.forall_mem_cons.mp hmarks).2
  | @call _ _ _ what before after _ hbefore hscript _ ih =>
    obtain ⟨hcall, hrest⟩ := List.forall_mem_cons.mp hmarks
    subst hbefore
    -- nothing is asked of scripts, which leave the context alone
    have hfirst : before.context.RewrittenBeside name after.context := by
      cases hwhat : what.isScript with
      | true => exact hscript hwhat ▸ Std.Refl.refl _
      | false => exact hcall hwhat
    exact hfirst.trans (ih hrest)
  | @change _ _ ctx change _ ih =>
    obtain ⟨hchange, hrest⟩ := List.forall_mem_cons.mp hmarks
    have hfirst : ctx.RewrittenBeside name (ctx.after change) :=
      ⟨change.writes, hchange, ctx.after_eq_writeAll change⟩
    exact hfirst.trans (ih hrest)

/-! ## What a variable holds -/

/-- What a variable holds: rows, or a single row. -/
inductive Held where
  | rows (rows : List Row)
  | row (row : Row)

namespace Held

/-- How the context stores it. -/
def value : Held → Value
  | .rows given => .ofRows given
  | .row given => .object given

/-- What is found when one row is asked for. -/
def first? : Held → Option Row
  | .rows given => given.head?
  | .row given => some given

/-- What is found when all rows are asked for. A single row without fields counts as none. -/
def all : Held → List Row
  | .rows given => given
  | .row [] => []
  | .row (field :: fields) => [field :: fields]

theorem get?_set (ctx : Context) (name : String) (held : Held) :
    (ctx.set name held.value).get? name = some held.value := by
  have hvalue : held.value ≠ .null := by cases held <;> nofun
  rw [Context.get?_set ctx hvalue, if_pos rfl]

end Held

namespace Builtin

variable {held : Held}

theorem variableRow_held (h : ctx.get? name = some held.value) :
    variableRow name ctx = .ok held.first? := by
  unfold variableRow
  rw [h]
  cases held with
  | rows rows => cases rows <;> rfl
  | row row => rfl

theorem variableRows_held (h : ctx.get? name = some held.value) :
    variableRows name ctx = .ok held.all := by
  unfold variableRows
  rw [h]
  cases held with
  | rows rows => exact congrArg (Except.mapError _) (rowsOfValue_ofRows rows)
  | row row => cases row <;> rfl

end Builtin

namespace Engine

open Builtin (variableReader variableWriter)

variable {engine : Engine σ} {key label : String} {held : Held}

/-- A flow that reads all rows, and whose reader answers some, goes on with these. -/
theorem readFlow_ends_iff {flow : ReadFlow} {writers : List (WriterSpec × ReadyWriter σ)}
    (hmode : flow.reader.mode = .allAtOnce)
    (hprepared : Prepared engine key flow s.context r writers)
    (hfound : (r.reader.findAll s.context).exec s.world = (.ok found, world)) :
    (engine.readFlow key label flow).Ends s es answer t ↔
      ∃ rest, es = .call (.findAll r.target) s { s with world } true :: rest ∧
        (do
          let rows ← engine.transform flow.reader found
          capture flow.reader (.ofRows rows)
          engine.writeAll key writers rows).Ends { s with world } rest answer t := by
  have hcall := (Run.ends_access_of_exec (.findAll r.target) hfound).mapError
    (EngineError.reader r.target.name)
  have hread : engine.readReady key label flow.reader r writers =
      engine.readAll key flow.reader r writers := by rw [readReady, hmode]
  rw [hprepared.readFlow_iff, hread, readAll, Run.ends_context.bind_silent_iff]
  refine hcall.bind_iff.trans (exists_congr fun rest => ?_)
  exact and_comm

/-- The reader of a flow is the reader of variables, and is given the name of a variable. -/
structure ReadsVariable (engine : Engine σ) (key : String) (spec : ReaderSpec) (ctx : Context)
    (component name : String) : Prop where
  named : ctx.render spec.component = .ok component
  found : engine.findReader key component = .ok variableReader
  instructed : ctx.renderOption spec.instruction = .ok (some name)

/-- In a context a variable gives back what it holds. The reader of variables answers it in any
world, which it leaves as it is. A flow that reads all rows with it asks once, and goes on as if
these rows had been given to it: it transforms them, shows them and writes them. -/
structure GivesBack (engine : Engine σ) (name : String) (held : Held) (ctx : Context) : Prop where
  reader : ∀ format, ∃ r : BoundReader σ, variableReader.bind (some name) format = .ok r ∧
    ∀ world, (r.findOne ctx).exec world = (.ok held.first?, world) ∧
      (r.findAll ctx).exec world = (.ok held.all, world)
  flow : ∀ key label (flow : ReadFlow) component writers (s : Site σ) es answer t,
    s.context = ctx → flow.reader.mode = .allAtOnce →
    engine.ReadsVariable key flow.reader ctx component name →
    engine.prepareWriters key ctx flow.writers = .ok writers →
    ((engine.readFlow key label flow).Ends s es answer t ↔
      ∃ rest, es = .call (.findAll ⟨component, some name⟩) s s true :: rest ∧
        (do
          let rows ← engine.transform flow.reader held.all
          capture flow.reader (.ofRows rows)
          engine.writeAll key writers rows).Ends s rest answer t)

theorem GivesBack.of_get? (h : ctx.get? name = some held.value) :
    engine.GivesBack name held ctx := by
  have hreader (format : InstructionFormat) : ∃ r : BoundReader σ,
      variableReader.bind (some name) format = .ok r ∧
        ∀ world, (r.findOne ctx).exec world = (.ok held.first?, world) ∧
          (r.findAll ctx).exec world = (.ok held.all, world) := by
    refine ⟨_, rfl, fun world => ⟨?_, ?_⟩⟩
    · exact congrArg (fun result => (result.mapError Failure.error, world))
        (Builtin.variableRow_held h)
    · exact congrArg (fun result => (result.mapError Failure.error, world))
        (Builtin.variableRows_held h)
  refine ⟨hreader, ?_⟩
  rintro key label flow component writers s es answer t rfl hmode hreads hwriters
  obtain ⟨r, hbind, hanswers⟩ := hreader flow.reader.format
  have hprepare : engine.prepareReader key s.context flow.reader =
      .ok ⟨⟨component, some name⟩, r⟩ := by
    refine bind_ok_iff.mpr ⟨component, hreads.named, bind_ok_iff.mpr ⟨_, hreads.found, ?_⟩⟩
    refine bind_ok_iff.mpr ⟨some name, hreads.instructed, bind_ok_iff.mpr ⟨r, ?_, rfl⟩⟩
    rw [hbind]
    rfl
  exact readFlow_ends_iff hmode ⟨hprepare, hwriters⟩ (hanswers s.world).2

/-- From a context on a variable gives back what it holds, whatever is done to the context beside
it. -/
def HandsOn (engine : Engine σ) (name : String) (held : Held) (ctx : Context) : Prop :=
  ∀ ctx', ctx.RewrittenBeside name ctx' → engine.GivesBack name held ctx'

theorem HandsOn.of_get? (h : ctx.get? name = some held.value) :
    engine.HandsOn name held ctx :=
  fun _ hbeside => .of_get? (hbeside.get?_eq.trans h)

/-- What is done beside a variable in a run does not keep it from giving back what it holds. -/
theorem HandsOn.threaded {marks : List (Mark σ)} (h : engine.HandsOn name held ctx)
    (hthreaded : Threaded ctx marks ctx') (hmarks : ∀ mark ∈ marks, mark.Spares name) :
    engine.HandsOn name held ctx' :=
  fun _ hbeside => h _ ((hthreaded.rewrittenBeside hmarks).trans hbeside)

/-- A flow that shows its rows in a variable hands them on with it, if its writers leave the
variable alone. -/
theorem HandsOn.of_present {spec : ReaderSpec}
    (hcaptures : captures spec rows = [.capture name held.value])
    (h : (engine.present key spec writers rows).Ends s es answer t)
    (hmoves : ∀ entry ∈ es, entry.Moves (Context.RewrittenBeside name)) :
    engine.HandsOn name held t.context := by
  obtain ⟨htells, -⟩ := tells_present h
  rw [hcaptures] at htells
  cases htells.threaded with
  | change hrest =>
    -- the rows are shown before the writers are called, so all that is left is their calls
    have hshown : engine.HandsOn name held (s.context.set name held.value) :=
      .of_get? (held.get?_set s.context name)
    refine hshown.threaded hrest fun mark hmark => ?_
    obtain ⟨entry, hentry, rfl⟩ := List.mem_map.mp hmark
    exact hmoves entry hentry

/-- How a variable comes to hold rows. The writer of variables puts rows, or a row, into it, and
never fails. A flow that reads all rows, or one, shows those that are left of them once it has
transformed them; its writers are called after that, and have to leave the variable alone. How the
flow ends makes no difference. -/
structure HandsOver (engine : Engine σ) (name : String) : Prop where
  batch : ∀ format rows (s : Site σ), ∃ w t,
    variableWriter.bound (some name) format = .ok w ∧
    (w.writeBatch .create rows).exec s = (.ok (), t) ∧ t.world = s.world ∧
    engine.HandsOn name (.rows rows) t.context
  row : ∀ format row (s : Site σ), ∃ w t,
    variableWriter.bound (some name) format = .ok w ∧
    (w.writeRow .create row).exec s = (.ok (), t) ∧ t.world = s.world ∧
    engine.HandsOn name (.row row) t.context
  flow : ∀ key label (flow : ReadFlow) r writers s found u rows es answer t,
    flow.reader.capture = some name → flow.reader.mode = .allAtOnce →
    Prepared engine key flow s.context r writers →
    (engine.fetch flow.reader r).Ends s found (.ok rows) u →
    (engine.readFlow key label flow).Ends s es answer t →
    (∀ entry ∈ es, entry.Moves (Context.RewrittenBeside name)) →
    engine.HandsOn name (.rows rows) t.context
  flowOfOne : ∀ key label (flow : ReadFlow) r writers s found u row more es answer t,
    flow.reader.capture = some name → flow.reader.mode = .one →
    Prepared engine key flow s.context r writers →
    (engine.fetch flow.reader r).Ends s found (.ok (row :: more)) u →
    (engine.readFlow key label flow).Ends s es answer t →
    (∀ entry ∈ es, entry.Moves (Context.RewrittenBeside name)) →
    engine.HandsOn name (.row row) t.context

/-- A flow that does not read in batches goes on as its rows require, once it has them. -/
theorem present_of_readFlow {flow : ReadFlow} {writers : List (WriterSpec × ReadyWriter σ)}
    (hmode : flow.reader.mode ≠ .batched)
    (hprepared : Prepared engine key flow s.context r writers)
    (hfetch : (engine.fetch flow.reader r).Ends s es₁ (.ok rows) u)
    (h : (engine.readFlow key label flow).Ends s es answer t) :
    ∃ es₂, (engine.present key flow.reader writers rows).Ends u es₂ answer t ∧ es = es₁ ++ es₂ := by
  rw [hprepared.readFlow_iff, readReady] at h
  cases hcase : flow.reader.mode with
  | one =>
    rw [hcase] at h
    exact hfetch.bind_iff.mp (readOne_fetch hcase ▸ h)
  | allAtOnce =>
    rw [hcase] at h
    exact hfetch.bind_iff.mp (readAll_fetch hcase ▸ h)
  | batched => exact (hmode hcase).elim

/-- A flow that shows its rows in a variable hands them on with it. -/
theorem HandsOn.of_readFlow {flow : ReadFlow} {writers : List (WriterSpec × ReadyWriter σ)}
    (hmode : flow.reader.mode ≠ .batched)
    (hcaptures : captures flow.reader rows = [.capture name held.value])
    (hprepared : Prepared engine key flow s.context r writers)
    (hfetch : (engine.fetch flow.reader r).Ends s es₁ (.ok rows) u)
    (h : (engine.readFlow key label flow).Ends s es answer t)
    (hmoves : ∀ entry ∈ es, entry.Moves (Context.RewrittenBeside name)) :
    engine.HandsOn name held t.context := by
  obtain ⟨es₂, hpresent, rfl⟩ := present_of_readFlow hmode hprepared hfetch h
  refine .of_present hcaptures hpresent fun entry hentry => ?_
  exact hmoves entry (List.mem_append_right _ hentry)

/-- **Variables hand rows over without loss.** Whatever a writer of variables, or a flow that shows
its rows, has put into a variable is given back by it, to the reader of variables and to a flow that
reads all rows with this reader, until a write has to do with the variable. This goes for no rows,
for rows without fields and for fields of any kind. -/
theorem variable_hands_over (engine : Engine σ) (name : String) : engine.HandsOver name := by
  have hset (s : Site σ) (held : Held) :
      engine.HandsOn name held (s.context.set name held.value) :=
    .of_get? (held.get?_set s.context name)
  constructor
  case batch =>
    intro format rows s
    exact ⟨_, _, rfl, rfl, rfl, hset s (.rows rows)⟩
  case row =>
    intro format row s
    exact ⟨_, _, rfl, rfl, rfl, hset s (.row row)⟩
  case flow =>
    intro key label flow r writers s es₁ u rows es answer t hcapture hmode hprepared hfetch h hmoves
    have hcaptures : captures flow.reader rows = [.capture name (.ofRows rows)] := by
      simp [captures, captured, hmode, hcapture]
    exact .of_readFlow (by simp [hmode]) hcaptures hprepared hfetch h hmoves
  case flowOfOne =>
    intro key label flow r writers s es₁ u row more es answer t hcapture hmode hprepared hfetch h
      hmoves
    have hcaptures : captures flow.reader (row :: more) = [.capture name (.object row)] := by
      simp [captures, captured, hmode, hcapture]
    exact .of_readFlow (by simp [hmode]) hcaptures hprepared hfetch h hmoves

/-- A flow that shows the rows that it copies. -/
def sampleShowing : ReadFlow :=
  { sampleCopying with reader := { sampleCopying.reader with capture := some "shown" } }

/-- A flow that reads the rows that the other one has shown. -/
def sampleReplaying : ReadFlow :=
  { sampleCopying with reader := { sampleCopying.reader with instruction := some "shown" } }

/-- A site with a variable that holds two rows, one of them without fields. -/
def sampleHolding : Site Unit where
  context := Context.empty.set "rows" (.ofRows sampleRows)
  world := { state := () }

/-- The rows as they have been shown: what is in the context has been put into them. -/
def sampleShown : List Row := sampleRows.map (·.overlay sampleHolding.context)

theorem variable_hands_over_shown :
    ∃ es t,
      (sampleVariables.readFlow "copy" "copy" sampleShowing).Ends sampleHolding es (.ok ()) t ∧
      sampleVariables.HandsOn "shown" (.rows sampleShown) t.context ∧
      ∀ es' answer u,
        (sampleVariables.readFlow "copy" "copy" sampleReplaying).Ends t es' answer u →
        ∃ rest, es' = .call (.findAll ⟨"flowVariableReader", some "shown"⟩) t t true :: rest := by
  let shown := { sampleHolding with
    context := sampleHolding.context.set "shown" (.ofRows sampleShown) }
  let kept := { shown with context := shown.context.set "kept" (.ofRows sampleShown) }
  let asked : Entry Unit :=
    .call (.findAll ⟨"flowVariableReader", some "rows"⟩) sampleHolding sampleHolding true
  let es : List (Entry Unit) :=
    [asked,
      .call (.writeBatch ⟨"flowVariableWriter", some "kept"⟩ .create sampleShown) shown kept true,
      .event (.rowsWritten "copy" "flowVariableWriter" .create 2)]
  have hends : (sampleVariables.readFlow "copy" "copy" sampleShowing).Ends sampleHolding es
      (.ok ()) kept := ⟨fun journal => by dsimp only [es, asked, shown, kept]; cbv⟩
  have hprepared : Prepared sampleVariables "copy" sampleShowing sampleHolding.context _ _ :=
    ⟨by cbv, by cbv⟩
  have hmoves : ∀ entry ∈ es, entry.Moves (Context.RewrittenBeside "shown") := by
    intro entry hmem
    simp only [es, List.mem_cons, List.not_mem_nil, or_false] at hmem
    rcases hmem with rfl | rfl | rfl
    · exact fun _ => Std.Refl.refl _
    · exact fun _ => ⟨[.set "kept" (.ofRows sampleShown)], by simp [Write.Spares], rfl⟩
    · trivial
  have hhands : sampleVariables.HandsOn "shown" (.rows sampleShown) kept.context :=
    (variable_hands_over sampleVariables "shown").flow "copy" "copy" sampleShowing _ _ sampleHolding
      [asked] sampleHolding _ _ _ _ rfl rfl hprepared ⟨fun journal => by cbv⟩ hends hmoves
  have hreads : sampleVariables.ReadsVariable "copy" sampleReplaying.reader kept.context
      "flowVariableReader" "shown" := ⟨by cbv, rfl, by cbv⟩
  obtain ⟨writers, hwriters⟩ : ∃ writers,
      sampleVariables.prepareWriters "copy" kept.context sampleReplaying.writers = .ok writers :=
    ⟨_, by cbv⟩
  refine ⟨es, kept, hends, hhands, fun es' answer u h => ?_⟩
  obtain ⟨rest, hes, -⟩ := ((hhands _ (Std.Refl.refl _)).flow "copy" "copy" sampleReplaying _ _ kept
    es' answer u rfl rfl hreads hwriters).mp h
  exact ⟨rest, hes⟩

end Engine

end RowFlow
