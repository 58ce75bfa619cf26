import RowFlow.Component.Builtin
import RowFlow.Proofs.Burials
import RowFlow.Proofs.Conduct
import RowFlow.Proofs.Dictionaries
import RowFlow.Proofs.Variables

/-!
# The context as the outcome of writes

A variable is set, which removes it if the value is null, or removed, or all variables are removed
at once. If the components of an engine change the context by such writes only, then at every point
of a run the context is what all writes up to there have made of the empty one, in order: those of
the engine, which are the variables of parameter sets, triggers, batches and flows that show their
rows, and those of the components (`Written`). So no variable is ever null
(`Engine.run_never_null`).
-/

namespace RowFlow

variable {σ ε α : Type}

inductive Write where
  | set (name : String) (value : Value)
  | remove (name : String)
  | clear

namespace Write

/-- What is stored under a name from a write on, if the write has to do with it. -/
def gives (name : String) : Write → Option (Option Value)
  | .set written value => Context.gives name (written, value)
  | .remove removed => if removed = name then some none else none
  | .clear => some none

/-- Whether the write is to the variable of a name, and to no other. -/
def concerns (name : String) : Write → Bool
  | .set written _ => written = name
  | .remove removed => removed = name
  | .clear => false

end Write

namespace Context

def write (ctx : Context) : Write → Context
  | .set name value => ctx.set name value
  | .remove name => ctx.remove name
  | .clear => .empty

def writeAll (ctx : Context) (writes : List Write) : Context := writes.foldl write ctx

/-- One context can be made of the other by writes. -/
def Rewritten (ctx ctx' : Context) : Prop := ∃ writes, ctx' = ctx.writeAll writes

instance : Std.Refl Rewritten := ⟨fun _ => ⟨[], rfl⟩⟩

theorem writeAll_append (ctx : Context) (writes more : List Write) :
    ctx.writeAll (writes ++ more) = (ctx.writeAll writes).writeAll more :=
  List.foldl_append

theorem get?_write (ctx : Context) (w : Write) (name : String) :
    (ctx.write w).get? name = (w.gives name).getD (ctx.get? name) := by
  cases w with
  | set written value => exact ctx.get?_set_eq (written, value) name
  | remove removed =>
    rw [write, get?_remove, Write.gives]
    split <;> rfl
  | clear => rfl

/-- The last write that has to do with a variable decides. -/
theorem get?_writeAll (ctx : Context) (writes : List Write) (name : String) :
    (ctx.writeAll writes).get? name =
      (lastGiven (Write.gives name) writes).getD (ctx.get? name) :=
  lastGiven_foldl (get? · name) (fun ctx w => ctx.get?_write w name) ctx writes

/-! ## Contexts without null -/

theorem remove_of_get?_eq_none {ctx : Context} (h : ctx.get? name = none) :
    ctx.remove name = ctx :=
  congrArg Context.mk (Dict.erase_of_find?_eq_none h)

/-- The variables are in order, and none of them is null. -/
structure NullFree (ctx : Context) : Prop where
  ordered : ctx.bindings.Ordered
  ne_null : ∀ entry ∈ ctx.bindings, entry.2 ≠ .null

namespace NullFree

variable {ctx : Context}

theorem empty : NullFree .empty := ⟨List.Pairwise.nil, List.forall_mem_nil _⟩

theorem remove (h : ctx.NullFree) (name : String) : (ctx.remove name).NullFree :=
  ⟨h.ordered.erase name, fun entry hmem => h.ne_null entry (List.mem_of_mem_filter hmem)⟩

theorem insert (h : ctx.NullFree) (name : String) {value : Value} (hvalue : value ≠ .null) :
    NullFree ⟨ctx.bindings.insert name value⟩ := by
  refine ⟨h.ordered.insert name value, fun entry hmem => ?_⟩
  rcases Dict.mem_insert hmem with rfl | hmem
  · exact hvalue
  · exact h.ne_null entry hmem

theorem set (h : ctx.NullFree) (name : String) (value : Value) : (ctx.set name value).NullFree := by
  cases value with
  | null => exact h.remove name
  | _ => exact h.insert name nofun

theorem write (h : ctx.NullFree) (w : Write) : (ctx.write w).NullFree := by
  cases w with
  | set name value => exact h.set name value
  | remove name => exact h.remove name
  | clear => exact empty

theorem writeAll (h : ctx.NullFree) (writes : List Write) : (ctx.writeAll writes).NullFree := by
  induction writes generalizing ctx with
  | nil => exact h
  | cons w writes ih => exact ih (h.write w)

/-- A field that is null once the variables have been put into a row has been null in the row, and
no variable has its name. -/
theorem overlay (h : ctx.NullFree) {row : Row}
    (hfield : (row.overlay ctx).find? field = some .null) :
    row.find? field = some .null ∧ ctx.get? field = none := by
  rcases Dict.find?_insertAll hfield with hmem | ⟨hnone, hrow⟩
  · exact (h.ne_null _ hmem rfl).elim
  · exact ⟨hrow, Dict.find?_eq_none_iff.mpr hnone⟩

/-! ## Variables that are not there -/

theorem remove_set (h : ctx.NullFree) (written : String) (value : Value) (name : String) :
    (ctx.set written value).remove name =
      if written = name then ctx.remove name else (ctx.remove name).set written value := by
  by_cases heq : written = name
  · subst heq
    rw [if_pos rfl]
    cases value with
    | null => exact remove_of_get?_eq_none (by rw [set_null, get?_remove, if_pos rfl])
    | _ => exact congrArg Context.mk (Dict.erase_insert_self ..)
  · rw [if_neg heq]
    cases value with
    | null => exact congrArg Context.mk (Dict.erase_comm ..)
    | _ => exact congrArg Context.mk (h.ordered.erase_insert heq _)

theorem remove_write (h : ctx.NullFree) (w : Write) (name : String) :
    (ctx.write w).remove name =
      if w.concerns name then ctx.remove name else (ctx.remove name).write w := by
  cases w with
  | set written value => simpa [Write.concerns, Context.write] using h.remove_set written value name
  | remove removed =>
    simpa [Write.concerns, Context.write, set_null] using h.remove_set removed .null name
  | clear => rfl

/-- But for the variable itself, writes do the same as without those to the variable. -/
theorem remove_writeAll (h : ctx.NullFree) (writes : List Write) (name : String) :
    (ctx.writeAll writes).remove name =
      (ctx.remove name).writeAll (writes.filter fun w => !w.concerns name) := by
  induction writes generalizing ctx with
  | nil => rfl
  | cons w writes ih =>
    have hrest := ih (h.write w)
    rw [remove_write h] at hrest
    cases hconcerns : w.concerns name with
    | true =>
      rw [List.filter_cons_of_neg (by simp [hconcerns])]
      rwa [if_pos hconcerns] at hrest
    | false =>
      rw [List.filter_cons_of_pos (by simp [hconcerns])]
      rwa [if_neg (by simp [hconcerns])] at hrest

end NullFree

/-- A variable that is not there is unknown to every placeholder that starts in it. -/
theorem evaluate_of_get?_eq_none {ctx : Context} (h : ctx.get? name = none)
    (hpath : Template.start? path = some name) :
    (Template.Expression.value path).evaluate ctx.bindings = .error (.unknownVariable path) ∧
    (Template.Expression.json path).evaluate ctx.bindings = .error (.unknownVariable path) := by
  have hlookup : Template.lookup path ctx.bindings = .error (.unknownVariable path) := by
    rcases hsegments : Template.segments path.toList with _ | ⟨_ | ⟨c, cs⟩, rest⟩
    all_goals simp only [Template.start?, hsegments] at hpath
    · cases hpath
    · cases hpath
    · cases hpath
      have hnone : ctx.bindings.find? (String.ofList (c :: cs)) = none := h
      simp only [Template.lookup, hsegments, hnone, Option.bind_none]
  exact ⟨congrArg (Except.map _) hlookup, congrArg (Except.map _) hlookup⟩

end Context

/-! ## The writes of a run -/

/-- The variables of a row, each set to its value. -/
def writesOf (row : Row) : List Write := row.map fun entry => .set entry.1 entry.2

/-- What a change of the engine writes. The context is cleared when a parameter set begins. -/
def Change.writes : Change → List Write
  | .set runId key params => .clear :: .set Context.runIdKey (.text runId) ::
      (writesOf params ++ [.set Context.pipelineKeyKey (.text key)])
  | .merge params => writesOf params
  | .batch index size =>
    [.set Context.batchIndexKey (.nat index), .set Context.batchSizeKey (.nat size)]
  | .capture name value => [.set name value]

theorem Context.merge_eq_writeAll (ctx : Context) (params : Row) :
    ctx.merge params = ctx.writeAll (writesOf params) := by
  rw [writeAll, writesOf, List.foldl_map]
  rfl

theorem Context.after_eq_writeAll (ctx : Context) (change : Change) :
    ctx.after change = ctx.writeAll change.writes := by
  cases change with
  | set runId key params =>
    have hwrites : (Change.set runId key params).writes =
        [.clear, .set runIdKey (.text runId)] ++
          (writesOf params ++ [.set pipelineKeyKey (.text key)]) := rfl
    rw [hwrites, writeAll_append, writeAll_append, ← merge_eq_writeAll]
    rfl
  | merge params => exact ctx.merge_eq_writeAll params
  | batch | capture => rfl

/-- The writes between the marks of a run, in order: those of the changes, and some for each call of
a component that make what it has left of what it was given. -/
inductive Written : List (Mark σ) → List Write → Prop
  | nil : Written [] []
  | step : Written marks writes → Written (.entry (.step begun) :: marks) writes
  | event : Written marks writes → Written (.entry (.event event) :: marks) writes
  | script : what.isScript → Written marks writes →
    Written (.entry (.call what before after ok) :: marks) writes
  | component : what.isScript = false → after.context = before.context.writeAll made →
    Written marks writes → Written (.entry (.call what before after ok) :: marks) (made ++ writes)
  | change {change : Change} : Written marks writes →
    Written (.change change :: marks) (change.writes ++ writes)

namespace Written

variable {ctx ctx' : Context} {marks : List (Mark σ)}

theorem exists_of_moves (h : ∀ entry ∈ entriesOf marks, entry.Moves Context.Rewritten) :
    ∃ writes, Written marks writes := by
  induction marks with
  | nil => exact ⟨[], .nil⟩
  | cons mark marks ih =>
    cases mark with
    | change change =>
      obtain ⟨writes, hwritten⟩ := ih h
      exact ⟨_, .change hwritten⟩
    | entry entry =>
      obtain ⟨hfirst, hrest⟩ := List.forall_mem_cons.mp h
      obtain ⟨writes, hwritten⟩ := ih hrest
      cases entry with
      | step => exact ⟨writes, .step hwritten⟩
      | event => exact ⟨writes, .event hwritten⟩
      | call what before after ok =>
        cases hscript : what.isScript with
        | true => exact ⟨writes, .script hscript hwritten⟩
        | false =>
          obtain ⟨made, hmade⟩ := hfirst hscript
          exact ⟨_, .component hscript hmade hwritten⟩

/-- The context is what the writes have made of it. -/
theorem eq_writeAll (h : Written marks writes) (hthreaded : Threaded ctx marks ctx') :
    ctx' = ctx.writeAll writes := by
  induction h generalizing ctx with
  | nil =>
    cases hthreaded
    rfl
  | step _ ih =>
    cases hthreaded with
    | step h => exact ih h
  | event _ ih =>
    cases hthreaded with
    | event h => exact ih h
  | script hscript _ ih =>
    cases hthreaded with
    | call _ hkept h => exact ih (hkept hscript ▸ h)
  | component _ hmade _ ih =>
    cases hthreaded with
    | call hbefore _ h =>
      rw [Context.writeAll_append, ← hbefore, ← hmade]
      exact ih h
  | change _ ih =>
    cases hthreaded with
    | change h =>
      rw [Context.writeAll_append, ← Context.after_eq_writeAll]
      exact ih h

end Written

/-- A context that is what writes have made of the empty one. The last write that has to do with a
variable decides what it is, and it is never null. What has been set to null is like what has never
been set: the context is the same without the writes to it, and placeholders do not know it. -/
structure Context.MadeBy (ctx : Context) (writes : List Write) : Prop where
  folded : ctx = Context.empty.writeAll writes
  last : ∀ name, ctx.get? name = (lastGiven (Write.gives name) writes).getD none
  ne_null : ∀ entry ∈ ctx.bindings, entry.2 ≠ .null
  overlay : ∀ (row : Row) field, (row.overlay ctx).find? field = some .null →
    row.find? field = some .null ∧ ctx.get? field = none
  unset : ∀ name, lastGiven (Write.gives name) writes = some none →
    ctx = Context.empty.writeAll (writes.filter fun w => !w.concerns name) ∧
    ∀ path, Template.start? path = some name →
      (Template.Expression.value path).evaluate ctx.bindings = .error (.unknownVariable path) ∧
      (Template.Expression.json path).evaluate ctx.bindings = .error (.unknownVariable path)

theorem Context.madeBy_writeAll (writes : List Write) :
    (Context.empty.writeAll writes).MadeBy writes := by
  have hfree : (Context.empty.writeAll writes).NullFree := NullFree.empty.writeAll writes
  have hlast (name : String) : (Context.empty.writeAll writes).get? name =
      (lastGiven (Write.gives name) writes).getD none := Context.empty.get?_writeAll writes name
  refine ⟨rfl, hlast, hfree.ne_null, fun row field => hfree.overlay, fun name hnull => ?_⟩
  have hnone : (Context.empty.writeAll writes).get? name = none := by
    rw [hlast, hnull, Option.getD_some]
  refine ⟨?_, fun path hpath => evaluate_of_get?_eq_none hnone hpath⟩
  have hremoved := NullFree.empty.remove_writeAll writes name
  rwa [remove_of_get?_eq_none hnone] at hremoved

/-! ## Components that are always there -/

theorem Registry.Moves.register {R : Context → Context → Prop} {r : Registry σ} (h : r.Moves R)
    {component : Component σ} (hcomponent : component.Moves R) (name : String) :
    (r.register name component).Moves R := by
  intro key other found hresolve
  have hbefore := h key other found
  have hglobals : (r.register name component).globals = r.globals.insert name component := rfl
  have hcomponents : (r.register name component).componentsOf = r.componentsOf := rfl
  unfold resolve at hbefore hresolve
  rw [hglobals, hcomponents] at hresolve
  cases hdeclared : key.bind fun key => (r.componentsOf key).find? other with
  | some own =>
    rw [hdeclared] at hbefore hresolve
    exact hbefore hresolve
  | none =>
    rw [hdeclared] at hbefore hresolve
    dsimp only at hbefore hresolve
    rw [Dict.find?_insert] at hresolve
    split at hresolve
    · cases hresolve
      exact hcomponent
    · exact hbefore hresolve

namespace Builtin

variable {s : Site σ}

theorem print_rows (action : WriteAction) (rows : List Row) :
    (Act.exec (rows.forM ((⟨print, print, print⟩ : RowCalls σ).row action)) s).2.context =
      s.context := by
  induction rows generalizing s with
  | nil => rfl
  | cons row rows ih => cases action <;> exact ih

/-- What a writer makes of its instruction, whatever this is, decides what it does. -/
theorem moves_of_sinks {R : Context → Context → Prop} {w : Writer σ} {sinkOf : α → Sink σ}
    {read : Option String → InstructionFormat → Except ReadError α}
    (hbind : ∀ text format, w.bind text format = (read text format).map sinkOf)
    (hsinks : ∀ instruction, (sinkOf instruction).Moves R) : (Component.writer w).Moves R := by
  intro text format sink hsink
  rw [hbind] at hsink
  obtain ⟨instruction, -, rfl⟩ := map_ok_iff.mp hsink
  exact hsinks instruction

theorem moves_console : (Component.writer (console (σ := σ))).Moves Context.Rewritten :=
  moves_of_sinks (fun _ _ => rfl) fun _ =>
    ⟨fun action rows => .of_refl fun _ => print_rows action rows, fun action row =>
      .of_refl fun _ => by cases action <;> rfl⟩

theorem moves_variableWriter :
    (Component.writer (variableWriter (σ := σ))).Moves Context.Rewritten :=
  moves_of_sinks (fun _ _ => rfl) fun key =>
    ⟨fun _ rows => ⟨fun _ => ⟨[.set key (.ofRows rows)], rfl⟩⟩, fun _ row =>
      ⟨fun _ => ⟨[.set key (.object row)], rfl⟩⟩⟩

/-- The components that are always there change the context by writes only. -/
theorem moves_addTo {r : Registry σ} (h : r.Moves Context.Rewritten) :
    (addTo r).Moves Context.Rewritten := by
  have hreader : (Component.reader (variableReader (σ := σ))).Moves Context.Rewritten := trivial
  exact ((h.register moves_console _).register hreader _).register moves_variableWriter _

end Builtin

namespace Engine

/-- **No variable is ever null.** If the components change the context by writes only, then at every
point of a run that begins with the empty context, and so at every call that it makes, the context
is what all writes up to there have made of the empty one, in order, with null deleting and anything
else overwriting. -/
theorem run_never_null (engine : Engine σ) (hwrites : engine.registry.Moves Context.Rewritten)
    (runId key : String) (given : Option (List Row)) (world : World σ)
    (journal : List (Entry σ)) :
    ∃ marks, ((engine.run runId key given).exec ⟨⟨.empty, world⟩, journal⟩).2.journal =
        (entriesOf marks).reverse ++ journal ∧
      RunChronicle engine runId key given ⟨.empty, world⟩ marks
        ((engine.run runId key given).exec ⟨⟨.empty, world⟩, journal⟩).1 ∧
      ∀ earlier later, marks = earlier ++ later → ∃ ctx writes,
        Threaded .empty earlier ctx ∧ Written earlier writes ∧ ctx.MadeBy writes ∧
        ∀ what s t ok rest, later = .entry (.call what s t ok) :: rest → s.context = ctx := by
  have hexec : (engine.run runId key given).exec ⟨⟨.empty, world⟩, journal⟩ = (_, _) := rfl
  obtain ⟨es, hends, hjournal⟩ := Run.ends_of_exec hexec
  obtain ⟨marks, htells, hchronicle⟩ := RunChronicle.of_run hends
  refine ⟨marks, htells.entries ▸ hjournal, hchronicle, fun earlier later hmarks => ?_⟩
  have hmoves : ∀ entry ∈ entriesOf earlier, entry.Moves Context.Rewritten := by
    intro entry hmem
    refine moves_of_run hwrites hends entry ?_
    rw [← htells.entries, hmarks, entriesOf_append]
    exact List.mem_append_left _ hmem
  obtain ⟨ctx, hearlier, hlater⟩ := (hmarks ▸ htells.threaded).split
  obtain ⟨writes, hwritten⟩ := Written.exists_of_moves hmoves
  have hfolded := hwritten.eq_writeAll hearlier
  refine ⟨ctx, writes, hearlier, hwritten, hfolded ▸ Context.madeBy_writeAll writes, ?_⟩
  rintro what s t ok rest rfl
  cases hlater with
  | call hbefore => exact hbefore

/-- A flow that reads the rows of one variable into another. -/
def sampleCopying : ReadFlow where
  id := "copy"
  desc := ""
  reader :=
    { component := "flowVariableReader", instruction := some "rows", mode := .allAtOnce }
  writers :=
    [.mk { component := "flowVariableWriter", instruction := some "kept" } none none]

def sampleVariables : Engine Unit :=
  { sampleEngine with
    pipelines := [("copy", samplePipeline "copy" [.read sampleCopying])]
    registry := Builtin.addTo {} }

/-- Another variable is set to null in the beginning. -/
def sampleSets : List Row := [[("rows", .list [.object [("id", .nat 1)]]), ("gone", .null)]]

theorem run_never_null_variables :
    sampleVariables.registry.Moves Context.Rewritten ∧
    ∃ live', (sampleVariables.run "r" "copy" (some sampleSets)).exec sampleStart = (.ok (), live') ∧
      (live'.context.get? "kept").isSome ∧ live'.context.get? "gone" = none ∧
      ∀ what s t ok, .call what s t ok ∈ live'.journal →
        ∀ entry ∈ s.context.bindings, entry.2 ≠ .null := by
  have hwrites : sampleVariables.registry.Moves Context.Rewritten := by
    refine Builtin.moves_addTo fun key name component hresolve => ?_
    cases key <;> cases hresolve
  obtain ⟨live', hrun, hkept, hgone⟩ : ∃ live',
      (sampleVariables.run "r" "copy" (some sampleSets)).exec sampleStart = (.ok (), live') ∧
        (live'.context.get? "kept").isSome ∧ live'.context.get? "gone" = none :=
    ⟨_, Prod.ext (by cbv) rfl, by cbv, by cbv⟩
  refine ⟨hwrites, live', hrun, hkept, hgone, fun what s t ok hcall => ?_⟩
  obtain ⟨marks, hjournal, -, hpoints⟩ :=
    run_never_null sampleVariables hwrites "r" "copy" (some sampleSets) sampleStart.world []
  change ((sampleVariables.run "r" "copy" (some sampleSets)).exec sampleStart).2.journal = _
    at hjournal
  rw [hrun] at hjournal
  rw [hjournal, List.append_nil, List.mem_reverse] at hcall
  obtain ⟨mark, hmark, hentry⟩ := List.mem_filterMap.mp hcall
  obtain ⟨earlier, later, rfl⟩ := List.append_of_mem hmark
  obtain ⟨ctx, writes, -, -, hmade, hat⟩ := hpoints earlier (mark :: later) rfl
  cases mark with
  | change => cases hentry
  | entry =>
    cases hentry
    exact hat what s t ok later rfl ▸ hmade.ne_null

end Engine

end RowFlow
