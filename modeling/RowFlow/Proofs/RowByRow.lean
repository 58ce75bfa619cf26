import RowFlow.Proofs.Cascade
import RowFlow.Proofs.Dictionaries
import RowFlow.Proofs.Transform

/-!
# Transforming row by row

If functions answer by their arguments alone, and no transformer takes all rows at once, then what
becomes of a list of rows is what becomes of its rows, one after another and up to the first that
fails (`Engine.transform_row_by_row`). A row that is kept takes every field from what it has been
transformed to, from the context, or from itself, in this order. A filter function is given the rows
that have been made, and its answer takes their place.
-/

namespace RowFlow

variable {σ ε ε' α α' β : Type}

/-! ## Lists of rows that are made one by one -/

/-- What is made of single items, one after another and up to the first that fails. -/
def oneByOne (f : α → Except ε (List β)) (items : List α) : Except ε (List β) :=
  (items.mapM f).map List.flatten

section
variable {f : α → Except ε (List β)}

theorem oneByOne_nil (f : α → Except ε (List β)) : oneByOne f [] = .ok [] := rfl

theorem oneByOne_cons (f : α → Except ε (List β)) (a : α) (items : List α) :
    oneByOne f (a :: items) = (f a).bind fun made => (oneByOne f items).map (made ++ ·) := by
  rw [oneByOne, oneByOne, List.mapM_cons]
  rcases f a with _ | _
  · rfl
  · rcases items.mapM f with _ | _ <;> rfl

theorem oneByOne_singleton (f : α → Except ε (List β)) (a : α) : oneByOne f [a] = f a := by
  rw [oneByOne_cons, oneByOne_nil]
  rcases f a with _ | made
  · rfl
  · exact congrArg Except.ok (List.append_nil made)

theorem oneByOne_map (f : α → Except ε (List β)) (g : α' → α) (items : List α') :
    oneByOne f (items.map g) = oneByOne (fun a => f (g a)) items := by
  rw [oneByOne, List.mapM_map]
  rfl

theorem oneByOne_ok (g : α → β) (items : List α) :
    (oneByOne (fun a => .ok [g a]) items : Except ε (List β)) = .ok (items.map g) := by
  induction items with
  | nil => rfl
  | cons a items ih =>
    rw [oneByOne_cons, ih]
    rfl

/-- What is made from some rows does not depend on those that come after. -/
theorem oneByOne_append (f : α → Except ε (List β)) (items items' : List α) :
    oneByOne f (items ++ items') =
      (oneByOne f items).bind fun made => (oneByOne f items').map (made ++ ·) := by
  rw [oneByOne, oneByOne, oneByOne, List.mapM_append]
  rcases items.mapM f with _ | made
  · rfl
  · rcases items'.mapM f with _ | made'
    · rfl
    · exact congrArg Except.ok List.flatten_append

theorem oneByOne_append_ok_iff :
    oneByOne f (items ++ items') = .ok made ↔
      ∃ first second, oneByOne f items = .ok first ∧ oneByOne f items' = .ok second ∧
        made = first ++ second := by
  rw [oneByOne_append]
  constructor
  · intro h
    rcases hfirst : oneByOne f items with _ | first
    · rw [hfirst] at h
      cases h
    · rcases hsecond : oneByOne f items' with _ | second
      · rw [hfirst, hsecond] at h
        cases h
      · rw [hfirst, hsecond] at h
        cases h
        exact ⟨first, second, rfl, rfl, rfl⟩
  · rintro ⟨first, second, hfirst, hsecond, rfl⟩
    rw [hfirst, hsecond]
    rfl

/-- The error is that of the first item that fails. -/
theorem oneByOne_error_iff :
    oneByOne f items = .error e ↔
      ∃ before a after, items = before ++ a :: after ∧ (∃ made, oneByOne f before = .ok made) ∧
        f a = .error e := by
  constructor
  · intro h
    induction items with
    | nil => cases h
    | cons a items ih =>
      rw [oneByOne_cons] at h
      rcases ha : f a with fault | made
      · rw [ha] at h
        cases h
        exact ⟨[], a, items, rfl, ⟨[], rfl⟩, ha⟩
      · rw [ha] at h
        rcases hrest : oneByOne f items with fault | made'
        · rw [hrest] at h
          cases h
          obtain ⟨before, b, after, rfl, ⟨others, hbefore⟩, hb⟩ := ih hrest
          refine ⟨a :: before, b, after, rfl, ⟨made ++ others, ?_⟩, hb⟩
          rw [oneByOne_cons, ha, hbefore]
          rfl
        · rw [hrest] at h
          cases h
  · rintro ⟨before, a, after, rfl, ⟨made, hbefore⟩, ha⟩
    rw [oneByOne_append, hbefore, oneByOne_cons, ha]
    rfl

end

/-! ## Rows that take their fields from others -/

/-- A row takes every field from the first of several rows that has it. -/
structure Row.TakesFrom (row : Row) (rows : List Row) : Prop where
  ordered : Dict.Ordered row
  find? : ∀ name, Dict.find? row name = rows.findSome? (Dict.find? · name)

namespace Row

variable {row transformed : Row} {rows : List Row}

theorem TakesFrom.self (h : Dict.Ordered row) : row.TakesFrom [row] where
  ordered := h
  find? name := by
    rw [List.findSome?_cons]
    cases Dict.find? row name <;> rfl

/-- A field that is inserted hides the one of the same name. -/
theorem TakesFrom.insertAll (h : row.TakesFrom rows) (hentries : Dict.Ordered transformed) :
    TakesFrom (Dict.insertAll row transformed) (transformed :: rows) where
  ordered := h.ordered.insertAll transformed
  find? name := by
    rw [Dict.find?_insertAll_of_nodup hentries.nodup_keys, h.find?, List.findSome?_cons]
    cases Dict.find? transformed name <;> rfl

/-- The variables of a context win over the fields of a row. -/
theorem takesFrom_overlay (h : Dict.Ordered row) {ctx : Context} (hctx : ctx.bindings.Ordered) :
    (row.overlay ctx).TakesFrom [ctx.bindings, row] := (TakesFrom.self h).insertAll hctx

end Row

/-! ## Answers that depend on nothing but the context -/

namespace Run

/-- Begun in this context, the part gives the answer in every world, and it leaves the context as it
is. -/
def Gives (run : Run σ ε α) (ctx : Context) (answer : Except (Failure ε) α) : Prop :=
  ∀ live, live.context = ctx →
    (run.exec live).1 = answer ∧ (run.exec live).2.context = ctx

variable {run : Run σ ε α} {f : α → Run σ ε β} {answer : Except (Failure ε) α}

theorem Gives.of_ends (h : ∀ s : Site σ, s.context = ctx → run.Ends s [] answer s) :
    run.Gives ctx answer := by
  intro live hlive
  rw [(h live.toSite hlive).exec live.journal]
  exact ⟨rfl, hlive⟩

theorem gives_pure (ctx : Context) (a : α) : (pure a : Run σ ε α).Gives ctx (.ok a) :=
  .of_ends fun _ _ => ends_pure a

theorem gives_context (ctx : Context) : (context : Run σ ε Context).Gives ctx (.ok ctx) :=
  .of_ends fun _ hs => hs ▸ ends_context

theorem gives_ofExcept (ctx : Context) (x : Except ε α) :
    (ofExcept x : Run σ ε α).Gives ctx (x.mapError .error) :=
  .of_ends fun _ _ => ends_ofExcept x

theorem Gives.bind_ok {a : α} {answer : Except (Failure ε) β} (h : run.Gives ctx (.ok a))
    (h' : (f a).Gives ctx answer) : (run >>= f).Gives ctx answer := by
  intro live hlive
  obtain ⟨hanswer, hcontext⟩ := h live hlive
  rw [exec_bind_of_ok (Prod.ext hanswer rfl)]
  exact h' _ hcontext

theorem Gives.bind_error {e : Failure ε} (h : run.Gives ctx (.error e)) :
    (run >>= f).Gives ctx (.error e) := by
  intro live hlive
  obtain ⟨hanswer, hcontext⟩ := h live hlive
  rw [exec_bind_of_error (Prod.ext hanswer rfl)]
  exact ⟨rfl, hcontext⟩

/-- The answers of parts in sequence are put in sequence. -/
theorem Gives.bind {next : α → Except (Failure ε) β} (h : run.Gives ctx answer)
    (h' : ∀ a, (f a).Gives ctx (next a)) : (run >>= f).Gives ctx (answer.bind next) := by
  cases answer with
  | error e => exact h.bind_error
  | ok a => exact h.bind_ok (h' a)

theorem Gives.map (g : α → β) (h : run.Gives ctx answer) :
    (run >>= fun a => pure (g a)).Gives ctx (answer.map g) := by
  have hbind : (run >>= fun a => pure (g a)).Gives ctx (answer.bind fun a => .ok (g a)) :=
    h.bind fun a => gives_pure ctx (g a)
  rcases answer with _ | _ <;> exact hbind

theorem Gives.mapError (g : ε → ε') (h : run.Gives ctx answer) :
    (run.mapError g).Gives ctx (answer.mapError (Failure.map g)) := by
  intro live hlive
  obtain ⟨rfl, hcontext⟩ := h live hlive
  exact ⟨rfl, hcontext⟩

theorem gives_access (what : Call) {call : Access σ ε α} (h : ∀ world, (call.exec world).1 = answer)
    (ctx : Context) : (access what call).Gives ctx answer :=
  fun live hlive => ⟨h live.world, hlive⟩

end Run

/-! ## Rows in what a function answers -/

theorem Value.ordered_of_normal (h : Value.normal v = .object fields) : Dict.Ordered fields := by
  cases v with
  | object entries =>
    cases h
    exact Dict.Ordered.insertAll List.Pairwise.nil _
  | _ => cases h

/-- The rows that a value holds, or why it holds none: a list of objects holds them, null and the
empty object hold no rows. -/
inductive HoldsRows : Value → Except RowsError (List Row) → Prop
  | null : HoldsRows .null (.ok [])
  | nothing : HoldsRows (.object []) (.ok [])
  | rows (rows : List Row) : HoldsRows (.list (rows.map .object)) (.ok rows)
  | notARow (rows : List Row) : (∀ fields, v ≠ .object fields) →
    HoldsRows (.list (rows.map .object ++ v :: items)) (.error (.notARow v))
  | notAList : v ≠ .null → v ≠ .object [] → (∀ items, v ≠ .list items) →
    HoldsRows v (.error (.notAList v))

/-- An item that is no object is no row. -/
theorem rowOfItem_of_ne (h : ∀ fields, v ≠ .object fields) : rowOfItem v = .error (.notARow v) := by
  cases v with
  | object fields => exact (h fields rfl).elim
  | _ => rfl

theorem holdsRows_items (items : List Value) :
    HoldsRows (.list items) (items.mapM rowOfItem) := by
  induction items with
  | nil => exact .rows []
  | cons v items ih =>
    rw [List.mapM_cons]
    by_cases hv : ∃ fields, v = .object fields
    · obtain ⟨fields, rfl⟩ := hv
      generalize items.mapM rowOfItem = answer at ih ⊢
      cases ih with
      | rows rows => exact .rows (fields :: rows)
      | notARow rows hne => exact .notARow (fields :: rows) hne
      | notAList _ _ hne => exact (hne items rfl).elim
    · have hne : ∀ fields, v ≠ .object fields := not_exists.mp hv
      rw [rowOfItem_of_ne hne]
      exact .notARow [] hne

theorem holdsRows_rowsOfValue (v : Value) : HoldsRows v (rowsOfValue v) := by
  cases v with
  | null => exact .null
  | list items => exact holdsRows_items items
  | object fields =>
    cases fields with
    | nil => exact .nothing
    | cons => exact .notAList nofun nofun nofun
  | bool | number | text => exact .notAList nofun nofun nofun

/-! ## Functions that answer by their arguments -/

/-- What functions answer to their arguments. -/
abbrev Answers := String → List Value → Except (Failure ScriptError) Value

/-- The functions answer by their arguments alone, and objects with their fields in key order. -/
structure ScriptHost.AnswersBy (scripts : ScriptHost σ) (answer : Answers) : Prop where
  invoke : ∀ function args world,
    ((scripts.invoke function args).exec world).1 = answer function args
  ordered : ∀ function args fields, answer function args = .ok (.object fields) →
    Dict.Ordered fields

namespace Engine

/-- What a transformer makes of a row: its transformed form, or none if the row is dropped. A
template goes before a function. -/
inductive Outputs (answer : Answers) (spec : TransformerSpec) (row : Row) :
    Except (Failure EngineError) (Option Row) → Prop
  | rendered : spec.template = some template → renderRow template row = .ok transformed →
    Outputs answer spec row (.ok (some transformed))
  | unrendered : spec.template = some template → renderRow template row = .error e →
    Outputs answer spec row (.error (.error e))
  | answered : spec.template = none → spec.function = some function →
    answer function [.object row] = .ok (.object transformed) →
    Outputs answer spec row (.ok (some transformed))
  | dropped : spec.template = none → spec.function = some function →
    answer function [.object row] = .ok .null → Outputs answer spec row (.ok none)
  | badReturn : spec.template = none → spec.function = some function →
    answer function [.object row] = .ok v → v ≠ .null → (∀ fields, v ≠ .object fields) →
    Outputs answer spec row (.error (.error (.script (.badReturn function (.notARow v)))))
  | failed : spec.template = none → spec.function = some function →
    answer function [.object row] = .error e → Outputs answer spec row (.error (e.map .script))
  | kept : spec.template = none → spec.function = none → Outputs answer spec row (.ok (some row))

/-- What becomes of a row: one row, or none if a function drops it, or an error. -/
inductive Reshaped (answer : Answers) (spec : ReaderSpec) (ctx : Context) (row : Row) :
    Except (Failure EngineError) (List Row) → Prop
  | overlaid : spec.transformer = none → row'.TakesFrom [ctx.bindings, row] →
    Reshaped answer spec ctx row (.ok [row'])
  | replaced : spec.transformer = some transformer →
    (transformer.mergeToOriginal || spec.mergeToOriginal) = false →
    Outputs answer transformer (row.overlay ctx) (.ok (some transformed)) →
    Reshaped answer spec ctx row (.ok [transformed])
  | merged : spec.transformer = some transformer →
    (transformer.mergeToOriginal || spec.mergeToOriginal) = true →
    Outputs answer transformer (row.overlay ctx) (.ok (some transformed)) →
    row'.TakesFrom [transformed, ctx.bindings, row] → Reshaped answer spec ctx row (.ok [row'])
  | dropped : spec.transformer = some transformer →
    Outputs answer transformer (row.overlay ctx) (.ok none) → Reshaped answer spec ctx row (.ok [])
  | failed : spec.transformer = some transformer →
    Outputs answer transformer (row.overlay ctx) (.error e) →
    Reshaped answer spec ctx row (.error e)

/-- What a filter function makes of the rows that it is given. -/
inductive Filtered (answer : Answers) (function : String) :
    Except (Failure EngineError) (List Row) → Except (Failure EngineError) (List Row) → Prop
  | unreached : Filtered answer function (.error e) (.error e)
  | failed : answer function [.ofRows rows] = .error e →
    Filtered answer function (.ok rows) (.error (e.map .script))
  | answered : answer function [.ofRows rows] = .ok v → HoldsRows v (.ok rows') →
    Filtered answer function (.ok rows) (.ok rows')
  | badReturn : answer function [.ofRows rows] = .ok v → HoldsRows v (.error e) →
    Filtered answer function (.ok rows) (.error (.error (.script (.badReturn function e))))

variable {engine : Engine σ} {answer : Answers} {ctx : Context}

/-! ### Single rows -/

theorem gives_invoke (h : engine.scripts.AnswersBy answer) (function : String) (args : List Value)
    (ctx : Context) : (engine.invoke function args).Gives ctx (answer function args) :=
  Run.gives_access _ (h.invoke function args) ctx

theorem rowAnswer_of_ne (h : v ≠ .null) (h' : ∀ fields, v ≠ .object fields) (function : String) :
    rowAnswer function v = .error (.script (.badReturn function (.notARow v))) := by
  cases v with
  | null => exact (h rfl).elim
  | object fields => exact (h' fields rfl).elim
  | _ => rfl

/-- Every answer of a function has a meaning for the row. -/
theorem Outputs.of_answer (htemplate : spec.template = none)
    (hfunction : spec.function = some function) :
    Outputs answer spec row (((answer function [.object row]).mapError (Failure.map .script)).bind
      fun v => (rowAnswer function v).mapError .error) := by
  rcases hanswer : answer function [.object row] with e | v
  · exact .failed htemplate hfunction hanswer
  by_cases hnull : v = .null
  · subst hnull
    exact .dropped htemplate hfunction hanswer
  by_cases hobject : ∃ fields, v = .object fields
  · obtain ⟨fields, rfl⟩ := hobject
    exact .answered htemplate hfunction hanswer
  have hne : ∀ fields, v ≠ .object fields := not_exists.mp hobject
  show Outputs answer spec row ((rowAnswer function v).mapError .error)
  rw [rowAnswer_of_ne hnull hne]
  exact .badReturn htemplate hfunction hanswer hnull hne

/-- What becomes of a row depends on the row and the context alone, whatever the form of the
transformer. -/
theorem gives_transformRow (h : engine.scripts.AnswersBy answer) (spec : TransformerSpec)
    (row : Row) (ctx : Context) :
    ∃ output, Outputs answer spec row output ∧ (engine.transformRow spec row).Gives ctx output := by
  cases htemplate : spec.template with
  | some template =>
    have hgives : (engine.transformRow spec row).Gives ctx _ :=
      .of_ends fun s _ => ends_transformRow_template htemplate row s
    rcases hrender : renderRow template row with e | transformed
    · rw [hrender] at hgives
      exact ⟨_, .unrendered htemplate hrender, hgives⟩
    · rw [hrender] at hgives
      exact ⟨_, .rendered htemplate hrender, hgives⟩
  | none =>
    cases hfunction : spec.function with
    | none =>
      refine ⟨_, .kept htemplate hfunction, ?_⟩
      simp only [transformRow, htemplate, hfunction]
      exact Run.gives_pure ctx (some row)
    | some function =>
      refine ⟨_, .of_answer htemplate hfunction, ?_⟩
      simp only [transformRow, htemplate, hfunction]
      exact ((gives_invoke h function [.object row] ctx).mapError .script).bind fun v =>
        Run.gives_ofExcept ctx (rowAnswer function v)

theorem renderRow_ordered (h : renderRow template row = .ok fields) : Dict.Ordered fields := by
  obtain ⟨text, -, hread⟩ := renderRow_ok_iff.mp h
  obtain ⟨raw, -, hnormal⟩ := Option.map_eq_some_iff.mp hread
  exact Value.ordered_of_normal hnormal

theorem Outputs.ordered (h : Outputs answer spec row (.ok (some transformed)))
    (hordered : ∀ function args fields, answer function args = .ok (.object fields) →
      Dict.Ordered fields) (hrow : Dict.Ordered row) : Dict.Ordered transformed := by
  cases h with
  | rendered _ hrender => exact renderRow_ordered hrender
  | answered _ _ hanswer => exact hordered _ _ _ hanswer
  | kept => exact hrow

/-! ### Lists of rows -/

/-- The rows that are made of a row by its transformed form. -/
def remaining (merging : Bool) (row : Row) : Option Row → List Row
  | none => []
  | some transformed => [if merging then row.merge transformed else transformed]

/-- What becomes of rows is put together from what becomes of each. -/
theorem gives_transformEach {output : Row → Except (Failure EngineError) (Option Row)}
    (h : ∀ row, (engine.transformRow spec row).Gives ctx (output row)) (merging : Bool)
    (rows : List Row) :
    (engine.transformEach spec merging rows).Gives ctx
      (oneByOne (fun row => (output row).map (remaining merging row)) rows) := by
  induction rows with
  | nil => exact Run.gives_pure ctx []
  | cons row rows ih =>
    have hall : (engine.transformEach spec merging (row :: rows)).Gives ctx
        ((output row).bind fun transformed =>
          (oneByOne (fun row => (output row).map (remaining merging row)) rows).map
            (remaining merging row transformed ++ ·)) := by
      refine (h row).bind fun transformed => ?_
      cases transformed with
      | none =>
        rcases hrest : oneByOne (fun row => (output row).map (remaining merging row)) rows
        all_goals
          rw [hrest] at ih
          exact ih
      | some transformed => exact ih.map _
    rw [oneByOne_cons]
    rcases hrow : output row with _ | _
    all_goals
      rw [hrow] at hall
      exact hall

/-- A row is made of the transformed form alone, or the transformed form wins over the row. -/
theorem Outputs.reshaped {spec : ReaderSpec} {row : Row}
    {output : Except (Failure EngineError) (Option Row)}
    (h : Outputs answer transformer (row.overlay ctx) output)
    (htransformer : spec.transformer = some transformer)
    (hscripts : engine.scripts.AnswersBy answer) (hrow : Dict.Ordered row)
    (hctx : ctx.bindings.Ordered) :
    Reshaped answer spec ctx row (output.map
      (remaining (transformer.mergeToOriginal || spec.mergeToOriginal) (row.overlay ctx))) := by
  have hoverlay := Row.takesFrom_overlay hrow hctx
  rcases output with e | _ | transformed
  · exact .failed htransformer h
  · exact .dropped htransformer h
  · have htransformed := h.ordered hscripts.ordered hoverlay.ordered
    cases hmerging : transformer.mergeToOriginal || spec.mergeToOriginal with
    | false => exact .replaced htransformer hmerging h
    | true => exact .merged htransformer hmerging h (hoverlay.insertAll htransformed)

/-- Unless a transformer takes all rows at once, every row becomes what it becomes alone. -/
theorem gives_applyTransformer {spec : ReaderSpec} (h : engine.scripts.AnswersBy answer)
    (hspec : ∀ transformer ∈ spec.transformer, transformer.allAtOnce = false)
    (hctx : ctx.bindings.Ordered) :
    ∃ single : Row → Except (Failure EngineError) (List Row),
      (∀ row, Dict.Ordered row → Reshaped answer spec ctx row (single row)) ∧
      ∀ rows : List Row, (engine.applyTransformer spec (rows.map (·.overlay ctx))).Gives ctx
        (oneByOne single rows) := by
  cases htransformer : spec.transformer with
  | none =>
    refine ⟨fun row => .ok [row.overlay ctx], fun row hrow => ?_, fun rows => ?_⟩
    · exact .overlaid htransformer (Row.takesFrom_overlay hrow hctx)
    · rw [applyTransformer, htransformer, oneByOne_ok]
      exact Run.gives_pure ctx _
  | some transformer =>
    have hsteps : transformer.allAtOnce = false := hspec transformer htransformer
    choose output houtput hgives using
      fun row : Row => gives_transformRow h transformer row ctx
    refine ⟨fun row => (output (Row.overlay row ctx)).map (remaining
      (transformer.mergeToOriginal || spec.mergeToOriginal) (Row.overlay row ctx)),
      fun row hrow => ?_, fun rows => ?_⟩
    · exact (houtput (Row.overlay row ctx)).reshaped htransformer h hrow hctx
    · simp only [applyTransformer, htransformer, hsteps]
      have heach := gives_transformEach hgives
        (transformer.mergeToOriginal || spec.mergeToOriginal) (rows.map (·.overlay ctx))
      rwa [oneByOne_map] at heach

theorem gives_applyFilter (h : engine.scripts.AnswersBy answer) (spec : ReaderSpec)
    (hfilter : spec.filter = some function) (rows : List Row) (ctx : Context) :
    ∃ filtered, Filtered answer function (.ok rows) filtered ∧
      (engine.applyFilter spec rows).Gives ctx filtered := by
  have hinvoke := gives_invoke h function [.ofRows rows] ctx
  simp only [applyFilter, hfilter, invokeForRows]
  rcases hanswer : answer function [.ofRows rows] with e | v
  · rw [hanswer] at hinvoke
    exact ⟨_, .failed hanswer, hinvoke.bind_error.mapError _⟩
  · have hholds := holdsRows_rowsOfValue v
    have hread : (Run.ofExcept ((rowsOfValue v).mapError (ScriptError.badReturn function)) :
      Run σ ScriptError (List Row)).Gives ctx _ := Run.gives_ofExcept ctx _
    rw [hanswer] at hinvoke
    refine ⟨_, ?_, (hinvoke.bind_ok hread).mapError _⟩
    cases hrows : rowsOfValue v with
    | error e => exact .badReturn hanswer (hrows ▸ hholds)
    | ok rows' => exact .answered hanswer (hrows ▸ hholds)

/-- Without a filter function the answer is what the transformer has made. -/
theorem gives_unfiltered {spec : ReaderSpec} {rows : List Row} (hfilter : spec.filter = none)
    (hgiven : (engine.applyTransformer spec (rows.map (·.overlay ctx))).Gives ctx given) :
    (engine.transform spec rows).Gives ctx given := by
  cases given with
  | error e => exact (Run.gives_context ctx).bind_ok hgiven.bind_error
  | ok made =>
    have hlast : (engine.applyFilter spec made).Gives ctx (.ok made) := by
      rw [applyFilter, hfilter]
      exact Run.gives_pure ctx made
    exact (Run.gives_context ctx).bind_ok (hgiven.bind_ok hlast)

/-- A filter function is given what the transformer has made. -/
theorem gives_filtered {spec : ReaderSpec} {rows : List Row}
    (h : engine.scripts.AnswersBy answer) (hfilter : spec.filter = some function)
    (hgiven : (engine.applyTransformer spec (rows.map (·.overlay ctx))).Gives ctx given) :
    ∃ filtered, Filtered answer function given filtered ∧
      (engine.transform spec rows).Gives ctx filtered := by
  cases given with
  | error e => exact ⟨_, .unreached, (Run.gives_context ctx).bind_ok hgiven.bind_error⟩
  | ok made =>
    obtain ⟨filtered, hfiltered, hlast⟩ := gives_applyFilter h spec hfilter made ctx
    exact ⟨filtered, hfiltered, (Run.gives_context ctx).bind_ok (hgiven.bind_ok hlast)⟩

/-- **Rows are transformed one by one.** In one context the answer is a function of the rows: two
lists of rows are transformed one after another, and fail with the error of the first row that fails
alone; of a single row is made what its fields and the transformer tell. With a filter function the
same rows are made, and the answer of the function takes their place. -/
theorem transform_row_by_row {spec : ReaderSpec} (h : engine.scripts.AnswersBy answer)
    (hspec : ∀ transformer ∈ spec.transformer, transformer.allAtOnce = false)
    (hfilter : spec.filter = none) (hctx : ctx.bindings.Ordered) :
    ∃ result : List Row → Except (Failure EngineError) (List Row),
      (∀ rows (live : Live σ), live.context = ctx →
        ((engine.transform spec rows).exec live).1 = result rows) ∧
      (∀ rows rows' made, result (rows ++ rows') = .ok made ↔
        ∃ first second, result rows = .ok first ∧ result rows' = .ok second ∧
          made = first ++ second) ∧
      (∀ rows e, result rows = .error e ↔
        ∃ before row after, rows = before ++ row :: after ∧ (∃ made, result before = .ok made) ∧
          result [row] = .error e) ∧
      (∀ row, Dict.Ordered row → Reshaped answer spec ctx row (result [row])) ∧
      ∀ function rows (live : Live σ), live.context = ctx →
        Filtered answer function (result rows)
          ((engine.transform { spec with filter := some function } rows).exec live).1 := by
  obtain ⟨single, hsingle, hrows⟩ := gives_applyTransformer h hspec hctx
  refine ⟨oneByOne single, ?_, fun _ _ _ => oneByOne_append_ok_iff, ?_, ?_, ?_⟩
  · intro rows live hlive
    exact (gives_unfiltered hfilter (hrows rows) live hlive).1
  · intro rows e
    simp only [oneByOne_singleton]
    exact oneByOne_error_iff
  · intro row hrow
    rw [oneByOne_singleton]
    exact hsingle row hrow
  · intro function rows live hlive
    -- a filter function has no influence on the rows that it is given
    have hgiven : (engine.applyTransformer { spec with filter := some function }
        (rows.map (·.overlay ctx))).Gives ctx (oneByOne single rows) := hrows rows
    obtain ⟨filtered, hfiltered, hgives⟩ := gives_filtered h rfl hgiven
    rw [(hgives live hlive).1]
    exact hfiltered

/-- One function drops a row that has been marked, the other answers a text instead of rows. -/
def sampleAnswers : Answers
  | "tag", [.object row] =>
    .ok (if Dict.contains row "gone" then .null else .object [("a", .text "output")])
  | "name", _ => .ok (.text "rows")
  | function, _ => .error (.error (.unknownFunction function))

def sampleTagging : Engine Unit where
  registry := {}
  scripts :=
    { load := fun _ => pure ()
      invoke := fun function args world => (sampleAnswers function args, world) }

def sampleTagged : ReaderSpec where
  component := "numbers"
  transformer := some ⟨none, some "tag", false, true⟩

def sampleBindings : Context := ⟨[("a", .text "context"), ("b", .text "context")]⟩

theorem sampleTagging_answersBy : sampleTagging.scripts.AnswersBy sampleAnswers where
  invoke _ _ _ := rfl
  ordered function args fields h := by
    unfold sampleAnswers at h
    split at h
    · split at h
      · cases h
      · cases h
        exact List.pairwise_singleton ..
    · cases h
    · cases h

/-- The output wins over the context, and this over the row. -/
theorem transform_row_by_row_tagged :
    ∃ result : List Row → Except (Failure EngineError) (List Row),
      (∀ rows (live : Live Unit), live.context = sampleBindings →
        ((sampleTagging.transform sampleTagged rows).exec live).1 = result rows) ∧
      result [[("gone", .null)], [("a", .text "row"), ("b", .text "row"), ("c", .text "row")]] =
        .ok [[("a", .text "output"), ("b", .text "context"), ("c", .text "row")]] ∧
      Reshaped sampleAnswers sampleTagged sampleBindings [("gone", .null)]
        (result [[("gone", .null)]]) ∧
      Filtered sampleAnswers "name" (result [])
        ((sampleTagging.transform { sampleTagged with filter := some "name" } []).exec
          { context := sampleBindings, world := { state := () } }).1 := by
  have hspec : ∀ transformer ∈ sampleTagged.transformer, transformer.allAtOnce = false := by
    intro transformer htransformer
    cases htransformer
    rfl
  have hctx : sampleBindings.bindings.Ordered :=
    List.pairwise_pair.mpr (show "a" < "b" by decide +kernel)
  obtain ⟨result, hresult, -, -, hrow, hfiltered⟩ :=
    transform_row_by_row sampleTagging_answersBy hspec rfl hctx
  refine ⟨result, hresult, ?_, hrow _ (List.pairwise_singleton ..), hfiltered _ _ _ rfl⟩
  rw [← hresult _ { context := sampleBindings, world := { state := () } } rfl]
  rfl

end Engine

end RowFlow
