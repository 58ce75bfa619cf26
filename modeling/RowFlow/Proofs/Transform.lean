import RowFlow.Engine.Transform
import RowFlow.Proofs.Run

/-!
# What transforming calls

Transforming and filtering rows calls script functions and nothing else (`Engine.makes_transform`).
-/

namespace RowFlow

variable {σ : Type}

/-- The entries of transforming rows: the calls of functions. -/
def Entry.IsFunctionCall : Entry σ → Prop
  | .call (.function ..) .. => True
  | _ => False

namespace Engine

/-- A template produces the row that is read from its rendered text. -/
theorem renderRow_ok_iff : renderRow template row = .ok fields ↔
    ∃ text, Template.render template row = .ok text ∧ Json.read? text = some (.object fields) := by
  unfold renderRow renderValue
  constructor
  · intro h
    rcases hrender : Template.render template row with e | text
    · rw [hrender] at h
      cases h
    · refine ⟨text, rfl, ?_⟩
      simp only [hrender] at h
      cases hread : Json.read? text with
      | none =>
        rw [hread] at h
        cases h
      | some v =>
        rw [hread] at h
        cases v with
        | object entries =>
          cases h
          rfl
        | _ => cases h
  · rintro ⟨text, hrender, hread⟩
    simp only [hrender, hread]
    rfl

/-- A template answers without a call. -/
theorem ends_transformRow_template {engine : Engine σ} {spec : TransformerSpec}
    (h : spec.template = some template) (row : Row) (s : Site σ) :
    (engine.transformRow spec row).Ends s []
      (((renderRow template row).map some).mapError .error) s := by
  simp only [transformRow, h]
  rcases renderRow template row with e | transformed
  · exact (Run.ends_fail e).bind_error
  · exact (Run.ends_pure transformed).bind_silent (Run.ends_pure _)

variable (engine : Engine σ)

theorem makes_invoke (function : String) (args : List Value) :
    (engine.invoke function args).Makes Entry.IsFunctionCall :=
  .access fun _ _ _ _ => trivial

theorem makes_invokeForRows (function : String) (args : List Value) :
    (engine.invokeForRows function args).Makes Entry.IsFunctionCall :=
  .bind (engine.makes_invoke function args) fun _ => .ofExcept _

theorem makes_transformRow (spec : TransformerSpec) (row : Row) :
    (engine.transformRow spec row).Makes Entry.IsFunctionCall := by
  rw [transformRow]
  split
  · exact .bind (.ofExcept _) fun _ => .pure _
  · exact .bind (.mapError (engine.makes_invoke ..) _) fun _ => .ofExcept _
  · exact .pure _

theorem makes_transformEach (spec : TransformerSpec) (merging : Bool) (rows : List Row) :
    (engine.transformEach spec merging rows).Makes Entry.IsFunctionCall := by
  induction rows with
  | nil => exact .pure []
  | cons row rows ih =>
    refine .bind (engine.makes_transformRow spec row) fun transformed => ?_
    cases transformed with
    | none => exact ih
    | some transformed => exact .bind ih fun _ => .pure _

theorem makes_transformAll (spec : TransformerSpec) (rows : List Row) :
    (engine.transformAll spec rows).Makes Entry.IsFunctionCall := by
  rw [transformAll]
  split
  · exact .bind (.ofExcept _) fun _ => .ofExcept _
  · exact .mapError (engine.makes_invokeForRows ..) _
  · exact .pure _

theorem makes_applyTransformer (spec : ReaderSpec) (rows : List Row) :
    (engine.applyTransformer spec rows).Makes Entry.IsFunctionCall := by
  rw [applyTransformer]
  split
  · exact .pure _
  · split
    · exact engine.makes_transformAll ..
    · exact engine.makes_transformEach ..

theorem makes_applyFilter (spec : ReaderSpec) (rows : List Row) :
    (engine.applyFilter spec rows).Makes Entry.IsFunctionCall := by
  rw [applyFilter]
  split
  · exact .pure _
  · exact .mapError (engine.makes_invokeForRows ..) _

/-- Transforming rows calls functions of scripts, and nothing else. -/
theorem makes_transform (spec : ReaderSpec) (rows : List Row) :
    (engine.transform spec rows).Makes Entry.IsFunctionCall :=
  .bind .context fun _ =>
    .bind (engine.makes_applyTransformer spec _) fun _ => engine.makes_applyFilter spec _

instance (spec : ReaderSpec) (rows : List Row) : Run.Adds (engine.transform spec rows) :=
  (engine.makes_transform spec rows).adds

end Engine

end RowFlow
