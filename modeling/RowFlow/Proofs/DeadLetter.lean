import RowFlow.Proofs.Cascade

/-!
# When failed rows reach the dead letters

The dead letters come after the writers that follow. They are handed the rows that a writer has
failed to write, all in one call, if and only if those writers end well
(`Engine.deadLetter_handed_iff`). A writer for successes that does not exist is enough to lose the
rows that have failed before (`Engine.failed_row_lost`).
-/

namespace RowFlow

variable {σ : Type}

/-- The sink of dead letters has been called for records, in one call and as the last thing. -/
def Handed (d : ReadyWriter σ) (records : List Row) (live live' : Live σ) : Prop :=
  ∃ answer t, (d.writer.sink.batch .create records).exec live.toSite = (answer, t) ∧
    live' = ⟨t, .call (.deadLetter d.target records) live.toSite t answer.isOk :: live.journal⟩

theorem Handed.ne {d : ReadyWriter σ} {live live' : Live σ} (h : Handed d records live live') :
    live' ≠ live := by
  obtain ⟨answer, t, -, rfl⟩ := h
  intro heq
  exact List.cons_ne_self _ _ (congrArg Live.journal heq)

/-- The records that an entry shows to be handed to the dead letters. -/
def Entry.buried? : Entry σ → Option (List Row)
  | .call (.deadLetter _ records) _ _ _ => some records
  | _ => none

namespace Engine

variable {engine : Engine σ} {key : String} {w : ReadyWriter σ}

/-- What a writer has follow its rows, before the dead letters. -/
def followUp (engine : Engine σ) (key : String) (settings : WriterSettings) (w : ReadyWriter σ)
    (onSuccess onFailure : Option WriterSpec) (outcome : Outcome) : Run σ EngineError Unit := do
  engine.passOn key (.rowsWritten key w.target.name settings.action) onSuccess outcome.written
  engine.passOn key (.recordsFailed key w.target.name) onFailure outcome.failed

theorem write_followUp (henabled : settings.enabled) (hrows : rows ≠ [])
    (hsupports : w.writer.supports settings.action) :
    engine.write key (.mk settings onSuccess onFailure) w rows = (do
      let outcome ← deliver w settings.action rows
      engine.followUp key settings w onSuccess onFailure outcome
      engine.bury key outcome.failed
      return outcome) := by
  simp only [write_mk henabled hrows hsupports, followUp, bind_assoc]

theorem bury_handed {live : Live σ} (hfailed : failed ≠ [])
    (hdead : engine.prepareDeadLetter key live.context = .ok (some d)) :
    Handed d (failed.map (deadRecord key live.context)) live
      ((engine.bury key failed).exec live).2 := by
  refine ⟨_, _, rfl, ?_⟩
  rw [(bury_ends hfailed hdead rfl).exec live.journal]
  rfl

/-- The failed rows of a writer are handed to the dead letters if and only if the writers that
follow end well. Otherwise their error is what the cascade ends with, and nothing comes after it. -/
theorem deadLetter_handed_iff {live live₁ live₂ : Live σ} (henabled : settings.enabled)
    (hrows : rows ≠ []) (hsupports : w.writer.supports settings.action)
    (hdeliver : (deliver w settings.action rows).exec live = (.ok outcome, live₁))
    (hfailed : outcome.failed ≠ [])
    (hfollow : (engine.followUp key settings w onSuccess onFailure outcome).exec live₁ =
      (answer, live₂))
    (hdead : engine.prepareDeadLetter key live₂.context = .ok (some d)) :
    (Handed d (outcome.failed.map (deadRecord key live₂.context)) live₂
        ((engine.write key (.mk settings onSuccess onFailure) w rows).exec live).2 ↔
      answer = .ok ()) ∧
    ∀ e, answer = .error e →
      (engine.write key (.mk settings onSuccess onFailure) w rows).exec live =
        (.error e, live₂) := by
  rw [write_followUp henabled hrows hsupports, Run.exec_bind_of_ok hdeliver]
  cases answer with
  | error e =>
    rw [Run.exec_bind_of_error hfollow]
    refine ⟨⟨fun h => (h.ne rfl).elim, nofun⟩, ?_⟩
    rintro e ⟨⟩
    rfl
  | ok _ =>
    rw [Run.exec_bind_of_ok hfollow, Run.exec_bind_pure_snd]
    exact ⟨⟨fun _ => rfl, fun _ => bury_handed hfailed hdead⟩, nofun⟩

/-- The writer for successes does not exist. -/
def sampleDeadEnd : WriterSpec := .mk { component := "missing" } none none

theorem deadLetter_handed_dead_end :
    ∃ d live₁ live₂ e,
      (deliver sampleWriter .create sampleRows).exec sampleStart = (.ok sampleOutcome, live₁) ∧
      (sampleEngine.followUp "p" {} sampleWriter (some sampleDeadEnd) none sampleOutcome).exec live₁ =
        (.error e, live₂) ∧
      sampleEngine.prepareDeadLetter "p" live₂.context = .ok (some d) ∧
      (sampleEngine.write "p" (.mk {} (some sampleDeadEnd) none) sampleWriter sampleRows).exec
        sampleStart = (.error e, live₂) ∧
      ¬ Handed d (sampleOutcome.failed.map (deadRecord "p" live₂.context)) live₂ live₂ := by
  obtain ⟨live₁, live₂, d, hdeliver, hfollow, hdead⟩ : ∃ live₁ live₂ d,
      (deliver sampleWriter .create sampleRows).exec sampleStart = (.ok sampleOutcome, live₁) ∧
      (sampleEngine.followUp "p" {} sampleWriter (some sampleDeadEnd) none sampleOutcome).exec live₁ =
        (.error (.error (.componentNotFound "missing")), live₂) ∧
      sampleEngine.prepareDeadLetter "p" live₂.context = .ok (some d) :=
    ⟨_, _, _, Prod.ext (by with_unfolding_all rfl) rfl, Prod.ext (by with_unfolding_all rfl) rfl, rfl⟩
  have henabled : ({} : WriterSettings).enabled := rfl
  have hrows : sampleRows ≠ [] := List.cons_ne_nil _ _
  have hsupports : sampleWriter.writer.supports ({} : WriterSettings).action := rfl
  have hfailed : sampleOutcome.failed ≠ [] := List.cons_ne_nil _ _
  have hlost := deadLetter_handed_iff henabled hrows hsupports hdeliver hfailed hfollow hdead
  exact ⟨d, live₁, live₂, _, hdeliver, hfollow, hdead, hlost.2 _ rfl, fun h => h.ne rfl⟩

theorem failed_row_lost :
    ∃ live', (sampleEngine.write "p" (.mk {} (some sampleDeadEnd) none) sampleWriter
        sampleRows).exec sampleStart = (.error (.error (.componentNotFound "missing")), live') ∧
      sampleOutcome.failed = [[]] ∧ live'.journal.filterMap Entry.buried? = [] :=
  ⟨_, Prod.ext (by with_unfolding_all rfl) rfl, rfl, by with_unfolding_all rfl⟩

end Engine

end RowFlow
