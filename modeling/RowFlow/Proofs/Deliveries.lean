import RowFlow.Proofs.DeadLetter

/-!
# How often a sink accepts a row

A writer gives its sink all rows in one call and, if that fails, every row again in a call of its
own. A sink that knows calls for single rows alone stops at the first row that it rejects. It has
accepted the rows before by then, and accepts them a second time (`timesAccepted`). A sink that
checks all rows before it accepts any accepts none of them twice. This is all that a writer does
with its rows itself (`Engine.write_deliveries`).

Sinks are taken to accept or reject a row by what is in the row alone, and to show what they have
accepted. A sink that does not show it can be watched (`RowCalls.watched`, `judges_watch`).
-/

namespace RowFlow

variable {σ : Type}

/-- The call for single rows that an action comes to. -/
def WriteAction.reached : WriteAction → WriteAction
  | .createOrReplace => .replace
  | action => action

/-! ## Sinks that go by what is in a row -/

/-- What a sink has accepted so far, as a site shows it: each row with the call that it came by. -/
abbrev AcceptanceLog (σ : Type) := Site σ → List (WriteAction × Row)

section
variable {log : AcceptanceLog σ} {accepts : Row → Bool} {action : WriteAction} {rows : List Row}

/-- A call accepts a row or rejects it, by what is in the row alone. -/
structure JudgesRows (log : AcceptanceLog σ) (accepts : Row → Bool) (action : WriteAction)
    (call : Row → Act σ AdapterError Unit) : Prop where
  accepted : ∀ row s, accepts row = true →
    ∃ t, (call row).exec s = (.ok (), t) ∧ log t = log s ++ [(action, row)]
  rejected : ∀ row s, accepts row = false →
    ∃ e t, (call row).exec s = (.error (.error e), t) ∧ log t = log s

namespace JudgesRows
variable {call : Row → Act σ AdapterError Unit}

theorem forM_accepted (h : JudgesRows log accepts action call)
    (hrows : ∀ row ∈ rows, accepts row = true) (s : Site σ) :
    ∃ t, (rows.forM call).exec s = (.ok (), t) ∧ log t = log s ++ rows.map (action, ·) := by
  induction rows generalizing s with
  | nil => exact ⟨s, rfl, by simp⟩
  | cons row rows ih =>
    obtain ⟨hrow, hrest⟩ := List.forall_mem_cons.mp hrows
    obtain ⟨t, hexec, hlog⟩ := h.accepted row s hrow
    obtain ⟨u, hexec', hlog'⟩ := ih hrest t
    refine ⟨u, (Act.exec_bind_of_ok hexec).trans hexec', ?_⟩
    simp [hlog', hlog]

/-- Calls for one row after another stop at the first row that is rejected. -/
theorem forM_rejected (h : JudgesRows log accepts action call)
    (hrows : ∃ row ∈ rows, accepts row = false) (s : Site σ) :
    ∃ e t, (rows.forM call).exec s = (.error (.error e), t) ∧
      log t = log s ++ (rows.takeWhile accepts).map (action, ·) := by
  induction rows generalizing s with
  | nil => simp at hrows
  | cons row rows ih =>
    cases hrow : accepts row with
    | false =>
      obtain ⟨e, t, hexec, hlog⟩ := h.rejected row s hrow
      refine ⟨e, t, Act.exec_bind_of_error hexec, ?_⟩
      simp [hrow, hlog]
    | true =>
      have hrest : ∃ row ∈ rows, accepts row = false := by
        simpa [hrow] using hrows
      obtain ⟨t, hexec, hlog⟩ := h.accepted row s hrow
      obtain ⟨e, u, hexec', hlog'⟩ := ih hrest t
      refine ⟨e, u, (Act.exec_bind_of_ok hexec).trans hexec', ?_⟩
      simp [hrow, hlog', hlog]

open Engine in
theorem rowByRow {w : ReadyWriter σ} {given : WriteAction}
    (h : JudgesRows log accepts action (w.writer.sink.row given)) (rows : List Row) (s : Site σ) :
    ∃ es t, RowByRow w given rows (rows.map accepts) s es t ∧
      log t = log s ++ (rows.filter accepts).map (action, ·) := by
  induction rows generalizing s with
  | nil => exact ⟨[], s, .nil, by simp⟩
  | cons row rows ih =>
    cases hrow : accepts row with
    | false =>
      obtain ⟨e, t, hexec, hlog⟩ := h.rejected row s hrow
      obtain ⟨es, u, hrest, hlog'⟩ := ih t
      have hall : RowByRow w given (row :: rows) (false :: rows.map accepts) s _ u :=
        .failed hexec hrest
      refine ⟨_, u, by simpa [hrow] using hall, ?_⟩
      simp [hrow, hlog', hlog]
    | true =>
      obtain ⟨t, hexec, hlog⟩ := h.accepted row s hrow
      obtain ⟨es, u, hrest, hlog'⟩ := ih t
      have hall : RowByRow w given (row :: rows) (true :: rows.map accepts) s _ u :=
        .written hexec hrest
      refine ⟨_, u, by simpa [hrow] using hall, ?_⟩
      simp [hrow, hlog', hlog]

end JudgesRows

end

namespace BoundWriter

/-- The calls for single rows of a writer's sink go by what is in a row, in all actions that the
writer knows and that have a call of their own. -/
structure Judges (log : AcceptanceLog σ) (accepts : Row → Bool) (calls : RowCalls σ)
    (w : BoundWriter σ) : Prop where
  row : w.sink.row = calls.row
  judges : ∀ action, action.reached = action → w.supports action = true →
    JudgesRows log accepts action (calls.row action)

/-- The sink knows these calls for single rows and nothing else. -/
structure KnowsRowsOnly (log : AcceptanceLog σ) (accepts : Row → Bool) (calls : RowCalls σ)
    (w : BoundWriter σ) : Prop extends w.Judges log accepts calls where
  batch : w.sink.batch = calls.toSink.batch

/-- The sink has a bulk call, which accepts all rows or none. -/
structure ChecksFirst (log : AcceptanceLog σ) (accepts : Row → Bool) (calls : RowCalls σ)
    (w : BoundWriter σ) : Prop extends w.Judges log accepts calls where
  accepted : ∀ action rows s, w.supports action = true → (∀ row ∈ rows, accepts row = true) →
    ∃ t, (w.sink.batch action rows).exec s = (.ok (), t) ∧
      log t = log s ++ rows.map (action.reached, ·)
  rejected : ∀ action rows s, w.supports action = true → (∃ row ∈ rows, accepts row = false) →
    ∃ e t, (w.sink.batch action rows).exec s = (.error (.error e), t) ∧ log t = log s

variable {log : AcceptanceLog σ} {accepts : Row → Bool} {calls : RowCalls σ} {w : BoundWriter σ}
  {action : WriteAction}

theorem supports_reached (h : w.supports action = true) : w.supports action.reached = true := by
  cases action <;> simp_all [supports, WriteAction.reached]

/-- What does not exist yet is replaced just as well. -/
theorem row_reached (calls : RowCalls σ) (action : WriteAction) :
    calls.row action.reached = calls.row action := by
  cases action <;> rfl

theorem Judges.reached (h : w.Judges log accepts calls) (hsupports : w.supports action = true) :
    JudgesRows log accepts action.reached (calls.row action) := by
  have hown : action.reached.reached = action.reached := by cases action <;> rfl
  have hjudges := h.judges action.reached hown (supports_reached hsupports)
  rwa [row_reached] at hjudges

end BoundWriter

/-! ### Watching a sink -/

/-- The state of a sink that is watched, and what it has accepted. -/
abbrev Watched (σ : Type) := σ × List (WriteAction × Row)

def Watched.log : AcceptanceLog (Watched σ) := fun s => s.world.state.2

/-- The site as the sink itself finds it. -/
def Site.unwatched (s : Site (Watched σ)) : Site σ where
  context := s.context
  world := { disk := s.world.disk, console := s.world.console, state := s.world.state.1 }

/-- Makes a call for a row, and notes whether it has accepted the row. -/
def watch (action : WriteAction) (call : Row → Act σ AdapterError Unit) (row : Row) :
    Act (Watched σ) AdapterError Unit := fun s =>
  let (answer, t) := call row s.unwatched
  let log := if answer.isOk then s.world.state.2 ++ [(action, row)] else s.world.state.2
  let world := { disk := t.world.disk, console := t.world.console, state := (t.world.state, log) }
  (answer, { context := t.context, world })

/-- A sink does the same when it is watched. -/
theorem exec_watch (action : WriteAction) (call : Row → Act σ AdapterError Unit) (row : Row)
    (s : Site (Watched σ)) :
    ((watch action call row).exec s).1 = ((call row).exec s.unwatched).1 ∧
      ((watch action call row).exec s).2.unwatched = ((call row).exec s.unwatched).2 :=
  ⟨rfl, rfl⟩

/-- When it is watched, every call that goes by what is in a row shows what it accepts. -/
theorem judges_watch {call : Row → Act σ AdapterError Unit} {accepts : Row → Bool}
    (haccepted : ∀ row s, accepts row = true → ∃ t, (call row).exec s = (.ok (), t))
    (hrejected : ∀ row s, accepts row = false → ∃ e t, (call row).exec s = (.error (.error e), t))
    (action : WriteAction) : JudgesRows Watched.log accepts action (watch action call) := by
  constructor
  · intro row s hrow
    obtain ⟨t, hexec⟩ := haccepted row s.unwatched hrow
    have hcall : call row s.unwatched = (.ok (), t) := hexec
    exact ⟨_, by rw [Act.exec, watch, hcall], by simp [Watched.log, Except.isOk, Except.toBool]⟩
  · intro row s hrow
    obtain ⟨e, t, hexec⟩ := hrejected row s.unwatched hrow
    have hcall : call row s.unwatched = (.error (.error e), t) := hexec
    exact ⟨e, _, by rw [Act.exec, watch, hcall], by simp [Watched.log, Except.isOk, Except.toBool]⟩

def RowCalls.watched (calls : RowCalls σ) : RowCalls (Watched σ) where
  create := watch .create calls.create
  update := watch .update calls.update
  replace := watch .replace calls.replace

/-! ## Positions -/

section
variable {α : Type}

theorem filter_eq_map_positions (p : α → Bool) (xs : List α) :
    xs.filter p = ((List.finRange xs.length).filter fun i => p xs[i]).map fun i => xs[i] :=
  calc xs.filter p
    _ = ((List.finRange xs.length).map xs.get).filter p := by rw [List.map_get_finRange]
    _ = _ := List.filter_map

theorem takeWhile_eq_map_positions (p : α → Bool) (xs : List α) :
    xs.takeWhile p = ((List.finRange xs.length).takeWhile fun i => p xs[i]).map fun i => xs[i] :=
  calc xs.takeWhile p
    _ = ((List.finRange xs.length).map xs.get).takeWhile p := by rw [List.map_get_finRange]
    _ = _ := List.takeWhile_map

theorem mem_takeWhile_positions {p : α → Bool} {xs : List α} {i : Fin xs.length} :
    i ∈ (List.finRange xs.length).takeWhile (fun i => p xs[i]) ↔ i < xs.findIdx (!p ·) := by
  have hfirst : (List.finRange xs.length).findIdx (fun i => !p xs[i]) = xs.findIdx (!p ·) :=
    calc (List.finRange xs.length).findIdx (fun i => !p xs[i])
      _ = ((List.finRange xs.length).map xs.get).findIdx (!p ·) :=
        (List.findIdx_map _ xs.get fun x => !p x).symm
      _ = xs.findIdx (!p ·) := by rw [List.map_get_finRange]
  rw [List.takeWhile_eq_take_findIdx_not, hfirst, List.mem_take_iff_getElem]
  constructor
  · rintro ⟨k, hk, rfl⟩
    simp at hk
    simp [hk]
  · intro h
    exact ⟨i, by simp [h], by simp⟩

end

/-- How often the row at a position is accepted by a sink that knows calls for single rows alone:
twice if it stands before the first row that is rejected. -/
def timesAccepted (accepts : Row → Bool) (rows : List Row) (i : Fin rows.length) : Nat :=
  let first := rows.findIdx (!accepts ·)
  if !accepts rows[i] then 0
  else if i < first ∧ first < rows.length then 2
  else 1

theorem timesAccepted_of_all {accepts : Row → Bool} {rows : List Row}
    (h : ∀ row ∈ rows, accepts row = true) : timesAccepted accepts rows = fun _ => 1 := by
  have hnone : rows.findIdx (!accepts ·) = rows.length := by
    simpa using h
  funext i
  simp [timesAccepted, hnone, h]

theorem timesAccepted_of_rejected {accepts : Row → Bool} {rows : List Row}
    (h : ∃ row ∈ rows, accepts row = false) (i : Fin rows.length) :
    timesAccepted accepts rows i =
      (if i < rows.findIdx (!accepts ·) then 1 else 0) + if accepts rows[i] then 1 else 0 := by
  have hlast : rows.findIdx (!accepts ·) < rows.length := by
    simpa [List.findIdx_lt_length] using h
  have hbefore (hlt : i < rows.findIdx (!accepts ·)) : accepts rows[i] = true := by
    simpa using List.not_of_lt_findIdx hlt
  unfold timesAccepted
  dsimp only
  by_cases hlt : i < rows.findIdx (!accepts ·)
  · rw [hbefore hlt, if_neg (by simp), if_pos ⟨hlt, hlast⟩, if_pos hlt, if_pos rfl]
  · simp only [hlt, false_and, if_false, Nat.zero_add]
    cases accepts rows[i] <;> rfl

theorem Outcome.rowsWith_map (accepts : Row → Bool) (written : Bool) (rows : List Row) :
    rowsWith written rows (rows.map accepts) = rows.filter (accepts · == written) := by
  unfold rowsWith
  induction rows with
  | nil => rfl
  | cons row rows ih =>
    rw [List.map_cons, List.zip_cons_cons, List.filter_cons, List.filter_cons]
    split
    · rw [List.map_cons, ih]
    · exact ih

namespace Engine

variable {engine : Engine σ} {key : String} {settings : WriterSettings}
  {onSuccess onFailure : Option WriterSpec} {w : ReadyWriter σ} {log : AcceptanceLog σ}
  {accepts : Row → Bool} {calls : RowCalls σ} {action : WriteAction} {rows : List Row}

/-- What has been accepted of rows in a pass: some of them, in order, by the call that an action
comes to. -/
def InPass (log : AcceptanceLog σ) (action : WriteAction) (rows : List Row)
    (accepted : List (Fin rows.length)) (s t : Site σ) : Prop :=
  accepted.Pairwise (· < ·) ∧ log t = log s ++ accepted.map fun i => (action.reached, rows[i])

/-- A writer has been given rows, and its sink has accepted the row at each position so many times:
first in the call for all rows, and then, if that has failed, in the calls for each of them. -/
structure Delivers (log : AcceptanceLog σ) (accepts : Row → Bool) (w : ReadyWriter σ)
    (action : WriteAction) (rows : List Row) (times : Fin rows.length → Nat) (s : Site σ)
    (es : List (Entry σ)) (outcome : Outcome) (t : Site σ) : Prop where
  ends : (deliver w action rows).Ends s es (.ok outcome) t
  written : outcome.written = rows.filter accepts
  failed : outcome.failed = rows.filter (!accepts ·)
  accepted : ∃ bulk retry u ok rest,
    es = .call (.writeBatch w.target action rows) s u ok :: rest ∧
    InPass log action rows bulk s u ∧ InPass log action rows retry u t ∧
    ∀ i, (bulk ++ retry).count i = times i

/-- In a pass each position comes up once, if at all. -/
theorem InPass.nodup (h : InPass log action rows accepted s t) : accepted.Nodup :=
  h.1.imp Fin.ne_of_lt

theorem inPass_filter (hlog : log t = log s ++ (rows.filter accepts).map (action.reached, ·)) :
    InPass log action rows ((List.finRange rows.length).filter fun i => accepts rows[i]) s t := by
  refine ⟨(List.pairwise_lt_finRange _).sublist List.filter_sublist, ?_⟩
  rw [hlog, filter_eq_map_positions, List.map_map]
  rfl

theorem inPass_takeWhile
    (hlog : log t = log s ++ (rows.takeWhile accepts).map (action.reached, ·)) :
    InPass log action rows ((List.finRange rows.length).takeWhile fun i => accepts rows[i])
      s t := by
  refine ⟨(List.pairwise_lt_finRange _).sublist (List.takeWhile_sublist _), ?_⟩
  rw [hlog, takeWhile_eq_map_positions, List.map_map]
  rfl

theorem inPass_nil (hlog : log t = log s) : InPass log action rows [] s t :=
  ⟨.nil, by simp [hlog]⟩

/-- The call for all rows accepts them all. -/
theorem delivers_bulk (hsupports : w.writer.supports action = true)
    (hrows : ∀ row ∈ rows, accepts row = true)
    (hexec : (w.writer.sink.batch action rows).exec s = (.ok (), t))
    (hlog : log t = log s ++ rows.map (action.reached, ·)) :
    ∃ es outcome, Delivers log accepts w action rows (fun _ => 1) s es outcome t := by
  have hall : rows.filter accepts = rows := List.filter_eq_self.mpr hrows
  have hpass : InPass log action rows _ s t := inPass_filter (by rwa [hall])
  refine ⟨_, _, (Delivered.bulk hexec).ends hsupports, hall.symm, ?_, ?_⟩
  · simpa using hrows
  · refine ⟨_, [], t, true, [], rfl, hpass, inPass_nil rfl, ?_⟩
    intro i
    rw [List.append_nil, hpass.nodup.count, if_pos]
    simp [hrows]

/-- The call for all rows fails, and each row is given once more. -/
theorem delivers_retry (h : w.writer.Judges log accepts calls)
    (hsupports : w.writer.supports action = true)
    (hexec : (w.writer.sink.batch action rows).exec s = (.error (.error e), u))
    (hbulk : InPass log action rows bulk s u) :
    ∃ es outcome t, Delivers log accepts w action rows
      (fun i => bulk.count i + if accepts rows[i] then 1 else 0) s es outcome t := by
  have hreached : JudgesRows log accepts action.reached (w.writer.sink.row action) := by
    rw [h.row]
    exact h.reached hsupports
  obtain ⟨es, t, hrows, hlog⟩ := hreached.rowByRow rows u
  have hpass : InPass log action rows _ u t := inPass_filter hlog
  refine ⟨_, _, t, (Delivered.eachRow hexec hrows).ends hsupports, ?_, ?_, ?_⟩
  · simp [Outcome.ofVerdicts, Outcome.rowsWith_map]
  · simp [Outcome.ofVerdicts, Outcome.rowsWith_map]
  · refine ⟨bulk, _, u, false, es, rfl, hbulk, hpass, ?_⟩
    intro i
    rw [List.count_append, hpass.nodup.count]
    simp

/-- When its bulk call fails, a sink that knows calls for single rows alone has accepted the rows
before the first one that it rejects. -/
theorem delivers_rowsOnly (h : w.writer.KnowsRowsOnly log accepts calls)
    (hsupports : w.writer.supports action = true) (rows : List Row) (s : Site σ) :
    ∃ es outcome t, Delivers log accepts w action rows (timesAccepted accepts rows) s
      es outcome t := by
  have hreached := h.reached hsupports
  by_cases hrows : ∀ row ∈ rows, accepts row = true
  · obtain ⟨t, hexec, hlog⟩ := hreached.forM_accepted hrows s
    have hbatch : (w.writer.sink.batch action rows).exec s = (.ok (), t) := by
      rw [h.batch]
      exact hexec
    obtain ⟨es, outcome, hdelivers⟩ := delivers_bulk hsupports hrows hbatch hlog
    rw [timesAccepted_of_all hrows]
    exact ⟨es, outcome, t, hdelivers⟩
  · have hsome : ∃ row ∈ rows, accepts row = false := by simpa using hrows
    obtain ⟨e, u, hexec, hlog⟩ := hreached.forM_rejected hsome s
    have hbatch : (w.writer.sink.batch action rows).exec s = (.error (.error e), u) := by
      rw [h.batch]
      exact hexec
    have hbulk := inPass_takeWhile hlog
    have htimes : timesAccepted accepts rows = fun i =>
        ((List.finRange rows.length).takeWhile fun i => accepts rows[i]).count i +
          if accepts rows[i] then 1 else 0 := by
      funext i
      rw [timesAccepted_of_rejected hsome, hbulk.nodup.count]
      simp only [mem_takeWhile_positions]
    rw [htimes]
    exact delivers_retry h.toJudges hsupports hbatch hbulk

/-- When its bulk call fails, a sink that checks all rows first has accepted none. -/
theorem delivers_checksFirst (h : w.writer.ChecksFirst log accepts calls)
    (hsupports : w.writer.supports action = true) (rows : List Row) (s : Site σ) :
    ∃ es outcome t, Delivers log accepts w action rows (fun i => if accepts rows[i] then 1 else 0) s
      es outcome t := by
  by_cases hrows : ∀ row ∈ rows, accepts row = true
  · obtain ⟨t, hexec, hlog⟩ := h.accepted action rows s hsupports hrows
    obtain ⟨es, outcome, hdelivers⟩ := delivers_bulk hsupports hrows hexec hlog
    have htimes : (fun i : Fin rows.length => if accepts rows[i] then 1 else 0) = fun _ => 1 := by
      funext i
      simp [hrows]
    rw [htimes]
    exact ⟨es, outcome, t, hdelivers⟩
  · have hsome : ∃ row ∈ rows, accepts row = false := by simpa using hrows
    obtain ⟨e, u, hexec, hlog⟩ := h.rejected action rows s hsupports hsome
    simpa using delivers_retry h.toJudges hsupports hexec (inPass_nil hlog)

/-- What a writer does when it has given rows to its sink: it hands them on to the writers that
follow it, and to the dead letters. -/
def handOn (engine : Engine σ) (key : String) (settings : WriterSettings) (w : ReadyWriter σ)
    (onSuccess onFailure : Option WriterSpec) (outcome : Outcome) : Run σ EngineError Outcome := do
  engine.followUp key settings w onSuccess onFailure outcome
  engine.bury key outcome.failed
  return outcome

/-- A writer gives rows to its sink, which accepts the row at each position so many times, and then
hands on what has been written and what has failed. -/
def WriteDelivers (engine : Engine σ) (key : String) (settings : WriterSettings)
    (onSuccess onFailure : Option WriterSpec) (w : ReadyWriter σ) (log : AcceptanceLog σ)
    (accepts : Row → Bool) (rows : List Row) (times : Fin rows.length → Nat) (s : Site σ) : Prop :=
  ∃ es outcome t, Delivers log accepts w settings.action rows times s es outcome t ∧
    ∀ es' answer u,
      (engine.handOn key settings w onSuccess onFailure outcome).Ends t es' answer u →
      (engine.write key (.mk settings onSuccess onFailure) w rows).Ends s (es ++ es') answer u

theorem writeDelivers (henabled : settings.enabled) (hsupports : w.writer.supports settings.action)
    (hrows : rows ≠ []) {times : Fin rows.length → Nat}
    (h : ∃ es outcome t, Delivers log accepts w settings.action rows times s es outcome t) :
    engine.WriteDelivers key settings onSuccess onFailure w log accepts rows times s := by
  obtain ⟨es, outcome, t, hdelivers⟩ := h
  refine ⟨es, outcome, t, hdelivers, ?_⟩
  intro es' answer u hrest
  rw [write_followUp henabled hrows hsupports]
  exact hdelivers.ends.bind hrest

/-- **How often a sink accepts the rows of a writer.** The rows come to a sink in one call and, if
that fails, each in a call of its own, both times in order. A sink that knows calls for single rows
alone accepts a row twice if it stands before the first one that is rejected, and otherwise once; a
sink that checks all rows first accepts each row once. Neither accepts a row that it rejects. The
rows that are accepted count as written, once each, and the others as failed. A row that is to be
created or replaced comes to the sink to be replaced. -/
theorem write_deliveries (engine : Engine σ) (key : String)
    (onSuccess onFailure : Option WriterSpec)
    (henabled : settings.enabled) (hsupports : w.writer.supports settings.action)
    (log : AcceptanceLog σ) (accepts : Row → Bool) (calls : RowCalls σ) (rows : List Row)
    (s : Site σ) :
    (rows = [] → (engine.write key (.mk settings onSuccess onFailure) w rows).Ends s
      [.event (.writerSkipped key w.target.name "no rows")] (.ok { skipped := true }) s) ∧
    (rows ≠ [] → w.writer.KnowsRowsOnly log accepts calls →
      engine.WriteDelivers key settings onSuccess onFailure w log accepts rows
        (timesAccepted accepts rows) s) ∧
    (rows ≠ [] → w.writer.ChecksFirst log accepts calls →
      engine.WriteDelivers key settings onSuccess onFailure w log accepts rows
        (fun i => if accepts rows[i] then 1 else 0) s) := by
  refine ⟨?_, ?_, ?_⟩
  · rintro rfl
    rw [write_nil henabled]
    exact skip_ends ..
  · intro hrows h
    exact writeDelivers henabled hsupports hrows (delivers_rowsOnly h hsupports rows s)
  · intro hrows h
    exact writeDelivers henabled hsupports hrows (delivers_checksFirst h hsupports rows s)

/-- A call that rejects empty rows. -/
def sampleCall (row : Row) : Act Unit AdapterError Unit :=
  if row.isEmpty then Act.fail (.rejected "no fields") else pure ()

def sampleCalls : RowCalls (Watched Unit) :=
  RowCalls.watched ⟨sampleCall, sampleCall, sampleCall⟩

/-- A sink with the same calls, and a bulk call that checks all rows. -/
def sampleChecking : Sink (Watched Unit) where
  batch action rows := fun s =>
    if rows.any (·.isEmpty) then (.error (.error (.rejected "no fields")), s)
    else
      let log := s.world.state.2 ++ rows.map (action.reached, ·)
      (.ok (), { s with world := { s.world with state := ((), log) } })
  row := sampleCalls.row

theorem judges_sampleCalls (action : WriteAction) (h : action.reached = action) :
    JudgesRows Watched.log (!·.isEmpty) action (sampleCalls.row action) := by
  have haccepted (row : Row) (s : Site Unit) (hrow : (!row.isEmpty) = true) :
      ∃ t, (sampleCall row).exec s = (.ok (), t) := by
    refine ⟨s, ?_⟩
    rw [sampleCall, if_neg (by simpa using hrow)]
    rfl
  have hrejected (row : Row) (s : Site Unit) (hrow : (!row.isEmpty) = false) :
      ∃ e t, (sampleCall row).exec s = (.error (.error e), t) := by
    refine ⟨.rejected "no fields", s, ?_⟩
    rw [sampleCall, if_pos (by simpa using hrow)]
    rfl
  cases action with
  | createOrReplace => cases h
  | create | update | replace => exact judges_watch haccepted hrejected _

def sampleWatching : Engine (Watched Unit) where
  registry := {}
  scripts :=
    { load := fun _ => Access.fail (.unsupported "scripts")
      invoke := fun function _ => Access.fail (.unknownFunction function) }

def sampleStored : ReadyWriter (Watched Unit) := ⟨⟨"table", none⟩, ⟨false, sampleCalls.toSink⟩⟩

def sampleChecked : ReadyWriter (Watched Unit) := ⟨⟨"table", none⟩, ⟨false, sampleChecking⟩⟩

theorem sampleStored_rowsOnly :
    sampleStored.writer.KnowsRowsOnly Watched.log (!·.isEmpty) sampleCalls where
  row := rfl
  judges action h _ := judges_sampleCalls action h
  batch := rfl

theorem sampleChecked_checksFirst :
    sampleChecked.writer.ChecksFirst Watched.log (!·.isEmpty) sampleCalls where
  row := rfl
  judges action h _ := judges_sampleCalls action h
  accepted action rows s _ hrows := by
    refine ⟨_, if_neg ?_, rfl⟩
    intro hany
    obtain ⟨row, hmem, hempty⟩ := List.any_eq_true.mp hany
    have hnot := hrows row hmem
    simp [hempty] at hnot
  rejected action rows s _ hrows := by
    refine ⟨_, s, if_pos ?_, rfl⟩
    simpa using hrows

/-- The second of three rows is rejected. -/
def sampleGiven : List Row := [[("id", .nat 1)], [], [("id", .nat 2)]]

theorem write_deliveries_watched :
    let settings : WriterSettings := { action := .createOrReplace }
    let start : Site (Watched Unit) := ⟨.empty, { state := ((), []) }⟩
    settings.enabled ∧ sampleStored.writer.supports settings.action ∧
    sampleChecked.writer.supports settings.action ∧
    sampleWatching.WriteDelivers "p" settings none none sampleStored Watched.log (!·.isEmpty)
      sampleGiven (timesAccepted (!·.isEmpty) sampleGiven) start ∧
    (List.finRange 3).map (timesAccepted (!·.isEmpty) sampleGiven) = [2, 0, 1] ∧
    sampleWatching.WriteDelivers "p" settings none none sampleChecked Watched.log (!·.isEmpty)
      sampleGiven (fun i => if !sampleGiven[i].isEmpty then 1 else 0) start := by
  intro settings start
  have henabled : settings.enabled := rfl
  have hstored : sampleStored.writer.supports settings.action := rfl
  have hchecked : sampleChecked.writer.supports settings.action := rfl
  have hrows : sampleGiven ≠ [] := List.cons_ne_nil _ _
  obtain ⟨-, htwice, -⟩ := write_deliveries sampleWatching "p" none none henabled hstored
    Watched.log (!·.isEmpty) sampleCalls sampleGiven start
  obtain ⟨-, -, honce⟩ := write_deliveries sampleWatching "p" none none henabled hchecked
    Watched.log (!·.isEmpty) sampleCalls sampleGiven start
  exact ⟨henabled, hstored, hchecked, htwice hrows sampleStored_rowsOnly, rfl,
    honce hrows sampleChecked_checksFirst⟩

end Engine

end RowFlow
