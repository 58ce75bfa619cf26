import RowFlow.Engine.Journal

/-!
# What a part of a run does

A part of a run works on its site and adds to the journal, which it does not look at (`Run.Adds`).
So what it does from a site is told by the entries it makes, its answer and the site it leaves
(`Run.Ends`), and a sequence of parts makes the entries of its parts one after another
(`Run.ends_bind_iff`).
-/

namespace RowFlow

variable {σ ε α : Type}

/-- What a call answers in a world, and the world it leaves. -/
def Access.exec (call : Access σ ε α) (world : World σ) : Except (Failure ε) α × World σ :=
  call world

/-- What a call answers at a site, and the site it leaves. -/
def Act.exec (act : Act σ ε α) (s : Site σ) : Except (Failure ε) α × Site σ := act s

theorem Access.exec_toAct (call : Access σ ε α) (s : Site σ) :
    call.toAct.exec s =
      ((call.exec s.world).1, { s with world := (call.exec s.world).2 }) := rfl

theorem Act.exec_bind_of_ok {β : Type} {act : Act σ ε α} {f : α → Act σ ε β} {a : α}
    (h : act.exec s = (.ok a, t)) : (act >>= f).exec s = (f a).exec t := by
  change (match act.exec s with | (answer, s) => ExceptT.bindCont f answer s) = _
  rw [h]
  rfl

theorem Act.exec_bind_of_error {β : Type} {act : Act σ ε α} {f : α → Act σ ε β} {e : Failure ε}
    (h : act.exec s = (.error e, t)) : (act >>= f).exec s = (.error e, t) := by
  change (match act.exec s with | (answer, s) => ExceptT.bindCont f answer s) = _
  rw [h]
  rfl

namespace Run

variable {σ ε ε' α β : Type}

/-- How the part ends, and what it leaves, when it is begun in a run on its way. -/
def exec (run : Run σ ε α) (live : Live σ) : Except (Failure ε) α × Live σ := run live

/-- Begun at `s` with any journal, the part makes the entries `es`, the oldest first, and ends at
`t` with the answer. -/
structure Ends (run : Run σ ε α) (s : Site σ) (es : List (Entry σ))
    (answer : Except (Failure ε) α) (t : Site σ) : Prop where
  exec : ∀ journal, run.exec ⟨s, journal⟩ = (answer, ⟨t, es.reverse ++ journal⟩)

/-- From every site the part adds to the journal, and the journal has no influence on it. -/
class Adds (run : Run σ ε α) : Prop where
  ends (run) : ∀ s, ∃ es answer t, run.Ends s es answer t

variable {run : Run σ ε α} {f : α → Run σ ε β} {s t u : Site σ} {es es' : List (Entry σ)}
  {answer answer' : Except (Failure ε) α}

theorem Ends.unique (h : run.Ends s es answer t) (h' : run.Ends s es' answer' u) :
    es = es' ∧ answer = answer' ∧ t = u := by
  have heq := (h.exec []).symm.trans (h'.exec [])
  simp only [List.append_nil, Prod.mk.injEq, Live.mk.injEq, List.reverse_inj] at heq
  exact ⟨heq.2.2, heq.1, heq.2.1⟩

/-- How a part ends does not depend on what was in the journal before. -/
theorem exec_of_ends {live live' : Live σ} (h : run.Ends live.toSite es answer live'.toSite)
    (hjournal : live'.journal = es.reverse ++ live.journal) : run.exec live = (answer, live') := by
  have hexec := h.exec live.journal
  rwa [← hjournal] at hexec

/-- The entries of a part can be read off the journals before and after it. -/
theorem ends_of_exec [Adds run] {live live' : Live σ} (h : run.exec live = (answer, live')) :
    ∃ es, run.Ends live.toSite es answer live'.toSite ∧
      live'.journal = es.reverse ++ live.journal := by
  obtain ⟨es, answer', t, he⟩ := Adds.ends run live.toSite
  cases (he.exec live.journal).symm.trans h
  exact ⟨es, he, rfl⟩

/-! ## Parts in sequence -/

theorem ends_pure (a : α) : (pure a : Run σ ε α).Ends s [] (.ok a) s := ⟨fun _ => rfl⟩

theorem exec_bind (run : Run σ ε α) (f : α → Run σ ε β) (live : Live σ) :
    (run >>= f).exec live =
      match run.exec live with
      | (.ok a, live) => (f a).exec live
      | (.error e, live) => (.error e, live) := by
  show (match run.exec live with | (answer, live) => ExceptT.bindCont f answer live) = _
  rcases run.exec live with ⟨_ | _, _⟩ <;> rfl

theorem exec_bind_of_ok {live live' : Live σ} {a : α} (h : run.exec live = (.ok a, live')) :
    (run >>= f).exec live = (f a).exec live' := by
  rw [exec_bind, h]

theorem exec_bind_of_error {live live' : Live σ} {e : Failure ε}
    (h : run.exec live = (.error e, live')) : (run >>= f).exec live = (.error e, live') := by
  rw [exec_bind, h]

/-- A value that is answered in the end leaves everything as it is. -/
theorem exec_bind_pure_snd (run : Run σ ε α) (b : β) (live : Live σ) :
    ((run >>= fun _ => (pure b : Run σ ε β)).exec live).2 = (run.exec live).2 := by
  rw [exec_bind]
  rcases run.exec live with ⟨_ | _, _⟩ <;> rfl

/-- The entries of parts in sequence are put one after the other. -/
theorem Ends.bind {a : α} {answer : Except (Failure ε) β} (h : run.Ends s es (.ok a) t)
    (h' : (f a).Ends t es' answer u) : (run >>= f).Ends s (es ++ es') answer u := by
  refine ⟨fun journal => ?_⟩
  rw [exec_bind, h.exec journal, List.reverse_append, List.append_assoc]
  exact h'.exec _

theorem Ends.bind_silent {a : α} {answer : Except (Failure ε) β} (h : run.Ends s [] (.ok a) t)
    (h' : (f a).Ends t es answer u) : (run >>= f).Ends s es answer u := h.bind h'

/-- What would have followed an error or a panic is not begun. -/
theorem Ends.bind_error {e : Failure ε} (h : run.Ends s es (.error e) t) :
    (run >>= f).Ends s es (.error e) t := by
  refine ⟨fun journal => ?_⟩
  rw [exec_bind, h.exec journal]

instance (a : α) : Adds (pure a : Run σ ε α) := ⟨fun s => ⟨[], .ok a, s, ends_pure a⟩⟩

instance [Adds run] [∀ a, Adds (f a)] : Adds (run >>= f) := by
  refine ⟨fun s => ?_⟩
  obtain ⟨es, answer, t, h⟩ := Adds.ends run s
  cases answer with
  | error e => exact ⟨es, .error e, t, h.bind_error⟩
  | ok a =>
    obtain ⟨es', answer', u, h'⟩ := Adds.ends (f a) t
    exact ⟨es ++ es', answer', u, h.bind h'⟩

/-- A part that has ended well goes on with what follows. -/
theorem Ends.bind_iff {a : α} {answer : Except (Failure ε) β} (h : run.Ends s es (.ok a) t)
    [Adds (f a)] :
    (run >>= f).Ends s es' answer u ↔ ∃ es₂, (f a).Ends t es₂ answer u ∧ es' = es ++ es₂ := by
  constructor
  · intro h'
    obtain ⟨es₂, answer₂, v, h₂⟩ := Adds.ends (f a) t
    obtain ⟨rfl, rfl, rfl⟩ := h'.unique (h.bind h₂)
    exact ⟨es₂, h₂, rfl⟩
  · rintro ⟨es₂, h₂, rfl⟩
    exact h.bind h₂

/-- A part that makes no entries and ends well can be left out. -/
theorem Ends.bind_silent_iff {a : α} {answer : Except (Failure ε) β} (h : run.Ends s [] (.ok a) t) :
    (run >>= f).Ends s es answer u ↔ (f a).Ends t es answer u := by
  refine ⟨fun h' => ⟨fun journal => ?_⟩, h.bind_silent⟩
  rw [← h'.exec journal, exec_bind, h.exec journal]
  rfl

/-- A sequence ends with the error of its first part, or as its second part ends. -/
theorem ends_bind_iff [Adds run] [∀ a, Adds (f a)] {answer : Except (Failure ε) β} :
    (run >>= f).Ends s es answer u ↔
      (∃ e, answer = .error e ∧ run.Ends s es (.error e) u) ∨
        ∃ a es₁ t es₂, run.Ends s es₁ (.ok a) t ∧ (f a).Ends t es₂ answer u ∧ es = es₁ ++ es₂ := by
  constructor
  · intro h
    obtain ⟨es₁, answer₁, t, h₁⟩ := Adds.ends run s
    cases answer₁ with
    | error e =>
      obtain ⟨rfl, rfl, rfl⟩ := h.unique h₁.bind_error
      exact .inl ⟨e, rfl, h₁⟩
    | ok a =>
      obtain ⟨es₂, answer₂, v, h₂⟩ := Adds.ends (f a) t
      obtain ⟨rfl, rfl, rfl⟩ := h.unique (h₁.bind h₂)
      exact .inr ⟨a, es₁, t, es₂, h₁, h₂, rfl⟩
  · rintro (⟨e, rfl, h⟩ | ⟨a, es₁, t, es₂, h₁, h₂, rfl⟩)
    · exact h.bind_error
    · exact h₁.bind h₂

theorem ends_bind_ok_iff [Adds run] [∀ a, Adds (f a)] {b : β} :
    (run >>= f).Ends s es (.ok b) u ↔
      ∃ a es₁ t es₂, run.Ends s es₁ (.ok a) t ∧ (f a).Ends t es₂ (.ok b) u ∧ es = es₁ ++ es₂ := by
  rw [ends_bind_iff]
  simp

/-- A sequence breaks off in its first part or in its second. -/
theorem ends_bind_error_iff [Adds run] [∀ a, Adds (f a)] {e : Failure ε} :
    (run >>= f).Ends s es (.error e) u ↔
      run.Ends s es (.error e) u ∨
        ∃ a es₁ t es₂, run.Ends s es₁ (.ok a) t ∧ (f a).Ends t es₂ (.error e) u ∧
          es = es₁ ++ es₂ := by
  rw [ends_bind_iff]
  simp

theorem Ends.bind_pure {a : α} (g : α → β) (h : run.Ends s es (.ok a) t) :
    (run >>= fun a => pure (g a)).Ends s es (.ok (g a)) t := by
  have hlast : (run >>= fun a => pure (g a)).Ends s (es ++ []) (.ok (g a)) t :=
    h.bind (ends_pure (g a))
  rwa [List.append_nil] at hlast

/-- A part fails as it does without the value that is answered in the end. -/
theorem ends_bind_pure_error_iff [Adds run] {g : α → β} {e : Failure ε} :
    (run >>= fun a => pure (g a)).Ends s es (.error e) t ↔ run.Ends s es (.error e) t := by
  rw [ends_bind_error_iff]
  refine ⟨?_, .inl⟩
  rintro (h | ⟨a, es₁, t₁, es₂, -, hpure, -⟩)
  · exact h
  · obtain ⟨-, hanswer, -⟩ := hpure.unique (ends_pure (g a))
    cases hanswer

theorem Ends.map (g : α → β) (h : run.Ends s es answer t) :
    (g <$> run).Ends s es (answer.map g) t := by
  rw [map_eq_pure_bind]
  cases answer with
  | error e => exact h.bind_error
  | ok a => exact h.bind_pure g

theorem ends_map_ok_iff [Adds run] {g : α → β} {b : β} :
    (g <$> run).Ends s es (.ok b) t ↔ ∃ a, run.Ends s es (.ok a) t ∧ b = g a := by
  constructor
  · intro h
    obtain ⟨es₁, answer₁, t₁, h₁⟩ := Adds.ends run s
    obtain ⟨rfl, hb, rfl⟩ := h.unique (h₁.map g)
    cases answer₁ with
    | error e => cases hb
    | ok a => exact ⟨a, h₁, by cases hb; rfl⟩
  · rintro ⟨a, h, rfl⟩
    exact h.map g

/-! ## Single steps -/

theorem adds_of_ends {es : Site σ → List (Entry σ)} {answer : Site σ → Except (Failure ε) α}
    {next : Site σ → Site σ} (h : ∀ s, run.Ends s (es s) (answer s) (next s)) : Adds run :=
  ⟨fun s => ⟨es s, answer s, next s, h s⟩⟩

/-- What a part does from a site is all that it can do from there. -/
theorem Ends.iff (h : run.Ends s es answer t) :
    run.Ends s es' answer' u ↔ es' = es ∧ answer' = answer ∧ u = t :=
  ⟨fun h' => h'.unique h, fun ⟨hes, ha, ht⟩ => hes ▸ ha ▸ ht ▸ h⟩

@[simp] theorem ends_pure_iff {a : α} :
    (pure a : Run σ ε α).Ends s es answer t ↔ es = [] ∧ answer = .ok a ∧ t = s :=
  (ends_pure a).iff

theorem ends_fail (e : ε) : (fail e : Run σ ε α).Ends s [] (.error (.error e)) s := ⟨fun _ => rfl⟩

instance (e : ε) : Adds (fail e : Run σ ε α) := adds_of_ends fun _ => ends_fail e

@[simp] theorem ends_fail_iff {e : ε} :
    (fail e : Run σ ε α).Ends s es answer t ↔ es = [] ∧ answer = .error (.error e) ∧ t = s :=
  (ends_fail e).iff

theorem ends_ofExcept (x : Except ε α) :
    (ofExcept x : Run σ ε α).Ends s [] (x.mapError .error) s := by
  cases x with
  | ok a => exact ends_pure a
  | error e => exact ends_fail e

instance (x : Except ε α) : Adds (ofExcept x : Run σ ε α) := adds_of_ends fun _ => ends_ofExcept x

@[simp] theorem ends_ofExcept_iff {x : Except ε α} :
    (ofExcept x : Run σ ε α).Ends s es answer t ↔
      es = [] ∧ answer = x.mapError .error ∧ t = s :=
  (ends_ofExcept x).iff

@[simp] theorem ends_ofExcept_ok_iff {x : Except ε α} {a : α} :
    (ofExcept x : Run σ ε α).Ends s es (.ok a) t ↔ es = [] ∧ x = .ok a ∧ t = s := by
  constructor
  · intro h
    obtain ⟨rfl, hx, rfl⟩ := ends_ofExcept_iff.mp h
    cases x with
    | error e => cases hx
    | ok b =>
      cases hx
      exact ⟨rfl, rfl, rfl⟩
  · rintro ⟨rfl, rfl, rfl⟩
    exact ends_ofExcept _

theorem ends_ofExcept_seq (x y : Except ε Unit) :
    (do ofExcept x; ofExcept y : Run σ ε Unit).Ends s []
      ((x.mapError .error).bind fun _ => y.mapError .error) s := by
  cases x with
  | error e => exact (ends_fail e).bind_error
  | ok => exact (ends_pure ()).bind_silent (ends_ofExcept y)

theorem ends_context : (context : Run σ ε Context).Ends s [] (.ok s.context) s := ⟨fun _ => rfl⟩

instance : Adds (context : Run σ ε Context) := adds_of_ends fun _ => ends_context

theorem ends_world : (world : Run σ ε (World σ)).Ends s [] (.ok s.world) s := ⟨fun _ => rfl⟩

instance : Adds (world : Run σ ε (World σ)) := adds_of_ends fun _ => ends_world

theorem ends_modifyContext (g : Context → Context) :
    (modifyContext g : Run σ ε Unit).Ends s [] (.ok ()) { s with context := g s.context } :=
  ⟨fun _ => rfl⟩

instance (g : Context → Context) : Adds (modifyContext g : Run σ ε Unit) :=
  adds_of_ends fun _ => ends_modifyContext g

theorem ends_emit (event : Event) :
    (emit event : Run σ ε Unit).Ends s [.event event] (.ok ()) s := ⟨fun _ => rfl⟩

instance (event : Event) : Adds (emit event : Run σ ε Unit) := adds_of_ends fun _ => ends_emit event

@[simp] theorem ends_emit_iff {event : Event} {answer : Except (Failure ε) Unit} :
    (emit event : Run σ ε Unit).Ends s es answer t ↔
      es = [.event event] ∧ answer = .ok () ∧ t = s :=
  (ends_emit event).iff

theorem ends_begin (step : Step) :
    (begin step : Run σ ε Unit).Ends s [.step step] (.ok ()) s := ⟨fun _ => rfl⟩

instance (step : Step) : Adds (begin step : Run σ ε Unit) := adds_of_ends fun _ => ends_begin step

/-! ## Calls -/

/-- A call is entered with the sites before and after it, whatever its answer is. -/
theorem ends_call (what : Call) (act : Act σ ε α) :
    (call what act).Ends s [.call what s (act.exec s).2 (act.exec s).1.isOk] (act.exec s).1
      (act.exec s).2 := ⟨fun _ => rfl⟩

instance (what : Call) (act : Act σ ε α) : Adds (call what act) :=
  adds_of_ends fun _ => ends_call what act

theorem ends_call_of_exec (what : Call) {act : Act σ ε α} (h : act.exec s = (answer, t)) :
    (call what act).Ends s [.call what s t answer.isOk] answer t := by
  obtain ⟨rfl, rfl⟩ := Prod.mk.inj h
  exact ends_call what act

/-- A call is entered with what it was begun in and what it has left. -/
@[simp] theorem ends_call_iff {what : Call} {act : Act σ ε α} :
    (call what act).Ends s es answer t ↔
      act.exec s = (answer, t) ∧ es = [.call what s t answer.isOk] := by
  rw [(ends_call what act).iff]
  constructor
  · rintro ⟨rfl, rfl, rfl⟩
    exact ⟨rfl, rfl⟩
  · rintro ⟨h, rfl⟩
    simp [h]

instance (what : Call) (call : Access σ ε α) : Adds (access what call) :=
  inferInstanceAs (Adds (Run.call what call.toAct))

/-- A call that works on the world alone leaves the context as it is. -/
@[simp] theorem ends_access_iff {what : Call} {call : Access σ ε α} :
    (access what call).Ends s es answer t ↔
      call.exec s.world = (answer, t.world) ∧ t.context = s.context ∧
        es = [.call what s t answer.isOk] := by
  rw [access, ends_call_iff, Access.exec_toAct]
  constructor
  · rintro ⟨h, rfl⟩
    obtain ⟨rfl, rfl⟩ := Prod.mk.inj h
    exact ⟨rfl, rfl, rfl⟩
  · rintro ⟨h, hc, rfl⟩
    obtain ⟨context, world⟩ := t
    simp_all

theorem ends_access_of_exec (what : Call) {call : Access σ ε α} {world : World σ}
    (h : call.exec s.world = (answer, world)) :
    (access what call).Ends s [.call what s { s with world } answer.isOk] answer
      { s with world } :=
  ends_access_iff.mpr ⟨h, rfl, rfl⟩

/-- Work on the file system is not entered. -/
theorem ends_onDisk (call : StateM Disk (Except ε α)) :
    (onDisk call).Ends s [] ((call s.world.disk).1.mapError .error)
      { s with world := { s.world with disk := (call s.world.disk).2 } } := ⟨fun _ => rfl⟩

/-! ## Parts whose errors are caught or reworded -/

/-- What has become of a part when its errors are caught. -/
def caught : Except (Failure ε) α → Except (Failure ε') (Except ε α)
  | .ok a => .ok (.ok a)
  | .error (.error e) => .ok (.error e)
  | .error (.panic message) => .error (.panic message)

/-- Whatever does not panic is an answer of the part itself. -/
theorem panic_or_eq_mapError (answer : Except (Failure ε) α) :
    (∃ message, answer = .error (.panic message)) ∨
      ∃ x : Except ε α, answer = x.mapError .error := by
  rcases answer with (e | message) | a
  · exact .inr ⟨.error e, rfl⟩
  · exact .inl ⟨message, rfl⟩
  · exact .inr ⟨.ok a, rfl⟩

theorem caught_mapError (x : Except ε α) :
    (caught (x.mapError .error) : Except (Failure ε') (Except ε α)) = .ok x := by
  cases x <;> rfl

/-- An error is caught and becomes a value. A panic goes on. -/
theorem Ends.attempt (h : run.Ends s es answer t) :
    (run.attempt : Run σ ε' (Except ε α)).Ends s es (caught answer) t := by
  refine ⟨fun journal => ?_⟩
  have hrun := h.exec journal
  simp only [Run.exec] at hrun
  simp only [Run.exec, Run.attempt, hrun]
  rcases answer with (_ | _) | _ <;> rfl

theorem Ends.attempt_ok {x : Except ε α} (h : run.Ends s es (x.mapError .error) t) :
    (run.attempt : Run σ ε' (Except ε α)).Ends s es (.ok x) t := by
  rw [← caught_mapError x]
  exact h.attempt

instance [Adds run] : Adds (run.attempt : Run σ ε' (Except ε α)) := by
  refine ⟨fun s => ?_⟩
  obtain ⟨es, answer, t, h⟩ := Adds.ends run s
  exact ⟨es, _, t, h.attempt⟩

theorem ends_attempt_iff [Adds run] {answer : Except (Failure ε') (Except ε α)} :
    (run.attempt : Run σ ε' (Except ε α)).Ends s es answer t ↔
      ∃ answer₁, run.Ends s es answer₁ t ∧ answer = caught answer₁ := by
  constructor
  · intro h
    obtain ⟨es₁, answer₁, t₁, h₁⟩ := Adds.ends run s
    obtain ⟨rfl, rfl, rfl⟩ := h.unique h₁.attempt
    exact ⟨answer₁, h₁, rfl⟩
  · rintro ⟨answer₁, h, rfl⟩
    exact h.attempt

/-- Rewording the errors changes nothing else, and panics keep their texts. -/
theorem Ends.mapError (g : ε → ε') (h : run.Ends s es answer t) :
    (run.mapError g).Ends s es (answer.mapError (Failure.map g)) t := by
  refine ⟨fun journal => ?_⟩
  have hrun := h.exec journal
  simp only [Run.exec] at hrun
  simp only [Run.exec, Run.mapError, hrun]

instance [Adds run] (g : ε → ε') : Adds (run.mapError g) := by
  refine ⟨fun s => ?_⟩
  obtain ⟨es, answer, t, h⟩ := Adds.ends run s
  exact ⟨es, _, t, h.mapError g⟩

/-- An error that was reworded comes from one that was not. -/
theorem ends_mapError_iff [Adds run] {g : ε → ε'} {answer : Except (Failure ε') α} :
    (run.mapError g).Ends s es answer t ↔
      ∃ answer₁, run.Ends s es answer₁ t ∧ answer = answer₁.mapError (Failure.map g) := by
  constructor
  · intro h
    obtain ⟨es₁, answer₁, t₁, h₁⟩ := Adds.ends run s
    obtain ⟨rfl, rfl, rfl⟩ := h.unique (h₁.mapError g)
    exact ⟨answer₁, h₁, rfl⟩
  · rintro ⟨answer₁, h, rfl⟩
    exact h.mapError g

/-! ## Parts that are chosen or repeated -/

instance {c : Prop} [Decidable c] {run' : Run σ ε α} [Adds run] [Adds run'] :
    Adds (if c then run else run') := by
  split <;> infer_instance

instance {g : β → Run σ ε Unit} [∀ b, Adds (g b)] (bs : List β) : Adds (bs.forM g) := by
  induction bs with
  | nil => exact inferInstanceAs (Adds (pure ()))
  | cons b bs ih => exact inferInstanceAs (Adds (g b >>= fun _ => bs.forM g))

/-! ## The entries of a part -/

/-- From every site the part adds to the journal, and nothing but entries of a kind. -/
structure Makes (kind : Entry σ → Prop) (run : Run σ ε α) : Prop where
  ends : ∀ s, ∃ es answer t, run.Ends s es answer t ∧ ∀ entry ∈ es, kind entry

variable {kind kind' : Entry σ → Prop}

namespace Makes

theorem adds (h : Makes kind run) : Adds run := by
  refine ⟨fun s => ?_⟩
  obtain ⟨es, answer, t, hends, -⟩ := h.ends s
  exact ⟨es, answer, t, hends⟩

theorem of_ends (h : Makes kind run) (hends : run.Ends s es answer t) :
    ∀ entry ∈ es, kind entry := by
  obtain ⟨es', _, _, hends', hkind⟩ := h.ends s
  obtain ⟨rfl, -, -⟩ := hends.unique hends'
  exact hkind

theorem of_adds [Adds run] : Makes (fun _ => True) run := by
  refine ⟨fun s => ?_⟩
  obtain ⟨es, answer, t, hends⟩ := Adds.ends run s
  exact ⟨es, answer, t, hends, fun _ _ => trivial⟩

theorem mono (h : Makes kind run) (himp : ∀ entry, kind entry → kind' entry) :
    Makes kind' run := by
  refine ⟨fun s => ?_⟩
  obtain ⟨es, answer, t, hends, hkind⟩ := h.ends s
  exact ⟨es, answer, t, hends, fun entry he => himp entry (hkind entry he)⟩

/-- A part that makes no entries makes only entries of any kind. -/
theorem nothing {answer : Site σ → Except (Failure ε) α} {next : Site σ → Site σ}
    (h : ∀ s, run.Ends s [] (answer s) (next s)) : Makes kind run :=
  ⟨fun s => ⟨[], answer s, next s, h s, List.forall_mem_nil _⟩⟩

theorem pure (a : α) : Makes kind (Pure.pure a : Run σ ε α) := nothing fun _ => ends_pure a

theorem fail (e : ε) : Makes kind (Run.fail e : Run σ ε α) := nothing fun _ => ends_fail e

theorem ofExcept (x : Except ε α) : Makes kind (Run.ofExcept x : Run σ ε α) :=
  nothing fun _ => ends_ofExcept x

theorem context : Makes kind (Run.context : Run σ ε Context) := nothing fun _ => ends_context

theorem world : Makes kind (Run.world : Run σ ε (World σ)) := nothing fun _ => ends_world

theorem emit {event : Event} (h : kind (.event event)) :
    Makes kind (Run.emit event : Run σ ε Unit) :=
  ⟨fun s => ⟨_, _, s, ends_emit event, by simpa using h⟩⟩

theorem begin {step : Step} (h : kind (.step step)) :
    Makes kind (Run.begin step : Run σ ε Unit) :=
  ⟨fun s => ⟨_, _, s, ends_begin step, by simpa using h⟩⟩

theorem call {what : Call} {act : Act σ ε α} (h : ∀ s t ok, kind (.call what s t ok)) :
    Makes kind (Run.call what act) :=
  ⟨fun s => ⟨_, _, _, ends_call what act, by simpa using h _ _ _⟩⟩

/-- A component that is not given the context leaves it as it is. -/
theorem access {what : Call} {call : Access σ ε α}
    (h : ∀ s t ok, t.context = s.context → kind (.call what s t ok)) :
    Makes kind (Run.access what call) :=
  ⟨fun s => ⟨_, _, _, ends_call what call.toAct, List.forall_mem_singleton.mpr (h s _ _ rfl)⟩⟩

theorem bind (h : Makes kind run) (h' : ∀ a, Makes kind (f a)) : Makes kind (run >>= f) := by
  refine ⟨fun s => ?_⟩
  obtain ⟨es, answer, t, hends, hkind⟩ := h.ends s
  cases answer with
  | error e => exact ⟨es, .error e, t, hends.bind_error, hkind⟩
  | ok a =>
    obtain ⟨es', answer', u, hends', hkind'⟩ := (h' a).ends t
    refine ⟨es ++ es', answer', u, hends.bind hends', fun entry he => ?_⟩
    exact (List.mem_append.mp he).elim (hkind entry) (hkind' entry)

/-- A part that begins with an answer goes on only if that is no error. -/
theorem ofExcept_bind {x : Except ε α} (h : ∀ a, x = .ok a → Makes kind (f a)) :
    Makes kind (Run.ofExcept x >>= f) := by
  cases x with
  | error e => exact nothing fun _ => (ends_fail e).bind_error
  | ok a => exact h a rfl

theorem attempt (h : Makes kind run) :
    Makes kind (run.attempt : Run σ ε' (Except ε α)) := by
  refine ⟨fun s => ?_⟩
  obtain ⟨es, answer, t, hends, hkind⟩ := h.ends s
  exact ⟨es, _, t, hends.attempt, hkind⟩

theorem mapError (h : Makes kind run) (g : ε → ε') : Makes kind (run.mapError g) := by
  refine ⟨fun s => ?_⟩
  obtain ⟨es, answer, t, hends, hkind⟩ := h.ends s
  exact ⟨es, _, t, hends.mapError g, hkind⟩

theorem forM {g : β → Run σ ε Unit} (h : ∀ b, Makes kind (g b)) (bs : List β) :
    Makes kind (bs.forM g) := by
  induction bs with
  | nil => exact .pure ()
  | cons b bs ih => exact (h b).bind fun _ => ih

end Makes

/-- The entries of at most one call. -/
inductive AtMostOneCall : List (Entry σ) → Prop
  | nothing : AtMostOneCall []
  | one (what : Call) (before after : Site σ) (succeeded : Bool) :
    AtMostOneCall [.call what before after succeeded]

/-- From every site the part makes at most one call, and no other entries. -/
structure CallsOnce (run : Run σ ε α) : Prop where
  ends : ∀ s, ∃ es answer t, run.Ends s es answer t ∧ AtMostOneCall es

namespace CallsOnce

theorem of_ends (h : CallsOnce run) (hends : run.Ends s es answer t) : AtMostOneCall es := by
  obtain ⟨es', _, _, hends', hcalls⟩ := h.ends s
  obtain ⟨rfl, -, -⟩ := hends.unique hends'
  exact hcalls

theorem adds (h : CallsOnce run) : Adds run := by
  refine ⟨fun s => ?_⟩
  obtain ⟨es, answer, t, hends, -⟩ := h.ends s
  exact ⟨es, answer, t, hends⟩

theorem nothing {answer : Site σ → Except (Failure ε) α} {next : Site σ → Site σ}
    (h : ∀ s, run.Ends s [] (answer s) (next s)) : CallsOnce run :=
  ⟨fun s => ⟨[], answer s, next s, h s, .nothing⟩⟩

theorem pure (a : α) : CallsOnce (Pure.pure a : Run σ ε α) := nothing fun _ => ends_pure a

theorem ofExcept (x : Except ε α) : CallsOnce (Run.ofExcept x : Run σ ε α) :=
  nothing fun _ => ends_ofExcept x

theorem call (what : Call) (act : Act σ ε α) : CallsOnce (Run.call what act) :=
  ⟨fun _ => ⟨_, _, _, ends_call what act, .one ..⟩⟩

theorem access (what : Call) (call : Access σ ε α) : CallsOnce (Run.access what call) :=
  CallsOnce.call what call.toAct

theorem mapError (h : CallsOnce run) (g : ε → ε') : CallsOnce (run.mapError g) := by
  refine ⟨fun s => ?_⟩
  obtain ⟨es, answer, t, hends, hcalls⟩ := h.ends s
  exact ⟨es, _, t, hends.mapError g, hcalls⟩

/-- What goes before makes no entries. -/
theorem after {answer : Site σ → Except (Failure ε) α} {next : Site σ → Site σ}
    (h : ∀ s, run.Ends s [] (answer s) (next s)) (h' : ∀ a, CallsOnce (f a)) :
    CallsOnce (run >>= f) := by
  refine ⟨fun s => ?_⟩
  have hfirst := h s
  cases hanswer : answer s with
  | error e =>
    rw [hanswer] at hfirst
    exact ⟨[], .error e, _, hfirst.bind_error, .nothing⟩
  | ok a =>
    rw [hanswer] at hfirst
    obtain ⟨es, answer', t, hends, hcalls⟩ := (h' a).ends (next s)
    exact ⟨es, answer', t, hfirst.bind_silent hends, hcalls⟩

/-- What comes after is decided at once. -/
theorem bind_ofExcept (h : CallsOnce run) (g : α → Except ε β) :
    CallsOnce (run >>= fun a => Run.ofExcept (g a)) := by
  refine ⟨fun s => ?_⟩
  obtain ⟨es, answer, t, hends, hcalls⟩ := h.ends s
  cases answer with
  | error e => exact ⟨es, .error e, t, hends.bind_error, hcalls⟩
  | ok a =>
    refine ⟨es ++ [], _, t, hends.bind (ends_ofExcept (g a)), ?_⟩
    rw [List.append_nil]
    exact hcalls

end CallsOnce

/-! ## The errors of a part -/

variable {p : ε → Prop}

/-- Unless it panics, the part fails with nothing but errors of a kind. -/
structure Fails (p : ε → Prop) (run : Run σ ε α) : Prop where
  error : ∀ {live e live'}, run.exec live = (.error (.error e), live') → p e

namespace Fails

theorem pure (a : α) : Fails p (Pure.pure a : Run σ ε α) := ⟨nofun⟩

theorem context : Fails p (Run.context : Run σ ε Context) := ⟨nofun⟩

theorem begin (step : Step) : Fails p (Run.begin step : Run σ ε Unit) := ⟨nofun⟩

theorem bind (h : Fails p run) (h' : ∀ a, Fails p (f a)) : Fails p (run >>= f) := by
  refine ⟨fun {live e live'} hexec => ?_⟩
  rw [exec_bind] at hexec
  rcases hrun : run.exec live with ⟨e₁ | a, live₁⟩
  · rw [hrun] at hexec
    cases hexec
    exact h.error hrun
  · rw [hrun] at hexec
    exact (h' a).error hexec

theorem of_ends (h : Fails p run) (hends : run.Ends s es (.error (.error e)) t) : p e :=
  h.error (hends.exec [])

theorem mapError {g : ε' → ε} (h : ∀ e, p (g e)) (run : Run σ ε' α) :
    Fails p (run.mapError g) := by
  refine ⟨fun {live e live'} hexec => ?_⟩
  rcases hrun : run.exec live with ⟨(e₁ | message) | a, live₁⟩
  all_goals
    simp only [Run.exec] at hrun
    simp only [Run.exec, Run.mapError, hrun] at hexec
    cases hexec
  exact h e₁

theorem forM {g : β → Run σ ε Unit} (h : ∀ b, Fails p (g b)) (bs : List β) :
    Fails p (bs.forM g) := by
  induction bs with
  | nil => exact .pure ()
  | cons b bs ih => exact (h b).bind fun _ => ih

end Fails

end Run

/-! ## Answers -/

/-- An answer in two steps is one of the second step, after one of the first. -/
theorem bind_ok_iff {β : Type} {x : Except ε α} {f : α → Except ε β} {b : β} :
    x >>= f = .ok b ↔ ∃ a, x = .ok a ∧ f a = .ok b := by
  cases x with
  | error e => exact ⟨nofun, nofun⟩
  | ok a => exact ⟨fun h => ⟨a, rfl, h⟩, fun ⟨_, rfl, h⟩ => h⟩

/-- The error of an answer in two steps is that of the first step, or of the second. -/
theorem bind_error_iff {β : Type} {x : Except ε α} {f : α → Except ε β} {e : ε} :
    x >>= f = .error e ↔ x = .error e ∨ ∃ a, x = .ok a ∧ f a = .error e := by
  cases x with
  | error e₁ =>
    constructor
    · intro h
      cases h
      exact .inl rfl
    · rintro (h | ⟨_, h, -⟩)
      · cases h
        rfl
      · cases h
  | ok a =>
    refine ⟨fun h => .inr ⟨a, rfl, h⟩, ?_⟩
    rintro (h | ⟨_, h, h'⟩)
    · cases h
    · cases h
      exact h'

theorem map_ok_iff {x : Except ε α} {f : α → β} {b : β} :
    x.map f = .ok b ↔ ∃ a, x = .ok a ∧ f a = b := by
  cases x <;> simp [Except.map]

theorem map_error_iff {x : Except ε α} {f : α → β} {e : ε} :
    x.map f = .error e ↔ x = .error e := by
  cases x <;> simp [Except.map]

theorem mapError_ok_iff {x : Except ε α} {f : ε → ε'} {a : α} :
    x.mapError f = .ok a ↔ x = .ok a := by
  cases x with
  | error e =>
    change Except.error (f e) = _ ↔ _
    simp
  | ok b =>
    change Except.ok b = _ ↔ _
    simp

theorem mapError_error_iff {x : Except ε α} {f : ε → ε'} {e : ε'} :
    x.mapError f = .error e ↔ ∃ e₀, x = .error e₀ ∧ f e₀ = e := by
  cases x with
  | error e₀ =>
    change Except.error (f e₀) = _ ↔ _
    simp
  | ok a =>
    change Except.ok a = _ ↔ _
    simp

/-- An answer that is an error of a kind, if it is an error at all. -/
def ErrorIs (p : ε → Prop) : Except ε α → Prop
  | .error e => p e
  | .ok _ => True

namespace ErrorIs

variable {ε ε' α β : Type} {p : ε → Prop} {x : Except ε α} {f : α → Except ε β}

theorem bind (h : ErrorIs p x) (h' : ∀ a, ErrorIs p (f a)) : ErrorIs p (x >>= f) := by
  cases x with
  | error e => exact h
  | ok a => exact h' a

theorem of_error (h : ErrorIs p x) (hx : x = .error e) : p e := by
  subst hx
  exact h

theorem map (h : ErrorIs p x) (g : α → β) : ErrorIs p (x.map g) := by
  cases x with
  | error e => exact h
  | ok a => trivial

theorem mapError {g : ε' → ε} (h : ∀ e, p (g e)) (x : Except ε' α) : ErrorIs p (x.mapError g) := by
  cases x with
  | error e => exact h e
  | ok a => trivial

theorem forM {g : β → Except ε Unit} (h : ∀ b, ErrorIs p (g b)) (bs : List β) :
    ErrorIs p (bs.forM g) := by
  induction bs with
  | nil => trivial
  | cons b bs ih => exact (h b).bind fun _ => ih

end ErrorIs

theorem Run.Fails.ofExcept {p : ε → Prop} {x : Except ε α} (h : ErrorIs p x) :
    Run.Fails p (Run.ofExcept x : Run σ ε α) := by
  refine ⟨fun {live e live'} hexec => ?_⟩
  cases x with
  | ok a => cases hexec
  | error e₁ =>
    cases hexec
    exact h

end RowFlow
