import RowFlow.Proofs.Plan

/-!
# How the context is changed

There is one context in a run, and it is changed in two ways only. Components may change it in their
calls; the engine changes it when a parameter set begins, when a parameter set of a trigger is
entered, when a batch has been read, and when a flow shows its rows in a variable (`Change`). A part
of a run is told by its entries with the changes of the engine between them (`Tells`). Writing,
transforming and the forms of hooks do not change the context at all: every call of theirs begins in
the context that the call before it has left (`Run.Threads`).
-/

namespace RowFlow

variable {σ ε ε' α β γ : Type}

/-- What the last member of a list gives that gives anything. -/
def lastGiven (gives : α → Option β) (as : List α) : Option β := as.reverse.findSome? gives

/-- If every step leaves what its member gives, or else what there was, then all steps leave what
the last member gives. -/
theorem lastGiven_foldl {step : γ → α → γ} {gives : α → Option β} (read : γ → β)
    (h : ∀ c a, read (step c a) = (gives a).getD (read c)) (c : γ) (as : List α) :
    read (as.foldl step c) = (lastGiven gives as).getD (read c) := by
  induction as using List.reverseRecOn with
  | nil => rfl
  | append_singleton as a ih =>
    rw [List.foldl_concat, h, ih, lastGiven, lastGiven, List.reverse_concat, List.findSome?_cons]
    cases gives a <;> rfl

namespace Context

/-- What is stored when a variable is set to a value: null is not stored. -/
def stored : Value → Option Value
  | .null => none
  | v => some v

/-- What is stored under a name when a variable is set, if it is the variable of that name. -/
def gives (name : String) (entry : String × Value) : Option (Option Value) :=
  if entry.1 = name then some (stored entry.2) else none

/-- A value is stored, a null value takes the variable away, and other variables are left alone. -/
theorem get?_set_eq (ctx : Context) (entry : String × Value) (name : String) :
    (ctx.set entry.1 entry.2).get? name = (gives name entry).getD (ctx.get? name) := by
  obtain ⟨key, value⟩ := entry
  have hset : (ctx.set key value).get? name =
      if key = name then stored value else ctx.get? name := by
    cases value with
    | null => exact get?_remove ctx key name
    | _ => exact get?_set ctx (by nofun) key name
  rw [hset, gives]
  split <;> rfl

/-- The last entry under a name decides. -/
theorem get?_merge (ctx : Context) (params : Row) (name : String) :
    (ctx.merge params).get? name = (lastGiven (gives name) params).getD (ctx.get? name) :=
  lastGiven_foldl (get? · name) (fun ctx entry => get?_set_eq ctx entry name) ctx params

end Context

/-! ## Changes -/

/-- What the engine itself does to the context. -/
inductive Change where
  /-- A parameter set of the run begins. -/
  | set (runId key : String) (params : Row)
  /-- A parameter set of a trigger is entered. -/
  | merge (params : Row)
  /-- A batch has been read. -/
  | batch (index size : Nat)
  /-- A flow shows its rows in a variable. -/
  | capture (name : String) (value : Value)

def Context.after (ctx : Context) : Change → Context
  | .set runId key params => Engine.initialContext runId key params
  | .merge params => ctx.merge params
  | .batch index size => (ctx.set batchIndexKey (.nat index)).set batchSizeKey (.nat size)
  | .capture name value => ctx.set name value

/-- What is stored under a name from a change on, if the change has to do with it. -/
def Change.gives (name : String) : Change → Option (Option Value)
  | .set runId key params => some ((Engine.initialContext runId key params).get? name)
  | .merge params => lastGiven (Context.gives name) params
  | .batch index size => lastGiven (Context.gives name)
      [(Context.batchIndexKey, .nat index), (Context.batchSizeKey, .nat size)]
  | .capture shown value => Context.gives name (shown, value)

/-- A variable that a change has nothing to do with is left as it is. -/
theorem Context.get?_after (ctx : Context) (change : Change) (name : String) :
    (ctx.after change).get? name = (change.gives name).getD (ctx.get? name) := by
  cases change with
  | set => rfl
  | merge params => exact ctx.get?_merge params name
  | batch index size =>
    exact ctx.get?_merge [(batchIndexKey, .nat index), (batchSizeKey, .nat size)] name
  | capture shown value => exact ctx.get?_set_eq (shown, value) name

/-- After changes a variable has what the last of them that touches it has given. -/
theorem Context.get?_foldl_after (ctx : Context) (changes : List Change) (name : String) :
    (changes.foldl after ctx).get? name =
      (lastGiven (Change.gives name) changes).getD (ctx.get? name) :=
  lastGiven_foldl (Context.get? · name) (fun ctx change => ctx.get?_after change name) ctx changes

/-! ## The marks of a run -/

/-- An entry of the journal, or a change between two entries. -/
inductive Mark (σ : Type) where
  | entry (entry : Entry σ)
  | change (change : Change)

namespace Mark

def entry? : Mark σ → Option (Entry σ)
  | .entry made => some made
  | .change _ => none

def change? : Mark σ → Option Change
  | .entry _ => none
  | .change done => some done

end Mark

def entriesOf (marks : List (Mark σ)) : List (Entry σ) := marks.filterMap Mark.entry?

def changesOf (marks : List (Mark σ)) : List Change := marks.filterMap Mark.change?

theorem entriesOf_append (marks marks' : List (Mark σ)) :
    entriesOf (marks ++ marks') = entriesOf marks ++ entriesOf marks' := List.filterMap_append ..

@[simp] theorem entriesOf_entries (es : List (Entry σ)) : entriesOf (es.map .entry) = es := by
  induction es with
  | nil => rfl
  | cons entry es ih => exact congrArg (entry :: ·) ih

/-- Whether a call is one of the scripts, and not of a component. -/
def Call.isScript : Call → Bool
  | .loadScript _ | .function .. => true
  | _ => false

/-- Every call begins in the context that the call before it has left and the changes in between
have made of it. Scripts leave the context alone. -/
inductive Threaded : Context → List (Mark σ) → Context → Prop
  | nil : Threaded ctx [] ctx
  | step : Threaded ctx marks ctx' → Threaded ctx (.entry (.step begun) :: marks) ctx'
  | event : Threaded ctx marks ctx' → Threaded ctx (.entry (.event event) :: marks) ctx'
  | call : before.context = ctx → (what.isScript → after.context = ctx) →
    Threaded after.context marks ctx' →
    Threaded ctx (.entry (.call what before after ok) :: marks) ctx'
  | change : Threaded (ctx.after change) marks ctx' → Threaded ctx (.change change :: marks) ctx'

namespace Threaded

variable {ctx ctx' ctx'' : Context} {marks marks' : List (Mark σ)}

theorem append (h : Threaded ctx marks ctx') (h' : Threaded ctx' marks' ctx'') :
    Threaded ctx (marks ++ marks') ctx'' := by
  induction h with
  | nil => exact h'
  | step _ ih => exact .step (ih h')
  | event _ ih => exact .event (ih h')
  | call hbefore hscript _ ih => exact .call hbefore hscript (ih h')
  | change _ ih => exact .change (ih h')

/-- Between two parts of a thread there is a context on which both agree. -/
theorem split (h : Threaded ctx (marks ++ marks') ctx'') :
    ∃ ctx', Threaded ctx marks ctx' ∧ Threaded ctx' marks' ctx'' := by
  induction marks generalizing ctx with
  | nil => exact ⟨ctx, .nil, h⟩
  | cons mark marks ih =>
    cases h with
    | step h =>
      obtain ⟨ctx', hfirst, hrest⟩ := ih h
      exact ⟨ctx', .step hfirst, hrest⟩
    | event h =>
      obtain ⟨ctx', hfirst, hrest⟩ := ih h
      exact ⟨ctx', .event hfirst, hrest⟩
    | call hbefore hscript h =>
      obtain ⟨ctx', hfirst, hrest⟩ := ih h
      exact ⟨ctx', .call hbefore hscript hfirst, hrest⟩
    | change h =>
      obtain ⟨ctx', hfirst, hrest⟩ := ih h
      exact ⟨ctx', .change hfirst, hrest⟩

/-- Where no component is called, the context is what the changes make of it. -/
theorem eq_foldl (h : Threaded ctx marks ctx')
    (hquiet : ∀ what before after ok, .entry (.call what before after ok) ∈ marks →
      what.isScript) : ctx' = (changesOf marks).foldl Context.after ctx := by
  induction h with
  | nil => rfl
  | step _ ih | event _ ih | change _ ih =>
    exact ih fun what before after ok hmem => hquiet what before after ok (.tail _ hmem)
  | call _ hscript _ ih =>
    rw [ih fun what before after ok hmem => hquiet what before after ok (.tail _ hmem),
      hscript (hquiet _ _ _ _ (.head _))]
    rfl

end Threaded

/-- A component is called at `s` after one that has left `t`. Such marks stand between the two
calls, and no component is called in between. -/
inductive Consecutive : List (Mark σ) → Site σ → List (Mark σ) → Site σ → Prop
  | mk : what.isScript = false → what'.isScript = false →
    (∀ other before after ok, .entry (.call other before after ok) ∈ between → other.isScript) →
    Consecutive (earlier ++ .entry (.call what s₀ t succeeded) ::
      (between ++ .entry (.call what' s t₀ succeeded') :: later)) t between s

/-- Between two calls of components nothing but the changes has an effect on the context. -/
theorem Threaded.consecutive (h : Threaded ctx marks ctx')
    (hconsecutive : Consecutive marks t between s) :
    s.context = (changesOf between).foldl Context.after t.context := by
  cases hconsecutive with
  | mk _ _ hquiet =>
    obtain ⟨_, -, hfirst⟩ := h.split
    cases hfirst with
    | call _ _ hbetween =>
      obtain ⟨_, hbetween, hsecond⟩ := hbetween.split
      cases hsecond with
      | call hbefore => exact hbefore.trans (hbetween.eq_foldl hquiet)

/-- Marks tell what is done from one site to another. -/
structure Tells (marks : List (Mark σ)) (s : Site σ) (es : List (Entry σ)) (t : Site σ) : Prop where
  entries : entriesOf marks = es
  threaded : Threaded s.context marks t.context

namespace Tells

theorem nil (s : Site σ) : Tells [] s [] s := ⟨rfl, .nil⟩

/-- What two parts tell one after the other is told by their marks in a row. -/
theorem append (h : Tells marks s es t) (h' : Tells marks' t es' u) :
    Tells (marks ++ marks') s (es ++ es') u :=
  ⟨by rw [entriesOf_append, h.entries, h'.entries], h.threaded.append h'.threaded⟩

theorem event (event : Event) (s : Site σ) : Tells [.entry (.event event)] s [.event event] s :=
  ⟨rfl, .event .nil⟩

theorem change {change : Change} (h : t.context = s.context.after change) :
    Tells [.change change] s [] t := by
  refine ⟨rfl, .change ?_⟩
  rw [h]
  exact .nil

/-- A call that leaves the context alone. -/
theorem access (what : Call) (h : t.context = s.context) (ok : Bool) :
    Tells [.entry (.call what s t ok)] s [.call what s t ok] t :=
  ⟨rfl, .call rfl (fun _ => h) .nil⟩

end Tells

/-! ## Parts that do not change the context -/

namespace Run

/-- From every site, each call of the part begins in the context that the call before has left, and
the last one leaves the context that the part ends with. -/
structure Threads (run : Run σ ε α) : Prop where
  ends : ∀ s, ∃ es answer t, run.Ends s es answer t ∧ Tells (es.map .entry) s es t

variable {run : Run σ ε α} {f : α → Run σ ε β}

namespace Threads

/-- A part that changes the context only in calls is told by its entries alone. -/
theorem of_ends (h : Threads run) (hends : run.Ends s es answer t) :
    Tells (es.map .entry) s es t := by
  obtain ⟨es', _, _, hends', htells⟩ := h.ends s
  obtain ⟨rfl, -, rfl⟩ := hends.unique hends'
  exact htells

theorem adds (h : Threads run) : Adds run := by
  refine ⟨fun s => ?_⟩
  obtain ⟨es, answer, t, hends, -⟩ := h.ends s
  exact ⟨es, answer, t, hends⟩

theorem silent {answer : Site σ → Except (Failure ε) α} (h : ∀ s, run.Ends s [] (answer s) s) :
    Threads run :=
  ⟨fun s => ⟨[], answer s, s, h s, .nil s⟩⟩

theorem pure (a : α) : Threads (Pure.pure a : Run σ ε α) := silent fun _ => ends_pure a

theorem fail (e : ε) : Threads (Run.fail e : Run σ ε α) := silent fun _ => ends_fail e

theorem ofExcept (x : Except ε α) : Threads (Run.ofExcept x : Run σ ε α) :=
  silent fun _ => ends_ofExcept x

theorem context : Threads (Run.context : Run σ ε Context) := silent fun _ => ends_context

theorem emit (event : Event) : Threads (Run.emit event : Run σ ε Unit) :=
  ⟨fun s => ⟨_, _, s, ends_emit event, .event event s⟩⟩

theorem begin (step : Step) : Threads (Run.begin step : Run σ ε Unit) :=
  ⟨fun s => ⟨_, _, s, ends_begin step, rfl, .step .nil⟩⟩

theorem call {what : Call} (hwhat : what.isScript = false) (act : Act σ ε α) :
    Threads (Run.call what act) := by
  refine ⟨fun s => ⟨_, _, _, ends_call what act, rfl, .call rfl (fun hscript => ?_) .nil⟩⟩
  rw [hwhat] at hscript
  contradiction

theorem access (what : Call) (call : Access σ ε α) : Threads (Run.access what call) := by
  refine ⟨fun s => ?_⟩
  rcases hexec : call.exec s.world with ⟨answer, world⟩
  have hcontext : ({ s with world } : Site σ).context = s.context := rfl
  exact ⟨_, _, _, ends_access_of_exec what hexec, .access what hcontext _⟩

theorem bind (h : Threads run) (h' : ∀ a, Threads (f a)) : Threads (run >>= f) := by
  refine ⟨fun s => ?_⟩
  obtain ⟨es, answer, t, hends, htells⟩ := h.ends s
  cases answer with
  | error e => exact ⟨es, .error e, t, hends.bind_error, htells⟩
  | ok a =>
    obtain ⟨es', answer', u, hends', htells'⟩ := (h' a).ends t
    refine ⟨es ++ es', answer', u, hends.bind hends', ?_⟩
    rw [List.map_append]
    exact htells.append htells'

theorem attempt (h : Threads run) : Threads (run.attempt : Run σ ε' (Except ε α)) := by
  refine ⟨fun s => ?_⟩
  obtain ⟨es, answer, t, hends, htells⟩ := h.ends s
  exact ⟨es, _, t, hends.attempt, htells⟩

theorem mapError (h : Threads run) (g : ε → ε') : Threads (run.mapError g) := by
  refine ⟨fun s => ?_⟩
  obtain ⟨es, answer, t, hends, htells⟩ := h.ends s
  exact ⟨es, _, t, hends.mapError g, htells⟩

theorem forM {g : β → Run σ ε Unit} (h : ∀ b, Threads (g b)) (bs : List β) :
    Threads (bs.forM g) := by
  induction bs with
  | nil => exact .pure ()
  | cons b bs ih => exact (h b).bind fun _ => ih

end Threads

end Run

namespace Engine

variable {engine : Engine σ} {key : String}

/-! ### Writing -/

theorem threads_writeEach (w : ReadyWriter σ) (action : WriteAction) (rows : List Row) :
    (writeEach w action rows).Threads := by
  induction rows with
  | nil => exact .pure _
  | cons row rows ih =>
    refine .bind (.attempt (.call rfl _)) fun answer => ?_
    cases answer with
    | ok => exact .bind ih fun _ => .pure _
    | error => exact .bind ih fun _ => .pure _

theorem threads_deliver (w : ReadyWriter σ) (action : WriteAction) (rows : List Row) :
    (deliver w action rows).Threads := by
  refine .bind (.attempt (.call rfl _)) fun answer => ?_
  cases answer with
  | ok => exact .pure _
  | error => exact threads_writeEach w action rows

theorem threads_bury (engine : Engine σ) (key : String) (failed : List Row) :
    (engine.bury key failed).Threads := by
  rw [bury]
  split
  · exact .pure ()
  · refine .bind .context fun ctx => .bind (.ofExcept _) fun d => ?_
    cases d with
    | none => exact .pure ()
    | some d => exact .mapError (.call rfl _) _

mutual

/-- Writers change the context in no other way than by the calls of their sinks. -/
theorem threads_write (engine : Engine σ) (key : String) : (spec : WriterSpec) →
    (w : ReadyWriter σ) → (rows : List Row) → (engine.write key spec w rows).Threads
  | .mk settings onSuccess onFailure, w, rows => by
    have hskip (reason : String) : (skip key w reason).Threads :=
      .bind (.emit _) fun _ => .pure _
    rw [write]
    split
    · exact hskip _
    split
    · exact hskip _
    split
    · exact .fail _
    refine .bind (threads_deliver ..) fun outcome => ?_
    refine .bind (threads_passOn engine key _ onSuccess _) fun _ => ?_
    refine .bind (threads_passOn engine key _ onFailure _) fun _ => ?_
    exact .bind (threads_bury ..) fun _ => .pure _

theorem threads_passOn (engine : Engine σ) (key : String) (announcement : Nat → Event) :
    (next : Option WriterSpec) → (rows : List Row) →
      (engine.passOn key announcement next rows).Threads
  | none, rows => by
    rw [passOn]
    split
    · exact .pure ()
    · exact .bind (.emit _) fun _ => .pure ()
  | some spec, rows => by
    rw [passOn]
    split
    · exact .pure ()
    · refine .bind (.emit _) fun _ => .bind .context fun ctx => .bind (.ofExcept _) fun w => ?_
      exact .bind (threads_write engine key spec w rows) fun _ => .pure ()

end

theorem threads_writeAll (engine : Engine σ) (key : String)
    (writers : List (WriterSpec × ReadyWriter σ)) (rows : List Row) :
    (engine.writeAll key writers rows).Threads :=
  .forM (fun (spec, w) => .bind (threads_write engine key spec w rows) fun _ => .pure ()) writers

/-! ### Transforming -/

theorem threads_invokeForRows (engine : Engine σ) (function : String) (args : List Value) :
    (engine.invokeForRows function args).Threads :=
  .bind (.access _ _) fun _ => .ofExcept _

theorem threads_transformRow (engine : Engine σ) (spec : TransformerSpec) (row : Row) :
    (engine.transformRow spec row).Threads := by
  rw [transformRow]
  split
  · exact .bind (.ofExcept _) fun _ => .pure _
  · exact .bind (.mapError (.access _ _) _) fun _ => .ofExcept _
  · exact .pure _

theorem threads_transformEach (engine : Engine σ) (spec : TransformerSpec) (merging : Bool)
    (rows : List Row) : (engine.transformEach spec merging rows).Threads := by
  induction rows with
  | nil => exact .pure []
  | cons row rows ih =>
    refine .bind (engine.threads_transformRow spec row) fun transformed => ?_
    cases transformed with
    | none => exact ih
    | some transformed => exact .bind ih fun _ => .pure _

theorem threads_transformAll (engine : Engine σ) (spec : TransformerSpec) (rows : List Row) :
    (engine.transformAll spec rows).Threads := by
  rw [transformAll]
  split
  · exact .bind (.ofExcept _) fun _ => .ofExcept _
  · exact .mapError (engine.threads_invokeForRows ..) _
  · exact .pure _

theorem threads_transform (engine : Engine σ) (spec : ReaderSpec) (rows : List Row) :
    (engine.transform spec rows).Threads := by
  refine .bind .context fun ctx => .bind ?_ fun rows => ?_
  · rw [applyTransformer]
    split
    · exact .pure _
    · split
      · exact engine.threads_transformAll ..
      · exact engine.threads_transformEach ..
  · rw [applyFilter]
    split
    · exact .pure _
    · exact .mapError (engine.threads_invokeForRows ..) _

/-! ### Hooks -/

/-- A form of a hook changes the context only if the component it calls does so. -/
theorem threads_form {stage : Stage} (h : stage.step? = some (.hook stageKey phase form)) :
    (engine.carryOut stage).Threads := by
  cases stage with
  | inlineScript =>
    refine .bind (.begin _) fun _ => .bind .context fun ctx => .bind (.ofExcept _) fun _ => ?_
    exact .mapError (.access _ _) _
  | runnable =>
    refine .bind (.begin _) fun _ => .bind .context fun ctx => .bind (.ofExcept _) fun _ => ?_
    exact .bind (.ofExcept _) fun _ => .mapError (.call rfl _) _
  | scriptCall =>
    exact .bind (.begin _) fun _ => .bind (.mapError (.access _ _) _) fun _ => .pure ()
  | set | read | trigger | merge => cases h

end Engine

end RowFlow
