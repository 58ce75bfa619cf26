import RowFlow.Proofs.Disabled
import RowFlow.Proofs.Plan

/-!
# The checks before a flow reads

A flow needs its reader and all its writers. Each of them is checked: its name is rendered and
looked up, its instruction is rendered, it is bound to it, and an enabled writer is asked whether it
knows its action. What can be wrong is said of each check on its own (`Engine.Flaw`). The flow fails
with the first flaw, in the order of its components and then of the checks, before it has done
anything; without a flaw it begins with the call that reads (`Engine.readFlow_checks_first`).
-/

namespace RowFlow

variable {σ : Type}

/-- The checks that a component has to pass before its flow reads. -/
inductive Check where
  | name
  | lookup
  | instruction
  | binding
  | capability
deriving DecidableEq, Repr

/-- The place of a check in the order in which they are made. -/
def Check.rank : Check → Nat
  | .name => 0
  | .lookup => 1
  | .instruction => 2
  | .binding => 3
  | .capability => 4

theorem Check.rank_injective {check other : Check} (h : check.rank = other.rank) :
    check = other := by
  cases check <;> cases other <;> first | rfl | cases h

/-- A component that a flow needs. -/
inductive Need where
  | reader (spec : ReaderSpec)
  | writer (settings : WriterSettings)

/-- What a flow makes use of in a component of the right kind. -/
structure Offer where
  appendOnly : Bool
  bind : Option String → Except ReadError Unit

namespace Need

/-- The template of the component's name. -/
def component : Need → String
  | .reader spec => spec.component
  | .writer settings => settings.component

/-- The template of the instruction's text. -/
def instruction : Need → Option String
  | .reader spec => spec.instruction
  | .writer settings => settings.instruction

/-- The kind of component that is needed. -/
def expected : Need → String
  | .reader _ => "reader"
  | .writer _ => "writer"

/-- What a component offers, if it is of the kind that is needed. -/
def offer? : Need → Component σ → Option Offer
  | .reader spec, .reader r => some ⟨false, fun text => (r.bind text spec.format).map fun _ => ()⟩
  | .writer settings, .writer w =>
    some ⟨w.appendOnly, fun text => (w.bind text settings.format).map fun _ => ()⟩
  | _, _ => none

/-- The action that the component has to know. -/
def action? : Need → Option WriteAction
  | .reader _ => none
  | .writer settings => if settings.enabled then some settings.action else none

end Need

/-- The reader of a flow and its writers, in order. -/
def ReadFlow.needs (flow : ReadFlow) : List Need :=
  .reader flow.reader :: flow.writers.map fun spec => .writer spec.settings

/-- Begun at a site, the part makes an entry first. -/
def Run.Begins (run : Run σ ε α) (s : Site σ) (entry : Entry σ) : Prop :=
  ∃ es answer t, run.Ends s (entry :: es) answer t

namespace Engine

/-! ## Flaws -/

/-- What is wrong with a component that a flow needs. A flaw is one of a single check, and says
nothing of the other checks but for what its own is made on: what is bound has been found, and is
bound to a text. -/
inductive Flaw (engine : Engine σ) (key : String) (ctx : Context) (need : Need) :
    Check → EngineError → Prop
  | name (hname : ctx.render need.component = .error e) : Flaw engine key ctx need .name e
  | missing (hname : ctx.render need.component = .ok name)
    (hmissing : engine.registry.resolve (some key) name = none) :
    Flaw engine key ctx need .lookup (.componentNotFound name)
  | kind (hname : ctx.render need.component = .ok name)
    (hfound : engine.registry.resolve (some key) name = some component)
    (hother : need.offer? component = none) :
    Flaw engine key ctx need .lookup (.componentKind name need.expected component.kind)
  | instruction (htext : ctx.renderOption need.instruction = .error e) :
    Flaw engine key ctx need .instruction e
  | binding (hname : ctx.render need.component = .ok name)
    (hfound : engine.registry.resolve (some key) name = some component)
    (hoffer : need.offer? component = some offer)
    (htext : ctx.renderOption need.instruction = .ok text)
    (hbind : offer.bind text = .error fault) :
    Flaw engine key ctx need .binding (.instruction name fault)
  | capability (hname : ctx.render need.component = .ok name)
    (hfound : engine.registry.resolve (some key) name = some component)
    (hoffer : need.offer? component = some offer) (happend : offer.appendOnly = true)
    (haction : need.action? = some action) (hchanges : action ≠ .create) :
    Flaw engine key ctx need .capability (.unsupportedAction name action)

/-- A component passes all checks. -/
def Sound (engine : Engine σ) (key : String) (ctx : Context) (need : Need) : Prop :=
  ∀ check e, ¬ engine.Flaw key ctx need check e

/-- The flaw of a component at the first check that it does not pass. -/
structure FlawedAt (engine : Engine σ) (key : String) (ctx : Context) (need : Need)
    (check : Check) (e : EngineError) : Prop where
  flaw : engine.Flaw key ctx need check e
  first : ∀ other e', engine.Flaw key ctx need other e' → check.rank ≤ other.rank

/-- The first flaw among several components: that of the first one that is not sound. -/
def FirstFlaw (engine : Engine σ) (key : String) (ctx : Context) (needs : List Need)
    (e : EngineError) : Prop :=
  ∃ before need after check, needs = before ++ need :: after ∧
    (∀ other ∈ before, engine.Sound key ctx other) ∧ engine.FlawedAt key ctx need check e

variable {engine : Engine σ} {key : String} {ctx : Context} {need : Need} {needs : List Need}
  {check other : Check} {e e' : EngineError} {name : String} {offer : Offer}

/-- A check that is not passed gives one error. -/
theorem Flaw.unique (h : engine.Flaw key ctx need check e)
    (h' : engine.Flaw key ctx need check e') : e = e' := by
  cases h <;> cases h' <;> simp_all

theorem FlawedAt.unique (h : engine.FlawedAt key ctx need check e)
    (h' : engine.FlawedAt key ctx need other e') : e = e' := by
  have hrank : check.rank = other.rank :=
    Nat.le_antisymm (h.first _ _ h'.flaw) (h'.first _ _ h.flaw)
  cases Check.rank_injective hrank
  exact h.flaw.unique h'.flaw

/-! ## The checks in their order -/

/-- What a component that is needed offers under its name. -/
def lookUp (engine : Engine σ) (key : String) (need : Need) (name : String) :
    Except EngineError Offer :=
  match engine.registry.resolve (some key) name with
  | none => .error (.componentNotFound name)
  | some component =>
    match need.offer? component with
    | none => .error (.componentKind name need.expected component.kind)
    | some offer => .ok offer

/-- Whether a component knows the action that it has to know. -/
def permit (name : String) (offer : Offer) : Option WriteAction → Except EngineError Unit
  | none => .ok ()
  | some action =>
    if offer.appendOnly && action ≠ .create then .error (.unsupportedAction name action) else .ok ()

/-- Takes a component through the checks, up to the first that it does not pass. -/
def examine (engine : Engine σ) (key : String) (ctx : Context) (need : Need) :
    Except EngineError Unit := do
  let name ← ctx.render need.component
  let offer ← engine.lookUp key need name
  let text ← ctx.renderOption need.instruction
  (offer.bind text).mapError (.instruction name)
  permit name offer need.action?

theorem lookUp_ok_iff : engine.lookUp key need name = .ok offer ↔
    ∃ component, engine.registry.resolve (some key) name = some component ∧
      need.offer? component = some offer := by
  unfold lookUp
  cases engine.registry.resolve (some key) name with
  | none => simp
  | some component => cases hoffer : need.offer? component <;> simp [hoffer]

theorem Flaw.of_lookUp (hname : ctx.render need.component = .ok name)
    (h : engine.lookUp key need name = .error e) : engine.Flaw key ctx need .lookup e := by
  unfold lookUp at h
  split at h
  · cases h
    exact .missing hname ‹_›
  · split at h
    · cases h
      exact .kind hname ‹_› ‹_›
    · cases h

theorem Flaw.of_permit (hname : ctx.render need.component = .ok name)
    (hfound : engine.registry.resolve (some key) name = some component)
    (hoffer : need.offer? component = some offer)
    (h : permit name offer need.action? = .error e) : engine.Flaw key ctx need .capability e := by
  cases haction : need.action? with
  | none =>
    rw [haction] at h
    cases h
  | some action =>
    rw [haction, permit] at h
    split at h
    · rename_i hrefused
      cases h
      rw [Bool.and_eq_true, decide_eq_true_eq] at hrefused
      exact .capability hname hfound hoffer hrefused.1 haction hrefused.2
    · cases h

/-- A component whose checks are not all passed has a flaw at the first of these, as no check
before it has one. -/
theorem FlawedAt.of_examine (h : engine.examine key ctx need = .error e) :
    ∃ check, engine.FlawedAt key ctx need check e := by
  rcases bind_error_iff.mp h with hname | ⟨name, hname, h⟩
  · exact ⟨.name, .name hname, fun _ _ _ => Nat.zero_le _⟩
  rcases bind_error_iff.mp h with hlookup | ⟨offer, hlookup, h⟩
  · refine ⟨.lookup, .of_lookUp hname hlookup, fun other e' hflaw => ?_⟩
    cases hflaw <;> simp_all [Check.rank]
  obtain ⟨component, hfound, hoffer⟩ := lookUp_ok_iff.mp hlookup
  rcases bind_error_iff.mp h with htext | ⟨text, htext, h⟩
  · refine ⟨.instruction, .instruction htext, fun other e' hflaw => ?_⟩
    cases hflaw <;> simp_all [Check.rank]
  rcases bind_error_iff.mp h with hbind | ⟨⟨⟩, hbind, hpermit⟩
  · obtain ⟨fault, hbound, rfl⟩ := mapError_error_iff.mp hbind
    refine ⟨.binding, .binding hname hfound hoffer htext hbound, fun other e' hflaw => ?_⟩
    cases hflaw <;> simp_all [Check.rank]
  · have hbind := mapError_ok_iff.mp hbind
    refine ⟨.capability, .of_permit hname hfound hoffer hpermit, fun other e' hflaw => ?_⟩
    cases hflaw <;> simp_all [Check.rank]

theorem sound_of_examine (h : engine.examine key ctx need = .ok ()) :
    engine.Sound key ctx need := by
  obtain ⟨name, hname, h⟩ := bind_ok_iff.mp h
  obtain ⟨offer, hlookup, h⟩ := bind_ok_iff.mp h
  obtain ⟨component, hfound, hoffer⟩ := lookUp_ok_iff.mp hlookup
  obtain ⟨text, htext, h⟩ := bind_ok_iff.mp h
  obtain ⟨⟨⟩, hbind, hpermit⟩ := bind_ok_iff.mp h
  have hbind := mapError_ok_iff.mp hbind
  intro check e hflaw
  cases hflaw <;> simp_all [permit]

theorem examine_error_iff :
    engine.examine key ctx need = .error e ↔ ∃ check, engine.FlawedAt key ctx need check e := by
  refine ⟨FlawedAt.of_examine, fun ⟨check, hflaw⟩ => ?_⟩
  cases hexamine : engine.examine key ctx need with
  | ok => exact (sound_of_examine hexamine _ _ hflaw.flaw).elim
  | error e' =>
    obtain ⟨other, hother⟩ := FlawedAt.of_examine hexamine
    rw [hflaw.unique hother]

theorem examine_ok_iff : engine.examine key ctx need = .ok () ↔ engine.Sound key ctx need := by
  refine ⟨sound_of_examine, fun hsound => ?_⟩
  cases hexamine : engine.examine key ctx need with
  | ok => rfl
  | error e =>
    obtain ⟨check, hflaw⟩ := FlawedAt.of_examine hexamine
    exact (hsound _ _ hflaw.flaw).elim

/-- Takes components through the checks, up to the first that does not pass one. -/
def examineAll (engine : Engine σ) (key : String) (ctx : Context) (needs : List Need) :
    Except EngineError Unit :=
  needs.forM (engine.examine key ctx)

theorem examineAll_cons (engine : Engine σ) (key : String) (ctx : Context) (need : Need)
    (needs : List Need) : engine.examineAll key ctx (need :: needs) = (do
      engine.examine key ctx need
      engine.examineAll key ctx needs) := rfl

theorem examineAll_error_iff :
    engine.examineAll key ctx needs = .error e ↔ engine.FirstFlaw key ctx needs e := by
  induction needs with
  | nil =>
    refine ⟨nofun, ?_⟩
    rintro ⟨before, need, after, check, hneeds, -⟩
    cases before <;> cases hneeds
  | cons need needs ih =>
    rw [examineAll_cons, bind_error_iff]
    constructor
    · rintro (hfirst | ⟨⟨⟩, hsound, hrest⟩)
      · obtain ⟨check, hflaw⟩ := examine_error_iff.mp hfirst
        exact ⟨[], need, needs, check, rfl, List.forall_mem_nil _, hflaw⟩
      · obtain ⟨before, other, after, check, rfl, hbefore, hflaw⟩ := ih.mp hrest
        refine ⟨need :: before, other, after, check, rfl, ?_, hflaw⟩
        exact List.forall_mem_cons.mpr ⟨examine_ok_iff.mp hsound, hbefore⟩
    · rintro ⟨before, other, after, check, hneeds, hbefore, hflaw⟩
      rcases List.cons_eq_append_iff.mp hneeds with ⟨rfl, hcons⟩ | ⟨before, rfl, rfl⟩
      · cases hcons
        exact .inl (examine_error_iff.mpr ⟨check, hflaw⟩)
      · obtain ⟨hsound, hbefore⟩ := List.forall_mem_cons.mp hbefore
        exact .inr ⟨(), examine_ok_iff.mpr hsound,
          ih.mpr ⟨before, other, after, check, rfl, hbefore, hflaw⟩⟩

theorem examineAll_ok_iff :
    engine.examineAll key ctx needs = .ok () ↔ ∀ need ∈ needs, engine.Sound key ctx need := by
  induction needs with
  | nil => exact ⟨fun _ => List.forall_mem_nil _, fun _ => rfl⟩
  | cons need needs ih =>
    rw [examineAll_cons, bind_ok_iff, List.forall_mem_cons, ← ih, ← examine_ok_iff]
    exact ⟨fun ⟨_, hfirst, hrest⟩ => ⟨hfirst, hrest⟩, fun ⟨hfirst, hrest⟩ => ⟨(), hfirst, hrest⟩⟩

/-! ## Making components ready -/

theorem lookUp_reader (engine : Engine σ) (key name : String) (spec : ReaderSpec) :
    engine.lookUp key (.reader spec) name = (engine.findReader key name).map fun r =>
      ⟨false, fun text => (r.bind text spec.format).map fun _ => ()⟩ := by
  unfold lookUp findReader
  rcases engine.registry.resolve (some key) name with _ | (r | w | run) <;> rfl

theorem lookUp_writer (engine : Engine σ) (key name : String) (settings : WriterSettings) :
    engine.lookUp key (.writer settings) name = (engine.findWriter key name).map fun w =>
      ⟨w.appendOnly, fun text => (w.bind text settings.format).map fun _ => ()⟩ := by
  unfold lookUp findWriter
  rcases engine.registry.resolve (some key) name with _ | (r | w | run) <;> rfl

/-- The answer of a reader that is made ready is that of the checks. -/
theorem examine_reader (engine : Engine σ) (key : String) (ctx : Context) (spec : ReaderSpec) :
    engine.examine key ctx (.reader spec) =
      (engine.prepareReader key ctx spec).map fun _ => () := by
  simp only [prepareReader, examine, lookUp_reader, Need.component, Need.instruction, Need.action?,
    permit, bind, Except.bind]
  cases ctx.render spec.component with
  | error e => rfl
  | ok name =>
    dsimp only
    cases engine.findReader key name with
    | error e => rfl
    | ok r =>
      dsimp only [Except.map]
      cases ctx.renderOption spec.instruction with
      | error e => rfl
      | ok text =>
        dsimp only
        cases r.bind text spec.format <;> rfl

theorem examine_writer (engine : Engine σ) (key : String) (ctx : Context)
    (settings : WriterSettings) : engine.examine key ctx (.writer settings) =
      (engine.prepareWriter key ctx settings).map fun _ => () := by
  simp only [prepareWriter, examine, lookUp_writer, Need.component, Need.instruction, Need.action?,
    Writer.bound, bind, Except.bind]
  cases ctx.render settings.component with
  | error e => rfl
  | ok name =>
    dsimp only
    cases engine.findWriter key name with
    | error e => rfl
    | ok w =>
      dsimp only [Except.map]
      cases ctx.renderOption settings.instruction with
      | error e => rfl
      | ok text =>
        dsimp only
        cases w.bind text settings.format with
        | error fault => rfl
        | ok sink =>
          dsimp only [Except.mapError]
          cases henabled : settings.enabled <;> cases happend : w.appendOnly <;>
            by_cases haction : settings.action = .create <;>
            simp [permit, BoundWriter.supports, haction] <;> rfl

theorem examineAll_writers (engine : Engine σ) (key : String) (ctx : Context)
    (specs : List WriterSpec) :
    engine.examineAll key ctx (specs.map fun spec => .writer spec.settings) =
      (engine.prepareWriters key ctx specs).map fun _ => () := by
  induction specs with
  | nil => rfl
  | cons spec specs ih =>
    rw [List.map_cons, examineAll_cons, examine_writer, ih, prepareWriters_cons]
    cases engine.prepareWriter key ctx spec.settings with
    | error e => rfl
    | ok w => cases engine.prepareWriters key ctx specs <;> rfl

theorem examineAll_needs (engine : Engine σ) (key : String) (ctx : Context) (flow : ReadFlow) :
    engine.examineAll key ctx flow.needs = (do
      let _ ← engine.prepareReader key ctx flow.reader
      (engine.prepareWriters key ctx flow.writers).map fun _ => ()) := by
  rw [ReadFlow.needs, examineAll_cons, examine_reader, examineAll_writers]
  cases engine.prepareReader key ctx flow.reader <;> rfl

/-- A reader that is bound to its instruction under its name. -/
structure BoundAs (engine : Engine σ) (key : String) (ctx : Context) (spec : ReaderSpec)
    (r : ReadyReader σ) : Prop where
  name : ctx.render spec.component = .ok r.target.name
  instruction : ctx.renderOption spec.instruction = .ok r.target.instruction
  reader : ∃ reader, engine.registry.resolve (some key) r.target.name = some (.reader reader) ∧
    reader.bind r.target.instruction spec.format = .ok r.reader

theorem BoundAs.of_prepareReader (h : engine.prepareReader key ctx spec = .ok r) :
    engine.BoundAs key ctx spec r := by
  obtain ⟨name, hname, h⟩ := bind_ok_iff.mp h
  obtain ⟨reader, hfind, h⟩ := bind_ok_iff.mp h
  obtain ⟨text, htext, h⟩ := bind_ok_iff.mp h
  obtain ⟨bound, hbound, hready⟩ := bind_ok_iff.mp h
  cases hready
  refine ⟨hname, htext, reader, ?_, ?_⟩
  · unfold findReader at hfind
    split at hfind
    · cases hfind
      assumption
    · cases hfind
    · cases hfind
  · exact mapError_ok_iff.mp hbound

/-! ## What the flow does -/

/-- The entry of a call that leaves the context alone. -/
def accessEntry (what : Call) (call : Access σ ε α) (s : Site σ) : Entry σ :=
  .call what s { s with world := (call.exec s.world).2 } (call.exec s.world).1.isOk

/-- The entry of the call that a flow reads with: it asks for a row, for all rows or for a cursor. -/
def readEntry (spec : ReaderSpec) (r : ReadyReader σ) (s : Site σ) : Entry σ :=
  match spec.mode with
  | .one => accessEntry (.findOne r.target) (r.reader.findOne s.context) s
  | .allAtOnce => accessEntry (.findAll r.target) (r.reader.findAll s.context) s
  | .batched => accessEntry (.openBatches r.target spec.batchSize)
      (r.reader.findBatches spec.batchSize s.context) s

theorem access_begins (what : Call) (call : Access σ ε α) (g : ε → EngineError)
    {f : α → Run σ EngineError Unit} (hadds : ∀ a, Run.Adds (f a)) (s : Site σ) :
    ((Run.access what call).mapError g >>= f).Begins s (accessEntry what call s) := by
  have hcall := (Run.ends_call what call.toAct (s := s)).mapError g
  cases hanswer : ((call.toAct.exec s).1).mapError (Failure.map g) with
  | error e =>
    rw [hanswer] at hcall
    exact ⟨[], .error e, _, hcall.bind_error⟩
  | ok a =>
    rw [hanswer] at hcall
    obtain ⟨es, answer, t, hends⟩ := Run.Adds.ends (f a) (call.toAct.exec s).2
    exact ⟨es, answer, t, hcall.bind hends⟩

theorem readReady_begins (engine : Engine σ) (key label : String) (spec : ReaderSpec)
    (r : ReadyReader σ) (writers : List (WriterSpec × ReadyWriter σ)) (s : Site σ) :
    (engine.readReady key label spec r writers).Begins s (readEntry spec r s) := by
  have hafter {f : Context → Run σ EngineError Unit} {entry : Entry σ}
      (h : (f s.context).Begins s entry) : (Run.context >>= f).Begins s entry := by
    obtain ⟨es, answer, t, hends⟩ := h
    exact ⟨es, answer, t, Run.ends_context.bind_silent hends⟩
  cases hmode : spec.mode with
  | one =>
    simp only [readReady, readEntry, hmode]
    rw [readOne_eq]
    exact hafter (access_begins _ _ _ (fun found => by cases found <;> infer_instance) s)
  | allAtOnce =>
    simp only [readReady, readEntry, hmode]
    exact hafter (access_begins _ _ _ (fun _ => inferInstance) s)
  | batched =>
    simp only [readReady, readEntry, hmode]
    exact hafter (access_begins _ _ _ (fun _ => inferInstance) s)

theorem readFlow_fails (h : engine.FirstFlaw key s.context flow.needs e) (label : String) :
    (engine.readFlow key label flow).Ends s [] (.error (.error e)) s := by
  refine ⟨fun journal => ?_⟩
  rw [readFlow_exec]
  have hchecks := examineAll_error_iff.mpr h
  rw [examineAll_needs] at hchecks
  rcases bind_error_iff.mp hchecks with hreader | ⟨r, hreader, hwriters⟩
  · simp [hreader]
  · simp [hreader, map_error_iff.mp hwriters]

theorem readFlow_reads (h : ∀ need ∈ flow.needs, engine.Sound key s.context need)
    (label : String) : ∃ r, engine.BoundAs key s.context flow.reader r ∧
      (engine.readFlow key label flow).Begins s (readEntry flow.reader r s) := by
  have hchecks := examineAll_ok_iff.mpr h
  rw [examineAll_needs] at hchecks
  obtain ⟨r, hreader, hwriters⟩ := bind_ok_iff.mp hchecks
  obtain ⟨writers, hprepare, -⟩ := map_ok_iff.mp hwriters
  obtain ⟨es, answer, t, hends⟩ := engine.readReady_begins key label flow.reader r writers s
  refine ⟨r, .of_prepareReader hreader, es, answer, t, ⟨fun journal => ?_⟩⟩
  rw [readFlow_exec]
  simp only [hreader, hprepare]
  exact hends.exec journal

/-- There is a first flaw, or there is none at all. -/
theorem firstFlaw_or_sound (engine : Engine σ) (key : String) (ctx : Context)
    (needs : List Need) :
    (∃ e, engine.FirstFlaw key ctx needs e) ∨ ∀ need ∈ needs, engine.Sound key ctx need := by
  cases hchecks : engine.examineAll key ctx needs with
  | error e => exact .inl ⟨e, examineAll_error_iff.mp hchecks⟩
  | ok => exact .inr (examineAll_ok_iff.mp hchecks)

theorem FirstFlaw.exists_flaw (h : engine.FirstFlaw key ctx needs e) :
    ∃ need ∈ needs, ∃ check, engine.Flaw key ctx need check e := by
  obtain ⟨before, need, after, check, rfl, -, hflaw⟩ := h
  exact ⟨need, List.mem_append_right _ List.mem_cons_self, check, hflaw.flaw⟩

/-- A part does not begin with an entry if it ends without any. -/
theorem not_begins_of_ends {run : Run σ ε α} (h : run.Ends s [] answer t) (entry : Entry σ) :
    ¬ run.Begins s entry := by
  rintro ⟨es, answer', u, hends⟩
  cases (hends.unique h).1

/-- **A flow is checked before it reads.** If something is wrong with its reader or with one of its
writers, the flow fails with the first flaw, and only with that: it makes no call and leaves
everything as it is. When its pipeline runs the flow, there is nothing more to see than that it was
begun and announced. A flow whose components are all sound, and no other, begins with the call that
reads from its reader. -/
theorem readFlow_checks_first (engine : Engine σ) (key label : String) (flow : ReadFlow)
    (s : Site σ) :
    ((∃ need ∈ flow.needs, ∃ check e, engine.Flaw key s.context need check e) ↔
      ∃ e, engine.FirstFlaw key s.context flow.needs e) ∧
    (∀ e, engine.FirstFlaw key s.context flow.needs e ↔
      (engine.readFlow key label flow).Ends s [] (.error (.error e)) s) ∧
    (∀ trigger e, engine.FirstFlaw key s.context flow.needs e →
      (engine.runFlow trigger key (.read flow)).Ends s
        [.step (.flow key (.read flow)),
          .event (.flowStarted key (s.context.label flow.id) (s.context.label flow.desc))]
        (.error (.error (.flow key (s.context.label flow.id) e))) s) ∧
    ((∀ need ∈ flow.needs, engine.Sound key s.context need) ↔
      ∃ r, engine.BoundAs key s.context flow.reader r ∧
        (engine.readFlow key label flow).Begins s (readEntry flow.reader r s)) := by
  have hcases := engine.firstFlaw_or_sound key s.context flow.needs
  refine ⟨⟨?_, ?_⟩, fun e => ⟨fun h => readFlow_fails h label, fun hends => ?_⟩, ?_,
    fun h => readFlow_reads h label, ?_⟩
  · rintro ⟨need, hmem, check, e, hflaw⟩
    exact hcases.resolve_right fun hsound => hsound need hmem check e hflaw
  · rintro ⟨e, h⟩
    obtain ⟨need, hmem, check, hflaw⟩ := h.exists_flaw
    exact ⟨need, hmem, check, e, hflaw⟩
  · rcases hcases with ⟨e', h⟩ | hsound
    · obtain ⟨-, he, -⟩ := (readFlow_fails h label).unique hends
      cases he
      exact h
    · obtain ⟨r, -, hbegins⟩ := readFlow_reads hsound label
      exact (not_begins_of_ends hends _ hbegins).elim
  · intro trigger e h
    rw [runFlow_eq]
    have hflow := (readFlow_fails h (s.context.label flow.id)).mapError
      (EngineError.flow key (s.context.label flow.id))
    exact Run.ends_context.bind_silent
      ((Run.ends_begin _).bind ((Run.ends_emit _).bind hflow))
  · rintro ⟨r, -, hbegins⟩
    refine hcases.resolve_left fun ⟨e, h⟩ => ?_
    exact not_begins_of_ends (readFlow_fails h label) _ hbegins

/-- A flow that writes to a table, and updates what a variable names. -/
def sampleUpdating : ReadFlow where
  id := "copy"
  desc := ""
  reader := { component := "numbers", mode := .allAtOnce }
  writers :=
    [.mk { component := "table" } none none,
      .mk { component := "{{to}}", action := .update } none none]

/-- The variable names a writer that only appends, so not even the first writer is called. -/
theorem readFlow_checks_first_append_only :
    sampleReading.FirstFlaw "p" (Context.empty.set "to" (.text "failedRecordsAppender"))
      sampleUpdating.needs (.unsupportedAction "failedRecordsAppender" .update) ∧
    (sampleReading.readFlow "p" "copy" sampleUpdating).Ends
      ⟨Context.empty.set "to" (.text "failedRecordsAppender"), sampleStart.world⟩ []
      (.error (.error (.unsupportedAction "failedRecordsAppender" .update)))
      ⟨Context.empty.set "to" (.text "failedRecordsAppender"), sampleStart.world⟩ := by
  have hflaw : sampleReading.FirstFlaw "p"
      (Context.empty.set "to" (.text "failedRecordsAppender")) sampleUpdating.needs
      (.unsupportedAction "failedRecordsAppender" .update) :=
    examineAll_error_iff.mp (by with_unfolding_all rfl)
  exact ⟨hflaw, ((readFlow_checks_first sampleReading "p" "copy" sampleUpdating
    ⟨Context.empty.set "to" (.text "failedRecordsAppender"), sampleStart.world⟩).2.1 _).mp hflaw⟩

end Engine

end RowFlow
