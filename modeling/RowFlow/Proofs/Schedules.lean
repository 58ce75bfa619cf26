import Mathlib.Data.List.Pairwise
import RowFlow.Proofs.Commands

/-!
# Schedules across updates

A definition that is accepted takes the place of the one under its key. Its schedules, unless they
are switched off, each take the place of the one of the same pipeline and name, and nothing else
takes a schedule away: one that a later definition drops, renames or switches off stays. So what a
scheduler keeps follows from all definitions that have been accepted (`Outstanding`) and not from
those alone that are stored (`Service.schedules_updated`, `Service.schedule_outlives`).
-/

namespace RowFlow

variable {σ τ : Type}

/-! ## The last schedule of each pipeline and name -/

namespace Scheduler

/-- Schedules that are kept side by side: of different pipelines, or of different names. -/
def Apart (a b : String × Schedule) : Prop := ¬(a.1 = b.1 ∧ a.2.name = b.2.name)

instance : DecidableRel Apart := fun _ _ => inferInstanceAs (Decidable (¬_))

/-- Two that can not be kept side by side with a third can not be kept so with each other. -/
theorem Apart.split {a c : String × Schedule} (b : String × Schedule) (h : Apart a c) :
    Apart a b ∨ Apart b c := by
  by_contra hnot
  obtain ⟨hab, hbc⟩ := not_or.mp hnot
  obtain ⟨hkey, hname⟩ := not_not.mp hab
  obtain ⟨hkey', hname'⟩ := not_not.mp hbc
  exact h ⟨hkey.trans hkey', hname.trans hname'⟩

variable {x : String × Schedule} {handed before after : List (String × Schedule)}

/-- What is kept of the schedules that have been handed over, in this order. -/
def latest (handed : List (String × Schedule)) : List (String × Schedule) := handed.pwFilter Apart

theorem latest_cons : latest (x :: after) =
    if ∀ y ∈ after, Apart x y then x :: latest after else latest after := by
  have hforall : (∀ y ∈ latest after, Apart x y) ↔ ∀ y ∈ after, Apart x y :=
    List.forall_mem_pwFilter (R := Apart) (Apart.split _) x after
  split
  · next h => exact List.pwFilter_cons_of_pos (hforall.mpr h)
  · next h => exact List.pwFilter_cons_of_neg (mt hforall.mp h)

/-- What has been handed over before stays unless something takes its place. -/
theorem latest_append : latest (before ++ after) =
    (latest before).filter (fun x => ∀ y ∈ after, Apart x y) ++ latest after := by
  induction before with
  | nil => rfl
  | cons x before ih =>
    rw [List.cons_append, latest_cons, latest_cons, ih]
    by_cases hafter : ∀ y ∈ after, Apart x y
    · split
      · next h =>
        rw [if_pos fun y hy => h y (List.mem_append_left _ hy),
          List.filter_cons_of_pos (by simpa only [decide_eq_true_eq]), List.cons_append]
      · next h =>
        rw [if_neg fun hbefore => h (List.forall_mem_append.mpr ⟨hbefore, hafter⟩)]
    · rw [if_neg fun h => hafter (List.forall_mem_append.mp h).2]
      split
      · rw [List.filter_cons_of_neg (by simpa using hafter)]
      · rfl

theorem latest_of_pairwise (h : handed.Pairwise Apart) : latest handed = handed :=
  List.pwFilter_eq_self.mpr h

/-- A scheduler that refuses nothing keeps what is left of all that it is handed. -/
theorem schedule_latest (handed : List (String × Schedule)) (key : String) (schedule : Schedule) :
    ({ entries := latest handed } : Scheduler).schedule key schedule =
      .ok { entries := latest (handed ++ [(key, schedule)]) } := by
  have hothers : (latest handed).filter (fun x => ∀ y ∈ [(key, schedule)], Apart x y) =
      (latest handed).filter fun entry =>
        !(entry.1 = key && entry.2.name = schedule.name) := by
    refine List.filter_congr fun entry _ => ?_
    simp [Apart]
  rw [latest_append, hothers]
  rfl

end Scheduler

/-! ## What some definitions leave -/

namespace Pipeline

/-- What is handed to the scheduler. -/
def handed (p : Pipeline) : List (String × Schedule) :=
  (Service.activeSchedules p).map (p.key, ·)

/-- The definition has a schedule of this name, and its schedules are not switched off. -/
def Declares (p : Pipeline) (name : String) : Prop :=
  ∃ schedule ∈ Service.activeSchedules p, schedule.name = name

/-- The schedules of the definition have names of their own. -/
def Distinct (p : Pipeline) : Prop := (p.schedules.map (·.name)).Nodup

instance (p : Pipeline) : Decidable p.Distinct := inferInstanceAs (Decidable (List.Nodup _))

variable {p : Pipeline} {key : String} {schedule : Schedule}

theorem mem_handed :
    (key, schedule) ∈ p.handed ↔ p.key = key ∧ schedule ∈ Service.activeSchedules p := by
  simp [handed, and_comm]

theorem Distinct.handed (h : p.Distinct) : p.handed.Pairwise Scheduler.Apart := by
  have hactive : ((Service.activeSchedules p).map (·.name)).Nodup := by
    unfold Service.activeSchedules
    split
    · exact h
    · exact List.nodup_nil
  refine List.pairwise_map.mpr ((List.pairwise_map.mp hactive).imp fun hname hsame => ?_)
  exact hname hsame.2

/-- A schedule is apart from what a definition hands over unless the definition is of the same key
and declares the name. -/
theorem apart_handed : (∀ y ∈ p.handed, Scheduler.Apart (key, schedule) y) ↔
    (p.key = key → ¬p.Declares schedule.name) := by
  constructor
  · rintro h hkey ⟨other, hother, hname⟩
    exact h (p.key, other) (mem_handed.mpr ⟨rfl, hother⟩) ⟨hkey.symm, hname.symm⟩
  · rintro h ⟨otherKey, other⟩ hy ⟨hkey, hname⟩
    obtain ⟨hp, hother⟩ := mem_handed.mp hy
    exact h (hp.trans hkey.symm) ⟨other, hother, hname.symm⟩

end Pipeline

/-- The last of these definitions that is of the key. -/
def currentDefinition (definitions : List Pipeline) (key : String) : Option Pipeline :=
  definitions.reverse.find? (·.key = key)

/-- What a scheduler that refuses nothing keeps after these definitions. A schedule stands where it
was handed over last. -/
def kept (definitions : List Pipeline) : List (String × Schedule) :=
  Scheduler.latest (definitions.flatMap Pipeline.handed)

/-- One of these definitions has the schedule, and none after it that is of the same key declares
one of that name. -/
def Outstanding (definitions : List Pipeline) (key : String) (schedule : Schedule) : Prop :=
  ∃ p later, p :: later <:+ definitions ∧ p.key = key ∧ schedule ∈ Service.activeSchedules p ∧
    ∀ q ∈ later, q.key = key → ¬q.Declares schedule.name

section
variable {definitions : List Pipeline} {key : String} {p : Pipeline} {schedule : Schedule}

theorem currentDefinition_concat (definitions : List Pipeline) (p : Pipeline) (key : String) :
    currentDefinition (definitions ++ [p]) key =
      if p.key = key then some p else currentDefinition definitions key := by
  by_cases hkey : p.key = key <;> simp [currentDefinition, hkey]

theorem currentDefinition_eq_some : currentDefinition definitions key = some p ↔
    p.key = key ∧ ∃ later, p :: later <:+ definitions ∧ ∀ q ∈ later, q.key ≠ key := by
  rw [currentDefinition, List.find?_eq_some_iff_append, decide_eq_true_eq]
  refine and_congr_right fun _ => ⟨?_, ?_⟩
  · rintro ⟨after, earlier, hsplit, hafter⟩
    refine ⟨after.reverse, ⟨earlier.reverse, ?_⟩, fun q hq => ?_⟩
    · simpa using (congrArg List.reverse hsplit).symm
    · simpa using hafter q (List.mem_reverse.mp hq)
  · rintro ⟨later, ⟨earlier, rfl⟩, hlater⟩
    refine ⟨later.reverse, earlier.reverse, by simp, fun q hq => ?_⟩
    simpa using hlater q (List.mem_reverse.mp hq)

theorem outstanding_cons : Outstanding (p :: definitions) key schedule ↔
    Outstanding definitions key schedule ∨
      (p.key = key ∧ schedule ∈ Service.activeSchedules p) ∧
        ∀ q ∈ definitions, q.key = key → ¬q.Declares schedule.name := by
  constructor
  · rintro ⟨q, later, hsuffix, hkey, hschedule, hlater⟩
    rcases List.suffix_cons_iff.mp hsuffix with heq | hsuffix
    · cases heq
      exact .inr ⟨⟨hkey, hschedule⟩, hlater⟩
    · exact .inl ⟨q, later, hsuffix, hkey, hschedule, hlater⟩
  · rintro (⟨q, later, hsuffix, hq⟩ | ⟨⟨hkey, hschedule⟩, hlater⟩)
    · exact ⟨q, later, hsuffix.trans (List.suffix_cons ..), hq⟩
    · exact ⟨p, definitions, List.suffix_rfl, hkey, hschedule, hlater⟩

theorem kept_concat (definitions : List Pipeline) (p : Pipeline) :
    kept (definitions ++ [p]) =
      Scheduler.latest (definitions.flatMap Pipeline.handed ++ p.handed) := by
  rw [kept, List.flatMap_append, List.flatMap_singleton]

theorem mem_kept (hdistinct : ∀ p ∈ definitions, p.Distinct) :
    (key, schedule) ∈ kept definitions ↔ Outstanding definitions key schedule := by
  induction definitions with
  | nil => simp [kept, Scheduler.latest, Outstanding]
  | cons p definitions ih =>
    obtain ⟨hp, hrest⟩ := List.forall_mem_cons.mp hdistinct
    have hlater : (∀ y ∈ definitions.flatMap Pipeline.handed, Scheduler.Apart (key, schedule) y) ↔
        ∀ q ∈ definitions, q.key = key → ¬q.Declares schedule.name := by
      simp only [List.forall_mem_flatMap, Pipeline.apart_handed]
    rw [kept, List.flatMap_cons, Scheduler.latest_append, Scheduler.latest_of_pairwise hp.handed,
      List.mem_append, List.mem_filter, decide_eq_true_eq, hlater, Pipeline.mem_handed,
      outstanding_cons, ← ih hrest, or_comm]
    rfl

/-- A schedule that is left is one of the current definition, or of a name that this does not
declare. -/
theorem outstanding_current (hcurrent : currentDefinition definitions key = some p) :
    Outstanding definitions key schedule ↔ schedule ∈ Service.activeSchedules p ∨
      Outstanding definitions key schedule ∧ ¬p.Declares schedule.name := by
  obtain ⟨hkey, later, hsuffix, hlater⟩ := currentDefinition_eq_some.mp hcurrent
  constructor
  · intro h
    obtain ⟨q, after, hsuffix', hkey', hschedule, hafter⟩ := id h
    -- the definition of the schedule stands after the current one, is it, or stands before it
    rcases List.suffix_or_suffix_of_suffix hsuffix' hsuffix with hle | hle
    · rcases List.suffix_cons_iff.mp hle with heq | hle
      · cases heq
        exact .inl hschedule
      · exact absurd hkey' (hlater q (hle.subset (List.mem_cons_self ..)))
    · rcases List.suffix_cons_iff.mp hle with heq | hle
      · cases heq
        exact .inl hschedule
      · exact .inr ⟨h, hafter p (hle.subset (List.mem_cons_self ..)) hkey⟩
  · rintro (hschedule | ⟨h, -⟩)
    · exact ⟨p, later, hsuffix, hkey, hschedule, fun q hq hsame => absurd hsame (hlater q hq)⟩
    · exact h

end

/-- All schedules that are handed to a scheduler that refuses nothing are taken. -/
theorem Hands.latest {handed : List (String × Schedule)}
    (h : Hands key (some { entries := Scheduler.latest handed }) schedules answer last) :
    answer = .ok () ∧
      last = some { entries := Scheduler.latest (handed ++ schedules.map (key, ·)) } := by
  induction schedules generalizing handed with
  | nil =>
    cases h
    exact ⟨rfl, by rw [List.map_nil, List.append_nil]⟩
  | cons schedule rest ih =>
    cases h with
    | refused hschedule => cases (Scheduler.schedule_latest ..).symm.trans hschedule
    | taken hschedule hrest =>
      cases (Scheduler.schedule_latest ..).symm.trans hschedule
      obtain ⟨hanswer, hlast⟩ := ih hrest
      exact ⟨hanswer, by rw [hlast, List.append_assoc, List.map_cons, List.singleton_append]⟩

namespace Service

/-! ## What commands accept -/

/-- The definition that a registration has put in place. -/
def registered? (key text : String) : Except DefinitionError Unit → Option Pipeline
  | .ok () => (Pipeline.ofYaml key text).toOption
  | .error _ => none

/-- The definition that a command puts in place, if any. -/
def accepts (s : Service σ τ) : Command → Option Pipeline
  | .register key text => registered? key text ((register key text).run s).1
  | .registerFile key path =>
    match ((onDisk (Disk.load path)).run s).1 with
    | .ok text => registered? key text ((registerFile key path).run s).1
    | .error _ => none
  | _ => none

/-- The definitions that some commands put in place. -/
def accepted [RunStore τ] (s : Service σ τ) (commands : List Command) : List Pipeline :=
  along (fun s command => (s.accepts command).toList) s commands

/-- These definitions are what a service has been given, and its scheduler refuses nothing. -/
structure InStep (definitions : List Pipeline) (s : Service σ τ) : Prop where
  stored : ∀ key, s.engine.pipelines.find? key = currentDefinition definitions key
  scheduler : s.scheduler = some { entries := kept definitions }

/-- The operation leaves the engine and the scheduler as they are. -/
structure LeavesSetup (op : Operation σ τ α) : Prop where
  engine : ∀ s, (op.run s).2.engine = s.engine
  scheduler : ∀ s, (op.run s).2.scheduler = s.scheduler

/-- Whatever lasts is kept, and so these two. -/
theorem LeavesSetup.of_lasting [RunStore τ] {op : Operation σ τ α}
    (h : ∀ {P : Service σ τ → Prop}, Lasting P → Keeps P op) : LeavesSetup op := by
  have hkept (s : Service σ τ) :
      (op.run s).2.engine = s.engine ∧ (op.run s).2.scheduler = s.scheduler := by
    have hlasting : Lasting fun t : Service σ τ =>
        t.engine = s.engine ∧ t.scheduler = s.scheduler := by
      refine ⟨?_, fun record params => ⟨fun t ht => ?_⟩⟩
      · intro t u hengine hscheduler _ ht
        exact ⟨hengine.trans ht.1, hscheduler.trans ht.2⟩
      · obtain ⟨begun, ended, hrun⟩ := runRecorded_run record params t
        rw [hrun]
        exact ht
    exact (h hlasting).keeps s ⟨rfl, rfl⟩
  exact ⟨fun s => (hkept s).1, fun s => (hkept s).2⟩

section
variable {definitions : List Pipeline} {s t : Service σ τ} {key text : String}

theorem registered?_eq_some (hpipeline : Pipeline.ofYaml key text = .ok p) :
    registered? key text (.ok ()) = some p := by
  rw [registered?, hpipeline]
  rfl

namespace InStep

theorem congr (h : InStep definitions s) (hengine : t.engine = s.engine)
    (hscheduler : t.scheduler = s.scheduler) : InStep definitions t where
  stored := hengine ▸ h.stored
  scheduler := hscheduler.trans h.scheduler

theorem leaves (h : InStep definitions s) {op : Operation σ τ α} (hop : LeavesSetup op) :
    InStep definitions (op.run s).2 :=
  h.congr (hop.engine s) (hop.scheduler s)

/-- A registration that goes through adds its definition, and any other changes nothing. -/
theorem registers (h : InStep definitions s) (hregistered : Registered key text s answer t) :
    InStep (definitions ++ (registered? key text answer).toList) t := by
  cases hregistered with
  | refused _ hengine hscheduler =>
    rw [registered?, Option.toList_none, List.append_nil]
    exact h.congr hengine hscheduler
  | @installed _ p _ hpipeline hinstalled hhands =>
    have hkey := Pipeline.ofYaml_key hpipeline
    rw [h.scheduler] at hhands
    obtain ⟨rfl, hlast⟩ := hhands.latest
    rw [registered?_eq_some hpipeline]
    refine ⟨fun other => ?_, ?_⟩
    · rw [Option.toList_some, currentDefinition_concat, hkey]
      split
      · next heq => exact heq ▸ hinstalled.definition
      · next hne => exact (hinstalled.otherDefinitions other (Ne.symm hne)).trans (h.stored other)
    · rw [hlast, Option.toList_some, kept_concat, Pipeline.handed, hkey]

theorem registersFile (h : InStep definitions s) (key path : String) :
    InStep (definitions ++ (s.accepts (.registerFile key path)).toList)
      ((registerFile key path).run s).2 := by
  have hload : LeavesSetup (onDisk (Disk.load path) : Operation σ τ _) :=
    ⟨fun _ => rfl, fun _ => rfl⟩
  have hloaded := h.leaves hload
  rw [accepts, registerFile, StateT.run_bind]
  rcases hanswer : (onDisk (Disk.load path)).run s with ⟨detail | text, s₁⟩
  · rw [hanswer] at hloaded
    rw [Option.toList_none, List.append_nil]
    exact hloaded
  · rw [hanswer] at hloaded
    exact hloaded.registers (registerIn_registers (Path.parent? path) key text s₁)

/-- One command. -/
theorem execute [RunStore τ] (h : InStep definitions s) (command : Command) :
    InStep (definitions ++ (s.accepts command).toList) ((execute command).run s).2 := by
  have hother {op : Operation σ τ Unit} (hop : LeavesSetup op) :
      InStep (definitions ++ []) (op.run s).2 := by
    rw [List.append_nil]
    exact h.leaves hop
  cases command with
  | register key text => exact h.registers (register_registers key text s)
  | registerFile key path => exact h.registersFile key path
  | run key params => exact hother (.of_lasting fun h => .bind (h.run key params) fun _ => .pure _)
  | submit key params => exact hother ⟨fun _ => rfl, fun _ => rfl⟩
  | work => exact hother (.of_lasting fun h => h.work)
  | waitIdle => exact hother (.of_lasting fun h => h.waitIdle)
  | fire name => exact hother (.of_lasting fun h => .bind (h.fire name) fun _ => .pure _)
  | pass nanos => exact hother ⟨fun _ => rfl, fun _ => rfl⟩

/-- Any number of commands. -/
theorem through [RunStore τ] (h : InStep definitions s) (commands : List Command) :
    InStep (definitions ++ s.accepted commands) (s.through commands) := by
  induction commands generalizing definitions s with
  | nil =>
    rw [accepted, along, List.append_nil]
    exact h
  | cons command rest ih =>
    have hrest := ih (h.execute command)
    rw [List.append_assoc] at hrest
    exact hrest

end InStep

/-! ## Firing -/

/-- What a service with a scheduler that refuses nothing has come to with these definitions. -/
structure Updated [RunStore τ] (definitions : List Pipeline) (s : Service σ τ) : Prop where
  /-- The last definition of a key is stored. -/
  stored : ∀ key, s.engine.pipelines.find? key = currentDefinition definitions key
  scheduler : s.scheduler = some { entries := kept definitions }
  /-- No schedule is kept next to another of the same pipeline and name. -/
  apart : (kept definitions).Pairwise Scheduler.Apart
  outstanding : ∀ key schedule, (key, schedule) ∈ kept definitions ↔
    Outstanding definitions key schedule
  /-- The schedules of a stored definition are kept, and those of earlier ones whose names it does
  not declare. -/
  current : ∀ key p, s.engine.pipelines.find? key = some p → ∀ schedule,
    (key, schedule) ∈ kept definitions ↔ schedule ∈ activeSchedules p ∨
      Outstanding definitions key schedule ∧ ¬p.Declares schedule.name
  /-- Firing a name makes a run of the first schedule of the name unless its lock is held. -/
  fires : ∀ name key schedule,
    (kept definitions).find? (·.2.name = name) = some (key, schedule) →
    ((fire name).run s).1 = true ∧
      (s.isFree schedule = true → ∃ submitted begun ended, Saves s 1
        ((s.make (s.next key (some schedule.params) false)).records submitted begun ended)
        ((fire name).run s).2) ∧
      (s.isFree schedule = false → Saves s 0 [] ((fire name).run s).2)
  /-- Nothing comes of a name that no schedule has. -/
  silent : ∀ name, (∀ entry ∈ kept definitions, entry.2.name ≠ name) →
    (fire name).run s = (false, s)

theorem fire_answer [RunStore τ] (name : String) (s : Service σ τ) :
    ((fire name).run s).1 = (s.scheduler.bind (·.find? name)).isSome := by
  cases hfound : s.scheduler.bind (·.find? name) with
  | none =>
    simp [fire, hfound]
    rfl
  | some found =>
    simp [fire, hfound]
    rfl

theorem InStep.updated [RunStore τ] (h : InStep definitions s)
    (hdistinct : ∀ p ∈ definitions, p.Distinct) : Updated definitions s := by
  have hfind (name : String) : s.scheduler.bind (·.find? name) =
      (kept definitions).find? (·.2.name = name) := by
    rw [h.scheduler]
    rfl
  constructor
  case stored => exact h.stored
  case scheduler => exact h.scheduler
  case apart => exact List.pairwise_pwFilter _
  case outstanding => exact fun key schedule => mem_kept hdistinct
  case current =>
    intro key p hp schedule
    rw [h.stored] at hp
    exact (mem_kept hdistinct).trans (outstanding_current hp)
  case fires =>
    intro name key schedule hfound
    rw [fire_answer, fire_run, hfind, hfound]
    exact ⟨rfl, startScheduled_saves key, startScheduled_saves_nothing key⟩
  case silent =>
    intro name hname
    have hnone : (kept definitions).find? (·.2.name = name) = none := by
      simpa using hname
    refine Prod.ext ?_ ?_
    · rw [fire_answer, hfind, hnone]
      rfl
    · rw [fire_run, hfind, hnone]

end

variable [RunStore τ]

/-- **The schedules of all definitions that have been accepted decide what a scheduler keeps and
starts.** -/
theorem schedules_updated {s : Service σ τ} (hpipelines : s.engine.pipelines = [])
    (hscheduler : s.scheduler = some {}) (commands : List Command)
    (hdistinct : ∀ p ∈ s.accepted commands, p.Distinct) :
    Updated (s.accepted commands) (s.through commands) := by
  have hempty : InStep [] s := ⟨fun key => by rw [hpipelines]; rfl, hscheduler⟩
  exact (hempty.through commands).updated hdistinct

/-- A service with a scheduler that refuses nothing. -/
def sampleManual : Service Unit MemoryStore where
  engine := sampleService.engine
  scheduler := some {}
  history := RunStore.empty
  world := { state := () }
  runId _ := "run"

/-- A definition with a schedule is replaced. -/
def sampleReplaced (text : String) : List Command :=
  [.register "p" sampleDefinition, .register "p" text]

def sampleDropped : String := "flows: []"

def sampleDisabled : String := "scheduleEnabled: false\n" ++ sampleDefinition

theorem schedules_updated_dropped :
    (∀ p ∈ sampleManual.accepted (sampleReplaced sampleDropped), p.Distinct) ∧
      Updated (sampleManual.accepted (sampleReplaced sampleDropped))
        (sampleManual.through (sampleReplaced sampleDropped)) := by
  have hdistinct : ∀ p ∈ sampleManual.accepted (sampleReplaced sampleDropped), p.Distinct := by
    decide +kernel
  exact ⟨hdistinct, schedules_updated rfl rfl (sampleReplaced sampleDropped) hdistinct⟩

/-- A schedule that the stored definition has dropped or switched off is kept, and a run starts
when it is fired. -/
theorem schedule_outlives :
    (let s := sampleManual.through (sampleReplaced sampleDropped)
    (sampleManual.accepted (sampleReplaced sampleDropped)).length = 2 ∧
      (s.engine.pipelines.find? "p").map (·.schedules.length) = some 0 ∧
      s.scheduler.map (·.entries.map fun (key, schedule) => (key, schedule.name)) =
        some [("p", "nightly")] ∧
      ((fire "nightly").run s).1 = true ∧
      ((fire "nightly").run s).2.history.records.map (·.runId) = ["run"]) ∧
    let s := sampleManual.through (sampleReplaced sampleDisabled)
    (sampleManual.accepted (sampleReplaced sampleDisabled)).length = 2 ∧
      (s.engine.pipelines.find? "p").map (·.scheduleEnabled) = some false ∧
      s.scheduler.map (·.entries.map fun (key, schedule) => (key, schedule.name)) =
        some [("p", "nightly")] ∧
      ((fire "nightly").run s).1 = true ∧
      ((fire "nightly").run s).2.history.records.map (·.runId) = ["run"] := by
  decide +kernel

end Service

end RowFlow
