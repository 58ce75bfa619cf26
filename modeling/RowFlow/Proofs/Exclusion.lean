import Mathlib.Logic.Function.Basic
import RowFlow.Service.Basic

/-!
# Tasks that share locks

A task with a lock reads the clock, tries to take the lock, works if it has got it, and releases it
in the end. The steps of any number of tasks may be mixed in any way, on a clock that never goes
back (`Contest.Step`, `Contest.Steps`). The run of a schedule is such a task
(`Service.startScheduled_steps`).

A task that has taken a lock keeps the others out as long as the releases since then leave the lock
held (`Contest.excludes_iff`). A task whose time has run out still releases its lock, and with it
the lock of the task that has taken it since (`Contest.successor_unprotected`).
-/

namespace RowFlow

/-! ## Locks over time -/

namespace Locks

theorem isHeld_hold (locks : Locks) (name : String) (limit : Nat) (other : String) (now : Nat) :
    (locks.hold name limit).isHeld other now =
      if name = other then decide (now < limit) else locks.isHeld other now := by
  by_cases hname : name = other
  · simp [isHeld, hold, hname]
  · simp [isHeld, hold, Dict.find?_insert, hname]

/-- From the release on, the lock is held until the time that the release has set. -/
theorem isHeld_unlock (locks : Locks) (name : String) {now later : Nat} (h : now ≤ later)
    (keep : Nat) (other : String) :
    (locks.unlock name now keep).isHeld other later =
      if name = other then decide (later < keep) else locks.isHeld other later := by
  unfold unlock
  split
  · exact isHeld_hold ..
  · have hover : ¬ later < keep := by omega
    by_cases hname : name = other
    · simp [isHeld, Dict.find?_erase, hname, hover]
    · simp [isHeld, Dict.find?_erase, hname]

theorem tryLock_granted {locks locks' : Locks}
    (h : locks.tryLock name now duration = (true, locks')) :
    locks.isHeld name now = false ∧ locks' = locks.hold name (now + duration) := by
  unfold tryLock at h
  split at h
  · cases h
  · rename_i hheld
    cases h
    exact ⟨by simpa using hheld, rfl⟩

theorem tryLock_refused {locks locks' : Locks}
    (h : locks.tryLock name now duration = (false, locks')) :
    locks.isHeld name now ∧ locks' = locks := by
  unfold tryLock at h
  split at h
  · rename_i hheld
    cases h
    exact ⟨hheld, rfl⟩
  · cases h

/-- From a time on, a lock is held before the limit and free from then on. -/
def HeldTo (locks : Locks) (name : String) (clock limit : Nat) : Prop :=
  ∀ now, clock ≤ now → locks.isHeld name now = decide (now < limit)

theorem HeldTo.mono {locks : Locks} (h : locks.HeldTo name clock limit) (hle : clock ≤ clock') :
    locks.HeldTo name clock' limit :=
  fun now hnow => h now (Nat.le_trans hle hnow)

end Locks

/-! ## Tasks -/

/-- How far a task has come. -/
inductive Turn where
  | waiting
  | started (start : Nat)
  /-- The task has its lock. -/
  | working (start : Nat)
  | finished

/-- What a task does, and when. -/
inductive Move (ι : Type) where
  | start (task : ι) (now : Nat)
  | attempt (task : ι) (now : Nat) (granted : Bool)
  /-- The lock is released, but not before a given time. -/
  | release (task : ι) (now keep : Nat)

/-- The locks that tasks share, the latest reading of the clock, and where each task is. -/
structure Contest (ι : Type) where
  locks : Locks
  clock : Nat
  turn : ι → Turn

namespace Contest

variable {ι : Type} [DecidableEq ι]

/-- No task has begun, and all locks are free. -/
def initial : Contest ι := ⟨{}, 0, fun _ => .waiting⟩

/-- A task makes its next move. -/
inductive Step (spec : ι → LockSpec) : Contest ι → Move ι → Contest ι → Prop
  | start : c.clock ≤ now → c.turn i = .waiting →
    Step spec c (.start i now) ⟨c.locks, now, Function.update c.turn i (.started now)⟩
  | granted : c.clock ≤ now → c.turn i = .started start →
    c.locks.tryLock (spec i).name now (Locks.seconds (spec i).atMost) = (true, locks') →
    Step spec c (.attempt i now true) ⟨locks', now, Function.update c.turn i (.working start)⟩
  | refused : c.clock ≤ now → c.turn i = .started start →
    c.locks.tryLock (spec i).name now (Locks.seconds (spec i).atMost) = (false, locks') →
    Step spec c (.attempt i now false) ⟨locks', now, Function.update c.turn i .finished⟩
  | release : c.clock ≤ now → c.turn i = .working start →
    keep = start + Locks.seconds (spec i).atLeast →
    Step spec c (.release i now keep)
      ⟨c.locks.unlock (spec i).name now keep, now, Function.update c.turn i .finished⟩

/-- Moves of the tasks, one after another. -/
inductive Steps (spec : ι → LockSpec) : Contest ι → List (Move ι) → Contest ι → Prop
  | nil : Steps spec c [] c
  | cons : Step spec c move c₁ → Steps spec c₁ moves c₂ → Steps spec c (move :: moves) c₂

variable {spec : ι → LockSpec} {c c₁ c₂ : Contest ι}

theorem Steps.split (h : Steps spec c (moves ++ move :: rest) c₂) :
    ∃ c₁ c₁', Steps spec c moves c₁ ∧ Step spec c₁ move c₁' ∧ Steps spec c₁' rest c₂ := by
  induction moves generalizing c with
  | nil =>
    cases h with
    | cons hstep hrest => exact ⟨c, _, .nil, hstep, hrest⟩
  | cons first moves ih =>
    cases h with
    | cons hfirst hmoves =>
      obtain ⟨c₁, c₁', hmoves, hstep, hrest⟩ := ih hmoves
      exact ⟨c₁, c₁', .cons hfirst hmoves, hstep, hrest⟩

theorem Step.clock_le (h : Step spec c move c₁) : c.clock ≤ c₁.clock := by
  cases h <;> assumption

theorem Steps.clock_le (h : Steps spec c moves c₂) : c.clock ≤ c₂.clock := by
  induction h with
  | nil => exact Nat.le_refl _
  | cons hstep _ ih => exact Nat.le_trans hstep.clock_le ih

theorem Step.attempt_clock {granted : Bool} (h : Step spec c (.attempt i now granted) c₁) :
    c.clock ≤ now ∧ c₁.clock = now := by
  cases h with
  | granted hclock => exact ⟨hclock, rfl⟩
  | refused hclock => exact ⟨hclock, rfl⟩

/-- A later attempt is made at a later time. -/
theorem Steps.attempt_le {granted granted' : Bool}
    (h : Steps spec c (moves ++ .attempt i now granted :: (between ++ .attempt j now' granted' ::
      rest)) c₂) : now ≤ now' := by
  obtain ⟨_, c₁, -, hfirst, hrest⟩ := h.split
  obtain ⟨_, _, hbetween, hsecond, -⟩ := hrest.split
  have hclock := hbetween.clock_le
  have hbefore := hsecond.attempt_clock.1
  have hafter := hfirst.attempt_clock.2
  omega

end Contest

/-! ## How long a lock stays held -/

namespace Move

variable {ι : Type} {name : String} {limit : Nat}

/-- The lock of a name goes to a task. -/
def Grants (spec : ι → LockSpec) (name : String) : Move ι → Prop
  | .attempt i _ true => (spec i).name = name
  | _ => False

/-- Until when a lock is held after a move that does not grant it. -/
def limitAfter (spec : ι → LockSpec) (name : String) (limit : Nat) : Move ι → Nat
  | .release i _ keep => if (spec i).name = name then keep else limit
  | _ => limit

end Move

namespace Contest

variable {ι : Type} [DecidableEq ι] {spec : ι → LockSpec} {c c₁ c₂ : Contest ι}

/-- Until when a lock is held after moves that do not grant it: what its last release has set. -/
def limitAfter (spec : ι → LockSpec) (name : String) (limit : Nat) (moves : List (Move ι)) : Nat :=
  moves.foldl (Move.limitAfter spec name) limit

theorem Step.heldTo (h : Step spec c move c₁) (hgrants : ¬ move.Grants spec name)
    (hheld : c.locks.HeldTo name c.clock limit) :
    c₁.locks.HeldTo name c₁.clock (move.limitAfter spec name limit) := by
  cases h with
  | start hclock => exact hheld.mono hclock
  | granted hclock _ hlock =>
    obtain ⟨-, rfl⟩ := Locks.tryLock_granted hlock
    have hother : (spec _).name ≠ name := hgrants
    intro now hnow
    rw [Locks.isHeld_hold, if_neg hother]
    exact hheld now (Nat.le_trans hclock hnow)
  | refused hclock _ hlock =>
    obtain ⟨-, rfl⟩ := Locks.tryLock_refused hlock
    exact hheld.mono hclock
  | release hclock =>
    intro now hnow
    rw [Locks.isHeld_unlock _ _ hnow]
    simp only [Move.limitAfter]
    split
    · rfl
    · exact hheld now (Nat.le_trans hclock hnow)

theorem Steps.heldTo (h : Steps spec c moves c₂) (hgrants : ∀ move ∈ moves, ¬ move.Grants spec name)
    (hheld : c.locks.HeldTo name c.clock limit) :
    c₂.locks.HeldTo name c₂.clock (limitAfter spec name limit moves) := by
  induction h generalizing limit with
  | nil => exact hheld
  | cons hstep _ ih =>
    have hfirst := hstep.heldTo (hgrants _ List.mem_cons_self) hheld
    exact ih (fun move hmove => hgrants move (List.mem_cons_of_mem _ hmove)) hfirst

theorem Step.heldTo_of_granted (h : Step spec c (.attempt i taken true) c₁) :
    c₁.locks.HeldTo (spec i).name c₁.clock (taken + Locks.seconds (spec i).atMost) := by
  cases h with
  | granted _ _ hlock =>
    obtain ⟨-, rfl⟩ := Locks.tryLock_granted hlock
    intro now _
    rw [Locks.isHeld_hold, if_pos rfl]

/-- An attempt is refused if and only if it comes before the limit. -/
theorem Step.refused_iff {granted : Bool} (h : Step spec c (.attempt j now granted) c₁)
    (hheld : c.locks.HeldTo (spec j).name c.clock limit) : granted = false ↔ now < limit := by
  cases h with
  | granted hclock _ hlock =>
    obtain ⟨hfree, -⟩ := Locks.tryLock_granted hlock
    have hover := (hheld now hclock).symm.trans hfree
    simpa using hover
  | refused hclock _ hlock =>
    obtain ⟨hlocked, -⟩ := Locks.tryLock_refused hlock
    have hbefore := (hheld now hclock).symm.trans hlocked
    simpa using hbefore

/-! ## Exclusion -/

/-- By the moves since it has taken its lock, a task has not released it, and its longest time is
not over. -/
structure Within (spec : ι → LockSpec) (i : ι) (taken : Nat) (since : List (Move ι)) (now : Nat) :
    Prop where
  unreleased : ∀ time keep, .release i time keep ∉ since
  inTime : now < taken + Locks.seconds (spec i).atMost

/-- Of the moves since a task has taken its lock, an attempt at the lock while it is the task's. -/
structure Challenge (spec : ι → LockSpec) (i : ι) (taken : Nat) (moves since : List (Move ι))
    (j : ι) (now : Nat) (granted : Bool) : Prop where
  made : ∃ rest, moves = since ++ .attempt j now granted :: rest
  name : (spec j).name = (spec i).name
  within : Within spec i taken since now

/-- While a task has its lock, every attempt at the lock is refused. -/
def Excludes (spec : ι → LockSpec) (i : ι) (taken : Nat) (moves : List (Move ι)) : Prop :=
  ∀ since j now granted, Challenge spec i taken moves since j now granted → granted = false

/-- Unless an earlier challenge is granted, none of the moves before a challenge grants the lock. -/
theorem Challenge.not_grants {granted : Bool} (hmoves : Steps spec c₁ moves c₂)
    (h : Challenge spec i taken moves since j now granted)
    (hearlier : ∀ since' j' now' granted', since'.length < since.length →
      Challenge spec i taken moves since' j' now' granted' → granted' = false) :
    ∀ move ∈ since, ¬ move.Grants spec (spec i).name := by
  intro move hmove hgrants
  obtain ⟨before, between, rfl⟩ := List.append_of_mem hmove
  obtain ⟨rest, rfl⟩ := h.made
  cases move with
  | start | release => exact hgrants
  | attempt j' now' granted' =>
    cases granted' with
    | false => exact hgrants
    | true =>
      rw [List.append_assoc, List.cons_append] at hmoves
      have hle : now' ≤ now := hmoves.attempt_le
      have hunreleased : ∀ time keep, Move.release i time keep ∉ before := fun time keep hmem =>
        h.within.unreleased time keep (List.mem_append_left _ hmem)
      have hchallenge : Challenge spec i taken
          ((before ++ .attempt j' now' true :: between) ++ .attempt j now granted :: rest) before j'
          now' true :=
        { made := ⟨between ++ .attempt j now granted :: rest, by simp⟩
          name := hgrants
          within := ⟨hunreleased, Nat.lt_of_le_of_lt hle h.within.inTime⟩ }
      exact Bool.noConfusion (hearlier before j' now' true (by simp) hchallenge)

/-- As long as no move grants the lock, a challenge is refused before the limit. -/
theorem Challenge.refused_iff {granted : Bool} (htaken : Step spec c (.attempt i taken true) c₁)
    (hmoves : Steps spec c₁ moves c₂) (h : Challenge spec i taken moves since j now granted)
    (hgrants : ∀ move ∈ since, ¬ move.Grants spec (spec i).name) :
    granted = false ↔
      now < limitAfter spec (spec i).name (taken + Locks.seconds (spec i).atMost) since := by
  obtain ⟨rest, rfl⟩ := h.made
  obtain ⟨_, _, hsince, hattempt, -⟩ := hmoves.split
  have hheld := hsince.heldTo hgrants htaken.heldTo_of_granted
  rw [← h.name] at hheld ⊢
  exact hattempt.refused_iff hheld

/-- **Who keeps others out.** While a task has its lock, every attempt at the lock is refused, if
and only if each comes before the limit that the last release since then has set. -/
theorem excludes_iff (htaken : Step spec c (.attempt i taken true) c₁)
    (hmoves : Steps spec c₁ moves c₂) :
    Excludes spec i taken moves ↔
      ∀ since j now granted, Challenge spec i taken moves since j now granted →
        now < limitAfter spec (spec i).name (taken + Locks.seconds (spec i).atMost) since := by
  constructor
  · intro hexcludes since j now granted h
    have hgrants := h.not_grants hmoves fun since' j' now' granted' _ =>
      hexcludes since' j' now' granted'
    exact (h.refused_iff htaken hmoves hgrants).mp (hexcludes since j now granted h)
  · intro hlimit since
    -- an attempt that is granted moves the limit, so the shorter lists of moves come first
    induction hlength : since.length using Nat.strongRecOn generalizing since with
    | ind length ih =>
      intro j now granted h
      have hgrants := h.not_grants hmoves fun since' j' now' granted' hlt =>
        ih since'.length (hlength ▸ hlt) since' rfl j' now' granted'
      exact (h.refused_iff htaken hmoves hgrants).mpr (hlimit since j now granted h)

/-! ## A task that is late -/

/-- Three tasks with one lock. The first may have it for a minute at most, and keeps it for a given
time at least; the others may have it for ten minutes and do not keep it. -/
def sampleLocks (atLeast : Nat) : Nat → LockSpec
  | 0 => { name := "nightly", atLeast, atMost := 60 }
  | _ => { name := "nightly", atLeast := 0, atMost := 600 }

/-- The first task has the lock, and the second is about to take it one second too late for the
first. -/
def sampleOverrun : List (Move Nat) :=
  [.start 0 0, .attempt 0 0 true, .start 1 (Locks.seconds 61)]

/-- The first task releases the lock that is the second's by now, and the third tries to take it. -/
def sampleLateRelease (keep : Nat) (granted : Bool) : List (Move Nat) :=
  [.release 0 (Locks.seconds 62) keep, .start 2 (Locks.seconds 63),
    .attempt 2 (Locks.seconds 63) granted]

theorem sample_challenge (atLeast keep : Nat) (granted : Bool) :
    Challenge (sampleLocks atLeast) 1 (Locks.seconds 61) (sampleLateRelease keep granted)
      [.release 0 (Locks.seconds 62) keep, .start 2 (Locks.seconds 63)] 2 (Locks.seconds 63)
      granted where
  made := ⟨[], rfl⟩
  name := rfl
  within := ⟨by simp, by simp [sampleLocks, Locks.seconds]⟩

/-- The first task keeps the lock for five minutes, and so for the second task. -/
theorem excludes_iff_kept :
    ∃ c c₁ c₂ : Contest Nat, Steps (sampleLocks 300) initial sampleOverrun c ∧
      Step (sampleLocks 300) c (.attempt 1 (Locks.seconds 61) true) c₁ ∧
      Steps (sampleLocks 300) c₁ (sampleLateRelease (Locks.seconds 300) false) c₂ ∧
      Excludes (sampleLocks 300) 1 (Locks.seconds 61)
        (sampleLateRelease (Locks.seconds 300) false) := by
  obtain ⟨c, c₁, c₂, hoverrun, htaken, hrelease⟩ : ∃ c c₁ c₂ : Contest Nat,
      Steps (sampleLocks 300) initial sampleOverrun c ∧
      Step (sampleLocks 300) c (.attempt 1 (Locks.seconds 61) true) c₁ ∧
      Steps (sampleLocks 300) c₁ (sampleLateRelease (Locks.seconds 300) false) c₂ :=
    ⟨_, _, _,
      .cons (.start (by decide) rfl) (.cons (.granted (by decide) rfl rfl)
        (.cons (.start (by decide) rfl) .nil)),
      .granted (by decide) rfl rfl,
      .cons (.release (by decide) rfl rfl) (.cons (.start (by decide) rfl)
        (.cons (.refused (by decide) rfl rfl) .nil))⟩
  refine ⟨c, c₁, c₂, hoverrun, htaken, hrelease, (excludes_iff htaken hrelease).mpr ?_⟩
  rintro since j now granted ⟨⟨rest, hmade⟩, -, -⟩
  -- there is one attempt, after the two moves before it
  rcases since with _ | ⟨_, _ | ⟨_, _ | ⟨_, since⟩⟩⟩
  · cases hmade
  · cases hmade
  · cases hmade
    decide
  · cases since <;> cases hmade

/-- The first task does not keep the lock, and the third takes it while it is the second's. -/
theorem successor_unprotected :
    ∃ c c₁ c₂ : Contest Nat, Steps (sampleLocks 0) initial sampleOverrun c ∧
      Step (sampleLocks 0) c (.attempt 1 (Locks.seconds 61) true) c₁ ∧
      Steps (sampleLocks 0) c₁ (sampleLateRelease 0 true) c₂ ∧
      ¬ Excludes (sampleLocks 0) 1 (Locks.seconds 61) (sampleLateRelease 0 true) := by
  refine ⟨_, _, _,
    .cons (.start (by decide) rfl) (.cons (.granted (by decide) rfl rfl)
      (.cons (.start (by decide) rfl) .nil)),
    .granted (by decide) rfl rfl,
    .cons (.release (by decide) rfl rfl) (.cons (.start (by decide) rfl)
      (.cons (.granted (by decide) rfl rfl) .nil)), ?_⟩
  intro h
  exact Bool.noConfusion (h _ _ _ _ (sample_challenge 0 0 true))

end Contest

/-! ## Scheduled runs -/

namespace Service

variable {σ τ : Type}

/-- The operation leaves the locks alone, and the clock does not go back. -/
structure LeavesLocks (op : Operation σ τ α) : Prop where
  locks : ∀ s, (op.run s).2.locks = s.locks
  clock : ∀ s, s.clock ≤ (op.run s).2.clock

namespace LeavesLocks

theorem pure (a : α) : LeavesLocks (Pure.pure a : Operation σ τ α) :=
  ⟨fun _ => rfl, fun _ => Nat.le_refl _⟩

theorem bind {op : Operation σ τ α} {f : α → Operation σ τ β} (h : LeavesLocks op)
    (h' : ∀ a, LeavesLocks (f a)) : LeavesLocks (op >>= f) where
  locks s := ((h' _).locks _).trans (h.locks s)
  clock s := Nat.le_trans (h.clock s) ((h' _).clock _)

theorem now : LeavesLocks (Service.now : Operation σ τ Time) :=
  ⟨fun _ => rfl, fun _ => Nat.le_succ _⟩

theorem transport (runId key : String) (params : Option (List Row)) :
    LeavesLocks (Service.transport runId key params : Operation σ τ (Except EngineError Unit)) := by
  refine .bind ⟨fun _ => rfl, fun _ => Nat.le_refl _⟩ fun s => ?_
  refine .bind ⟨fun _ => rfl, fun _ => Nat.le_refl _⟩ fun answer => ?_
  rcases answer with (e | message) | _ <;> exact .pure _

theorem transportOnTask (runId key : String) (params : Option (List Row)) :
    LeavesLocks
      (Service.transportOnTask runId key params : Operation σ τ (Except EngineError Unit)) :=
  .bind ⟨fun _ => rfl, fun _ => Nat.le_refl _⟩ fun _ => .transport ..

variable [RunStore τ]

theorem save (record : RunRecord) : LeavesLocks (Service.save record : Operation σ τ Unit) :=
  ⟨fun _ => rfl, fun _ => Nat.le_refl _⟩

theorem settle (record : RunRecord) (result : Except EngineError Unit) :
    LeavesLocks (Service.settle record result : Operation σ τ Unit) := by
  cases result with
  | ok => exact .bind .now fun _ => .save _
  | error e => exact .bind .now fun _ => .save _

theorem runScheduled (key : String) (schedule : Schedule) :
    LeavesLocks (Service.runScheduled key schedule : Operation σ τ Unit) := by
  have hid : LeavesLocks (newRunId : Operation σ τ String) :=
    ⟨fun _ => rfl, fun _ => Nat.le_refl _⟩
  refine .bind (.bind hid fun _ => .bind .now fun _ => .pure _) fun record => ?_
  refine .bind ?_ fun _ => .pure _
  refine .bind (.bind .now fun _ => .bind (.save _) fun _ => .pure _) fun record => ?_
  exact .bind (.transportOnTask ..) fun result => .bind (.settle record result) fun _ => .pure _

end LeavesLocks

variable [RunStore τ]

theorem startScheduled_refused {s : Service σ τ} {schedule : Schedule} {locks : Locks}
    (hlock : schedule.lock = some lock) (hlocks : s.locks = some locks)
    (htry : locks.tryLock lock.name (s.clock + 1) (Locks.seconds lock.atMost) = (false, locks')) :
    (startScheduled key schedule).run s =
      ((), { s with locks := some locks', clock := s.clock + 2 }) := by
  simp [startScheduled, hlock, hlocks, acquire, instant, htry]
  rfl

theorem startScheduled_granted {s : Service σ τ} {schedule : Schedule} {locks : Locks}
    (hlock : schedule.lock = some lock) (hlocks : s.locks = some locks)
    (htry : locks.tryLock lock.name (s.clock + 1) (Locks.seconds lock.atMost) = (true, locks')) :
    (startScheduled key schedule).run s =
      (runScheduled key schedule >>= fun _ => release lock s.clock).run
        { s with locks := some locks', clock := s.clock + 2 } := by
  simp [startScheduled, hlock, hlocks, acquire, instant, htry]

/-- A run of a schedule with a lock is a task: it makes its moves one after another, and nothing
else in it changes a lock. -/
theorem startScheduled_steps {s : Service σ τ} {schedule : Schedule} {locks : Locks}
    (hlock : schedule.lock = some lock) (hlocks : s.locks = some locks) :
    ∃ moves c, Contest.Steps (fun _ : Unit => lock) ⟨locks, s.clock, fun _ => .waiting⟩ moves c ∧
      c.turn () = .finished ∧
      ((startScheduled key schedule).run s).2.locks = some c.locks ∧
      c.clock ≤ ((startScheduled key schedule).run s).2.clock := by
  let spec : Unit → LockSpec := fun _ => lock
  let started : Unit → Turn := Function.update (fun _ => .waiting) () (.started s.clock)
  let working : Unit → Turn := Function.update started () (.working s.clock)
  have hstart : Contest.Step spec ⟨locks, s.clock, fun _ => .waiting⟩ (.start () s.clock)
      ⟨locks, s.clock, started⟩ := .start (Nat.le_refl _) rfl
  rcases htry : locks.tryLock lock.name (s.clock + 1) (Locks.seconds lock.atMost) with
    ⟨_ | _, locks₁⟩
  · have hattempt : Contest.Step spec ⟨locks, s.clock, started⟩
        (.attempt () (s.clock + 1) false) ⟨locks₁, s.clock + 1, _⟩ :=
      .refused (Nat.le_succ _) rfl htry
    rw [startScheduled_refused hlock hlocks htry]
    exact ⟨_, _, .cons hstart (.cons hattempt .nil), rfl, rfl, Nat.le_succ _⟩
  · have hattempt : Contest.Step spec ⟨locks, s.clock, started⟩
        (.attempt () (s.clock + 1) true) ⟨locks₁, s.clock + 1, working⟩ :=
      .granted (Nat.le_succ _) rfl htry
    have hrun := LeavesLocks.runScheduled (σ := σ) (τ := τ) key schedule
    rw [startScheduled_granted hlock hlocks htry]
    generalize hs₁ : ({ s with locks := some locks₁, clock := s.clock + 2 } : Service σ τ) = s₁
    have hlocks₂ : ((runScheduled key schedule).run s₁).2.locks = some locks₁ := by
      rw [hrun.locks, ← hs₁]
    have hclock₂ : s.clock + 1 ≤ ((runScheduled key schedule).run s₁).2.clock := by
      have hle := hrun.clock s₁
      rw [← hs₁] at hle ⊢
      exact Nat.le_trans (Nat.le_succ _) hle
    have hrelease : Contest.Step spec ⟨locks₁, s.clock + 1, working⟩ _ _ :=
      .release (i := ()) hclock₂ rfl rfl
    refine ⟨_, _, .cons hstart (.cons hattempt (.cons hrelease .nil)), rfl, ?_,
      Nat.le_succ _⟩
    exact congrArg (Option.map _) hlocks₂

end Service

end RowFlow
