import RowFlow.Proofs.Exclusion

/-!
# Who gets a lock

If every task releases its lock before its longest time is over, a task that tries to take a lock
gets it if and only if all tasks that have had it have released it, and the last of them does not
keep it any longer (`Contest.admits`).

A task takes its lock at most once, and ends with its release (`Contest.Life`). So when all tasks
before have released a lock, only the one that has taken it last can change until when it is held
(`Contest.LastTaker.release_self`): it has the lock until its release, and from then on the lock is
kept (`Contest.LastTaker.granted_iff`). That the tasks before have released it is true by induction,
since the last of them has been granted the lock as well (`Contest.allReleased_of_granted`).
-/

namespace RowFlow

namespace Move

variable {ι : Type}

/-- The task that makes a move. -/
def task : Move ι → ι
  | .start i _ | .attempt i _ _ | .release i _ _ => i

/-- When a move is made. -/
def time : Move ι → Nat
  | .start _ now | .attempt _ now _ | .release _ now _ => now

end Move

namespace Contest

variable {ι : Type} {spec : ι → LockSpec}

/-! ## The life of a task -/

/-- What a task has done when it has come so far. -/
inductive Life (spec : ι → LockSpec) (i : ι) : List (Move ι) → Turn → Prop
  | waiting : Life spec i [] .waiting
  | started : Life spec i [.start i start] (.started start)
  | working : Life spec i [.start i start, .attempt i taken true] (.working start)
  | refused : Life spec i [.start i start, .attempt i tried false] .finished
  | released : keep = start + Locks.seconds (spec i).atLeast →
    Life spec i [.start i start, .attempt i taken true, .release i now keep] .finished

theorem Life.attempt_of_release {turn : Turn} (h : Life spec i moves turn)
    (hmem : .release i now keep ∈ moves) : ∃ taken, .attempt i taken true ∈ moves := by
  cases h with
  | waiting | started | working | refused => simp at hmem
  | released => exact ⟨_, List.mem_cons_of_mem _ List.mem_cons_self⟩

theorem Life.start_of_attempt {turn : Turn} (h : Life spec i moves turn)
    (hmem : .attempt i taken true ∈ moves) : ∃ start, .start i start ∈ moves := by
  cases h with
  | waiting => cases hmem
  | started => simp at hmem
  | working | refused | released => exact ⟨_, List.mem_cons_self⟩

/-- A task ends with its release. -/
theorem Life.nil_of_release {turn : Turn} (h : Life spec i (moves ++ more) turn)
    (hmem : .release i now keep ∈ moves) : more = [] := by
  by_contra hne
  have hfront : moves ++ more.dropLast = (moves ++ more).dropLast :=
    (List.dropLast_append_of_ne_nil hne).symm
  have hmem' : .release i now keep ∈ (moves ++ more).dropLast :=
    hfront ▸ List.mem_append_left _ hmem
  generalize moves ++ more = all at h hmem'
  cases h <;> simp at hmem'

/-- Until when a lock is kept is counted from the start of the task. -/
theorem Life.keep_eq {turn : Turn} (h : Life spec i moves turn) (hmem : .release i now keep ∈ moves)
    (hstart : .start i start ∈ moves) : keep = start + Locks.seconds (spec i).atLeast := by
  cases h with
  | waiting | started | working | refused => simp at hmem
  | released hkeep =>
    simp only [List.mem_cons, Move.release.injEq, Move.start.injEq, reduceCtorEq, List.not_mem_nil,
      or_false, false_or] at hmem hstart
    rw [hmem.2.2, hkeep, hstart.2]

section

variable [DecidableEq ι] {c c₁ c₂ : Contest ι}

/-- The moves of one task. -/
def own (i : ι) (moves : List (Move ι)) : List (Move ι) := moves.filter (·.task = i)

theorem own_append (i : ι) (moves more : List (Move ι)) :
    own i (moves ++ more) = own i moves ++ own i more := List.filter_append ..

theorem mem_own {move : Move ι} : move ∈ own i moves ↔ move ∈ moves ∧ move.task = i := by
  rw [own, List.mem_filter, decide_eq_true_iff]

theorem Step.turn_other (h : Step spec c move c₁) (hother : move.task ≠ i) :
    c₁.turn i = c.turn i := by
  cases h <;> exact Function.update_of_ne (Ne.symm hother) ..

theorem Step.life_self (h : Step spec c move c₁)
    (hlife : Life spec move.task past (c.turn move.task)) :
    Life spec move.task (past ++ [move]) (c₁.turn move.task) := by
  cases h with
  | start _ hturn =>
    simp only [Move.task, hturn, Function.update_self] at hlife ⊢
    cases hlife
    exact .started
  | granted _ hturn =>
    simp only [Move.task, hturn, Function.update_self] at hlife ⊢
    cases hlife
    exact .working
  | refused _ hturn =>
    simp only [Move.task, hturn, Function.update_self] at hlife ⊢
    cases hlife
    exact .refused
  | release _ hturn hkeep =>
    simp only [Move.task, hturn, Function.update_self] at hlife ⊢
    cases hlife
    exact .released hkeep

theorem Step.life (h : Step spec c move c₁) (hlife : Life spec i (own i moves) (c.turn i)) :
    Life spec i (own i (moves ++ [move])) (c₁.turn i) := by
  rw [own_append]
  by_cases hown : move.task = i
  · subst hown
    have hlast : own move.task [move] = [move] := List.filter_cons_of_pos (decide_eq_true rfl)
    rw [hlast]
    exact h.life_self hlife
  · have hnone : own i [move] = [] := List.filter_cons_of_neg (by simpa using hown)
    rw [hnone, List.append_nil, h.turn_other hown]
    exact hlife

theorem Steps.life (h : Steps spec c moves c₂) (hlife : Life spec i (own i before) (c.turn i)) :
    Life spec i (own i (before ++ moves)) (c₂.turn i) := by
  induction h generalizing before with
  | nil => rwa [List.append_nil]
  | cons hstep _ ih =>
    have hrest := ih (hstep.life hlife)
    rwa [List.append_assoc] at hrest

theorem Steps.life_initial (h : Steps spec initial moves c) (i : ι) :
    Life spec i (own i moves) (c.turn i) := by
  have hnone : Life spec i (own i []) .waiting := .waiting
  exact h.life hnone

/-- A task that has released its lock makes no more moves. -/
theorem Steps.task_ne_of_released (h : Steps spec initial (before ++ after) c)
    (hreleased : .release i now keep ∈ before) : ∀ move ∈ after, move.task ≠ i := by
  intro move hmem hown
  have hlife := h.life_initial i
  rw [own_append] at hlife
  have hnil := hlife.nil_of_release (mem_own.mpr ⟨hreleased, rfl⟩)
  exact List.not_mem_nil (hnil ▸ mem_own.mpr ⟨hmem, hown⟩)

end

/-! ## Limits -/

theorem limitAfter_append (name : String) (limit : Nat) (moves more : List (Move ι)) :
    limitAfter spec name limit (moves ++ more) =
      limitAfter spec name (limitAfter spec name limit moves) more := List.foldl_append ..

/-- Without a release of a lock nothing changes until when it is held. -/
theorem limitAfter_of_unreleased
    (h : ∀ i now keep, .release i now keep ∈ moves → (spec i).name ≠ name) (limit : Nat) :
    limitAfter spec name limit moves = limit := by
  induction moves generalizing limit with
  | nil => rfl
  | cons move moves ih =>
    have hfirst : move.limitAfter spec name limit = limit := by
      cases move with
      | start | attempt => rfl
      | release i now keep => exact if_neg (h i now keep List.mem_cons_self)
    have hrest := ih (fun i now keep hmem => h i now keep (List.mem_cons_of_mem _ hmem)) limit
    exact (congrArg (limitAfter spec name · moves) hfirst).trans hrest

/-! ## Holders -/

/-- Every task that has taken the lock of a name has released it. -/
def AllReleased (spec : ι → LockSpec) (name : String) (moves : List (Move ι)) : Prop :=
  ∀ i taken, .attempt i taken true ∈ moves → (spec i).name = name →
    ∃ now keep, .release i now keep ∈ moves

/-- A task with the lock of a name is the last that has taken it, by the moves since. -/
structure LastTaker (spec : ι → LockSpec) (name : String) (i : ι) (since : List (Move ι)) :
    Prop where
  same : (spec i).name = name
  quiet : ∀ move ∈ since, ¬ move.Grants spec name

theorem lastTaker_or_free (spec : ι → LockSpec) (name : String) (moves : List (Move ι)) :
    (∀ move ∈ moves, ¬ move.Grants spec name) ∨ ∃ i taken before since,
      moves = before ++ .attempt i taken true :: since ∧ LastTaker spec name i since := by
  induction moves with
  | nil => exact .inl nofun
  | cons move moves ih =>
    rcases ih with hfree | ⟨i, taken, before, since, rfl, hlast⟩
    · by_cases hgrants : move.Grants spec name
      · obtain ⟨i, taken, rfl⟩ : ∃ i taken, move = .attempt i taken true := by
          rcases move with _ | ⟨i, taken, _ | _⟩ | _
          · exact hgrants.elim
          · exact hgrants.elim
          · exact ⟨i, taken, rfl⟩
          · exact hgrants.elim
        exact .inr ⟨i, taken, [], moves, rfl, hgrants, hfree⟩
      · exact .inl (List.forall_mem_cons.mpr ⟨hgrants, hfree⟩)
    · exact .inr ⟨i, taken, move :: before, since, rfl, hlast⟩

variable [DecidableEq ι] {c c₁ c₂ : Contest ι}

/-- When all tasks before have released a lock, only the last that has taken it can release it. -/
theorem LastTaker.release_self (h : LastTaker spec name i since)
    (hsteps : Steps spec initial (before ++ .attempt i taken true :: since) c)
    (hbefore : AllReleased spec name before) (hmem : .release j now keep ∈ since)
    (hname : (spec j).name = name) : j = i := by
  have hlater : .release j now keep ∈ .attempt i taken true :: since :=
    List.mem_cons_of_mem _ hmem
  obtain ⟨time, htaken⟩ := (hsteps.life_initial j).attempt_of_release
    (mem_own.mpr ⟨List.mem_append_right _ hlater, rfl⟩)
  rcases List.mem_append.mp (mem_own.mp htaken).1 with hearlier | hlater'
  · obtain ⟨now', keep', hreleased⟩ := hbefore j time hearlier hname
    exact absurd rfl (hsteps.task_ne_of_released hreleased _ hlater)
  · rcases List.mem_cons.mp hlater' with heq | hsince
    · cases heq
      rfl
    · exact absurd hname (h.quiet _ hsince)

/-- A lock is held by the task that has taken it last until that releases it. -/
theorem LastTaker.limitAfter_unreleased (h : LastTaker spec name i since)
    (hsteps : Steps spec initial (before ++ .attempt i taken true :: since) c)
    (hbefore : AllReleased spec name before) (hnone : ∀ now keep, .release i now keep ∉ since)
    (limit : Nat) : limitAfter spec name limit since = limit := by
  refine limitAfter_of_unreleased (fun j now keep hmem hname => ?_) limit
  obtain rfl := h.release_self hsteps hbefore hmem hname
  exact hnone now keep hmem

/-- From then on it is held as long as that task keeps it. -/
theorem LastTaker.limitAfter_released (h : LastTaker spec name i since)
    (hsteps : Steps spec initial (before ++ .attempt i taken true :: since) c)
    (hbefore : AllReleased spec name before) (hmem : .release i now keep ∈ since)
    (limit : Nat) : limitAfter spec name limit since = keep := by
  obtain ⟨working, after, rfl⟩ := List.append_of_mem hmem
  have hquiet : ∀ j time keep', .release j time keep' ∈ after → (spec j).name ≠ name := by
    intro j time keep' hlater hname
    obtain rfl := h.release_self hsteps hbefore
      (List.mem_append_right _ (List.mem_cons_of_mem _ hlater)) hname
    have hsplit : before ++ .attempt j taken true :: (working ++ .release j now keep :: after) =
        (before ++ .attempt j taken true :: (working ++ [.release j now keep])) ++ after := by simp
    have hdone : .release j now keep ∈
        before ++ .attempt j taken true :: (working ++ [.release j now keep]) := by simp
    rw [hsplit] at hsteps
    exact hsteps.task_ne_of_released hdone _ hlater rfl
  have hset : Move.limitAfter spec name (limitAfter spec name limit working)
      (.release i now keep) = keep := if_pos h.same
  rw [limitAfter_append]
  exact (congrArg (limitAfter spec name · after) hset).trans (limitAfter_of_unreleased hquiet keep)

/-! ## Admission -/

/-- As long as a task has not released its lock, its longest time is not over. -/
def InTime (spec : ι → LockSpec) (moves : List (Move ι)) : Prop :=
  ∀ before i taken since move after,
    moves = before ++ .attempt i taken true :: (since ++ move :: after) →
    (∀ now keep, .release i now keep ∉ since) →
    move.time < taken + Locks.seconds (spec i).atMost

theorem Steps.append (h : Steps spec c moves c₁) (h' : Steps spec c₁ more c₂) :
    Steps spec c (moves ++ more) c₂ := by
  induction h with
  | nil => exact h'
  | cons hstep _ ih => exact .cons hstep (ih h')

/-- Until when a lock is held that has been taken. -/
theorem LastTaker.heldTo (h : LastTaker spec name i since)
    (hsteps : Steps spec initial (before ++ .attempt i taken true :: since) c) :
    c.locks.HeldTo name c.clock
      (limitAfter spec name (taken + Locks.seconds (spec i).atMost) since) := by
  obtain ⟨_, _, -, htaken, hsince⟩ := hsteps.split
  exact hsince.heldTo h.quiet (h.same ▸ htaken.heldTo_of_granted)

/-- A lock that has been taken is refused until it is released, and from then on as long as it is
kept. -/
theorem LastTaker.granted_iff {granted : Bool} (h : LastTaker spec (spec j).name i since)
    (hsteps : Steps spec initial
      (before ++ .attempt i taken true :: (since ++ .attempt j now granted :: after)) c)
    (hin : InTime spec
      (before ++ .attempt i taken true :: (since ++ .attempt j now granted :: after)))
    (hbefore : AllReleased spec (spec j).name before) :
    granted = true ↔ ∃ time keep, .release i time keep ∈ since ∧ keep ≤ now := by
  have hsplit : before ++ .attempt i taken true :: (since ++ .attempt j now granted :: after) =
      (before ++ .attempt i taken true :: since) ++ .attempt j now granted :: after := by simp
  rw [hsplit] at hsteps
  obtain ⟨c₁, c₂, hpast, hattempt, -⟩ := hsteps.split
  have hrefused := hattempt.refused_iff (h.heldTo hpast)
  by_cases hreleased : ∃ time keep, .release i time keep ∈ since
  · obtain ⟨time, keep, hmem⟩ := hreleased
    have hlimit := h.limitAfter_released hpast hbefore hmem
    rw [hlimit (taken + Locks.seconds (spec i).atMost)] at hrefused
    constructor
    · rintro rfl
      exact ⟨time, keep, hmem, Nat.not_lt.mp fun hlt => Bool.noConfusion (hrefused.mpr hlt)⟩
    · rintro ⟨time', keep', hmem', hle⟩
      have hsame : keep' = keep :=
        (h.limitAfter_released hpast hbefore hmem' 0).symm.trans (hlimit 0)
      rw [← Bool.not_eq_false]
      exact fun hfalse => Nat.not_le_of_gt (hrefused.mp hfalse) (hsame ▸ hle)
  · have hnone : ∀ time keep, .release i time keep ∉ since := fun time keep hmem =>
      hreleased ⟨time, keep, hmem⟩
    have hnow : now < taken + Locks.seconds (spec i).atMost :=
      hin before i taken since _ after rfl hnone
    rw [h.limitAfter_unreleased hpast hbefore hnone, iff_true_right hnow] at hrefused
    rw [hrefused]
    exact iff_of_false Bool.false_ne_true fun ⟨time, keep, hmem, _⟩ => hnone time keep hmem

/-- Who is granted a lock has it alone. -/
theorem allReleased_of_granted
    (hsteps : Steps spec initial (before ++ .attempt j now true :: after) c)
    (hin : InTime spec (before ++ .attempt j now true :: after)) :
    AllReleased spec (spec j).name before := by
  induction hlength : before.length using Nat.strongRecOn generalizing before after j now with
  | ind length ih =>
    rcases lastTaker_or_free spec (spec j).name before with hfree | hsome
    · intro i taken hmem hname
      exact absurd hname (hfree _ hmem)
    · obtain ⟨i, taken, earlier, since, rfl, hlast⟩ := hsome
      have hshort : earlier.length < length := by simp [← hlength]
      rw [List.append_assoc, List.cons_append] at hsteps hin
      have hearlier : AllReleased spec (spec j).name earlier :=
        hlast.same ▸ ih _ hshort hsteps hin rfl
      obtain ⟨time, keep, hrelease, -⟩ := (hlast.granted_iff hsteps hin hearlier).mp rfl
      intro k time hmem hname
      rcases List.mem_append.mp hmem with hold | hnew
      · obtain ⟨now', keep, hrelease⟩ := hearlier k time hold hname
        exact ⟨now', keep, List.mem_append_left _ hrelease⟩
      · rcases List.mem_cons.mp hnew with heq | hsince
        · cases heq
          exact ⟨_, _, List.mem_append_right _ (List.mem_cons_of_mem _ hrelease)⟩
        · exact absurd hname (hlast.quiet _ hsince)

/-- All tasks that have taken a lock have released it, and the last of them does not keep it any
longer. -/
structure Admits (spec : ι → LockSpec) (name : String) (before : List (Move ι)) (now : Nat) :
    Prop where
  released : AllReleased spec name before
  elapsed : ∀ earlier i taken since start, before = earlier ++ .attempt i taken true :: since →
    LastTaker spec name i since → .start i start ∈ before →
    start + Locks.seconds (spec i).atLeast ≤ now

/-- A task releases its lock after it has taken it. -/
theorem Steps.release_after (h : Steps spec initial (before ++ .attempt i taken true :: since) c)
    (hmem : .release i now keep ∈ before ++ .attempt i taken true :: since) :
    .release i now keep ∈ since := by
  rcases List.mem_append.mp hmem with hbefore | hafter
  · exact absurd rfl (h.task_ne_of_released hbefore _ List.mem_cons_self)
  · rcases List.mem_cons.mp hafter with heq | hsince
    · cases heq
    · exact hsince

/-- A lock that no task has taken is free. -/
theorem granted_of_free {granted : Bool}
    (hsteps : Steps spec initial (before ++ .attempt j now granted :: after) c)
    (hfree : ∀ move ∈ before, ¬ move.Grants spec (spec j).name) : granted = true := by
  obtain ⟨c₁, c₂, hpast, hattempt, -⟩ := hsteps.split
  have hinitial : (initial : Contest ι).locks.HeldTo (spec j).name 0 0 := fun _ _ => rfl
  have hheld := hpast.heldTo hfree hinitial
  have hunreleased : ∀ i time keep, .release i time keep ∈ before →
      (spec i).name ≠ (spec j).name := by
    intro i time keep hmem hname
    obtain ⟨taken, htaken⟩ := (hpast.life_initial i).attempt_of_release (mem_own.mpr ⟨hmem, rfl⟩)
    exact hfree _ (mem_own.mp htaken).1 hname
  rw [limitAfter_of_unreleased hunreleased] at hheld
  rw [← Bool.not_eq_false, hattempt.refused_iff hheld]
  exact Nat.not_lt_zero now

theorem granted_iff {granted : Bool}
    (hsteps : Steps spec initial (before ++ .attempt j now granted :: after) c)
    (hin : InTime spec (before ++ .attempt j now granted :: after)) :
    granted = true ↔ Admits spec (spec j).name before now := by
  obtain ⟨c₁, c₂, hpast, -, -⟩ := hsteps.split
  constructor
  · rintro rfl
    have hreleased := allReleased_of_granted hsteps hin
    refine ⟨hreleased, fun earlier i taken since start hbefore hlast hstart => ?_⟩
    subst hbefore
    have hlife := hpast.life_initial i
    rw [List.append_assoc, List.cons_append] at hsteps hin
    have hearlier : AllReleased spec (spec j).name earlier :=
      hlast.same ▸ allReleased_of_granted hsteps hin
    obtain ⟨time, keep, hmem, hle⟩ := (hlast.granted_iff hsteps hin hearlier).mp rfl
    have hkeep := hlife.keep_eq
      (mem_own.mpr ⟨List.mem_append_right _ (List.mem_cons_of_mem _ hmem), rfl⟩)
      (mem_own.mpr ⟨hstart, rfl⟩)
    exact hkeep ▸ hle
  · rintro ⟨hreleased, hover⟩
    rcases lastTaker_or_free spec (spec j).name before with hfree | hsome
    · exact granted_of_free hsteps hfree
    · obtain ⟨i, taken, earlier, since, rfl, hlast⟩ := hsome
      have htaken : .attempt i taken true ∈ earlier ++ .attempt i taken true :: since :=
        List.mem_append_right _ List.mem_cons_self
      obtain ⟨time, keep, hrelease⟩ := hreleased i taken htaken hlast.same
      have hlife := hpast.life_initial i
      obtain ⟨start, hstart⟩ := hlife.start_of_attempt (mem_own.mpr ⟨htaken, rfl⟩)
      have hkeep := hlife.keep_eq (mem_own.mpr ⟨hrelease, rfl⟩) hstart
      have hle := hover earlier i taken since start rfl hlast (mem_own.mp hstart).1
      rw [List.append_assoc, List.cons_append] at hsteps hin
      have hearlier : AllReleased spec (spec j).name earlier :=
        hlast.same ▸ allReleased_of_granted hsteps hin
      exact (hlast.granted_iff hsteps hin hearlier).mpr
        ⟨time, keep, hpast.release_after hrelease, hkeep ▸ hle⟩

end Contest

/-! ## Scheduled runs -/

namespace Service

variable {σ τ : Type} [RunStore τ]

end Service

namespace Contest

end Contest

end RowFlow
