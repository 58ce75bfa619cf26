import Mathlib.Data.List.Induction
import Mathlib.Data.List.Perm.Basic
import RowFlow.Proofs.Commands
import RowFlow.Proofs.Dictionaries

/-!
# The records of runs

Every run that is started has a record of its own. It is saved whenever it changes, and what a store
in memory has under a run id is what has been saved there last (`MemoryStore.load?_saveAll`).

At any time the runs that have been started are those that wait and those that have been made
(`Accounts.split`). Each that waits has been saved once, and each that has been made has been saved
to its end (`Accounts.waits`, `Accounts.ended`). Every command keeps these accounts
(`Service.Accounted.execute`), and so do any number of them. When nothing waits any more, there is
one record for each run, which tells how it has ended (`Service.waitIdle_records`).
-/

namespace RowFlow

/-! ## What a store in memory has -/

/-- The records that have been saved under a run id, in order. -/
def savedUnder (runId : String) (saves : List RunRecord) : List RunRecord :=
  saves.filter (·.runId = runId)

theorem savedUnder_append (runId : String) (saves more : List RunRecord) :
    savedUnder runId (saves ++ more) = savedUnder runId saves ++ savedUnder runId more :=
  List.filter_append ..

theorem savedUnder_self {more : List RunRecord} (h : ∀ record ∈ more, record.runId = runId) :
    savedUnder runId more = more :=
  List.filter_eq_self.mpr fun record hrecord => decide_eq_true (h record hrecord)

theorem savedUnder_other {more : List RunRecord} (h : ∀ record ∈ more, record.runId = runId)
    (hne : runId ≠ other) : savedUnder other more = [] :=
  List.filter_eq_nil_iff.mpr fun record hrecord => by simpa [h record hrecord] using hne

namespace MemoryStore

theorem load?_save (store : MemoryStore) (record : RunRecord) (runId : String) :
    RunStore.load? (RunStore.save store record) runId =
      if record.runId = runId then some record else RunStore.load? store runId :=
  Dict.find?_insert ..

/-- A store in memory has the last record that has been saved under a run id. -/
theorem load?_saveAll (saves : List RunRecord) (runId : String) :
    RunStore.load? (saveAll (RunStore.empty : MemoryStore) saves) runId =
      (savedUnder runId saves).getLast? := by
  induction saves using List.reverseRecOn with
  | nil => rfl
  | append_singleton saves record ih =>
    rw [saveAll, List.foldl_concat, load?_save, savedUnder_append, List.getLast?_append]
    split
    · rename_i hsame
      rw [savedUnder_self (by simpa using hsame)]
      rfl
    · rename_i hother
      have hnone : savedUnder runId [record] = [] :=
        savedUnder_other (fun _ h => List.mem_singleton.mp h ▸ rfl) hother
      rw [hnone]
      exact ih

/-- The records are listed by their run ids. -/
structure Listed (store : MemoryStore) : Prop where
  ordered : store.runs.Ordered
  keyed : ∀ entry ∈ store.runs, entry.1 = entry.2.runId

theorem listed_saveAll (saves : List RunRecord) :
    Listed (saveAll (RunStore.empty : MemoryStore) saves) := by
  induction saves using List.reverseRecOn with
  | nil => exact ⟨.nil, nofun⟩
  | append_singleton saves record ih =>
    rw [saveAll, List.foldl_concat]
    refine ⟨ih.ordered.insert record.runId record, fun entry hentry => ?_⟩
    rcases Dict.mem_insert hentry with rfl | hentry
    · rfl
    · exact ih.keyed entry hentry

theorem Listed.runIds {store : MemoryStore} (h : Listed store) :
    store.records.map (·.runId) = store.runs.keys := by
  rw [records, List.map_map]
  exact List.map_congr_left fun entry hentry => (h.keyed entry hentry).symm

/-- There is one record for each run id that one is found under. -/
theorem Listed.perm {store : MemoryStore} (h : Listed store) {runIds : List String}
    (hnodup : runIds.Nodup)
    (hfound : ∀ runId, runId ∈ runIds ↔ (RunStore.load? store runId).isSome) :
    (store.records.map (·.runId)).Perm runIds := by
  rw [h.runIds]
  have hkeys : store.runs.keys.Nodup :=
    List.pairwise_map.mpr (h.ordered.imp fun hlt => ne_of_lt hlt)
  refine (List.perm_ext_iff_of_nodup hkeys hnodup).mpr fun runId => ?_
  rw [hfound, Option.isSome_iff_exists]
  constructor
  · intro hmem
    obtain ⟨⟨_, record⟩, hentry, rfl⟩ := List.mem_map.mp hmem
    exact ⟨record, h.ordered.mem_iff.mp hentry⟩
  · rintro ⟨record, hload⟩
    exact List.mem_map.mpr ⟨(runId, record), h.ordered.mem_iff.mpr hload, rfl⟩

end MemoryStore

/-! ## Accounts -/

/-- A record tells how a run has ended. -/
structure Made.Recorded (run : Made) (record : RunRecord) : Prop where
  runId : record.runId = run.runId
  pipeline : record.pipeline = run.key
  started : record.started.isSome
  completed : record.completed.isSome
  terminal : record.status.isTerminal
  ok : record.status = .completed ∧ record.error = none ↔ run.outcome = .ok ()
  failed : ∀ e, run.answer = .error e →
    record.status = .failed ∧ record.error = some e.message

/-- The service answers well if and only if the engine ended the run well. -/
theorem Made.answer_ok_iff (run : Made) : run.answer = .ok () ↔ run.outcome = .ok () := by
  rw [answer]
  rcases run.outcome with (e | message) | _ <;> simp [Service.result]

theorem Made.recorded (run : Made) (submitted begun ended : Time) :
    run.Recorded (((run.record submitted).start begun).settle ended run.answer) := by
  have hok := run.answer_ok_iff
  cases hanswer : run.answer with
  | error e =>
    rw [hanswer] at hok
    refine ⟨rfl, rfl, rfl, rfl, rfl, ?_, fun other hother => ?_⟩
    · rw [← hok]
      constructor
      · intro h
        cases h.1
      · intro h
        cases h
    · cases hanswer.symm.trans hother
      exact ⟨rfl, rfl⟩
  | ok =>
    refine ⟨rfl, rfl, rfl, rfl, rfl, ?_, fun e he => ?_⟩
    · exact ⟨fun _ => hok.mp hanswer, fun _ => ⟨rfl, rfl⟩⟩
    · cases hanswer.symm.trans he

theorem Made.length_records (run : Made) (submitted begun ended : Time) :
    (run.records submitted begun ended).length = if run.later then 3 else 2 := by
  rw [records]
  split <;> rfl

theorem Made.getLast?_records (run : Made) (submitted begun ended : Time) :
    (run.records submitted begun ended).getLast? =
      some (((run.record submitted).start begun).settle ended run.answer) := by
  rw [records]
  split <;> rfl

theorem Made.map_status_records (run : Made) (submitted begun ended : Time) :
    (run.records submitted begun ended).map (·.status) =
      (if run.later then [.pending] else []) ++ [.running,
        (((run.record submitted).start begun).settle ended run.answer).status] := by
  rw [records]
  split <;> rfl

theorem Made.records_runId (run : Made) (submitted begun ended : Time) :
    ∀ record ∈ run.records submitted begun ended, record.runId = run.runId := by
  intro record hrecord
  rcases List.mem_append.mp hrecord with hpending | hrest
  · split at hpending
    · rw [List.mem_singleton.mp hpending]
      rfl
    · cases hpending
  · rcases List.mem_cons.mp hrest with rfl | hlast
    · rfl
    · rw [List.mem_singleton.mp hlast, RunRecord.settle_runId]
      rfl

/-- A run waits, and has been saved once. -/
def Submission.Waits (saves : List RunRecord) (submission : Submission) : Prop :=
  ∃ submitted, submission.record = submission.started.record submitted ∧
    savedUnder submission.record.runId saves = [submission.record]

/-- A run has been made, and has been saved whenever its record has changed. -/
def Made.Ended (saves : List RunRecord) (run : Made) : Prop :=
  ∃ submitted begun ended, savedUnder run.runId saves = run.records submitted begun ended

/-- Records under another id change nothing. -/
theorem savedUnder_more (hmore : ∀ record ∈ more, record.runId = runId) (hne : runId ≠ other)
    (saves : List RunRecord) : savedUnder other (saves ++ more) = savedUnder other saves := by
  rw [savedUnder_append, savedUnder_other hmore hne, List.append_nil]

theorem Submission.Waits.append {submission : Submission} (h : submission.Waits saves)
    (hmore : ∀ record ∈ more, record.runId = runId) (hne : runId ≠ submission.record.runId) :
    submission.Waits (saves ++ more) := by
  obtain ⟨submitted, hrecord, hsaved⟩ := h
  exact ⟨submitted, hrecord, (savedUnder_more hmore hne saves).trans hsaved⟩

theorem Made.Ended.append {run : Made} (h : run.Ended saves)
    (hmore : ∀ record ∈ more, record.runId = runId) (hne : runId ≠ run.runId) :
    run.Ended (saves ++ more) := by
  obtain ⟨submitted, begun, ended, hsaved⟩ := h
  exact ⟨submitted, begun, ended, (savedUnder_more hmore hne saves).trans hsaved⟩

/-- The runs that have been started either wait or have been made, and nothing else has been
saved. -/
structure Accounts (started : List Started) (waiting : List Submission) (made : List Made)
    (saves : List RunRecord) : Prop where
  distinct : (started.map (·.runId)).Nodup
  split : (waiting.map Submission.started ++ made.map Made.toStarted).Perm started
  known : ∀ record ∈ saves, record.runId ∈ started.map (·.runId)
  waits : ∀ submission ∈ waiting, submission.Waits saves
  ended : ∀ run ∈ made, run.Ended saves

namespace Accounts

variable {started : List Started} {waiting : List Submission} {made : List Made}
  {saves : List RunRecord}

theorem mem_of_waits (h : Accounts started waiting made saves) (hmem : submission ∈ waiting) :
    submission.record.runId ∈ started.map (·.runId) := by
  have hstarted : submission.started ∈ started :=
    h.split.mem_iff.mp (List.mem_append_left _ (List.mem_map_of_mem hmem))
  exact List.mem_map_of_mem hstarted

theorem mem_of_made (h : Accounts started waiting made saves) (hmem : run ∈ made) :
    run.runId ∈ started.map (·.runId) := by
  have hstarted : run.toStarted ∈ started :=
    h.split.mem_iff.mp (List.mem_append_right _ (List.mem_map_of_mem hmem))
  exact List.mem_map_of_mem hstarted

theorem savedUnder_new (h : Accounts started waiting made saves)
    (hnew : runId ∉ started.map (·.runId)) : savedUnder runId saves = [] := by
  refine List.filter_eq_nil_iff.mpr fun record hrecord hsame => ?_
  exact hnew (of_decide_eq_true hsame ▸ h.known record hrecord)

theorem distinct_new (h : Accounts started waiting made saves) {run : Started}
    (hnew : run.runId ∉ started.map (·.runId)) : ((started ++ [run]).map (·.runId)).Nodup := by
  rw [List.map_append]
  exact List.nodup_append_comm.mp (List.nodup_cons.mpr ⟨hnew, h.distinct⟩)

theorem known_more (h : Accounts started waiting made saves) {run : Started}
    (hmore : ∀ record ∈ more, record.runId = run.runId) :
    ∀ record ∈ saves ++ more, record.runId ∈ (started ++ [run]).map (·.runId) := by
  intro record hrecord
  rw [List.map_append]
  rcases List.mem_append.mp hrecord with hold | hadded
  · exact List.mem_append_left _ (h.known record hold)
  · exact List.mem_append_right _ (List.mem_singleton.mpr (hmore record hadded))

/-- Only a run that has been made is told to have ended. -/
theorem made_of_terminal (h : Accounts started waiting made saves) {runId : String}
    (hlast : (savedUnder runId saves).getLast? = some record) (hterminal : record.status.isTerminal) :
    ∃ run ∈ made, run.runId = runId := by
  obtain ⟨hmem, hid⟩ := List.mem_filter.mp (List.mem_of_getLast? hlast)
  have hknown := h.known record hmem
  rw [of_decide_eq_true hid] at hknown
  obtain ⟨run, hrun, rfl⟩ := List.mem_map.mp hknown
  rcases List.mem_append.mp (h.split.mem_iff.mpr hrun) with hwaits | hmade
  · obtain ⟨submission, hsubmission, rfl⟩ := List.mem_map.mp hwaits
    obtain ⟨submitted, hrecord, hsaved⟩ := h.waits submission hsubmission
    -- the record of a run that waits is not terminal
    have hlast : [submission.record].getLast? = some record := hsaved ▸ hlast
    cases hlast
    rw [hrecord] at hterminal
    cases hterminal
  · obtain ⟨found, hfound, rfl⟩ := List.mem_map.mp hmade
    exact ⟨found, hfound, rfl⟩

/-- When no run waits, there is a record for each run that has been started and no other. -/
theorem saved_iff (h : Accounts started [] made saves) (runId : String) :
    runId ∈ started.map (·.runId) ↔ (savedUnder runId saves).getLast?.isSome := by
  rw [List.getLast?_isSome]
  constructor
  · intro hmem
    obtain ⟨run, hrun, rfl⟩ := List.mem_map.mp hmem
    obtain ⟨run, hmade, rfl⟩ := List.mem_map.mp (h.split.mem_iff.mpr hrun)
    obtain ⟨submitted, begun, ended, hsaved⟩ := h.ended run hmade
    rw [hsaved]
    exact List.append_ne_nil_of_right_ne_nil _ (List.cons_ne_nil _ _)
  · intro hne
    obtain ⟨record, hrecord⟩ := List.exists_mem_of_ne_nil _ hne
    obtain ⟨hmem, hid⟩ := List.mem_filter.mp hrecord
    rw [← of_decide_eq_true hid]
    exact h.known record hmem

/-- A run is started and made at once. -/
theorem made_now (h : Accounts started waiting made saves) {run : Made}
    (hnew : run.runId ∉ started.map (·.runId)) (submitted begun ended : Time) :
    Accounts (started ++ [run.toStarted]) waiting (made ++ [run])
      (saves ++ run.records submitted begun ended) where
  distinct := h.distinct_new hnew
  split := by
    rw [List.map_append, ← List.append_assoc]
    exact h.split.append_right _
  known := h.known_more (run.records_runId submitted begun ended)
  waits submission hmem := by
    have hne : run.runId ≠ submission.record.runId := fun heq => hnew (heq ▸ h.mem_of_waits hmem)
    exact (h.waits submission hmem).append (run.records_runId submitted begun ended) hne
  ended other hother := by
    rcases List.mem_append.mp hother with hmem | hmem
    · have hne : run.runId ≠ other.runId := fun heq => hnew (heq ▸ h.mem_of_made hmem)
      exact (h.ended other hmem).append (run.records_runId submitted begun ended) hne
    · cases List.mem_singleton.mp hmem
      refine ⟨submitted, begun, ended, ?_⟩
      rw [savedUnder_append, h.savedUnder_new hnew,
        savedUnder_self (run.records_runId submitted begun ended), List.nil_append]

/-- A run is started that waits. -/
theorem submitted (h : Accounts started waiting made saves) {run : Started}
    (hlater : run.later = true) (hnew : run.runId ∉ started.map (·.runId)) (submitted : Time) :
    Accounts (started ++ [run]) (waiting ++ [⟨run.record submitted, run.params⟩]) made
      (saves ++ [run.record submitted]) := by
  have hmore : ∀ record ∈ [run.record submitted], record.runId = run.runId := by
    intro record hrecord
    rw [List.mem_singleton.mp hrecord]
    rfl
  have hsubmission : Submission.started ⟨run.record submitted, run.params⟩ = run := by
    obtain ⟨runId, key, params, later⟩ := run
    cases hlater
    rfl
  refine ⟨h.distinct_new hnew, ?_, h.known_more hmore, fun submission hmem => ?_,
    fun other hother => ?_⟩
  · have hlast : ((waiting.map Submission.started ++ [run]) ++ made.map Made.toStarted).Perm
        ((waiting.map Submission.started ++ made.map Made.toStarted) ++ [run]) := by
      rw [List.append_assoc, List.append_assoc]
      exact List.perm_append_comm.append_left _
    rw [List.map_append, List.map_singleton, hsubmission]
    exact hlast.trans (h.split.append_right _)
  · rcases List.mem_append.mp hmem with hmem | hmem
    · have hne : run.runId ≠ submission.record.runId := fun heq => hnew (heq ▸ h.mem_of_waits hmem)
      exact (h.waits submission hmem).append hmore hne
    · cases List.mem_singleton.mp hmem
      refine ⟨submitted, by rw [hsubmission], ?_⟩
      have hsaved : savedUnder run.runId (saves ++ [run.record submitted]) =
          [run.record submitted] := by
        rw [savedUnder_append, h.savedUnder_new hnew, savedUnder_self hmore, List.nil_append]
      exact hsaved
  · have hne : run.runId ≠ other.runId := fun heq => hnew (heq ▸ h.mem_of_made hother)
    exact (h.ended other hother).append hmore hne

/-- The first run that waits is made. -/
theorem made_later (h : Accounts started (submission :: waiting) made saves)
    (outcome : Except (Failure EngineError) Unit) (panicText : String → String)
    (begun ended : Time) :
    let run : Made := ⟨submission.started, outcome, panicText⟩
    Accounts started waiting (made ++ [run])
      (saves ++ [submission.record.start begun,
        (submission.record.start begun).settle ended run.answer]) := by
  intro run
  obtain ⟨submitted, hrecord, hsaved⟩ := h.waits submission List.mem_cons_self
  have hrecords : run.records submitted begun ended = [submission.record] ++
      [submission.record.start begun,
        (submission.record.start begun).settle ended run.answer] := by
    rw [hrecord]
    rfl
  generalize [submission.record.start begun,
    (submission.record.start begun).settle ended run.answer] = more at hrecords ⊢
  have hmore : ∀ record ∈ more, record.runId = submission.record.runId := by
    intro record hmem
    refine run.records_runId submitted begun ended record ?_
    rw [hrecords]
    exact List.mem_append_right _ hmem
  -- no other run that waits or has been made has the id
  have hnodup : (submission.record.runId ::
      (waiting.map Submission.started ++ made.map Made.toStarted).map (·.runId)).Nodup :=
    (h.split.map _).nodup_iff.mpr h.distinct
  have hne {other : Started}
      (hother : other ∈ waiting.map Submission.started ++ made.map Made.toStarted) :
      submission.record.runId ≠ other.runId := by
    intro heq
    exact (List.nodup_cons.mp hnodup).1 (List.mem_map.mpr ⟨other, hother, heq.symm⟩)
  refine ⟨h.distinct, ?_, fun record hmem => ?_, fun other hmem => ?_, fun other hmem => ?_⟩
  · rw [List.map_append, ← List.append_assoc]
    exact (List.perm_append_singleton ..).trans h.split
  · rcases List.mem_append.mp hmem with hold | hadded
    · exact h.known record hold
    · rw [hmore record hadded]
      exact h.mem_of_waits List.mem_cons_self
  · have hothers := hne (List.mem_append_left _ (List.mem_map_of_mem hmem))
    exact (h.waits other (List.mem_cons_of_mem _ hmem)).append hmore hothers
  · rcases List.mem_append.mp hmem with hmem | hmem
    · have hothers := hne (List.mem_append_right _ (List.mem_map_of_mem hmem))
      exact (h.ended other hmem).append hmore hothers
    · cases List.mem_singleton.mp hmem
      refine ⟨submitted, begun, ended, ?_⟩
      calc savedUnder submission.record.runId (saves ++ more)
        _ = savedUnder submission.record.runId saves ++ savedUnder submission.record.runId more :=
            savedUnder_append ..
        _ = [submission.record] ++ more := by rw [hsaved, savedUnder_self hmore]
        _ = run.records submitted begun ended := hrecords.symm

end Accounts

/-! ## The accounts of a service -/

namespace Service

variable {σ τ : Type}

/-- The accounts of a service whose first records are given. -/
structure Accounted (first : List RunRecord) (started : List Started) (waiting : List Submission)
    (made : List Made) (s : Service σ (Logged τ)) : Prop where
  accounts : Accounts started waiting made s.history.saves
  first : first <+: s.history.saves
  injective : Function.Injective s.runId
  numbered : ∀ run ∈ started, ∃ n < s.runs, run.runId = s.runId n

namespace Accounted

variable {first : List RunRecord} {started : List Started} {waiting : List Submission}
  {made : List Made} {s t : Service σ (Logged τ)}

/-- The id that is made next is new. -/
theorem new (h : Accounted first started waiting made s) :
    s.runId s.runs ∉ started.map (·.runId) := by
  intro hmem
  obtain ⟨run, hrun, heq⟩ := List.mem_map.mp hmem
  obtain ⟨n, hlt, hn⟩ := h.numbered run hrun
  have hsame : n = s.runs := h.injective (hn.symm.trans heq)
  exact Nat.lt_irrefl n (hsame ▸ hlt)

theorem numbered_next (h : Accounted first started waiting made s) {run : Started}
    (hid : run.runId = s.runId s.runs) :
    ∀ other ∈ started ++ [run], ∃ n < s.runs + 1, other.runId = s.runId n := by
  intro other hother
  rcases List.mem_append.mp hother with hold | hnew
  · obtain ⟨n, hlt, hn⟩ := h.numbered other hold
    exact ⟨n, Nat.lt_succ_of_lt hlt, hn⟩
  · cases List.mem_singleton.mp hnew
    exact ⟨s.runs, Nat.lt_succ_self _, hid⟩

variable [RunStore τ]

/-- The accounts after more run ids have been made and more records saved. -/
theorem of_saves (h : Accounted first started waiting made s) (hsaves : Saves s ids records t)
    (haccounts : Accounts started' waiting' made' (s.history.saves ++ records))
    (hnumbered : ∀ run ∈ started', ∃ n < s.runs + ids, run.runId = s.runId n) :
    Accounted first started' waiting' made' t := by
  have hlog : t.history.saves = s.history.saves ++ records := by
    rw [hsaves.history, Logged.saves_saveAll]
  refine ⟨hlog ▸ haccounts, ?_, hsaves.runId ▸ h.injective, ?_⟩
  · rw [hlog]
    exact h.first.trans (List.prefix_append ..)
  · rw [hsaves.runs, hsaves.runId]
    exact hnumbered

theorem nothing (h : Accounted first started s.waiting made s) (hsaves : Saves s 0 [] t) :
    Accounted first (started ++ []) t.waiting (made ++ []) t := by
  rw [List.append_nil, List.append_nil, hsaves.waiting]
  refine h.of_saves hsaves ?_ h.numbered
  rw [List.append_nil]
  exact h.accounts

theorem made_now (h : Accounted first started s.waiting made s) {run : Made}
    (hid : run.runId = s.runId s.runs) (hsaves : Saves s 1 (run.records submitted begun ended) t) :
    Accounted first (started ++ [run.toStarted]) t.waiting (made ++ [run]) t := by
  rw [hsaves.waiting]
  exact h.of_saves hsaves (h.accounts.made_now (hid ▸ h.new) submitted begun ended)
    (h.numbered_next hid)

theorem made_later (h : Accounted first started (submission :: waiting) made s) :
    Accounted first started waiting (made ++ [s.make submission.started])
      ((runRecorded submission.record submission.params).run s).2 := by
  obtain ⟨begun, ended, hsaves⟩ := runRecorded_saves submission.record submission.params true s
  exact h.of_saves hsaves (h.accounts.made_later _ _ begun ended) h.numbered

/-- The runs that wait are made one after another. -/
theorem in_turn (h : Accounted first started waiting made s) :
    Accounted first started [] (made ++ s.inTurn waiting) ((makeAll waiting).run s).2 := by
  induction waiting generalizing made s with
  | nil =>
    rw [inTurn, List.append_nil]
    exact h
  | cons submission rest ih =>
    rw [inTurn, List.append_cons]
    exact ih h.made_later

theorem submitted (h : Accounted first started s.waiting made s) (key : String)
    (params : Option (List Row)) :
    Accounted first (started ++ [s.next key params true]) ((submit key params).run s).2.waiting
      made ((submit key params).run s).2 := by
  let run := s.next key params true
  let record := run.record (s.origin.later s.clock)
  have hsaves : Saves s 1 [record] ((newRecord key >>= save).run s).2 := ⟨rfl, rfl, rfl, rfl⟩
  have haccounts := h.accounts.submitted (show run.later = true from rfl) h.new
    (s.origin.later s.clock)
  have hsaved := h.of_saves hsaves haccounts (h.numbered_next rfl)
  exact ⟨hsaved.accounts, hsaved.first, hsaved.injective, hsaved.numbered⟩

theorem fired (h : Accounted first started s.waiting made s) (name : String) :
    Accounted first (started ++ (s.starts (.fire name)).toList) ((fire name).run s).2.waiting
      (made ++ s.makes (.fire name)) ((fire name).run s).2 := by
  have hmakes : s.makes (.fire name) = (s.starts (.fire name)).toList.map s.make := rfl
  rw [hmakes, fire_run]
  rcases hfound : s.scheduler.bind (·.find? name) with _ | ⟨key, schedule⟩
  · have hnone : s.starts (.fire name) = none := by simp [starts, due, hfound]
    rw [hnone]
    exact h.nothing (.refl s)
  · cases hfree : s.isFree schedule with
    | false =>
      have hnone : s.starts (.fire name) = none := by simp [starts, due, hfound, hfree]
      rw [hnone]
      exact h.nothing (startScheduled_saves_nothing key hfree)
    | true =>
      have hsome : s.starts (.fire name) = some (s.next key (some schedule.params) false) := by
        simp [starts, due, hfound, hfree]
      obtain ⟨submitted, begun, ended, hsaves⟩ := startScheduled_saves key hfree
      rw [hsome]
      exact h.made_now rfl hsaves

theorem worked (h : Accounted first started s.waiting made s) :
    Accounted first started (work.run s).2.waiting (made ++ s.makes .work) (work.run s).2 := by
  rw [work_run]
  rcases hwaiting : s.waiting with _ | ⟨submission, rest⟩
  · have hmakes : s.makes .work = [] := by
      rw [makes, hwaiting]
      rfl
    rw [hmakes, List.append_nil]
    exact h
  · have hmakes : s.makes .work = [s.make submission.started] := by
      rw [makes, hwaiting]
      rfl
    have hstart : Accounted first started (submission :: rest) made { s with waiting := rest } :=
      ⟨hwaiting ▸ h.accounts, h.first, h.injective, h.numbered⟩
    rw [hmakes]
    dsimp only
    rw [runRecorded_waiting]
    exact hstart.made_later

/-- What a command does to the accounts. -/
theorem execute (h : Accounted first started s.waiting made s) (command : Command) :
    Accounted first (started ++ (s.starts command).toList)
      ((execute command).run s).2.waiting (made ++ s.makes command)
      ((execute command).run s).2 := by
  cases command with
  | register key text => exact h.nothing (registerIn_saves s.folder key text s)
  | registerFile key path => exact h.nothing (registerFile_saves key path s)
  | run key params =>
    obtain ⟨submitted, begun, ended, hsaves⟩ := run_saves key params s
    exact h.made_now rfl hsaves
  | submit key params =>
    exact (List.append_nil made).symm ▸ h.submitted key params
  | work => exact (List.append_nil started).symm ▸ h.worked
  | waitIdle =>
    have hstart : Accounted first started s.waiting made { s with waiting := [] } :=
      ⟨h.accounts, h.first, h.injective, h.numbered⟩
    rw [show (s.starts .waitIdle).toList = [] from rfl, List.append_nil, waitIdle_waiting]
    exact hstart.in_turn
  | fire name => exact h.fired name
  | pass nanos => exact h.nothing ⟨rfl, rfl, rfl, rfl⟩

/-- What some commands do to the accounts. -/
theorem through (h : Accounted first started s.waiting made s) (commands : List Command) :
    Accounted first (started ++ s.started commands) (s.through commands).waiting
      (made ++ s.made commands) (s.through commands) := by
  induction commands generalizing started made s with
  | nil =>
    rw [Service.started, Service.made, along, along, List.append_nil, List.append_nil]
    exact h
  | cons command rest ih =>
    rw [Service.started, Service.made, along, along, ← List.append_assoc, ← List.append_assoc]
    exact ih (h.execute command)

end Accounted

section
variable [RunStore τ] {s : Service σ τ}

/-- The log of a service that has an empty store. -/
theorem through_logged (hempty : s.history = RunStore.empty) (commands : List Command) :
    s.through commands = (s.logged.through commands).unlogged := by
  rw [← through_unlogged, unlogged_logged hempty]

theorem history_eq_saveAll (hempty : s.history = RunStore.empty) (commands : List Command) :
    (s.through commands).history = saveAll RunStore.empty (s.saves commands) := by
  rw [through_logged hempty]
  rfl

theorem accounted (hempty : s.history = RunStore.empty) (hidle : s.waiting = [])
    (hids : Function.Injective s.runId) (commands : List Command) :
    Accounted [] (s.started commands) (s.logged.through commands).waiting (s.made commands)
      (s.logged.through commands) := by
  have hstart : Accounted [] [] s.logged.waiting [] s.logged := by
    rw [show s.logged.waiting = [] from hidle]
    exact ⟨⟨.nil, .refl _, nofun, nofun, nofun⟩, List.nil_prefix, hids, nofun⟩
  have hstarted : s.started commands = s.logged.started commands := by
    calc s.started commands
      _ = s.logged.unlogged.started commands := by rw [unlogged_logged hempty]
      _ = s.logged.started commands := along_unlogged
          (fun s command => congrArg Option.toList (starts_unlogged s command)) commands s.logged
  have hmade : s.made commands = s.logged.made commands := by
    calc s.made commands
      _ = s.logged.unlogged.made commands := by rw [unlogged_logged hempty]
      _ = s.logged.made commands := along_unlogged makes_unlogged commands s.logged
  rw [hstarted, hmade]
  exact hstart.through commands

/-- A record that tells how a run has ended is not changed. -/
theorem load?_terminal {s : Service σ MemoryStore} (hempty : s.history = RunStore.empty)
    (hidle : s.waiting = []) (hids : Function.Injective s.runId) (before after : List Command)
    {runId : String} (hload : RunStore.load? (s.through before).history runId = some record)
    (hterminal : record.status.isTerminal) :
    RunStore.load? (s.through (before ++ after)).history runId = some record := by
  have hbefore := accounted hempty hidle hids before
  have hmiddle : Accounted (s.saves before) (s.started before) (s.logged.through before).waiting
      (s.made before) (s.logged.through before) :=
    ⟨hbefore.accounts, List.prefix_rfl, hbefore.injective, hbefore.numbered⟩
  have hafter := hmiddle.through after
  rw [← through_append] at hafter
  rw [history_eq_saveAll hempty, MemoryStore.load?_saveAll] at hload ⊢
  obtain ⟨run, hrun, rfl⟩ := hbefore.accounts.made_of_terminal hload hterminal
  obtain ⟨t₁, t₂, t₃, hsaved⟩ := hbefore.accounts.ended run hrun
  obtain ⟨u₁, u₂, u₃, hsaved'⟩ := hafter.accounts.ended run (List.mem_append_left _ hrun)
  have hprefix : savedUnder run.runId (s.saves before) <+:
      savedUnder run.runId (s.saves (before ++ after)) := hafter.first.filter _
  have hlength : (savedUnder run.runId (s.saves before)).length =
      (savedUnder run.runId (s.saves (before ++ after))).length := by
    calc (savedUnder run.runId (s.saves before)).length
      _ = (run.records t₁ t₂ t₃).length := congrArg List.length hsaved
      _ = (run.records u₁ u₂ u₃).length := by rw [run.length_records, run.length_records]
      _ = (savedUnder run.runId (s.saves (before ++ after))).length :=
          congrArg List.length hsaved'.symm
  rw [← hprefix.eq_of_length hlength]
  exact hload

/-- **One record for each run.** When the service has been waited for, each run that was started has
been made, and the store has one record for each and no other. The record tells how the run has
ended; it was saved as pending if the run was submitted, then as running, then as it is. And no
command changes a record that tells how a run has ended. -/
theorem waitIdle_records {s : Service σ MemoryStore} (hempty : s.history = RunStore.empty)
    (hidle : s.waiting = []) (hids : Function.Injective s.runId) (commands : List Command) :
    let all := commands ++ [.waitIdle]
    let store := (s.through all).history
    ((s.made all).map Made.toStarted).Perm (s.started commands) ∧
    ((s.started commands).map (·.runId)).Nodup ∧
    (store.records.map (·.runId)).Perm ((s.started commands).map (·.runId)) ∧
    (∀ run ∈ s.made all, ∃ record, RunStore.load? store run.runId = some record ∧
      run.Recorded record ∧
      (savedUnder run.runId (s.saves all)).map (·.status) =
        (if run.later then [.pending] else []) ++ [.running, record.status]) ∧
    ∀ before after runId record,
      RunStore.load? (s.through before).history runId = some record → record.status.isTerminal →
      RunStore.load? (s.through (before ++ after)).history runId = some record := by
  intro all store
  have haccounted := accounted hempty hidle hids all
  have hwaiting : (s.logged.through all).waiting = [] := by
    rw [through_append]
    exact waitIdle_waiting _
  have hstarted : s.started all = s.started commands := by
    rw [Service.started, along_append]
    exact List.append_nil _
  have hstore : store = saveAll RunStore.empty (s.saves all) := history_eq_saveAll hempty all
  rw [hwaiting, hstarted] at haccounted
  have hsplit : ((s.made all).map Made.toStarted).Perm (s.started commands) :=
    haccounted.accounts.split
  refine ⟨hsplit, haccounted.accounts.distinct, ?_, fun run hrun => ?_, ?_⟩
  · rw [hstore]
    refine (MemoryStore.listed_saveAll _).perm haccounted.accounts.distinct fun runId => ?_
    rw [MemoryStore.load?_saveAll]
    exact haccounted.accounts.saved_iff runId
  · obtain ⟨submitted, begun, ended, hsaved⟩ := haccounted.accounts.ended run hrun
    refine ⟨_, ?_, run.recorded submitted begun ended, ?_⟩
    · rw [hstore, MemoryStore.load?_saveAll, ← run.getLast?_records]
      exact congrArg List.getLast? hsaved
    · rw [← run.map_status_records submitted begun ended]
      exact congrArg (List.map (·.status)) hsaved
  · intro before after runId record hload hterminal
    exact load?_terminal hempty hidle hids before after hload hterminal

end

/-- A service with one pipeline, which does nothing. -/
def sampleIdle : Service Unit MemoryStore where
  engine :=
    { sampleService.engine with
      pipelines := [("copy",
        { key := "copy", flows := [], pre := none, post := none, schedules := []
          scheduleEnabled := true, paramsProvider := none, components := [], scripts := [] })] }
  history := RunStore.empty
  world := { state := () }
  runId n := String.ofList (List.replicate n 'r')

/-- A run is submitted, one of an unknown pipeline is made, and a schedule is fired that there is
not. -/
def sampleCommands : List Command := [.submit "copy" none, .run "absent" none, .fire "nightly"]

theorem sampleIdle_runId : Function.Injective sampleIdle.runId := by
  intro m n heq
  have hlength := congrArg (fun text : String => text.toList.length) heq
  simpa [sampleIdle] using hlength

theorem waitIdle_records_sample :
    sampleIdle.history = RunStore.empty ∧ sampleIdle.waiting = [] ∧
    Function.Injective sampleIdle.runId ∧
    let store := (sampleIdle.through (sampleCommands ++ [.waitIdle])).history
    (store.records.map (·.runId)).Perm ["", "r"] ∧
    (∃ record, RunStore.load? store "" = some record ∧ record.status = .completed ∧
      record.error = none) ∧
    ∃ record, RunStore.load? store "r" = some record ∧ record.status = .failed ∧
      record.error = some "pipeline 'absent' is not registered" := by
  obtain ⟨-, -, hperm, htold, -⟩ :=
    waitIdle_records (s := sampleIdle) rfl rfl sampleIdle_runId sampleCommands
  have hstarted : (sampleIdle.started sampleCommands).map (·.runId) = ["", "r"] := rfl
  let absent : Made :=
    ⟨⟨"r", "absent", none, false⟩, .error (.error (.pipelineNotFound "absent")), id⟩
  let copied : Made := ⟨⟨"", "copy", none, true⟩, .ok (), id⟩
  have hmade : sampleIdle.made (sampleCommands ++ [.waitIdle]) = [absent, copied] := rfl
  rw [hmade] at htold
  obtain ⟨failed, hfailed, hwhy, -⟩ := htold absent (.head _)
  obtain ⟨completed, hcompleted, hwell, -⟩ := htold copied (.tail _ (.head _))
  exact ⟨rfl, rfl, sampleIdle_runId, hstarted ▸ hperm, ⟨completed, hcompleted, hwell.ok.mpr rfl⟩,
    failed, hfailed, hwhy.failed _ rfl⟩

end Service

end RowFlow
