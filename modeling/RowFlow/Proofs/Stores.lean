import Mathlib.Data.List.Sort
import RowFlow.Proofs.Records
import RowFlow.Proofs.Timestamps

/-!
# Two stores of records

A store in memory and a store in a table answer alike, whatever they are asked, as long as no two of
the records that are current have been submitted at the same time (`stores_agree`). For each of them
it is enough to know what has been saved: it has the records that no other has been saved over
(`current`), and lists them from the newest to the oldest (`Keeps`).
-/

namespace RowFlow

/-! ## Current records -/

/-- The records that no other has been saved over, under the same run id. -/
def current : List RunRecord → List RunRecord
  | [] => []
  | record :: later =>
    if later.any (·.runId = record.runId) then current later else record :: current later

theorem current_sublist (saves : List RunRecord) : (current saves).Sublist saves := by
  induction saves with
  | nil => exact .slnil
  | cons first later ih =>
    rw [current]
    split
    · exact ih.cons first
    · exact ih.cons_cons first

/-- A record that is saved takes the place of the one under its run id. -/
theorem current_concat (saves : List RunRecord) (record : RunRecord) :
    current (saves ++ [record]) = (current saves).filter (·.runId ≠ record.runId) ++ [record] := by
  induction saves with
  | nil => rfl
  | cons first later ih =>
    rw [List.cons_append, current, current, ih]
    by_cases hlater : later.any (·.runId = first.runId) = true
    · have hmore : (later ++ [record]).any (·.runId = first.runId) = true := by
        rw [List.any_append, hlater, Bool.true_or]
      rw [if_pos hlater, if_pos hmore]
    · rw [if_neg hlater]
      by_cases hsame : first.runId = record.runId
      · have hmore : (later ++ [record]).any (·.runId = first.runId) = true := by
          simp [List.any_append, hsame]
        rw [if_pos hmore, List.filter_cons_of_neg (by simpa using hsame)]
      · have hmore : ¬(later ++ [record]).any (·.runId = first.runId) = true := by
          simpa [List.any_append, Ne.symm hsame] using hlater
        rw [if_neg hmore, List.filter_cons_of_pos (by simpa using hsame), List.cons_append]

theorem current_runIds (saves : List RunRecord) :
    ((current saves).map (·.runId)).Nodup := by
  induction saves with
  | nil => exact .nil
  | cons first later ih =>
    rw [current]
    split
    · exact ih
    · rename_i hlast
      rw [List.map_cons]
      refine List.nodup_cons.mpr ⟨fun hmem => hlast ?_, ih⟩
      obtain ⟨record, hrecord, hsame⟩ := List.mem_map.mp hmem
      exact List.any_eq_true.mpr ⟨record, (current_sublist later).mem hrecord, decide_eq_true hsame⟩

theorem find?_filter_of_imp {p q : α → Bool} (h : ∀ a, q a → p a) (l : List α) :
    (l.filter p).find? q = l.find? q := by
  rw [List.find?_filter]
  congr 1
  funext a
  cases hq : q a with
  | false => simp
  | true => simp [h a hq]

/-- A row that replaces the one under its run id. -/
theorem find?_replaced (rows : List RunRecord) (record : RunRecord) (runId : String) :
    (rows.filter (·.runId ≠ record.runId) ++ [record]).find? (·.runId = runId) =
      if record.runId = runId then some record else rows.find? (·.runId = runId) := by
  rw [List.find?_append]
  split
  · rename_i hsame
    subst hsame
    have hnone : (rows.filter (·.runId ≠ record.runId)).find? (·.runId = record.runId) = none :=
      List.find?_eq_none.mpr fun other hother => by simpa using List.of_mem_filter hother
    rw [hnone]
    simp
  · rename_i hother
    have hkept : (rows.filter (·.runId ≠ record.runId)).find? (·.runId = runId) =
        rows.find? (·.runId = runId) := by
      refine find?_filter_of_imp (fun row hrow => ?_) rows
      have heq : row.runId = runId := of_decide_eq_true hrow
      exact decide_eq_true (heq ▸ Ne.symm hother)
    rw [hkept]
    simp [hother]

/-- A store has what has been saved last under a run id. -/
class LawfulRunStore (τ : Type) [RunStore τ] : Prop where
  load?_save : ∀ (store : τ) (record : RunRecord) (runId : String),
    RunStore.load? (RunStore.save store record) runId =
      if record.runId = runId then some record else RunStore.load? store runId

instance : LawfulRunStore MemoryStore := ⟨MemoryStore.load?_save⟩

instance : LawfulRunStore TableStore := ⟨fun store => find?_replaced store.rows⟩

/-- What is current is the last record that has been saved under its run id. -/
theorem find?_current (saves : List RunRecord) (runId : String) :
    (current saves).find? (·.runId = runId) = (savedUnder runId saves).getLast? := by
  induction saves using List.reverseRecOn with
  | nil => rfl
  | append_singleton saves record ih =>
    rw [current_concat, find?_replaced, savedUnder_append, List.getLast?_append]
    split
    · rename_i hsame
      rw [savedUnder_self (by simpa using hsame)]
      rfl
    · rename_i hother
      have hnone : savedUnder runId [record] = [] :=
        savedUnder_other (fun _ h => List.mem_singleton.mp h ▸ rfl) hother
      rw [ih, hnone]
      rfl

theorem mem_current {saves : List RunRecord} :
    record ∈ current saves ↔ (savedUnder record.runId saves).getLast? = some record := by
  rw [← find?_current]
  constructor
  · intro hmem
    cases hfound : (current saves).find? (·.runId = record.runId) with
    | none => exact absurd (decide_eq_true rfl) (List.find?_eq_none.mp hfound record hmem)
    | some found =>
      have hsame : found.runId = record.runId := by
        simpa using List.find?_some hfound
      exact congrArg some (List.inj_on_of_nodup_map (current_runIds saves)
        (List.mem_of_find?_eq_some hfound) hmem hsame)
  · exact List.mem_of_find?_eq_some

/-! ## Sorting -/

/-- A record has been submitted after another. -/
def RunRecord.Newer (a b : RunRecord) : Prop := a.submitted.le b.submitted = false

theorem RunRecord.Newer.asymm {a b : RunRecord} (h : a.Newer b) : ¬b.Newer a := by
  intro h'
  rcases Time.le_total a.submitted b.submitted with hle | hle
  · exact Bool.false_ne_true (h.symm.trans hle)
  · exact Bool.false_ne_true (h'.symm.trans hle)

theorem RunRecord.newer_of_le {a b : RunRecord} (hle : b.submitted.le a.submitted)
    (hne : a.submitted ≠ b.submitted) : a.Newer b :=
  Bool.eq_false_iff.mpr fun hle' => hne (Time.le_antisymm hle' hle)

/-- There is one way only to put records in order. -/
theorem eq_of_newer (hperm : List.Perm l l') (hl : l.Pairwise RunRecord.Newer)
    (hl' : l'.Pairwise RunRecord.Newer) : l = l' :=
  hperm.eq_of_pairwise (fun _ _ _ _ h h' => (h.asymm h').elim) hl hl'

/-- What is assumed of the records that are current at some time: they have been submitted at
different times, the texts of these are in the order of the times, and a memory of 64 bits can hold
them. -/
structure Orderly (records : List RunRecord) : Prop where
  distinct : records.Pairwise (fun a b => a.submitted ≠ b.submitted)
  texts : ∀ a ∈ records, ∀ b ∈ records,
    a.submitted.columnText ≤ b.submitted.columnText ↔ a.submitted.le b.submitted
  few : records.length ≤ Nat.pow 2 63

theorem orderly_current {saves : List RunRecord} (hplain : ∀ record ∈ saves, record.submitted.Plain)
    (hdistinct : saves.Pairwise fun a b => a.submitted = b.submitted → a.runId = b.runId)
    (hfew : saves.length ≤ Nat.pow 2 63) : Orderly (current saves) where
  distinct := by
    have hids := List.pairwise_map.mp (current_runIds saves)
    have hold := hdistinct.sublist (current_sublist saves)
    exact (hold.and hids).imp fun ⟨hsame, hne⟩ heq => hne (hsame heq)
  texts a ha b hb := Time.columnText_le_iff (hplain a ((current_sublist saves).mem ha))
    (hplain b ((current_sublist saves).mem hb))
  few := Nat.le_trans (current_sublist saves).length_le hfew

theorem Orderly.perm (h : Orderly records) (hperm : records.Perm records') : Orderly records' where
  distinct := hperm.pairwise h.distinct Ne.symm
  texts a ha b hb := h.texts a (hperm.mem_iff.mpr ha) b (hperm.mem_iff.mpr hb)
  few := hperm.length_eq ▸ h.few

theorem Orderly.filter (h : Orderly records) (p : RunRecord → Bool) :
    Orderly (records.filter p) where
  distinct := h.distinct.filter p
  texts a ha b hb := h.texts a (List.mem_of_mem_filter ha) b (List.mem_of_mem_filter hb)
  few := Nat.le_trans (List.length_filter_le ..) h.few

section Sorted

open MemoryStore (newestFirst)
open TableStore (descending limited)

variable {records : List RunRecord}

theorem newestFirst_perm (records : List RunRecord) : (newestFirst records).Perm records :=
  List.mergeSort_perm ..

theorem newestFirst_pairwise (h : records.Pairwise (fun a b => a.submitted ≠ b.submitted)) :
    (newestFirst records).Pairwise RunRecord.Newer := by
  have hsorted : (newestFirst records).Pairwise
      (fun a b => b.submitted.le a.submitted = true) := by
    refine List.pairwise_mergeSort (fun a b c hab hbc => ?_) (fun a b => ?_) records
    · exact Time.le_trans hbc hab
    · exact (Bool.or_eq_true _ _).mpr (Time.le_total ..)
  have hdistinct := (newestFirst_perm records).symm.pairwise h Ne.symm
  exact (hsorted.and hdistinct).imp fun ⟨hle, hne⟩ => RunRecord.newer_of_le hle hne

/-- The records of a pipeline are listed in the order of all. -/
theorem newestFirst_filter (h : records.Pairwise (fun a b => a.submitted ≠ b.submitted))
    (p : RunRecord → Bool) :
    newestFirst (records.filter p) = (newestFirst records).filter p := by
  have hperm : (newestFirst (records.filter p)).Perm ((newestFirst records).filter p) :=
    (newestFirst_perm _).trans ((newestFirst_perm records).symm.filter p)
  exact eq_of_newer hperm (newestFirst_pairwise (h.filter p)) ((newestFirst_pairwise h).filter p)

/-- Texts of times put records in the order of the times. -/
theorem descending_eq (h : Orderly records) : descending records = newestFirst records := by
  have hperm : (descending records).Perm records := List.mergeSort_perm ..
  have hsorted : (descending records).Pairwise
      (fun a b => decide (b.submitted.columnText ≤ a.submitted.columnText) = true) := by
    refine List.pairwise_mergeSort (fun a b c hab hbc => ?_) (fun a b => ?_) records
    · exact decide_eq_true (le_trans (of_decide_eq_true hbc) (of_decide_eq_true hab))
    · simpa using le_total b.submitted.columnText a.submitted.columnText
  have horderly := h.perm hperm.symm
  have hnewer : (descending records).Pairwise RunRecord.Newer := by
    refine (hsorted.and horderly.distinct).imp_of_mem fun ha hb ⟨hle, hne⟩ => ?_
    exact RunRecord.newer_of_le ((horderly.texts _ hb _ ha).mp (of_decide_eq_true hle)) hne
  exact eq_of_newer (hperm.trans (newestFirst_perm records).symm) hnewer
    (newestFirst_pairwise h.distinct)

/-- The largest limit that can be given. -/
def largestLimit : Nat := Nat.pow 2 64 - 1

/-- A number is read as a signed one. -/
theorem bmod_two_mul {half n : Nat} (h : n < 2 * half) :
    (n : Int).bmod (2 * half) = if n < half then (n : Int) else (n : Int) - (2 * half : Nat) := by
  have hmod : (n : Int) % (2 * half : Nat) = n := Int.emod_eq_of_lt (by omega) (by omega)
  rw [Int.bmod, hmod]
  split <;> split <;> omega

/-- A limit that is taken to be negative is larger than the number of records. -/
theorem limited_eq (hlimit : limit ≤ largestLimit) (hfew : records.length ≤ Nat.pow 2 63) :
    limited limit records = records.take limit := by
  have hsmall : limit < Nat.pow 2 64 := Nat.lt_of_le_of_lt hlimit (by decide)
  have hdouble : Nat.pow 2 64 = 2 * Nat.pow 2 63 := by decide
  unfold limited
  -- the powers are kept from being computed
  generalize Nat.pow 2 64 = bound, Nat.pow 2 63 = half at hsmall hfew hdouble ⊢
  subst hdouble
  rw [bmod_two_mul hsmall]
  by_cases hlt : limit < half
  · rw [if_pos hlt, if_neg (Int.not_lt.mpr (Int.natCast_nonneg _)), Int.toNat_natCast]
  · rw [if_neg hlt, if_pos (Int.sub_neg_of_lt (Int.ofNat_lt.mpr hsmall)),
      List.take_of_length_le (Nat.le_trans hfew (Nat.not_lt.mp hlt))]

end Sorted

/-! ## Keys -/

theorem mem_keys_insert (d : Dict Unit) (key other : String) :
    other ∈ (Dict.insert d key ()).keys ↔ other = key ∨ other ∈ Dict.keys d := by
  induction d with
  | nil => exact List.mem_singleton.trans (or_iff_left (List.not_mem_nil)).symm
  | cons first d ih =>
    obtain ⟨k, ⟨⟩⟩ := first
    unfold Dict.insert
    split
    · exact List.mem_cons
    · split
      · rename_i hsame
        subst hsame
        simp [Dict.keys]
      · have hrest : other ∈ Dict.keys ((k, ()) :: Dict.insert d key ()) ↔
            other = k ∨ other ∈ (Dict.insert d key ()).keys := List.mem_cons
        have hold : other ∈ Dict.keys ((k, ()) :: d) ↔ other = k ∨ other ∈ Dict.keys d :=
          List.mem_cons
        rw [hrest, hold, ih, or_left_comm]

theorem mem_sortedTexts {texts : List String} : text ∈ sortedTexts texts ↔ text ∈ texts := by
  have hall (d : Dict Unit) : text ∈ (d.insertAll (texts.map fun text => (text, ()))).keys ↔
      text ∈ texts ∨ text ∈ d.keys := by
    induction texts generalizing d with
    | nil => simp [Dict.insertAll]
    | cons first texts ih =>
      have hstep := ih (Dict.insert d first ())
      rw [mem_keys_insert, or_left_comm, ← or_assoc] at hstep
      rw [List.mem_cons]
      exact hstep
  exact (hall []).trans (or_iff_left List.not_mem_nil)

theorem sortedTexts_increasing (texts : List String) : (sortedTexts texts).Pairwise (· < ·) :=
  List.pairwise_map.mpr (Dict.Ordered.insertAll .nil _)

/-! ## What a store keeps -/

/-- These records have been saved in a store, and it has the last one under each run id. -/
structure RunStore.Keeps {τ : Type} [RunStore τ] (saves : List RunRecord) (store : τ) : Prop where
  load? : ∀ runId, RunStore.load? store runId = (savedUnder runId saves).getLast?
  /-- With the largest limit all current records are listed, the newest first. -/
  all : (RunStore.recent store largestLimit).Perm (current saves)
  newer : (RunStore.recent store largestLimit).Pairwise RunRecord.Newer
  recent : ∀ limit ≤ largestLimit,
    RunStore.recent store limit = (RunStore.recent store largestLimit).take limit
  ofPipeline : ∀ key, RunStore.ofPipeline store key =
    (RunStore.recent store largestLimit).filter (·.pipeline = key)
  increasing : (RunStore.pipelines store).Pairwise (· < ·)
  pipelines : ∀ key, key ∈ RunStore.pipelines store ↔
    ∃ record ∈ current saves, record.pipeline = key

/-- It is enough that a store sorts its records before it cuts the list off, and that it sorts those
of a pipeline in the same way. -/
theorem keeps_of {τ : Type} [RunStore τ] {store : τ} {records saves : List RunRecord}
    (h : Orderly (current saves)) (hperm : records.Perm (current saves))
    (hload : ∀ runId, RunStore.load? store runId = (savedUnder runId saves).getLast?)
    (hrecent : ∀ limit ≤ largestLimit,
      RunStore.recent store limit = (MemoryStore.newestFirst records).take limit)
    (hpipeline : ∀ key, RunStore.ofPipeline store key =
      MemoryStore.newestFirst (records.filter (·.pipeline = key)))
    (hkeys : RunStore.pipelines store = sortedTexts (records.map (·.pipeline))) :
    RunStore.Keeps saves store := by
  have hrecords := h.perm hperm.symm
  have hfew : (MemoryStore.newestFirst records).length ≤ largestLimit := by
    rw [(newestFirst_perm records).length_eq]
    exact Nat.le_trans hrecords.few (by decide)
  have hall : RunStore.recent store largestLimit = MemoryStore.newestFirst records :=
    (hrecent _ (Nat.le_refl _)).trans (List.take_of_length_le hfew)
  refine {
    load? := hload
    all := hall ▸ (newestFirst_perm records).trans hperm
    newer := hall ▸ newestFirst_pairwise hrecords.distinct
    recent := fun limit hlimit => hall ▸ hrecent limit hlimit
    ofPipeline := fun key => ?_
    increasing := hkeys ▸ sortedTexts_increasing _
    pipelines := fun key => ?_ }
  · rw [hall, hpipeline, newestFirst_filter hrecords.distinct]
  · rw [hkeys, mem_sortedTexts, List.mem_map]
    exact exists_congr fun record => and_congr_left' hperm.mem_iff

namespace MemoryStore

theorem records_perm (saves : List RunRecord) :
    (saveAll (RunStore.empty : MemoryStore) saves).records.Perm (current saves) := by
  have hlisted := listed_saveAll saves
  have hload := load?_saveAll saves
  generalize saveAll (RunStore.empty : MemoryStore) saves = store at hlisted hload
  have hkeys : (store.records.map (·.runId)).Nodup := by
    rw [hlisted.runIds]
    exact List.pairwise_map.mpr (hlisted.ordered.imp fun hlt => ne_of_lt hlt)
  have hcurrent := current_runIds saves
  refine (List.perm_ext_iff_of_nodup hkeys.of_map hcurrent.of_map).mpr fun record => ?_
  rw [mem_current, ← hload]
  constructor
  · intro hmem
    obtain ⟨entry, hentry, rfl⟩ := List.mem_map.mp hmem
    have hkey := hlisted.keyed entry hentry
    exact hkey ▸ hlisted.ordered.mem_iff.mp hentry
  · intro hfound
    exact List.mem_map.mpr ⟨_, hlisted.ordered.mem_iff.mpr hfound, rfl⟩

theorem keeps (h : Orderly (current saves)) :
    RunStore.Keeps saves (saveAll (RunStore.empty : MemoryStore) saves) :=
  keeps_of h (records_perm saves) (load?_saveAll saves) (fun _ _ => rfl) (fun _ => rfl) rfl

end MemoryStore

namespace TableStore

theorem rows_saveAll (saves : List RunRecord) :
    (saveAll (RunStore.empty : TableStore) saves).rows = current saves := by
  induction saves using List.reverseRecOn with
  | nil => rfl
  | append_singleton saves record ih =>
    rw [current_concat, ← ih, saveAll, List.foldl_concat]
    rfl

theorem keeps (h : Orderly (current saves)) :
    RunStore.Keeps saves (saveAll (RunStore.empty : TableStore) saves) := by
  have hrows := rows_saveAll saves
  generalize saveAll (RunStore.empty : TableStore) saves = store at hrows ⊢
  obtain ⟨rows⟩ := store
  cases hrows
  refine keeps_of h (.refl _) (find?_current saves) (fun limit hlimit => ?_) (fun key => ?_) rfl
  · rw [← descending_eq h]
    have hlength : (descending (current saves)).length = (current saves).length :=
      List.length_mergeSort ..
    exact limited_eq hlimit (hlength ▸ h.few)
  · exact descending_eq (h.filter _)

end TableStore

/-! ## Calls -/

/-- A call of a store. -/
inductive StoreCall where
  | save (record : RunRecord)
  | load (runId : String)
  | ofPipeline (key : String)
  | recent (limit : Nat)
  | pipelines

/-- What a store answers. -/
inductive StoreAnswer where
  | saved
  | found (record : Option RunRecord)
  | records (records : List RunRecord)
  | keys (keys : List String)

variable {τ : Type} [RunStore τ]

def StoreCall.perform (store : τ) : StoreCall → StoreAnswer × τ
  | .save record => (.saved, RunStore.save store record)
  | .load runId => (.found (RunStore.load? store runId), store)
  | .ofPipeline key => (.records (RunStore.ofPipeline store key), store)
  | .recent limit => (.records (RunStore.recent store limit), store)
  | .pipelines => (.keys (RunStore.pipelines store), store)

/-- The answers to calls that are made one after another, and the store after them. -/
def performAll (store : τ) : List StoreCall → List StoreAnswer × τ
  | [] => ([], store)
  | call :: calls =>
    let first := call.perform store
    let rest := performAll first.2 calls
    (first.1 :: rest.1, rest.2)

/-- The records that are saved by calls. -/
def StoreCall.saves : StoreCall → List RunRecord
  | .save record => [record]
  | .load _ | .ofPipeline _ | .recent _ | .pipelines => []

def savedBy (calls : List StoreCall) : List RunRecord := calls.flatMap StoreCall.saves

theorem perform_snd (call : StoreCall) (store : τ) :
    (call.perform store).2 = saveAll store call.saves := by
  cases call <;> rfl

theorem performAll_concat (calls : List StoreCall) (call : StoreCall) (store : τ) :
    performAll store (calls ++ [call]) =
      ((performAll store calls).1 ++ [(call.perform (performAll store calls).2).1],
        (call.perform (performAll store calls).2).2) := by
  induction calls generalizing store with
  | nil => rfl
  | cons first calls ih =>
    rw [List.cons_append, performAll, ih]
    rfl

theorem performAll_snd (calls : List StoreCall) (store : τ) :
    (performAll store calls).2 = saveAll store (savedBy calls) := by
  induction calls using List.reverseRecOn with
  | nil => rfl
  | append_singleton calls call ih =>
    have hcalls : savedBy (calls ++ [call]) = savedBy calls ++ call.saves := by
      rw [savedBy, List.flatMap_append, List.flatMap_singleton]
      rfl
    rw [performAll_concat, hcalls, saveAll, List.foldl_append, perform_snd, ih]
    rfl

variable {τ' : Type} [RunStore τ']

/-- What has been saved determines the answers. -/
theorem RunStore.Keeps.answer_eq {store : τ} {store' : τ'} (h : Keeps saves store)
    (h' : Keeps saves store') (call : StoreCall)
    (hlimit : ∀ limit, call = .recent limit → limit ≤ largestLimit) :
    (call.perform store).1 = (call.perform store').1 := by
  have hall : RunStore.recent store largestLimit = RunStore.recent store' largestLimit :=
    eq_of_newer (h.all.trans h'.all.symm) h.newer h'.newer
  cases call with
  | save record => rfl
  | load runId => exact congrArg StoreAnswer.found ((h.load? runId).trans (h'.load? runId).symm)
  | ofPipeline key =>
    refine congrArg StoreAnswer.records ?_
    rw [h.ofPipeline, h'.ofPipeline, hall]
  | recent limit =>
    refine congrArg StoreAnswer.records ?_
    rw [h.recent limit (hlimit limit rfl), h'.recent limit (hlimit limit rfl), hall]
  | pipelines =>
    refine congrArg StoreAnswer.keys (h.increasing.eq_of_mem_iff h'.increasing fun key => ?_)
    rw [h.pipelines, h'.pipelines]

/-- Two stores that keep the same records at any time give the same answers. -/
theorem answers_eq {calls : List StoreCall} {store : τ} {store' : τ'}
    (hlimits : ∀ limit, .recent limit ∈ calls → limit ≤ largestLimit)
    (h : ∀ before, before <+: calls → RunStore.Keeps (savedBy before) (performAll store before).2)
    (h' : ∀ before, before <+: calls →
      RunStore.Keeps (savedBy before) (performAll store' before).2) :
    (performAll store calls).1 = (performAll store' calls).1 := by
  induction calls using List.reverseRecOn with
  | nil => rfl
  | append_singleton calls call ih =>
    have hprefix : calls <+: calls ++ [call] := List.prefix_append ..
    have hbefore := ih (fun limit hmem => hlimits limit (List.mem_append_left _ hmem))
      (fun before hb => h before (hb.trans hprefix)) (fun before hb => h' before (hb.trans hprefix))
    have hanswer := (h calls hprefix).answer_eq (h' calls hprefix) call
      fun limit hcall => hlimits limit (List.mem_append_right _ (List.mem_singleton.mpr hcall.symm))
    rw [performAll_concat, performAll_concat, hbefore, hanswer]

/-- **The two stores are interchangeable.** Whatever is saved in them and asked of them, they give
the same answers, and each has the last record that has been saved under each run id. -/
theorem stores_agree {calls : List StoreCall}
    (hlimits : ∀ limit, .recent limit ∈ calls → limit ≤ largestLimit)
    (horderly : ∀ before, before <+: calls → Orderly (current (savedBy before))) :
    let inMemory := performAll (RunStore.empty : MemoryStore) calls
    let inTable := performAll (RunStore.empty : TableStore) calls
    inMemory.1 = inTable.1 ∧ RunStore.Keeps (savedBy calls) inMemory.2 ∧
      RunStore.Keeps (savedBy calls) inTable.2 := by
  have hmemory (before : List StoreCall) (hbefore : before <+: calls) :
      RunStore.Keeps (savedBy before) (performAll (RunStore.empty : MemoryStore) before).2 := by
    rw [performAll_snd]
    exact MemoryStore.keeps (horderly before hbefore)
  have htable (before : List StoreCall) (hbefore : before <+: calls) :
      RunStore.Keeps (savedBy before) (performAll (RunStore.empty : TableStore) before).2 := by
    rw [performAll_snd]
    exact TableStore.keeps (horderly before hbefore)
  exact ⟨answers_eq hlimits hmemory htable, hmemory _ List.prefix_rfl, htable _ List.prefix_rfl⟩

/-- Two runs, of which the first is saved again for another pipeline. -/
def sampleCalls : List StoreCall :=
  [.save { runId := "1", pipeline := "users", submitted := ⟨0, 0⟩ },
    .save { runId := "2", pipeline := "users", submitted := ⟨0, 500000000⟩ },
    .recent 1, .ofPipeline "users",
    .save { runId := "1", pipeline := "orders", status := .running, submitted := ⟨0, 0⟩ },
    .recent largestLimit, .ofPipeline "users", .load "1", .pipelines]

theorem stores_agree_sample :
    (performAll (RunStore.empty : MemoryStore) sampleCalls).1 =
      (performAll (RunStore.empty : TableStore) sampleCalls).1 := by
  have hlimits : ∀ limit, .recent limit ∈ sampleCalls → limit ≤ largestLimit := by
    intro limit hmem
    simp only [sampleCalls, List.mem_cons, reduceCtorEq, StoreCall.recent.injEq, List.not_mem_nil,
      or_false, false_or] at hmem
    rcases hmem with rfl | rfl
    · decide
    · exact Nat.le_refl _
  have horderly : ∀ before, before <+: sampleCalls → Orderly (current (savedBy before)) := by
    rintro before ⟨rest, hrest⟩
    have hsub : (savedBy before).Sublist (savedBy sampleCalls) := by
      rw [← hrest, savedBy, savedBy, List.flatMap_append]
      exact List.sublist_append_left ..
    refine orderly_current (fun record hrecord => ?_) (List.Pairwise.sublist hsub ?_)
      (Nat.le_trans hsub.length_le (by decide))
    · have hplain : ∀ record ∈ savedBy sampleCalls, record.submitted.Plain :=
        List.forall_mem_cons.mpr ⟨Time.plain_of_range (by decide) (by decide) (by decide),
          List.forall_mem_cons.mpr ⟨Time.plain_of_range (by decide) (by decide) (by decide),
            List.forall_mem_singleton.mpr
              (Time.plain_of_range (by decide) (by decide) (by decide))⟩⟩
      exact hplain record (hsub.mem hrecord)
    · simp [sampleCalls, savedBy, StoreCall.saves]
  exact (stores_agree hlimits horderly).1

end RowFlow
