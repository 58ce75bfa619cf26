import Mathlib.Data.String.Basic
import RowFlow.Dict

/-!
# Laws of dictionaries

The entries of an ordered dictionary are what is found in it, and every operation keeps the order.
Erasing a key makes up for what has been inserted under it, and it can be done before or after
insertions under other keys (`Dict.Ordered.erase_insertAll`).
-/

namespace RowFlow

namespace Dict

variable {α : Type} {d : Dict α}

theorem mem_insert (h : entry ∈ d.insert key value) : entry = (key, value) ∨ entry ∈ d := by
  induction d with
  | nil => exact .inl (List.mem_singleton.mp h)
  | cons first d ih =>
    unfold insert at h
    split at h
    · exact List.mem_cons.mp h
    · split at h
      · exact (List.mem_cons.mp h).imp_right (List.mem_cons_of_mem _)
      · rcases List.mem_cons.mp h with rfl | h
        · exact .inr List.mem_cons_self
        · exact (ih h).imp_right (List.mem_cons_of_mem _)

theorem Ordered.insert (h : d.Ordered) (key : String) (value : α) :
    (d.insert key value).Ordered := by
  induction d with
  | nil => exact List.pairwise_singleton ..
  | cons first d ih =>
    obtain ⟨hfirst, hrest⟩ := List.pairwise_cons.mp h
    unfold Dict.insert
    split
    · rename_i hlt
      refine List.pairwise_cons.mpr ⟨fun entry hentry => ?_, h⟩
      rcases List.mem_cons.mp hentry with rfl | hentry
      · exact hlt
      · exact String.lt_trans hlt (hfirst entry hentry)
    · rename_i hlt
      split
      · rename_i heq
        exact List.pairwise_cons.mpr ⟨fun entry hentry => heq ▸ hfirst entry hentry, hrest⟩
      · rename_i hne
        refine List.pairwise_cons.mpr ⟨fun entry hentry => ?_, ih hrest⟩
        rcases mem_insert hentry with rfl | hentry
        · exact lt_of_le_of_ne (String.not_lt.mp hlt) hne
        · exact hfirst entry hentry

/-- The entries of a dictionary are what is found in it. -/
theorem Ordered.mem_iff (h : d.Ordered) : (key, value) ∈ d ↔ d.find? key = some value := by
  induction d with
  | nil => simp
  | cons first d ih =>
    obtain ⟨hfirst, hrest⟩ := List.pairwise_cons.mp h
    obtain ⟨k, v⟩ := first
    rw [find?_cons, List.mem_cons, ih hrest]
    by_cases heq : k = key
    · subst heq
      have hnew : Dict.find? d k ≠ some value := fun hfound =>
        String.lt_irrefl k (hfirst (k, value) ((ih hrest).mpr hfound))
      simp [hnew, eq_comm (a := v)]
    · simp [heq, Ne.symm heq]

theorem find?_eq_none_iff : d.find? key = none ↔ ∀ entry ∈ d, entry.1 ≠ key := by
  induction d with
  | nil => simp
  | cons first d ih =>
    obtain ⟨k, v⟩ := first
    rw [find?_cons, List.forall_mem_cons, ← ih]
    by_cases heq : k = key <;> simp [heq]

/-- What is found after entries have been put in is one of these, or was there before. -/
theorem find?_insertAll (h : (d.insertAll entries).find? key = some value) :
    (key, value) ∈ entries ∨
      (∀ entry ∈ entries, entry.1 ≠ key) ∧ d.find? key = some value := by
  induction entries generalizing d with
  | nil => exact .inr ⟨List.forall_mem_nil _, h⟩
  | cons entry entries ih =>
    rcases ih h with hmem | ⟨hnone, hfound⟩
    · exact .inl (List.mem_cons_of_mem _ hmem)
    · rw [find?_insert] at hfound
      by_cases heq : entry.1 = key
      · rw [if_pos heq, Option.some.injEq] at hfound
        refine .inl (List.mem_cons.mpr (.inl ?_))
        rw [← heq, ← hfound]
      · rw [if_neg heq] at hfound
        exact .inr ⟨List.forall_mem_cons.mpr ⟨heq, hnone⟩, hfound⟩

/-! ## Erasing and inserting -/

theorem Ordered.erase (h : d.Ordered) (key : String) : (d.erase key).Ordered := h.filter _

theorem erase_comm (d : Dict α) (key other : String) :
    (d.erase key).erase other = (d.erase other).erase key := List.filter_comm ..

theorem erase_of_find?_eq_none (h : d.find? key = none) : d.erase key = d :=
  List.filter_eq_self.mpr fun entry hentry => by
    simpa using find?_eq_none_iff.mp h entry hentry

theorem erase_cons_self (key : String) (value : α) (d : Dict α) :
    erase ((key, value) :: d) key = d.erase key := List.filter_cons_of_neg (by simp)

theorem erase_cons_of_ne (h : key ≠ other) (value : α) (d : Dict α) :
    erase ((key, value) :: d) other = (key, value) :: d.erase other :=
  List.filter_cons_of_pos (by simpa using h)

/-- What is erased need not have been inserted. -/
theorem erase_insert_self (d : Dict α) (key : String) (value : α) :
    (d.insert key value).erase key = d.erase key := by
  induction d with
  | nil => exact erase_cons_self key value []
  | cons first d ih =>
    obtain ⟨k, v⟩ := first
    unfold insert
    split
    · exact erase_cons_self key value _
    · split
      · rename_i heq
        subst heq
        rw [erase_cons_self, erase_cons_self]
      · rename_i hne
        rw [erase_cons_of_ne hne, erase_cons_of_ne hne, ih]

theorem insert_of_forall_lt (h : ∀ entry ∈ d, key < entry.1) (value : α) :
    d.insert key value = (key, value) :: d := by
  cases d with
  | nil => rfl
  | cons first d => exact if_pos (h first List.mem_cons_self)

theorem Ordered.erase_insert (h : d.Ordered) (hne : key ≠ other) (value : α) :
    (d.insert key value).erase other = (d.erase other).insert key value := by
  induction d with
  | nil => exact erase_cons_of_ne hne value []
  | cons first d ih =>
    obtain ⟨k, v⟩ := first
    obtain ⟨hfirst, hrest⟩ := List.pairwise_cons.mp h
    by_cases hlt : key < k
    · have hall : ∀ entry ∈ (k, v) :: d, key < entry.1 :=
        List.forall_mem_cons.mpr ⟨hlt, fun entry he => String.lt_trans hlt (hfirst entry he)⟩
      have herased : ∀ entry ∈ Dict.erase ((k, v) :: d) other, key < entry.1 :=
        fun entry he => hall entry (List.mem_of_mem_filter he)
      rw [insert_of_forall_lt hall, erase_cons_of_ne hne, insert_of_forall_lt herased]
    by_cases heq : k = key
    · subst heq
      rw [erase_cons_of_ne hne, Dict.insert, if_neg hlt, if_pos rfl, Dict.insert, if_neg hlt,
        if_pos rfl, erase_cons_of_ne hne]
    · rw [Dict.insert, if_neg hlt, if_neg heq]
      by_cases hother : k = other
      · subst hother
        rw [erase_cons_self, erase_cons_self, ih hrest]
      · rw [erase_cons_of_ne hother, erase_cons_of_ne hother, ih hrest, Dict.insert, if_neg hlt,
          if_neg heq]

theorem Ordered.insertAll (h : d.Ordered) (entries : List (String × α)) :
    (d.insertAll entries).Ordered := by
  induction entries generalizing d with
  | nil => exact h
  | cons entry entries ih => exact ih (h.insert entry.1 entry.2)

theorem Ordered.erase_insertAll (h : d.Ordered) (entries : List (String × α)) (key : String) :
    (d.insertAll entries).erase key = (d.erase key).insertAll (Dict.erase entries key) := by
  induction entries generalizing d with
  | nil => rfl
  | cons entry entries ih =>
    obtain ⟨k, v⟩ := entry
    have hrest := ih (h.insert k v)
    by_cases heq : k = key
    · subst heq
      rw [erase_cons_self, ← erase_insert_self d k v]
      exact hrest
    · rw [erase_cons_of_ne heq]
      rw [h.erase_insert heq] at hrest
      exact hrest

/-! ## Entries in order -/

theorem insert_of_forall_gt (h : ∀ entry ∈ d, entry.1 < key) (value : α) :
    d.insert key value = d ++ [(key, value)] := by
  induction d with
  | nil => rfl
  | cons first d ih =>
    obtain ⟨hfirst, hrest⟩ := List.forall_mem_cons.mp h
    rw [insert, if_neg (not_lt_of_gt hfirst), if_neg (ne_of_lt hfirst), ih hrest, List.cons_append]

theorem insertAll_of_ordered (h : Ordered (d ++ entries)) : d.insertAll entries = d ++ entries := by
  induction entries generalizing d with
  | nil => exact (List.append_nil d).symm
  | cons entry entries ih =>
    have hlast : ∀ other ∈ d, other.1 < entry.1 := fun other hother =>
      (List.pairwise_append.mp h).2.2 other hother entry List.mem_cons_self
    have hstep : d.insertAll (entry :: entries) = (d ++ [entry]).insertAll entries :=
      congrArg (insertAll · entries) (insert_of_forall_gt hlast entry.2)
    rw [hstep, ih (by rwa [← List.append_cons]), ← List.append_cons]

/-- The dictionary of entries that are in order already. -/
theorem Ordered.ofEntries (h : d.Ordered) : Dict.ofEntries d = d := insertAll_of_ordered h

/-! ## Entries of different keys -/

theorem Ordered.nodup_keys (h : d.Ordered) : d.keys.Nodup :=
  List.pairwise_map.mpr (h.imp fun hlt => ne_of_lt hlt)

theorem perm_insert (h : ∀ entry ∈ d, entry.1 ≠ key) (value : α) :
    (d.insert key value).Perm ((key, value) :: d) := by
  induction d with
  | nil => exact .refl _
  | cons first d ih =>
    obtain ⟨hfirst, hrest⟩ := List.forall_mem_cons.mp h
    unfold insert
    split
    · exact .refl _
    · exact ((ih hrest).cons first).trans (.swap ..)

theorem perm_insertAll (h : (keys (d ++ entries)).Nodup) :
    (d.insertAll entries).Perm (d ++ entries) := by
  induction entries generalizing d with
  | nil => exact .of_eq (List.append_nil d).symm
  | cons entry entries ih =>
    have hswap : ((entry :: d) ++ entries).Perm (d ++ entry :: entries) := List.perm_middle.symm
    have hkeys : (keys ((entry :: d) ++ entries)).Nodup := (hswap.map Prod.fst).nodup_iff.mpr h
    have hnew : ∀ other ∈ d, other.1 ≠ entry.1 := fun other hother heq =>
      (List.nodup_cons.mp hkeys).1
        (List.mem_map.mpr ⟨other, List.mem_append_left _ hother, heq⟩)
    have hinsert : ((d.insert entry.1 entry.2) ++ entries).Perm ((entry :: d) ++ entries) :=
      (perm_insert hnew entry.2).append_right entries
    exact (ih ((hinsert.map Prod.fst).nodup_iff.mpr hkeys)).trans (hinsert.trans hswap)

/-- Entries of different keys make up a dictionary. -/
theorem perm_ofEntries {entries : List (String × α)} (h : (keys entries).Nodup) :
    (ofEntries entries).Perm entries := perm_insertAll h

/-- What is found after entries of different keys have been put in is one of them, or was there
before. -/
theorem find?_insertAll_of_nodup {entries : Dict α} (h : entries.keys.Nodup) (d : Dict α)
    (key : String) :
    (d.insertAll entries).find? key = (entries.find? key).or (d.find? key) := by
  induction entries generalizing d with
  | nil => rfl
  | cons entry entries ih =>
    obtain ⟨k, v⟩ := entry
    obtain ⟨hnew, hrest⟩ := List.nodup_cons.mp h
    have hstep : d.insertAll ((k, v) :: entries) = (d.insert k v).insertAll entries := rfl
    rw [hstep, ih hrest, find?_insert, find?_cons]
    by_cases heq : k = key
    · subst heq
      have hnone : Dict.find? entries k = none := find?_eq_none_iff.mpr fun entry hentry hkey =>
        hnew (List.mem_map.mpr ⟨entry, hentry, hkey⟩)
      rw [hnone, if_pos rfl, if_pos rfl]
      rfl
    · rw [if_neg heq, if_neg heq]

end Dict

end RowFlow
