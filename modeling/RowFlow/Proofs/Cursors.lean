import Mathlib.Algebra.Order.Floor.Div
import RowFlow.Proofs.Chunking

/-!
# What a cursor over rows answers

The reply of a cursor to a request is settled by the requests before it: how many there have been,
and whether one of them was to close the cursor (`RowCursor.due`). So a cursor hands out the windows
of its rows one after another, then keeps answering that there are no more, and from its first
closing on refuses to be read (`RowCursor.replies_eq`).
-/

namespace RowFlow

/-! ## Lists in batches -/

section
variable {α : Type} {size : Nat} {xs : List α}

theorem batches_of_ne_nil (h : xs ≠ []) :
    batches size xs = xs.take (max size 1) :: batches size (xs.drop (max size 1)) := by
  cases xs with
  | nil => contradiction
  | cons x xs => rw [batches]

/-- There is a batch for each full size, and one for what is left. -/
theorem length_batches (size : Nat) (xs : List α) :
    (batches size xs).length = xs.length ⌈/⌉ max size 1 := by
  have hsize : 0 < max size 1 := by omega
  induction xs using batches.induct size with
  | case1 => simp [batches]
  | case2 x xs ih =>
    rw [batches, List.length_cons, ih, List.length_drop, Nat.ceilDiv_eq_add_pred_div,
      Nat.ceilDiv_eq_add_pred_div, ← Nat.add_div_right _ hsize]
    by_cases hle : max size 1 ≤ (x :: xs).length
    · congr 1
      omega
    · -- a list that is shorter than the size is a single batch
      have hshort : (x :: xs).length < max size 1 := by omega
      have hone (n : Nat) (hlow : max size 1 ≤ n) (hhigh : n < 2 * max size 1) :
          n / max size 1 = 1 := Nat.div_eq_of_lt_le (by omega) (by omega)
      have hpos : 0 < (x :: xs).length := by simp
      rw [hone, hone] <;> omega

theorem ne_nil_of_mem_batches (h : batch ∈ batches size xs) : batch ≠ [] := by
  induction xs using batches.induct size with
  | case1 => simp [batches] at h
  | case2 x xs ih =>
    rw [batches] at h
    rcases List.mem_cons.mp h with rfl | h
    · simp
    · exact ih h

theorem length_le_of_mem_batches (h : batch ∈ batches size xs) : batch.length ≤ max size 1 := by
  induction xs using batches.induct size with
  | case1 => simp [batches] at h
  | case2 x xs ih =>
    rw [batches] at h
    rcases List.mem_cons.mp h with rfl | h
    · exact List.length_take_le ..
    · exact ih h

/-- Only the last batch may be smaller than the others. -/
theorem length_of_mem_dropLast_batches (h : batch ∈ (batches size xs).dropLast) :
    batch.length = max size 1 := by
  induction xs using batches.induct size with
  | case1 => simp [batches] at h
  | case2 x xs ih =>
    rw [batches] at h
    by_cases hrest : (x :: xs).drop (max size 1) = []
    · simp [hrest, batches] at h
    · rw [batches_of_ne_nil hrest, List.dropLast_cons_cons, ← batches_of_ne_nil hrest] at h
      rcases List.mem_cons.mp h with rfl | h
      · have hlong : max size 1 < (x :: xs).length := by
          simpa [Nat.one_le_iff_ne_zero] using hrest
        simp only [List.length_take]
        omega
      · exact ih h

end

namespace RowCursor

/-! ## Requests and replies -/

inductive Request where
  | next
  | close
deriving DecidableEq

inductive Reply where
  | batch (rows : List Row)
  | ended
  | closed
  | refused (error : AdapterError)

/-- The reply to a request, and the cursor after it. -/
def answer (c : RowCursor) : Request → Reply × RowCursor
  | .next =>
    match c.next with
    | .ok (some batch, c) => (.batch batch, c)
    | .ok (none, c) => (.ended, c)
    | .error e => (.refused e, c)
  | .close => (.closed, c.close)

/-- The replies to requests that are made one after another. -/
def replies (c : RowCursor) : List Request → List Reply
  | [] => []
  | request :: rest => (c.answer request).1 :: replies (c.answer request).2 rest

/-- What a cursor over rows, in batches of a size, owes to a request that is made after others. As
long as the cursor has not been closed, all of these were to read. -/
def due (rows : List Row) (size : Nat) (earlier : List Request) : Request → Reply
  | .next =>
    let i := earlier.length
    if .close ∈ earlier then .refused (.other "cursor already closed")
    else if i * size < rows.length then
      .batch (rows.extract (i * size) (min ((i + 1) * size) rows.length))
    else .ended
  | .close => .closed

/-- What is left of a cursor over rows after some requests. -/
def reached (rows : List Row) (size : Nat) (earlier : List Request) : RowCursor :=
  if .close ∈ earlier then ⟨[], size, true⟩ else ⟨rows.drop (earlier.length * size), size, false⟩

variable {rows : List Row} {size : Nat}

/-- The next window of a size ends with the rows at the latest. -/
theorem take_drop_eq_extract (rows : List Row) (size i : Nat) :
    (rows.drop (i * size)).take size =
      rows.extract (i * size) (min ((i + 1) * size) rows.length) := by
  have hend : (i + 1) * size = i * size + size := Nat.succ_mul i size
  apply List.take_eq_take_iff.mpr
  rw [List.length_drop]
  omega

theorem next_of_closed {c : RowCursor} (h : c.closed = true) :
    c.next = .error (.other "cursor already closed") := by
  simp [next, h]

theorem next_of_nil {c : RowCursor} (hopen : c.closed = false) (h : c.rows = []) :
    c.next = .ok (none, c) := by
  simp [next, hopen, h]

theorem next_of_ne_nil {c : RowCursor} (hopen : c.closed = false) (hsize : 0 < c.size)
    (h : c.rows ≠ []) :
    c.next = .ok (some (c.rows.take c.size), { c with rows := c.rows.drop c.size }) := by
  have hbatch : c.rows.take c.size ≠ [] := by
    intro hnil
    rcases List.take_eq_nil_iff.mp hnil with hzero | hrows
    · omega
    · exact h hrows
  simp [next, hopen]

/-- A request takes what is left after those before it to what is left after all of them. -/
theorem answer_reached (hsize : 0 < size) (earlier : List Request) (request : Request) :
    (reached rows size earlier).answer request =
      (due rows size earlier request, reached rows size (earlier ++ [request])) := by
  cases request with
  | close =>
    unfold reached
    split <;> simp [answer, due, close]
  | next =>
    by_cases hclosed : .close ∈ earlier
    · have hnext : (reached rows size earlier).next = _ :=
        next_of_closed (by simp [reached, hclosed])
      rw [answer, hnext]
      simp [due, reached, hclosed]
    · have hreached : reached rows size earlier =
          ⟨rows.drop (earlier.length * size), size, false⟩ := if_neg hclosed
      have hafter : reached rows size (earlier ++ [.next]) =
          ⟨(rows.drop (earlier.length * size)).drop size, size, false⟩ := by
        simp [reached, hclosed, Nat.succ_mul]
      rw [hreached, hafter]
      by_cases hmore : earlier.length * size < rows.length
      · have hnext := next_of_ne_nil (c := ⟨rows.drop (earlier.length * size), size, false⟩) rfl
          hsize (by simpa using hmore)
        rw [answer, hnext]
        simp only [due, hclosed, hmore, take_drop_eq_extract, if_true, if_false]
      · have hend : rows.drop (earlier.length * size) = [] := by
          simpa using hmore
        rw [answer, next_of_nil rfl hend]
        simp [due, hclosed, hmore, hend]

theorem replies_reached (hsize : 0 < size) (earlier requests : List Request) :
    (reached rows size earlier).replies requests =
      requests.mapIdx fun i request => due rows size (earlier ++ requests.take i) request := by
  induction requests generalizing earlier with
  | nil => rfl
  | cons request rest ih =>
    rw [replies, answer_reached hsize, ih, List.mapIdx_cons]
    simp

theorem HandsOut.unique {c : RowCursor} (h : c.HandsOut bs) (h' : c.HandsOut bs') : bs = bs' := by
  induction h generalizing bs' with
  | ended hnext =>
    cases h' with
    | ended => rfl
    | handed hnext' => cases hnext.symm.trans hnext'
  | handed hnext _ ih =>
    cases h' with
    | ended hnext' => cases hnext.symm.trans hnext'
    | handed hnext' hrest =>
      cases hnext.symm.trans hnext'
      rw [ih hrest]

/-- **What a cursor over rows answers.** Whatever it is asked for, in any order, each reply is the
one that is due after the requests before it. If it is drained at once, it hands out one batch for
each full size and one for what is left: none is empty, only the last may be smaller than the
others, and together they are the rows. -/
theorem replies_eq (rows : List Row) (size : Nat) (requests : List Request) :
    (ofRows rows size).replies requests =
      (requests.mapIdx fun i request => due rows (max size 1) (requests.take i) request) ∧
    ∃ drained, (∀ bs, (ofRows rows size).HandsOut bs ↔ bs = drained) ∧
      drained.length = rows.length ⌈/⌉ max size 1 ∧
      (∀ batch ∈ drained, batch ≠ [] ∧ batch.length ≤ max size 1) ∧
      (∀ batch ∈ drained.dropLast, batch.length = max size 1) ∧
      drained.flatten = rows := by
  have hsize : 0 < max size 1 := by omega
  have hhandsOut := handsOut_batches rows size
  have hstart : reached rows (max size 1) [] = ofRows rows size := by
    simp [reached, ofRows]
  have hreplies : (reached rows (max size 1) []).replies requests =
      requests.mapIdx fun i request => due rows (max size 1) (requests.take i) request :=
    replies_reached hsize [] requests
  rw [hstart] at hreplies
  refine ⟨hreplies, batches size rows, ?_, length_batches size rows, ?_, ?_,
    hhandsOut.flatten hsize⟩
  · intro bs
    constructor
    · intro h
      exact h.unique hhandsOut
    · rintro rfl
      exact hhandsOut
  · intro batch h
    exact ⟨ne_nil_of_mem_batches h, length_le_of_mem_batches h⟩
  · intro batch h
    exact length_of_mem_dropLast_batches h

end RowCursor

end RowFlow
