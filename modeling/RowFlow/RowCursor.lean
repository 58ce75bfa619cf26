import RowFlow.Component

/-!
# Cursors over rows in memory

A cursor hands out its rows in batches of one size, the last of which may be smaller, and then keeps
answering that there are no more. A closed cursor has nothing left and refuses to be read.
-/

namespace RowFlow

structure RowCursor where
  rows : List Row
  size : Nat
  closed : Bool := false
deriving Repr

namespace RowCursor

/-- A batch size of zero counts as one. -/
def ofRows (rows : List Row) (batchSize : Nat) : RowCursor := ⟨rows, max batchSize 1, false⟩

/-- The next batch, or nothing at the end. -/
def next (c : RowCursor) : Except AdapterError (Option (List Row) × RowCursor) :=
  if c.closed then .error (.other "cursor already closed")
  else match c.rows.take c.size with
    | [] => .ok (none, c)
    | batch => .ok (some batch, { c with rows := c.rows.drop c.size })

def close (c : RowCursor) : RowCursor := { c with rows := [], closed := true }

end RowCursor

/-- Cuts a list into batches of a size, where zero counts as one. -/
def batches (size : Nat) : List α → List (List α)
  | [] => []
  | x :: xs =>
    (x :: xs).take (max size 1) :: batches size ((x :: xs).drop (max size 1))
termination_by xs => xs.length
decreasing_by simp only [List.length_drop, List.length_cons]; omega

end RowFlow
