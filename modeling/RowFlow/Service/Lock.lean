import RowFlow.Dict

/-!
# Locks

A lock is held until a point in time, which its holder may move when it is done. Points in time are
counted in nanoseconds on a clock that never goes back.
-/

namespace RowFlow

/-- Until when each lock is held. A lock that is not listed is free. -/
structure Locks where
  heldUntil : Dict Nat := []
deriving Repr

namespace Locks

def isHeld (locks : Locks) (name : String) (now : Nat) : Bool :=
  match locks.heldUntil.find? name with
  | some limit => now < limit
  | none => false

def hold (locks : Locks) (name : String) (limit : Nat) : Locks :=
  ⟨locks.heldUntil.insert name limit⟩

/-- Takes a free lock for so long; answers whether it was free. -/
def tryLock (locks : Locks) (name : String) (now duration : Nat) : Bool × Locks :=
  if locks.isHeld name now then (false, locks) else (true, locks.hold name (now + duration))

/-- Sets a lock free, at a later time if that is given. -/
def unlock (locks : Locks) (name : String) (now holdUntil : Nat) : Locks :=
  if now < holdUntil then locks.hold name holdUntil else ⟨locks.heldUntil.erase name⟩

/-- The nanoseconds of so many seconds. -/
def seconds (n : Nat) : Nat := n * 1000000000

end Locks

end RowFlow
