/-!
# Run ids

A run is named by sixteen random bytes, written as a universally unique identifier of version 4.
-/

namespace RowFlow.RunId

def hex (byte : Nat) : List Char :=
  [Nat.digitChar (byte / 16 % 16), Nat.digitChar (byte % 16)]

/-- The bytes with the version in the upper half of the seventh byte, and the variant in the two
upper bits of the ninth. -/
def marked (bytes : List Nat) : List Nat :=
  bytes.mapIdx fun i byte =>
    if i = 6 then 64 + byte % 16 else if i = 8 then 128 + byte % 64 else byte

/-- Groups of eight, four, four, four and twelve digits. -/
def ofBytes (bytes : List Nat) : String :=
  let digits := (marked bytes).flatMap hex
  let group (start count : Nat) : String := String.ofList ((digits.drop start).take count)
  "-".intercalate [group 0 8, group 8 4, group 12 4, group 16 4, group 20 12]

end RowFlow.RunId
