import RowFlow.Definition
import RowFlow.Source

/-!
# Instructions

A component is given its instruction as text. It either takes the text as it is or has it parsed
in the format of the definition. No instruction counts as null.
-/

namespace RowFlow

/-- How a component wants its instruction. -/
inductive InstructionKind where
  | structured
  | text
deriving DecidableEq, Repr

/-- What a component's instruction is read from. -/
def instructionSource (kind : InstructionKind) (text : Option String)
    (format : InstructionFormat) : Except ReadError Source :=
  match text, kind, format with
  | none, _, _ => .ok (.json .null)
  | some text, .text, _ => .ok (.json (.text text))
  | some text, .structured, .json => Source.ofJson text
  | some text, .structured, .yaml => Source.ofYaml text

/-- The instruction of a component, in the component's own type. -/
def readInstruction (kind : InstructionKind) (read : Decoder α) (text : Option String)
    (format : InstructionFormat) : Except ReadError α :=
  (instructionSource kind text format).bind read

end RowFlow
