import RowFlow.Definition

/-!
# Schedulers

A scheduler is handed the schedules of the pipelines. It may refuse some; those it takes it keeps
until one of the same pipeline and name takes their place.
-/

namespace RowFlow

structure Scheduler where
  /-- The schedules that are kept, with the keys of their pipelines. -/
  entries : List (String × Schedule) := []
  /-- Why a schedule is refused, if it is, next to those that are kept. -/
  refusal : List (String × Schedule) → String → Schedule → Option String := fun _ _ _ => none

namespace Scheduler

def schedule (s : Scheduler) (key : String) (schedule : Schedule) : Except String Scheduler :=
  match s.refusal s.entries key schedule with
  | some message => .error message
  | none =>
    let others := s.entries.filter fun (k, other) => !(k = key && other.name = schedule.name)
    .ok { s with entries := others ++ [(key, schedule)] }

/-- The first schedule of a name, of any pipeline. -/
def find? (s : Scheduler) (name : String) : Option (String × Schedule) :=
  s.entries.find? fun (_, schedule) => schedule.name = name

end Scheduler

end RowFlow
