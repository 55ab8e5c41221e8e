/-!
# Gates

A gate admits one caller at a time. Callers that have to wait are admitted in the order in which they
arrived, and a caller that leaves hands the gate to the first of them.
-/

namespace CloudSession

/-- The name of a task. -/
abbrev TaskId := Nat

/-- A gate: the caller that is inside, and those that wait. -/
structure Gate (α : Type) where
  holder : Option α := none
  queue : List α := []
  deriving Repr

namespace Gate

variable {α : Type}

/-- Everyone at the gate, the one inside first. -/
def callers (gate : Gate α) : List α :=
  gate.holder.toList ++ gate.queue

/-- A caller arrives: it is admitted if nobody is inside, else it waits behind the others. -/
def arrive (gate : Gate α) (caller : α) : Gate α :=
  match gate.holder with
  | none => { gate with holder := some caller }
  | some _ => { gate with queue := gate.queue ++ [caller] }

/-- The gate after the one inside has left it to the first that waits. -/
def handOver (gate : Gate α) : Gate α :=
  match gate.queue with
  | [] => { gate with holder := none }
  | next :: rest => { holder := some next, queue := rest }

variable [DecidableEq α]

/-- A caller goes away, from inside or from among those that wait. -/
def leave (gate : Gate α) (caller : α) : Gate α :=
  if gate.holder = some caller then gate.handOver
  else { gate with queue := gate.queue.erase caller }

end Gate

end CloudSession
