import CloudSession.World

/-!
# Activities

What a task does: it reads and writes the world, looks at the clock, waits for its turn at a gate or
for time to pass, and starts, wakes or aborts other tasks. Where tasks take turns, no other task runs
between two points at which it waits.
-/

namespace CloudSession

/-- What tasks can be started for. -/
inductive Job where
  /-- A refresh of a token that was advised. -/
  | advisory (manager : ManagerId)
  /-- The start of background refresh. -/
  | background (manager : ManagerId)
  /-- One round of background refresh, once it has waited. -/
  | round (manager : ManagerId)
  deriving DecidableEq, Repr

/-- What is left to do until a value is there. -/
inductive Activity (α : Type) where
  /-- Nothing is left. -/
  | done (value : α)
  /-- A time is not representable. -/
  | fail (fault : Overflow)
  /-- Reads the world. -/
  | read (next : World → Activity α)
  /-- Looks at the clock, and at the world no sooner than that. -/
  | clock (next : Instant → Activity α)
  /-- Writes the world. -/
  | write (world : World) (next : Activity α)
  /-- Learns the name of its own task. -/
  | self (next : TaskId → Activity α)
  /-- Waits until it is woken. -/
  | park (next : Activity α)
  /-- Lets the tasks that can run have their turn first. -/
  | pass (next : Activity α)
  /-- Waits until time has passed. -/
  | sleep (span : Span) (next : Activity α)
  /-- Wakes a task. -/
  | wake (task : TaskId) (next : Activity α)
  /-- Starts a task. -/
  | spawn (job : Job) (next : TaskId → Activity α)
  /-- Aborts a task. -/
  | abort (task : TaskId) (next : Activity α)

namespace Activity

variable {α β : Type}

/-- One activity after another. -/
protected def bind : Activity α → (α → Activity β) → Activity β
  | .done value, f => f value
  | .fail fault, _ => .fail fault
  | .read next, f => .read fun world => (next world).bind f
  | .clock next, f => .clock fun time => (next time).bind f
  | .write world next, f => .write world (next.bind f)
  | .self next, f => .self fun task => (next task).bind f
  | .park next, f => .park (next.bind f)
  | .pass next, f => .pass (next.bind f)
  | .sleep span next, f => .sleep span (next.bind f)
  | .wake task next, f => .wake task (next.bind f)
  | .spawn job next, f => .spawn job fun task => (next task).bind f
  | .abort task next, f => .abort task (next.bind f)

/-- One activity after another. -/
instance : Monad Activity where
  pure := .done
  bind := Activity.bind

/-- The world. -/
def world : Activity World :=
  .read .done

/-- What the clock shows. -/
def now : Activity Instant :=
  .clock .done

/-- The name of the task. -/
def me : Activity TaskId :=
  .self .done

/-- Changes the world. -/
def modify (f : World → World) : Activity Unit :=
  .read fun world => .write (f world) (.done ())

/-- Changes the world and yields a value. -/
def update (f : World → World × α) : Activity α :=
  .read fun world =>
    let (world, value) := f world
    .write world (.done value)

/-- The outcome of a computation with times. -/
def check : Except Overflow α → Activity α
  | .ok value => .done value
  | .error fault => .fail fault

/-- Waits until the task is woken. -/
def wait : Activity Unit :=
  .park (.done ())

/-- Waits until time has passed. -/
def pause (span : Span) : Activity Unit :=
  .sleep span (.done ())

/-- Wakes a task, if one is named. -/
def notify : Option TaskId → Activity Unit
  | none => .done ()
  | some task => .wake task (.done ())

/-- Lets the tasks that can run have their turn first. -/
def yield : Activity Unit :=
  .pass (.done ())

/-- Starts a task. -/
def start (job : Job) : Activity TaskId :=
  .spawn job .done

/-- Aborts a task, if one is named. -/
def stop : Option TaskId → Activity Unit
  | none => .done ()
  | some task => .abort task (.done ())

/-- Waits for an answer. -/
def await (answer : Underway α) : Activity α := do
  pause answer.delay
  update answer.arrive

end Activity

end CloudSession
