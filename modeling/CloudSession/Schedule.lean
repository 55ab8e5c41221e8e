import CloudSession.TokenManager.Refresh

/-!
# Schedules

Tasks take turns: a task that can run does so until it waits or is done, and then the next one has
its turn, in the order in which they became able to run. The main caller comes after all other tasks.
When no task can run, time passes until the next one has waited long enough.
-/

namespace CloudSession

/-- Why a call does not come to an end. -/
inductive Halt where
  /-- A time is not representable. -/
  | overflow
  /-- Nothing is left that could happen, or too much has. -/
  | stalled
  deriving DecidableEq, Repr

/-- A task that was started for a job. -/
structure Task where
  id : TaskId
  job : Job
  /-- What is left to do, and then the job with which the task goes on. -/
  rest : Activity (Option Job)
  aborted : Bool := false

/-- A task that sleeps. -/
structure Timer where
  /-- How much time will have passed when it wakes. -/
  due : Span
  task : TaskId
  deriving DecidableEq, Repr

/-- The world and the tasks in it. -/
structure Schedule where
  world : World
  tasks : List Task := []
  /-- The tasks that can run, in order. -/
  ready : List TaskId := []
  /-- The tasks that sleep, in the order in which they went to sleep. -/
  timers : List Timer := []
  /-- The name of the next task to be started. -/
  fresh : TaskId := 1

/-- The name of the main caller. -/
def mainTask : TaskId := 0

/-- How the turn of a task ends. -/
inductive Turn (α : Type) where
  | finished (value : α)
  | failed (fault : Overflow)
  | waiting (rest : Activity α)

namespace Schedule

variable {α : Type}

/-- A task can run from now on. -/
def wake (schedule : Schedule) (task : TaskId) : Schedule :=
  if schedule.ready.contains task then schedule
  else { schedule with ready := schedule.ready ++ [task] }

/-- Starts a task. -/
def spawn (schedule : Schedule) (job : Job) : Schedule :=
  let id := schedule.fresh
  { schedule with
    tasks := schedule.tasks ++ [{ id, job, rest := job.activity }]
    ready := schedule.ready ++ [id]
    fresh := id + 1 }

/-- Aborts a task: it breaks off when it has its next turn, which is soon. -/
def abort (schedule : Schedule) (id : TaskId) : Schedule :=
  if schedule.tasks.any (·.id = id) then
    let tasks := schedule.tasks.map fun task =>
      if task.id = id then { task with aborted := true } else task
    { schedule with tasks }.wake id
  else
    schedule

/-- The turn of a task that is at some activity. -/
def turn (me : TaskId) : Activity α → Schedule → Schedule × Turn α
  | .done value, schedule => (schedule, .finished value)
  | .fail fault, schedule => (schedule, .failed fault)
  | .read next, schedule => turn me (next schedule.world) schedule
  | .clock next, schedule => turn me (next schedule.world.now) schedule
  | .write world next, schedule => turn me next { schedule with world }
  | .self next, schedule => turn me (next me) schedule
  | .park next, schedule => (schedule, .waiting next)
  | .pass next, schedule => (schedule.wake me, .waiting next)
  | .sleep span next, schedule =>
    if span = Span.zero then
      turn me next schedule
    else
      let due : Span := ⟨schedule.world.elapsed.nanos + span.nanos⟩
      ({ schedule with timers := schedule.timers ++ [{ due, task := me }] }, .waiting next)
  | .wake task next, schedule => turn me next (schedule.wake task)
  | .spawn job next, schedule => turn me (next schedule.fresh) (schedule.spawn job)
  | .abort task next, schedule => turn me next (schedule.abort task)

/-- A task is no more. -/
def remove (schedule : Schedule) (id : TaskId) : Schedule :=
  { schedule with
    tasks := schedule.tasks.filter (·.id ≠ id)
    ready := schedule.ready.filter (· ≠ id)
    timers := schedule.timers.filter (·.task ≠ id) }

/-- A task breaks off. -/
def breakOff (schedule : Schedule) (task : Task) : Schedule :=
  (turn task.id task.job.cleanUp schedule).1.remove task.id

/-- A task is at `rest` from now on. -/
def resumeAt (schedule : Schedule) (id : TaskId) (rest : Activity (Option Job)) : Schedule :=
  { schedule with
    tasks := schedule.tasks.map fun task => if task.id = id then { task with rest } else task }

/-- The turn of a task that was started for a job. A task that goes on with another job does so before
the others have their turn. -/
def turnOfTask (schedule : Schedule) (task : Task) : Schedule :=
  if task.aborted then
    schedule.breakOff task
  else
    match turn task.id task.rest schedule with
    | (next, .waiting rest) => next.resumeAt task.id rest
    | (next, .failed _) => next.breakOff task
    | (next, .finished none) => next.remove task.id
    | (next, .finished (some job)) =>
      let continued := next.resumeAt task.id job.activity
      { continued with ready := task.id :: continued.ready }

/-- A task gets its turn: it no longer waits for one, and it does not sleep. -/
def resume (schedule : Schedule) (id : TaskId) : Schedule :=
  { schedule with
    ready := schedule.ready.filter (· ≠ id)
    timers := schedule.timers.filter (·.task ≠ id) }

/-- The task that has the next turn: the first that can run, the main caller last. -/
def next? (schedule : Schedule) : Option (TaskId × Schedule) :=
  let id? := schedule.ready.find? (· ≠ mainTask) <|> schedule.ready.head?
  id?.map fun id => (id, schedule.resume id)

/-- When the first of the sleeping tasks wakes. -/
def nextDue? (schedule : Schedule) : Option Span :=
  schedule.timers.foldl
    (fun first timer =>
      match first with
      | none => some timer.due
      | some due => if timer.due.nanos < due.nanos then some timer.due else first)
    none

/-- Time has passed, and the tasks that have slept long enough wake. -/
def elapse (schedule : Schedule) (elapsed : Span) : Schedule :=
  let due := schedule.timers.filter (·.due.nanos ≤ elapsed.nanos)
  let later := schedule.timers.filter (elapsed.nanos < ·.due.nanos)
  let passed := { schedule with world := { schedule.world with elapsed }, timers := later }
  due.foldl (fun schedule timer => schedule.wake timer.task) passed

/-- A caller is dropped: it lets go of what it holds, and whoever is let in by that can run. -/
def release (schedule : Schedule) (task : TaskId) : Schedule :=
  let world := schedule.world.release task
  let letIn := (schedule.world.insiders.zip world.insiders).filterMap fun (before, now) =>
    if now = before then none else now
  letIn.foldl wake { schedule with world }

/-- A caller and how far it is. -/
structure Caller (α : Type) where
  task : TaskId
  state : Turn α

/-- The turn of a task, which is a caller or was started for a job. A caller that breaks down is
dropped. -/
def give (schedule : Schedule) (callers : List (Caller α)) (id : TaskId) :
    Schedule × List (Caller α) :=
  match callers.find? (·.task = id) with
  | some { state := .waiting rest, .. } =>
    let (next, state) := turn id rest schedule
    let next :=
      match state with
      | .failed _ => next.release id
      | _ => next
    (next, callers.map fun caller => if caller.task = id then { caller with state } else caller)
  | some _ => (schedule, callers)
  | none =>
    match schedule.tasks.find? (·.id = id) with
    | some task => (schedule.turnOfTask task, callers)
    | none => (schedule, callers)

/-- Gives turns to tasks, and lets time pass where no task can run, until `enough` holds, or time would
pass beyond the horizon, or nothing is left that could happen. The number bounds the turns. -/
def run (enough : Schedule → List (Caller α) → Bool) (horizon : Option Span) :
    Nat → Schedule → List (Caller α) → Schedule × List (Caller α)
  | 0, schedule, callers => (schedule, callers)
  | turns + 1, schedule, callers =>
    if enough schedule callers then
      (schedule, callers)
    else
      match schedule.next? with
      | some (id, rest) =>
        let (next, callers) := rest.give callers id
        run enough horizon turns next callers
      | none =>
        match schedule.nextDue? with
        | none => (schedule, callers)
        | some due =>
          if horizon.all (due.nanos ≤ ·.nanos) then
            run enough horizon turns (schedule.elapse due) callers
          else
            (schedule, callers)

/-- How many turns one call may take. -/
def patience : Nat := 1000000

/-- Whether a task is able to run. -/
def isBusy (schedule : Schedule) : Bool :=
  !schedule.ready.isEmpty

/-- The result of a caller. -/
def Caller.result (caller : Caller α) : Except Halt α :=
  match caller.state with
  | .finished value => .ok value
  | .failed _ => .error .overflow
  | .waiting _ => .error .stalled

/-- Whether a caller has not come to its end. -/
def Caller.isWaiting (caller : Caller α) : Bool :=
  match caller.state with
  | .waiting _ => true
  | _ => false

/-- Carries out an activity for the main caller. The other tasks have their turns while it waits. -/
def call (schedule : Schedule) (activity : Activity α) : Schedule × Except Halt α :=
  let (schedule, state) := turn mainTask activity schedule
  let (schedule, callers) :=
    run (fun _ callers => !callers.any Caller.isWaiting) none patience schedule
      [{ task := mainTask, state }]
  (schedule, (callers.head?.map Caller.result).getD (.error .stalled))

/-- Carries out an activity for several callers at once, each as a task of its own. Each has its own
result once all have come to their ends; as long as one of them waits, there is none. -/
def callTogether (schedule : Schedule) (activity : Activity α) (count : Nat) :
    Schedule × Except Halt (List (Except Halt α)) :=
  let ids := (List.range count).map (schedule.fresh + ·)
  let started :=
    { schedule with ready := schedule.ready ++ ids, fresh := schedule.fresh + count }
  let (schedule, callers) :=
    run (fun schedule callers => !schedule.isBusy && !callers.any Caller.isWaiting) none patience
      started (ids.map fun task => { task, state := .waiting activity })
  (schedule, if callers.any Caller.isWaiting then .error .stalled else .ok (callers.map Caller.result))

/-- The tasks have their turns until none can run; no time passes. -/
def settle (schedule : Schedule) : Schedule :=
  (run (α := Unit) (fun schedule _ => !schedule.isBusy) none patience schedule []).1

/-- Time passes, and the tasks that have slept long enough have their turns on the way. -/
def sleep (schedule : Schedule) (span : Span) : Schedule :=
  if span = Span.zero then
    schedule
  else
    let stop : Span := ⟨schedule.world.elapsed.nanos + span.nanos⟩
    ((run (α := Unit) (fun _ _ => false) (some stop) patience schedule []).1).elapse stop

end Schedule

end CloudSession
