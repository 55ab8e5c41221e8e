import CloudSession.Proofs.Interplay.Operation
import CloudSession.Proofs.Schedule.Turn

/-!
# Runs

Any number of callers and tasks take turns in any order, time passes, and the parties outside do as
they like. An `Interplay` is what a run has come to: the schedule, the callers with what each has
seen since it began, and the story of all moments so far.
-/

namespace CloudSession

/-- A moment of a run: the world, and the caller that has made it so; none, if that came from
outside. -/
structure Moment where
  world : World
  actor : Option RefreshCall := none

/-- The moment in which a caller, or the outside, has made the world so. -/
def Moment.made (actor : Option RefreshCall) (world : World) : Moment := { world, actor }

/-- A caller of an operation. -/
structure Client where
  task : TaskId
  operation : Operation
  state : Turn Reply
  /-- The world in which it began. -/
  start : World
  /-- How many moments were before the one in which it began. -/
  began : Nat
  /-- What it has seen since it began, until it came to its end. -/
  history : History

namespace Client

/-- How the caller calls at the gate of a token manager. -/
def call (client : Client) : RefreshCall := client.operation.call client.task

/-- How many moments were before the one in which it came to its end, or before the present one. -/
def ended (client : Client) : Nat := client.began + client.history.before.length

/-- The caller sees the world change, unless it has come to its end. -/
def watch (client : Client) (worlds : List World) : Client :=
  match client.state with
  | .waiting _ => { client with history := client.history.follow worlds }
  | _ => client

end Client

/-- What a run has come to. -/
structure Interplay where
  schedule : Schedule
  clients : List Client := []
  /-- The moments of the run, the present one last. -/
  story : List Moment

namespace Interplay

/-- A run that begins. -/
def start (world : World) : Interplay where
  schedule := { world }
  story := [{ world }]

/-- The world changes. -/
def pass (interplay : Interplay) (actor : Option RefreshCall) (worlds : List World)
    (schedule : Schedule) : Interplay where
  schedule
  clients := interplay.clients.map (·.watch worlds)
  story := interplay.story ++ worlds.map (Moment.made actor)

/-- A caller that is at some activity has its turn. -/
def act (interplay : Interplay) (client : Client) (rest : Activity Reply) : Interplay :=
  let (schedule, state) := interplay.schedule.turn client.task rest
  let passed :=
    interplay.pass client.call (interplay.schedule.passed client.task rest) schedule
  { passed with
    clients := passed.clients.map fun other =>
      if other.task = client.task then { other with state } else other }

/-- A caller that can run has its turn. -/
def turnOfClient (interplay : Interplay) (client : Client) (rest : Activity Reply) : Interplay :=
  { interplay with schedule := interplay.schedule.resume client.task }.act client rest

/-- A task that can run has its turn. -/
def turnOfTask (interplay : Interplay) (task : Task) : Interplay :=
  let resumed := interplay.schedule.resume task.id
  interplay.pass (task.job.call task.id) (resumed.passedOfTask task) (resumed.turnOfTask task)

/-- Time passes. -/
def elapse (interplay : Interplay) (elapsed : Span) : Interplay :=
  interplay.pass none [{ interplay.schedule.world with elapsed }]
    (interplay.schedule.elapse elapsed)

/-- The parties outside change the world. -/
def disturb (interplay : Interplay) (world : World) : Interplay :=
  interplay.pass none [world] { interplay.schedule with world }

/-- Somebody asks for an operation and has the first turn at once. -/
def call (interplay : Interplay) (operation : Operation) : Interplay :=
  let client : Client :=
    { task := interplay.schedule.fresh
      operation
      state := .waiting operation.activity
      start := interplay.schedule.world
      began := interplay.story.length - 1
      history := { now := interplay.schedule.world } }
  { interplay with
    schedule := { interplay.schedule with fresh := interplay.schedule.fresh + 1 }
    clients := interplay.clients ++ [client] }.act client operation.activity

/-- A caller is dropped. -/
def drop (interplay : Interplay) (client : Client) : Interplay :=
  let resumed := interplay.schedule.resume client.task
  let released :=
    release interplay.schedule.world.managers.length interplay.schedule.world.caches.length
  let passed :=
    interplay.pass client.call (resumed.passed client.task released)
      ((resumed.turn client.task released).1.remove client.task)
  { passed with clients := passed.clients.filter (·.task ≠ client.task) }

/-- What can happen next. -/
inductive Step : Interplay → Interplay → Prop
  | turnOfClient {interplay : Interplay} {client : Client} {rest : Activity Reply} :
      client ∈ interplay.clients → client.state = .waiting rest →
      client.task ∈ interplay.schedule.ready → Step interplay (interplay.turnOfClient client rest)
  | turnOfTask {interplay : Interplay} {task : Task} : task ∈ interplay.schedule.tasks →
      task.id ∈ interplay.schedule.ready → Step interplay (interplay.turnOfTask task)
  | elapse {interplay : Interplay} {elapsed : Span} :
      interplay.schedule.world.elapsed.nanos ≤ elapsed.nanos →
      Step interplay (interplay.elapse elapsed)
  | disturb {interplay : Interplay} {world : World} : interplay.schedule.world.Outside world →
      world.elapsed = interplay.schedule.world.elapsed → Step interplay (interplay.disturb world)
  | call {interplay : Interplay} {operation : Operation} :
      operation.Fits interplay.schedule.world → Step interplay (interplay.call operation)
  /-- A caller that has not come to its end, or has failed. -/
  | drop {interplay : Interplay} {client : Client} : client ∈ interplay.clients →
      (∀ reply, client.state ≠ .finished reply) → Step interplay (interplay.drop client)

/-- What can come of a run. -/
inductive Runs : Interplay → Interplay → Prop
  | refl (interplay : Interplay) : Runs interplay interplay
  | step {first last next : Interplay} : Runs first last → Step last next → Runs first next

/-- The caller with this name has its turn, if it waits for one. -/
def giveTurn (interplay : Interplay) (task : TaskId) : Interplay :=
  match interplay.clients.find? (·.task = task) with
  | none => interplay
  | some client =>
    match client.state with
    | .waiting rest => interplay.turnOfClient client rest
    | _ => interplay

/-- A run may go on with the turn of a caller. -/
theorem Runs.giveTurn {first last : Interplay} {task : TaskId} (runs : Runs first last)
    (hready : task ∈ last.schedule.ready) : Runs first (last.giveTurn task) := by
  unfold Interplay.giveTurn
  split
  · exact runs
  · next client hfound =>
    have htask : client.task = task := by simpa using List.find?_some hfound
    split
    · next rest hstate =>
      exact runs.step (.turnOfClient (List.mem_of_find?_eq_some hfound) hstate (htask ▸ hready))
    · exact runs

/-- The task with this name has its turn, if there is one. -/
def giveTaskTurn (interplay : Interplay) (id : TaskId) : Interplay :=
  match interplay.schedule.tasks.find? (·.id = id) with
  | none => interplay
  | some task => interplay.turnOfTask task

/-- A run may go on with the turn of a task. -/
theorem Runs.giveTaskTurn {first last : Interplay} {id : TaskId} (runs : Runs first last)
    (hready : id ∈ last.schedule.ready) : Runs first (last.giveTaskTurn id) := by
  unfold Interplay.giveTaskTurn
  split
  · exact runs
  · next task hfound =>
    have hid : task.id = id := by simpa using List.find?_some hfound
    exact runs.step (.turnOfTask (List.mem_of_find?_eq_some hfound) (hid ▸ hready))

end Interplay

/-- A world in which nobody has used a token manager or a cache yet. -/
structure World.Untouched (world : World) : Prop where
  managers : ∀ entry ∈ world.managers,
    entry.manager = { policy := entry.manager.policy } ∧ entry.followers = 0
  caches : ∀ cache ∈ world.caches, cache = {}

/-- A world with one manager, whose token source gives these answers in turn, and one cache. -/
def World.solo (policy : RefreshPolicy) (answers : List IssuerAnswer) : World where
  issuers := [{ answers }]
  managers := [{ manager := { policy }, issuer := .scripted 0 }]
  caches := [{}]

/-- The world with a single manager is untouched. -/
theorem World.untouched_solo (policy : RefreshPolicy) (answers : List IssuerAnswer) :
    (World.solo policy answers).Untouched where
  managers := by simp [World.solo]
  caches := by simp [World.solo]

/-- What some run from an untouched world comes to. -/
def Interplay.Reachable (interplay : Interplay) : Prop :=
  ∃ world : World, world.Untouched ∧ (Interplay.start world).Runs interplay

end CloudSession
