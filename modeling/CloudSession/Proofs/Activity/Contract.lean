import CloudSession.Proofs.Schedule.Turn

/-!
# Contracts

A contract says what the writes of an activity may change, what is to hold of the world wherever its
task waits, and where a time may turn out not to be representable. Unlike `Activity.Behaves`, it says
nothing about what others do in the meantime, except that they leave alone what the task relies on
while it waits. The rules below follow an activity from its beginning.
-/

namespace CloudSession

/-- What a task promises. -/
structure Contract where
  /-- What one write may change. -/
  write : World → World → Prop := fun _ _ => True
  /-- What holds where the task waits, and still holds when it goes on. -/
  rest : World → Prop := fun _ => True
  /-- Where a time may turn out not to be representable. -/
  fault : World → Prop := fun _ => True

namespace Activity

variable {α β : Type} {me : TaskId} {contract : Contract} {post : α → World → Prop} {world : World}

/-- The task keeps to the contract from this world on, and `post` holds once it is done. -/
def Meets (me : TaskId) (contract : Contract) (post : α → World → Prop) :
    Activity α → World → Prop
  | .done value, world => post value world
  | .fail _, world => contract.fault world
  | .read next, world => (next world).Meets me contract post world
  | .clock next, world => (next world.now).Meets me contract post world
  | .write after next, world => contract.write world after ∧ next.Meets me contract post after
  | .self next, world => (next me).Meets me contract post world
  | .park next, world | .pass next, world | .sleep _ next, world =>
    contract.rest world ∧ ∀ later, contract.rest later → next.Meets me contract post later
  | .wake _ next, world | .abort _ next, world => next.Meets me contract post world
  | .spawn _ next, world => ∀ task, (next task).Meets me contract post world

/-- What holds at the end may be weakened. -/
theorem Meets.mono {strong : α → World → Prop} {activity : Activity α}
    (hpost : ∀ value later, strong value later → post value later)
    (h : activity.Meets me contract strong world) : activity.Meets me contract post world := by
  induction activity generalizing world with
  | done value => exact hpost value world h
  | fail => exact h
  | read next ih => exact ih _ h
  | clock next ih => exact ih _ h
  | write after next ih => exact ⟨h.1, ih h.2⟩
  | self next ih => exact ih me h
  | park next ih => exact ⟨h.1, fun later hlater => ih (h.2 later hlater)⟩
  | pass next ih => exact ⟨h.1, fun later hlater => ih (h.2 later hlater)⟩
  | sleep span next ih => exact ⟨h.1, fun later hlater => ih (h.2 later hlater)⟩
  | wake task next ih => exact ih h
  | spawn job next ih => exact fun task => ih task (h task)
  | abort task next ih => exact ih h

/-- One activity after another meets the contract if the first leads to where the second does. -/
theorem meets_bind {activity : Activity α} {f : α → Activity β} {post : β → World → Prop} :
    (activity >>= f).Meets me contract post world ↔
      activity.Meets me contract (fun value later => (f value).Meets me contract post later)
        world := by
  change (activity.bind f).Meets me contract post world ↔ _
  induction activity generalizing world with
  | done value => exact Iff.rfl
  | fail => exact Iff.rfl
  | read next ih => exact ih _
  | clock next ih => exact ih _
  | write after next ih => exact and_congr_right fun _ => ih
  | self next ih => exact ih me
  | park next ih => exact and_congr_right fun _ => forall₂_congr fun _ _ => ih
  | pass next ih => exact and_congr_right fun _ => forall₂_congr fun _ _ => ih
  | sleep span next ih => exact and_congr_right fun _ => forall₂_congr fun _ _ => ih
  | wake task next ih => exact ih
  | spawn job next ih => exact forall_congr' fun task => ih task
  | abort task next ih => exact ih

/-- A task that is done leads to what it is done with. -/
theorem meets_pure {value : α} :
    (pure value : Activity α).Meets me contract post world ↔ post value world :=
  Iff.rfl

/-- To read the world leads to the world as it is now. -/
theorem meets_world {post : World → World → Prop} :
    Activity.world.Meets me contract post world ↔ post world world :=
  Iff.rfl

/-- To ask for its own name leads a task to its name. -/
theorem meets_me {post : TaskId → World → Prop} :
    Activity.me.Meets me contract post world ↔ post me world :=
  Iff.rfl

/-- A change of the world has to be a write that the contract allows. -/
theorem meets_modify {f : World → World} {post : Unit → World → Prop} :
    (modify f).Meets me contract post world ↔ contract.write world (f world) ∧ post () (f world) :=
  Iff.rfl

/-- A change that has a result has to be a write that the contract allows, and leads to its
result. -/
theorem meets_update {f : World → World × α} :
    (update f).Meets me contract post world ↔
      contract.write world (f world).1 ∧ post (f world).2 (f world).1 :=
  Iff.rfl

/-- A check leads to its value, if there is one; else the contract has to allow the fault. -/
theorem meets_check {outcome : Except Overflow α} :
    (check outcome).Meets me contract post world ↔
      (∀ value, outcome = .ok value → post value world) ∧
        (outcome = .error .overflow → contract.fault world) := by
  cases outcome <;> simp [check, Meets]

/-- Whoever waits relies on what the contract says of a task at rest, before and afterwards. -/
theorem meets_wait {post : Unit → World → Prop} :
    wait.Meets me contract post world ↔
      contract.rest world ∧ ∀ later, contract.rest later → post () later :=
  Iff.rfl

/-- Whoever pauses relies on what the contract says of a task at rest, before and afterwards. -/
theorem meets_pause {span : Span} {post : Unit → World → Prop} :
    (pause span).Meets me contract post world ↔
      contract.rest world ∧ ∀ later, contract.rest later → post () later :=
  Iff.rfl

/-- The contract says nothing about tasks that are woken. -/
theorem meets_notify {task? : Option TaskId} {post : Unit → World → Prop} :
    (notify task?).Meets me contract post world ↔ post () world := by
  cases task? <;> rfl

/-- The contract says nothing about tasks that are stopped. -/
theorem meets_stop {task? : Option TaskId} {post : Unit → World → Prop} :
    (stop task?).Meets me contract post world ↔ post () world := by
  cases task? <;> rfl

/-- Whoever awaits an answer is at rest until it arrives, which has to be a write that is
allowed. -/
theorem meets_await {answer : Underway α} :
    (await answer).Meets me contract post world ↔
      contract.rest world ∧ ∀ later, contract.rest later →
        contract.write later (answer.arrive later).1 ∧
          post (answer.arrive later).2 (answer.arrive later).1 := by
  rw [await, meets_bind, meets_pause]
  rfl

/-- A contract that asks for nothing is met. -/
theorem meets_nothing (me : TaskId) (activity : Activity α) (world : World) :
    activity.Meets me {} (fun _ _ => True) world := by
  induction activity generalizing world with
  | done => trivial
  | fail => trivial
  | read next ih => exact ih _ world
  | clock next ih => exact ih _ world
  | write after next ih => exact ⟨trivial, ih after⟩
  | self next ih => exact ih me world
  | park next ih => exact ⟨trivial, fun later _ => ih later⟩
  | pass next ih => exact ⟨trivial, fun later _ => ih later⟩
  | sleep span next ih => exact ⟨trivial, fun later _ => ih later⟩
  | wake task next ih => exact ih world
  | spawn job next ih => exact fun task => ih task world
  | abort task next ih => exact ih world

end Activity

/-- What holds at the end of a turn in which the task keeps to the contract. -/
def Turn.Meets {α : Type} (me : TaskId) (contract : Contract) (post : α → World → Prop) :
    Turn α → World → Prop
  | .finished value, world => post value world
  | .failed _, world => contract.fault world
  | .waiting rest, world =>
    contract.rest world ∧ ∀ later, contract.rest later → rest.Meets me contract post later

/-- The turn of a task that keeps to a contract. -/
theorem Activity.Meets.turn {α : Type} {me : TaskId} {contract : Contract}
    {post : α → World → Prop} {activity : Activity α} {schedule : Schedule}
    (h : activity.Meets me contract post schedule.world) :
    (schedule.world :: schedule.passed me activity).IsChain contract.write ∧
      (schedule.turn me activity).2.Meets me contract post (schedule.turn me activity).1.world := by
  induction activity generalizing schedule with
  | done => exact ⟨.singleton _, h⟩
  | fail => exact ⟨.singleton _, h⟩
  | read next ih => exact ih _ h
  | clock next ih => exact ih _ h
  | write world next ih =>
    obtain ⟨hchain, hturn⟩ := @ih { schedule with world } h.2
    exact ⟨.cons_cons h.1 hchain, hturn⟩
  | self next ih => exact ih me h
  | park next ih => exact ⟨.singleton _, h⟩
  | pass next ih =>
    refine ⟨.singleton _, ?_⟩
    rw [Schedule.turn, Schedule.wake_world]
    exact h
  | sleep span next ih =>
    by_cases hspan : span = Span.zero
    · simpa only [Schedule.turn, Schedule.passed, if_pos hspan] using ih (h.2 schedule.world h.1)
    · simp only [Schedule.turn, Schedule.passed, if_neg hspan]
      exact ⟨.singleton _, h⟩
  | wake task next ih =>
    have hworld := schedule.wake_world task
    have hnext := @ih (schedule.wake task) (hworld ▸ h)
    rwa [hworld] at hnext
  | spawn job next ih => exact @ih schedule.fresh (schedule.spawn job) (h schedule.fresh)
  | abort task next ih =>
    have hworld := schedule.abort_world task
    have hnext := @ih (schedule.abort task) (hworld ▸ h)
    rwa [hworld] at hnext

end CloudSession
