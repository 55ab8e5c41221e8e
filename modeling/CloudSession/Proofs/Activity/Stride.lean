import CloudSession.Schedule

/-!
# Strides

Where tasks do not take turns but go on side by side, anything may happen between two of their
strides. A stride is what one task does at once: it goes on until it has written the world or looked
at the clock, or waits, or has come to its end. What it has read since its last stride goes into what
it writes, so a stride stands for one indivisible operation. A look at the clock is an operation of
its own.
-/

namespace CloudSession.Activity

variable {α : Type}

/-- One stride of a task, which begins only where the task does not have to wait. A task that starts
or aborts others stays where it is. -/
def stride (me : TaskId) : Activity α → World → Turn α × World
  | .done value, world => (.finished value, world)
  | .fail fault, world => (.failed fault, world)
  | .read next, world => (next world).stride me world
  | .clock next, world => (.waiting (next world.now), world)
  | .write after next, _ => (.waiting next, after)
  | .self next, world => (next me).stride me world
  | .park next, world => (.waiting next, world)
  | .pass next, world => (.waiting next, world)
  | .sleep _ next, world => (.waiting next, world)
  | .wake _ next, world => next.stride me world
  | .spawn job next, world => (.waiting (.spawn job next), world)
  | .abort task next, world => (.waiting (.abort task next), world)

variable {β : Type}

/-- What comes after an activity that is followed by another is what comes after both. -/
theorem bind_assoc {γ : Type} (activity : Activity α) (f : α → Activity β) (g : β → Activity γ) :
    activity >>= f >>= g = activity >>= fun value => f value >>= g := by
  change (activity.bind f).bind g = activity.bind fun value => (f value).bind g
  induction activity with
  | done => rfl
  | fail => rfl
  | read next ih => exact congrArg Activity.read (funext ih)
  | clock next ih => exact congrArg Activity.clock (funext ih)
  | write world next ih => exact congrArg (Activity.write world) ih
  | self next ih => exact congrArg Activity.self (funext ih)
  | park next ih => exact congrArg Activity.park ih
  | pass next ih => exact congrArg Activity.pass ih
  | sleep span next ih => exact congrArg (Activity.sleep span) ih
  | wake task next ih => exact congrArg (Activity.wake task) ih
  | spawn job next ih => exact congrArg (Activity.spawn job) (funext ih)
  | abort task next ih => exact congrArg (Activity.abort task) ih

/-- A stride in which an activity comes to its end, or breaks down, leaves the world alone. -/
theorem stride_cases (me : TaskId) (activity : Activity α) (world : World) :
    (∃ value, activity.stride me world = (.finished value, world)) ∨
      (∃ fault, activity.stride me world = (.failed fault, world)) ∨
        ∃ rest after, activity.stride me world = (.waiting rest, after) := by
  induction activity generalizing world with
  | done value => exact .inl ⟨value, rfl⟩
  | fail fault => exact .inr (.inl ⟨fault, rfl⟩)
  | read next ih => exact ih _ world
  | self next ih => exact ih me world
  | wake task next ih => exact ih world
  | _ => exact .inr (.inr ⟨_, _, rfl⟩)

/-- If the first activity is done within a stride, the second goes on in the same stride. -/
theorem stride_bind_of_finished {me : TaskId} {activity : Activity α} {world after : World}
    {value : α} (h : activity.stride me world = (.finished value, after)) (f : α → Activity β) :
    (activity >>= f).stride me world = (f value).stride me world := by
  change (activity.bind f).stride me world = _
  induction activity generalizing world with
  | done other =>
    obtain rfl : other = value := Turn.finished.inj (congrArg Prod.fst h)
    rfl
  | read next ih => exact ih _ h
  | self next ih => exact ih me h
  | wake task next ih => exact ih h
  | _ => cases h

/-- If the first activity waits, the second is still to come. -/
theorem stride_bind_of_waiting {me : TaskId} {activity rest : Activity α} {world after : World}
    (h : activity.stride me world = (.waiting rest, after)) (f : α → Activity β) :
    (activity >>= f).stride me world = (.waiting (rest >>= f), after) := by
  change (activity.bind f).stride me world = _
  induction activity generalizing world with
  | done => cases h
  | fail => cases h
  | read next ih => exact ih _ h
  | self next ih => exact ih me h
  | wake task next ih => exact ih h
  | _ =>
    cases h
    rfl

/-- If the first activity fails, the second never comes. -/
theorem stride_bind_of_failed {me : TaskId} {activity : Activity α} {world after : World}
    {fault : Overflow} (h : activity.stride me world = (.failed fault, after))
    (f : α → Activity β) : (activity >>= f).stride me world = (.failed fault, after) := by
  change (activity.bind f).stride me world = _
  induction activity generalizing world with
  | fail => cases h; rfl
  | read next ih => exact ih _ h
  | self next ih => exact ih me h
  | wake task next ih => exact ih h
  | _ => cases h

end CloudSession.Activity
