import CloudSession.Activity
import CloudSession.Proofs.World.Deed

/-!
# Well-behaved activities

`Activity.Behaves` says that a task which is at some activity does nothing to the world but deeds,
goes to sleep only when it waits at no gate, wakes only others that have been let in at one, and
that `post` holds once the activity is done. Between its turns, anything may happen elsewhere; while
it waits at a gate, it has its next turn only when it has been let in. The rules below follow an
activity from its beginning.
-/

namespace CloudSession

/-- The world, and the worlds that were since a task began, the last first. -/
structure History where
  now : World
  before : List World := []

namespace History

/-- The worlds that a task has seen, the present one first. -/
def seen (history : History) : List World := history.now :: history.before

/-- The world has changed. -/
def after (history : History) (world : World) : History := ⟨world, history.seen⟩

/-- A task has seen the present world. -/
theorem now_mem_seen (history : History) : history.now ∈ history.seen := List.mem_cons_self

/-- What a task has seen stays seen when the world changes. -/
theorem seen_subset_after (history : History) (world : World) :
    history.seen ⊆ (history.after world).seen :=
  fun _ h => List.mem_cons_of_mem _ h

/-- Things have happened elsewhere. -/
inductive Grows (task : TaskId) : History → History → Prop
  | refl (history : History) : Grows task history history
  | step {history later : History} {world : World} : Grows task history later →
      later.now.Elsewhere task world → Grows task history (later.after world)

namespace Grows

variable {task : TaskId} {history later last : History}

/-- Things that happen elsewhere one after another happen elsewhere. -/
theorem trans (first : Grows task history later) (second : Grows task later last) :
    Grows task history last := by
  induction second with
  | refl => exact first
  | step _ elsewhere ih => exact .step ih elsewhere

/-- What does not change through a single event elsewhere does not change at all. -/
theorem stable {P : World → Prop} (grows : Grows task history later)
    (hstep : ∀ world after : World, world.Elsewhere task after → P world → P after)
    (h : P history.now) : P later.now := by
  induction grows with
  | refl => exact h
  | step _ elsewhere ih => exact hstep _ _ elsewhere ih

/-- What a task has seen stays seen when things happen elsewhere. -/
theorem seen_subset (grows : Grows task history later) : history.seen ⊆ later.seen := by
  induction grows with
  | refl => exact fun _ h => h
  | step _ _ ih => exact fun _ h => List.mem_cons_of_mem _ (ih h)

end Grows

end History

/-- The token manager for which a task is started. -/
def Job.manager : Job → ManagerId
  | .advisory id | .background id | .round id => id

/-- What the task of a job wants at the gate of its token manager. -/
def Job.purpose : Job → Purpose
  | .advisory _ => .followAdvice
  | .background _ | .round _ => .renew

namespace Activity

variable {α β : Type} {me : RefreshCall} {post : α → History → Prop} {history : History}

/-- A task at this activity only does deeds, and `post` holds at the end. -/
def Behaves (me : RefreshCall) (post : α → History → Prop) : Activity α → History → Prop
  | .done value, history => post value history
  | .fail _, _ => True
  | .read next, history => (next history.now).Behaves me post history
  | .clock next, history => (next history.now.now).Behaves me post history
  | .write world next, history =>
    history.now.Deed me world ∧ next.Behaves me post (history.after world)
  | .self next, history => (next me.task).Behaves me post history
  | .park next, history =>
    ∀ later, history.Grows me.task later → ¬ later.now.IsWaiting me.task →
      next.Behaves me post later
  | .pass next, history | .sleep _ next, history =>
    ¬ history.now.IsWaiting me.task ∧
      ∀ later, history.Grows me.task later → next.Behaves me post later
  | .wake task next, history =>
    (task ≠ me.task ∧ history.now.IsCaller task ∧ ¬ history.now.IsWaiting task) ∧
      next.Behaves me post history
  | .spawn job next, history =>
    job.manager < history.now.managers.length ∧ ∀ task, (next task).Behaves me post history
  | .abort _ next, history => next.Behaves me post history

/-- What holds at the end may be weakened. -/
theorem Behaves.mono {strong : α → History → Prop}
    (hpost : ∀ value later, strong value later → post value later) {activity : Activity α} :
    activity.Behaves me strong history → activity.Behaves me post history := by
  induction activity generalizing history with
  | done value => exact hpost value history
  | fail => exact id
  | read next ih => exact ih _
  | clock next ih => exact ih _
  | write world next ih => exact fun h => ⟨h.1, ih h.2⟩
  | self next ih => exact ih _
  | park next ih => exact fun h later grows hadmitted => ih (h later grows hadmitted)
  | pass next ih => exact fun h => ⟨h.1, fun later grows => ih (h.2 later grows)⟩
  | sleep span next ih => exact fun h => ⟨h.1, fun later grows => ih (h.2 later grows)⟩
  | wake task next ih => exact fun h => ⟨h.1, ih h.2⟩
  | spawn job next ih => exact fun h => ⟨h.1, fun task => ih task (h.2 task)⟩
  | abort task next ih => exact ih

/-- What a task has seen stays what it has seen. -/
theorem Behaves.remembers {earlier : List World} {activity : Activity α}
    (hearlier : earlier ⊆ history.seen) :
    activity.Behaves me post history →
      activity.Behaves me (fun value later => post value later ∧ earlier ⊆ later.seen) history := by
  induction activity generalizing history with
  | done value => exact fun h => ⟨h, hearlier⟩
  | fail => exact id
  | read next ih => exact ih _ hearlier
  | clock next ih => exact ih _ hearlier
  | write world next ih =>
    exact fun h => ⟨h.1, ih (List.Subset.trans hearlier (history.seen_subset_after world)) h.2⟩
  | self next ih => exact ih _ hearlier
  | park next ih =>
    exact fun h later grows hadmitted =>
      ih (List.Subset.trans hearlier grows.seen_subset) (h later grows hadmitted)
  | pass next ih =>
    exact fun h => ⟨h.1, fun later grows =>
      ih (List.Subset.trans hearlier grows.seen_subset) (h.2 later grows)⟩
  | sleep span next ih =>
    exact fun h => ⟨h.1, fun later grows =>
      ih (List.Subset.trans hearlier grows.seen_subset) (h.2 later grows)⟩
  | wake task next ih => exact fun h => ⟨h.1, ih hearlier h.2⟩
  | spawn job next ih => exact fun h => ⟨h.1, fun task => ih task hearlier (h.2 task)⟩
  | abort task next ih => exact ih hearlier

/-- One activity after another behaves if the first leads to where the second behaves. -/
theorem behaves_bind {activity : Activity α} {f : α → Activity β} {post : β → History → Prop} :
    (activity >>= f).Behaves me post history ↔
      activity.Behaves me (fun value later => (f value).Behaves me post later) history := by
  change (activity.bind f).Behaves me post history ↔ _
  induction activity generalizing history with
  | done value => exact Iff.rfl
  | fail => exact Iff.rfl
  | read next ih => exact ih _
  | clock next ih => exact ih _
  | write world next ih => exact and_congr_right fun _ => ih
  | self next ih => exact ih _
  | park next ih => exact forall_congr' fun _ => forall_congr' fun _ => forall_congr' fun _ => ih
  | pass next ih => exact and_congr_right fun _ => forall_congr' fun _ => forall_congr' fun _ => ih
  | sleep span next ih =>
    exact and_congr_right fun _ => forall_congr' fun _ => forall_congr' fun _ => ih
  | wake task next ih => exact and_congr_right fun _ => ih
  | spawn job next ih => exact and_congr_right fun _ => forall_congr' fun task => ih task
  | abort task next ih => exact ih

/-- A task that is done leads to what it is done with. -/
theorem behaves_pure {value : α} :
    (pure value : Activity α).Behaves me post history ↔ post value history :=
  Iff.rfl

/-- What comes of a mapped activity is what comes of the activity, mapped. -/
theorem behaves_map {activity : Activity α} {f : α → β} {post : β → History → Prop} :
    (f <$> activity).Behaves me post history ↔
      activity.Behaves me (fun value later => post (f value) later) history :=
  behaves_bind

/-- To read the world leads to the world as it is now. -/
theorem behaves_world {post : World → History → Prop} :
    world.Behaves me post history ↔ post history.now history :=
  Iff.rfl

/-- To ask for its own name leads a task to its name. -/
theorem behaves_me {post : TaskId → History → Prop} :
    Activity.me.Behaves me post history ↔ post me.task history :=
  Iff.rfl

/-- A change of the world has to be a deed. -/
theorem behaves_modify {f : World → World} {post : Unit → History → Prop} :
    (modify f).Behaves me post history ↔
      history.now.Deed me (f history.now) ∧ post () (history.after (f history.now)) :=
  Iff.rfl

/-- A change of the world that has a result has to be a deed, and leads to its result. -/
theorem behaves_update {f : World → World × α} :
    (update f).Behaves me post history ↔
      history.now.Deed me (f history.now).1 ∧
        post (f history.now).2 (history.after (f history.now).1) :=
  Iff.rfl

/-- A check leads to its value, if there is one; a fault leads to nothing. -/
theorem behaves_check {outcome : Except Overflow α} :
    (check outcome).Behaves me post history ↔ ∀ value, outcome = .ok value → post value history := by
  cases outcome <;> simp [check, Behaves]

/-- Whoever waits goes on some time later, once let in. -/
theorem behaves_wait {post : Unit → History → Prop} :
    wait.Behaves me post history ↔
      ∀ later, history.Grows me.task later → ¬ later.now.IsWaiting me.task → post () later :=
  Iff.rfl

/-- Whoever pauses must not wait at a gate, and goes on some time later. -/
theorem behaves_pause {span : Span} {post : Unit → History → Prop} :
    (pause span).Behaves me post history ↔
      ¬ history.now.IsWaiting me.task ∧ ∀ later, history.Grows me.task later → post () later :=
  Iff.rfl

/-- Whoever yields must not wait at a gate, and goes on some time later. -/
theorem behaves_yield {post : Unit → History → Prop} :
    yield.Behaves me post history ↔
      ¬ history.now.IsWaiting me.task ∧ ∀ later, history.Grows me.task later → post () later :=
  Iff.rfl

/-- Whoever wakes a task wakes another one, which is a caller and has been let in. -/
theorem behaves_notify {task? : Option TaskId} {post : Unit → History → Prop} :
    (notify task?).Behaves me post history ↔
      (∀ task, task? = some task →
        task ≠ me.task ∧ history.now.IsCaller task ∧ ¬ history.now.IsWaiting task) ∧
        post () history := by
  cases task? <;> simp [notify, Behaves]

/-- A task is started only for a manager that exists, under whatever name. -/
theorem behaves_start {job : Job} {post : TaskId → History → Prop} :
    (start job).Behaves me post history ↔
      job.manager < history.now.managers.length ∧ ∀ task, post task history :=
  Iff.rfl

/-- To stop a task changes nothing in the world. -/
theorem behaves_stop {task? : Option TaskId} {post : Unit → History → Prop} :
    (stop task?).Behaves me post history ↔ post () history := by
  cases task? <;> rfl

/-- Whoever awaits an answer must not wait at a gate, and has it arrive as a deed some time
later. -/
theorem behaves_await {answer : Underway α} :
    (await answer).Behaves me post history ↔
      ¬ history.now.IsWaiting me.task ∧
        ∀ later, history.Grows me.task later →
          later.now.Deed me (answer.arrive later.now).1 ∧
            post (answer.arrive later.now).2 (later.after (answer.arrive later.now).1) := by
  rw [await, behaves_bind, behaves_pause]
  rfl

/-- A task that waits at this activity behaves once it has its next turn. -/
def Resumes (me : RefreshCall) (post : α → History → Prop) (rest : Activity α) (history : History) :
    Prop :=
  ∀ later, history.Grows me.task later → ¬ later.now.IsWaiting me.task → rest.Behaves me post later

/-- What can go on from some world can still go on after things have happened elsewhere. -/
theorem Resumes.grows {rest : Activity α} {later : History} (h : rest.Resumes me post history)
    (grows : history.Grows me.task later) : rest.Resumes me post later :=
  fun last again hadmitted => h last (grows.trans again) hadmitted

/-- What holds at the end of a task that waits may be weakened. -/
theorem Resumes.mono {strong : α → History → Prop} {rest : Activity α}
    (hpost : ∀ value later, strong value later → post value later)
    (h : rest.Resumes me strong history) : rest.Resumes me post history :=
  fun later grows hadmitted => (h later grows hadmitted).mono hpost

end Activity

end CloudSession
