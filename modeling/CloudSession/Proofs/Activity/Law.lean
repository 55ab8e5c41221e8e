import CloudSession.Proofs.Background.Turns

/-!
# Laws of turns

A law says something of the schedule before a turn, of the worlds that the turn goes through and of
the schedule after it. An activity obeys a law if its first turn does and all that come after. A frame
law is one that holds of each of the small things of which nearly all turns are made: a task is woken
or goes to sleep, a write concerns neither the time nor a task of a manager, a refresh is advised, with
or without a task that follows the advice, and background refresh starts or is given up.
-/

namespace CloudSession

/-- A law for the schedule before a turn, the worlds that the turn goes through and the schedule after
it. -/
abbrev TurnLaw := Schedule → List World → Schedule → Prop

/-- A change of a manager does not change who uses it. -/
theorem World.followers_alterManager (world : World) (id other : ManagerId)
    (f : TokenManager → TokenManager) :
    ((world.alterManager id f).managed other).followers = (world.managed other).followers := by
  simp only [managed, alterManager, List.getD_eq_getElem?_getD, List.getElem?_modify]
  cases world.managers[other]? with
  | none => rfl
  | some entry => by_cases heq : id = other <;> simp [heq]

/-- One more task follows the advice about the manager that is engaged, and about no other. -/
theorem World.followers_engage {world : World} (id : ManagerId) {other : ManagerId}
    (known : other < world.managers.length) :
    ((world.engage id).managed other).followers =
      (world.managed other).followers + if id = other then 1 else 0 := by
  simp only [managed, engage, List.getD_eq_getElem?_getD, List.getElem?_modify,
    List.getElem?_eq_getElem known]
  by_cases heq : id = other <;> simp [heq]

/-- One task fewer follows the advice about the manager that is let go, and about no other. -/
theorem World.followers_disengage {world : World} (id : ManagerId) {other : ManagerId}
    (known : other < world.managers.length) :
    ((world.disengage id).managed other).followers =
      (world.managed other).followers - if id = other then 1 else 0 := by
  simp only [managed, disengage, List.getD_eq_getElem?_getD, List.getElem?_modify,
    List.getElem?_eq_getElem known]
  by_cases heq : id = other <;> simp [heq]

/-- A write concerns neither the time nor the tasks of a manager. -/
structure World.Minor (world after : World) : Prop where
  elapsed : after.elapsed = world.elapsed
  managerCount : after.managers.length = world.managers.length
  advisory : ∀ id, (after.manager id).advisoryInFlight = (world.manager id).advisoryInFlight
  background : ∀ id, (after.manager id).background = (world.manager id).background
  followers : ∀ id, (after.managed id).followers = (world.managed id).followers

namespace World.Minor

variable {world middle after : World} {id : ManagerId}

/-- To write nothing is a minor write. -/
theorem refl (world : World) : world.Minor world :=
  ⟨rfl, rfl, fun _ => rfl, fun _ => rfl, fun _ => rfl⟩

/-- Two minor writes make up a minor one. -/
theorem trans (first : world.Minor middle) (second : middle.Minor after) : world.Minor after where
  elapsed := second.elapsed.trans first.elapsed
  managerCount := second.managerCount.trans first.managerCount
  advisory id := (second.advisory id).trans (first.advisory id)
  background id := (second.background id).trans (first.background id)
  followers id := (second.followers id).trans (first.followers id)

/-- A write that leaves the managers alone. -/
theorem aside (managers : after.managers = world.managers) (elapsed : after.elapsed = world.elapsed) :
    world.Minor after := by
  constructor <;> simp [World.manager, World.managed, managers, elapsed]

/-- A change of a manager that leaves its tasks alone. -/
theorem alterManager {f : TokenManager → TokenManager}
    (hadvisory : (f (world.manager id)).advisoryInFlight = (world.manager id).advisoryInFlight)
    (hbackground : (f (world.manager id)).background = (world.manager id).background) :
    world.Minor (world.alterManager id f) where
  elapsed := rfl
  managerCount := by simp [World.alterManager]
  advisory other := by
    rw [World.manager_alterManager]
    split
    · next hid => rw [← hid.1, hadvisory]
    · rfl
  background other := by
    rw [World.manager_alterManager]
    split
    · next hid => rw [← hid.1, hbackground]
    · rfl
  followers other := World.followers_alterManager world id other f

/-- A change of a cache is minor. -/
theorem alterCache (world : World) (id : Nat) (f : CredentialsCache → CredentialsCache) :
    world.Minor (world.alterCache id f) :=
  aside rfl rfl

/-- A warning is a minor write. -/
theorem warn (world : World) (warning : Warning) : world.Minor (world.warn warning) := by
  unfold World.warn
  split
  · exact refl world
  · exact aside rfl rfl

/-- To send a request is a minor write. -/
theorem exchange (world : World) (request : Except TokenError Http.Request) :
    world.Minor (world.exchange request).1 := by
  cases request with
  | error error => exact refl world
  | ok request => exact aside rfl rfl

/-- A response that arrives is a minor write. -/
theorem exchange_arrive (world later : World) (request : Except TokenError Http.Request) :
    later.Minor ((world.exchange request).2.arrive later).1 := by
  cases request with
  | error error => exact refl later
  | ok request => exact aside rfl rfl

/-- To ask a token source is a minor write. -/
theorem issue (world : World) (issuer : Issuer) : world.Minor (world.issue issuer).1 := by
  cases issuer with
  | absent => exact refl world
  | apiKey issuer => exact exchange world _
  | scripted id => exact aside rfl rfl

/-- An answer of a token source that arrives is a minor write. -/
theorem issue_arrive (world later : World) (issuer : Issuer) :
    later.Minor ((world.issue issuer).2.arrive later).1 := by
  cases issuer with
  | absent => exact refl later
  | apiKey issuer => exact exchange_arrive world later _
  | scripted id => exact refl later

/-- To note the beginning of a call is a minor write. -/
theorem beginIssue (world : World) (id : ManagerId) (call : RefreshCall) :
    world.Minor (world.beginIssue id call).1 := by
  have hasked : world.Minor (world.issue (world.managed id).issuer).1 := issue world _
  exact hasked.trans (alterManager (f := (·.beginIssue call world.elapsed _)) rfl rfl)

/-- To ask a scripted provider is a minor write. -/
theorem askProvider (world : World) (script : Nat) : world.Minor (world.askProvider script).1 := by
  unfold World.askProvider
  dsimp only
  split
  · exact refl world
  · exact aside rfl rfl

/-- An answer of a scripted provider that arrives is a minor write. -/
theorem askProvider_arrive (world later : World) (script : Nat) :
    later.Minor ((world.askProvider script).2.arrive later).1 := by
  unfold World.askProvider
  dsimp only
  split <;> exact refl later

/-- To let go of a manager is a minor write. -/
theorem drop (world : World) (id : ManagerId) : world.Minor (world.drop id) where
  elapsed := rfl
  managerCount := by simp [World.drop]
  advisory other := by rw [World.manager_drop]
  background other := by rw [World.manager_drop]
  followers other := by
    simp only [World.managed, World.drop, List.getD_eq_getElem?_getD, List.getElem?_modify]
    cases world.managers[other]? with
    | none => rfl
    | some entry => by_cases heq : id = other <;> simp [heq]

end World.Minor

/-- A law that holds of each of the small things of which turns are made. -/
structure TurnLaw.IsFrame (law : TurnLaw) : Prop where
  refl : ∀ schedule, law schedule [] schedule
  trans : ∀ {schedule middle after : Schedule} {worlds more : List World},
    law schedule worlds middle → law middle more after → law schedule (worlds ++ more) after
  wake : ∀ (schedule : Schedule) task, law schedule [] (schedule.wake task)
  sleep : ∀ (schedule : Schedule) timer,
    law schedule [] { schedule with timers := schedule.timers ++ [timer] }
  write : ∀ (schedule : Schedule) world, schedule.world.Minor world →
    law schedule [world] { schedule with world }
  advise : ∀ (schedule : Schedule) id manager,
    (schedule.world.manager id).advise = some manager →
    law schedule [schedule.world.alterManager id fun _ => manager,
        (schedule.world.alterManager id fun _ => manager).engage id]
      ({ schedule with
          world := (schedule.world.alterManager id fun _ => manager).engage id }.spawn (.advisory id))
  adviseInVain : ∀ (schedule : Schedule) id manager,
    (schedule.world.manager id).advise = some manager →
    law schedule [schedule.world.alterManager id fun _ => manager, schedule.world] schedule
  giveUp : ∀ (schedule : Schedule) id,
    law schedule [schedule.world.alterManager id TokenManager.stopBackground] (schedule.giveUp id)
  start : ∀ (schedule : Schedule) id, (schedule.world.manager id).background = none →
    law schedule [schedule.world.alterManager id (·.startBackground schedule.fresh)]
      { schedule.spawn (.background id) with
        world := schedule.world.alterManager id (·.startBackground schedule.fresh) }

namespace Activity

variable {α β : Type} {law : TurnLaw} {world : World}

/-- All turns of the activity obey a law, the first and those that come after. -/
inductive Obeys (law : TurnLaw) : Activity α → Prop
  | intro {activity : Activity α} :
      (∀ me schedule, law schedule (Schedule.passed me activity schedule)
        (Schedule.turn me activity schedule).1) →
      (∀ me schedule rest, (Schedule.turn me activity schedule).2 = .waiting rest →
        Obeys law rest) → Obeys law activity

/-- The turn of an activity that obeys a law is as the law says. -/
theorem Obeys.turn {activity : Activity α} (h : activity.Obeys law) (me : TaskId)
    (schedule : Schedule) :
    law schedule (Schedule.passed me activity schedule) (Schedule.turn me activity schedule).1 := by
  cases h with
  | intro hturn _ => exact hturn me schedule

/-- What is left of an activity after a turn obeys the law, too. -/
theorem Obeys.waiting {activity rest : Activity α} (h : activity.Obeys law)
    {me : TaskId} {schedule : Schedule}
    (hwaiting : (Schedule.turn me activity schedule).2 = .waiting rest) : rest.Obeys law := by
  cases h with
  | intro _ hrest => exact hrest me schedule rest hwaiting

/-- An activity that is done in a single turn obeys a law if that turn does. -/
theorem Obeys.of_finished {activity : Activity α}
    (h : ∀ me schedule, ∃ after value,
      Schedule.turn me activity schedule = (after, .finished value) ∧
        law schedule (Schedule.passed me activity schedule) after) : activity.Obeys law := by
  refine .intro (fun me schedule => ?_) fun me schedule rest hwaiting => ?_
  · obtain ⟨after, value, hturn, hlaw⟩ := h me schedule
    rw [hturn]
    exact hlaw
  · obtain ⟨after, value, hturn, -⟩ := h me schedule
    rw [hturn] at hwaiting
    cases hwaiting

/-- All turns of the activity obey a law, the first of them from a certain world. -/
structure ObeysFrom (law : TurnLaw) (activity : Activity α) (world : World) : Prop where
  turn : ∀ me schedule, schedule.world = world →
    law schedule (Schedule.passed me activity schedule) (Schedule.turn me activity schedule).1
  waiting : ∀ me schedule rest, schedule.world = world →
    (Schedule.turn me activity schedule).2 = .waiting rest → rest.Obeys law

/-- An activity obeys a law if it does so from every world. -/
theorem obeys_iff {activity : Activity α} :
    activity.Obeys law ↔ ∀ world, activity.ObeysFrom law world :=
  ⟨fun h _ => ⟨fun me schedule _ => h.turn me schedule, fun _ _ _ _ hwaiting => h.waiting hwaiting⟩,
    fun h => .intro (fun me schedule => (h schedule.world).turn me schedule rfl)
      fun me schedule rest => (h schedule.world).waiting me schedule rest rfl⟩

/-- An activity that obeys a law does so from every world. -/
theorem Obeys.from {activity : Activity α} (h : activity.Obeys law) (world : World) :
    activity.ObeysFrom law world :=
  obeys_iff.mp h world

/-- What follows a look at the world knows what was seen. -/
theorem obeys_world_bind {f : World → Activity β} (h : ∀ world, (f world).ObeysFrom law world) :
    (Activity.world >>= f).Obeys law := by
  refine obeys_iff.mpr fun world => ⟨?_, ?_⟩
  · rintro me schedule rfl
    exact (h schedule.world).turn me schedule rfl
  · rintro me schedule rest rfl hwaiting
    exact (h schedule.world).waiting me schedule rest rfl hwaiting

section Frame

variable (frame : law.IsFrame)
include frame

/-- One activity after another, if what is left of the first does so as well. -/
private theorem ObeysFrom.bind_of_waiting {activity : Activity α} {f : α → Activity β}
    (first : activity.ObeysFrom law world) (second : ∀ value, (f value).Obeys law)
    (again : ∀ me schedule rest, schedule.world = world →
      (Schedule.turn me activity schedule).2 = .waiting rest → (rest >>= f).Obeys law) :
    (activity >>= f).ObeysFrom law world := by
  constructor
  · intro me schedule hworld
    have hfirst := first.turn me schedule hworld
    rw [Schedule.turn_bind, Schedule.passed_bind]
    rcases heq : Schedule.turn me activity schedule with ⟨next, ending⟩
    rw [heq] at hfirst
    cases ending with
    | finished value => exact frame.trans hfirst ((second value).turn me next)
    | failed fault => simpa using hfirst
    | waiting rest => simpa using hfirst
  · intro me schedule rest hworld hwaiting
    rw [Schedule.turn_bind] at hwaiting
    rcases heq : Schedule.turn me activity schedule with ⟨next, ending⟩
    rw [heq] at hwaiting
    cases ending with
    | finished value => exact (second value).waiting hwaiting
    | failed fault => cases hwaiting
    | waiting between =>
      obtain rfl := Turn.waiting.inj hwaiting
      exact again me schedule between hworld (by rw [heq])

/-- One activity after another obeys a law if both do. -/
theorem Obeys.bind {activity : Activity α} {f : α → Activity β} (first : activity.Obeys law)
    (second : ∀ value, (f value).Obeys law) : (activity >>= f).Obeys law := by
  induction first with
  | @intro activity hturn hrest ih =>
    have hfirst : activity.Obeys law := .intro hturn hrest
    exact obeys_iff.mpr fun world => (hfirst.from world).bind_of_waiting frame second
      fun me schedule rest _ hwaiting => ih me schedule rest hwaiting

/-- One activity after another obeys a law from a world if the first does so from there and the
second from everywhere. -/
theorem ObeysFrom.bind {activity : Activity α} {f : α → Activity β}
    (first : activity.ObeysFrom law world) (second : ∀ value, (f value).Obeys law) :
    (activity >>= f).ObeysFrom law world :=
  first.bind_of_waiting frame second fun me schedule rest hworld hwaiting =>
    (first.waiting me schedule rest hworld hwaiting).bind frame second

/-- A task that is done obeys every frame law. -/
theorem obeys_pure (value : α) : (pure value : Activity α).Obeys law :=
  .intro (fun _ schedule => frame.refl schedule) (by rintro _ _ _ ⟨⟩)

/-- A mapped activity obeys the laws that the activity does. -/
theorem Obeys.map {activity : Activity α} (h : activity.Obeys law) (f : α → β) :
    (f <$> activity).Obeys law :=
  h.bind frame fun _ => obeys_pure frame _

/-- To read the world obeys every frame law. -/
theorem obeys_world : Activity.world.Obeys law :=
  .intro (fun _ schedule => frame.refl schedule) (by rintro _ _ _ ⟨⟩)

/-- To read the clock obeys every frame law. -/
theorem obeys_now : Activity.now.Obeys law :=
  .intro (fun _ schedule => frame.refl schedule) (by rintro _ _ _ ⟨⟩)

/-- To ask for its own name obeys every frame law. -/
theorem obeys_me : Activity.me.Obeys law :=
  .intro (fun _ schedule => frame.refl schedule) (by rintro _ _ _ ⟨⟩)

/-- A check obeys every frame law. -/
theorem obeys_check (value : Except Overflow α) : (check value).Obeys law := by
  cases value with
  | ok value => exact obeys_pure frame value
  | error fault => exact .intro (fun _ schedule => frame.refl schedule) (by rintro _ _ _ ⟨⟩)

/-- A change that is minor here obeys every frame law from here. -/
theorem obeysFrom_modify {f : World → World} (h : world.Minor (f world)) :
    (modify f).ObeysFrom law world := by
  refine ⟨?_, by rintro _ _ _ _ ⟨⟩⟩
  rintro me schedule rfl
  exact frame.write schedule _ h

/-- A change that is always minor obeys every frame law. -/
theorem obeys_modify {f : World → World} (h : ∀ world : World, world.Minor (f world)) :
    (modify f).Obeys law :=
  obeys_iff.mpr fun world => obeysFrom_modify frame (h world)

/-- A change that has a result and is always minor obeys every frame law. -/
theorem obeys_update {f : World → World × α} (h : ∀ world : World, world.Minor (f world).1) :
    (update f).Obeys law :=
  .intro (fun _ schedule => frame.write schedule _ (h schedule.world)) (by rintro _ _ _ ⟨⟩)

/-- To wait obeys every frame law. -/
theorem obeys_wait : wait.Obeys law :=
  .intro (fun _ schedule => frame.refl schedule) (by rintro _ _ _ ⟨⟩; exact obeys_pure frame ())

/-- To yield obeys every frame law. -/
theorem obeys_yield : yield.Obeys law :=
  .intro (fun me schedule => frame.wake schedule me) (by rintro _ _ _ ⟨⟩; exact obeys_pure frame ())

/-- To pause obeys every frame law. -/
theorem obeys_pause (span : Span) : (pause span).Obeys law := by
  by_cases hspan : span = Span.zero
  · subst hspan
    exact .intro (fun _ schedule => frame.refl schedule) (by rintro _ _ _ ⟨⟩)
  · constructor
    · intro me schedule
      simp only [pause, Schedule.turn, Schedule.passed, if_neg hspan]
      exact frame.sleep schedule _
    · intro me schedule rest hwaiting
      simp only [pause, Schedule.turn, if_neg hspan] at hwaiting
      obtain rfl := Turn.waiting.inj hwaiting
      exact obeys_pure frame ()

/-- To wake a task obeys every frame law. -/
theorem obeys_notify (task? : Option TaskId) : (notify task?).Obeys law := by
  cases task? with
  | none => exact obeys_pure frame ()
  | some task => exact .intro (fun _ schedule => frame.wake schedule task) (by rintro _ _ _ ⟨⟩)

/-- What follows a change of the world knows its outcome. -/
theorem obeys_update_bind {f : World → World × α} {g : α → Activity β}
    (hchange : ∀ world : World, world.Minor (f world).1)
    (hnext : ∀ world : World, (g (f world).2).Obeys law) : (update f >>= g).Obeys law := by
  constructor
  · intro me schedule
    exact frame.trans (frame.write schedule _ (hchange schedule.world))
      ((hnext schedule.world).turn me _)
  · intro me schedule rest hwaiting
    exact (hnext schedule.world).waiting hwaiting

/-- To await an answer obeys every frame law, if its arrival is always minor. -/
theorem obeys_await {answer : Underway α}
    (harrive : ∀ later : World, later.Minor (answer.arrive later).1) :
    (await answer).Obeys law :=
  (obeys_pause frame _).bind frame fun _ => obeys_update frame harrive

/-- Steps that each obey a law obey it one after another. -/
theorem obeys_forM {step : α → Activity Unit} {items : List α}
    (h : ∀ item ∈ items, (step item).Obeys law) : (items.forM step).Obeys law := by
  induction items with
  | nil => exact obeys_pure frame ()
  | cons item rest ih =>
    exact (h item List.mem_cons_self).bind frame fun _ =>
      ih fun other hother => h other (List.mem_cons_of_mem _ hother)

end Frame

end Activity

end CloudSession
