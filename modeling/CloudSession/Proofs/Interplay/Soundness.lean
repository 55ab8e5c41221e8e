import CloudSession.Proofs.Interplay.Run

/-!
# What holds in every run

Every moment of a run follows from the one before by a deed of one caller or by what happens
outside, the schedule stays orderly, every caller that waits behaves once it has its next turn, and
what a caller has seen is part of the story. All this holds at the beginning and is kept by every
step.
-/

namespace CloudSession

/-- How a moment of a run follows from the one before. -/
def Moment.Follows (earlier later : Moment) : Prop :=
  match later.actor with
  | some me => earlier.world.Deed me later.world
  | none => earlier.world.Outside later.world

/-- The world of a moment precedes that of the next. -/
theorem Moment.Follows.precedes {earlier later : Moment} (follows : earlier.Follows later) :
    earlier.world.Precedes later.world := by
  unfold Moment.Follows at follows
  split at follows
  · exact follows.precedes
  · exact follows.precedes

namespace Client

variable {client : Client} {world after : World} {worlds : List World} {story more : List Moment}
  {me : RefreshCall}

/-- A caller behaves once it has its next turn, or what it asked for has ended as it should. -/
def Fine (client : Client) (world : World) : Prop :=
  match client.state with
  | .waiting rest => client.history.now = world ∧
      rest.Resumes client.call (client.operation.Ended client.start client.call) client.history
  | .finished reply => client.operation.Ended client.start client.call reply client.history
  | .failed _ => True

/-- What a caller has seen is part of the story, up to its end if it waits. -/
structure Recorded (client : Client) (story : List Moment) : Prop where
  began : ∃ moment, story[client.began]? = some moment ∧ moment.world = client.start
  seen : ∀ (n : Nat) (world : World), client.history.seen.reverse[n]? = some world →
    ∃ moment, story[client.began + n]? = some moment ∧ moment.world = world
  waiting : ∀ rest, client.state = .waiting rest →
    client.began + client.history.seen.length = story.length

/-- A caller keeps its name while others go on. -/
@[simp] theorem task_watch : (client.watch worlds).task = client.task := by
  unfold watch
  split <;> rfl

/-- A caller keeps its state while others go on. -/
@[simp] theorem state_watch : (client.watch worlds).state = client.state := by
  unfold watch
  split <;> rfl

/-- A caller keeps its call while others go on. -/
@[simp] theorem call_watch : (client.watch worlds).call = client.call := by
  unfold watch
  split <;> rfl

/-- Whoever is not done sees what happens. -/
theorem watch_of_waiting {rest : Activity Reply} (h : client.state = .waiting rest) :
    client.watch worlds = { client with history := client.history.follow worlds } := by
  simp [watch, h]

/-- Whoever is done sees nothing more. -/
theorem watch_of_not_waiting (h : ∀ rest, client.state ≠ .waiting rest) :
    client.watch worlds = client := by
  unfold watch
  split
  · next rest hrest => exact absurd hrest (h rest)
  · rfl

/-- A caller that sees things happen elsewhere is fine still. -/
theorem Fine.watch (fine : client.Fine world)
    (grows : client.history.now = world →
      client.history.Grows client.task (client.history.follow worlds))
    (hafter : worlds.getLastD world = after) : (client.watch worlds).Fine after := by
  cases hstate : client.state with
  | waiting rest =>
    unfold Fine at fine
    rw [hstate] at fine
    obtain ⟨hnow, hresumes⟩ := fine
    rw [watch_of_waiting hstate]
    unfold Fine
    rw [hstate]
    refine ⟨?_, hresumes.grows (grows hnow)⟩
    rw [History.follow_now, hnow, hafter]
  | finished reply =>
    rw [watch_of_not_waiting (by simp [hstate])]
    unfold Fine at fine ⊢
    rwa [hstate] at fine ⊢
  | failed fault =>
    unfold Fine
    simp [hstate]

/-- What is seen of the worlds that follow is added at the end. -/
theorem seen_follow (history : History) (worlds : List World) :
    (history.follow worlds).seen.reverse = history.seen.reverse ++ worlds := by
  induction worlds generalizing history with
  | nil => simp [History.follow]
  | cons world rest ih =>
    have hrest := ih (history.after world)
    rw [History.follow, List.foldl_cons]
    rw [History.follow] at hrest
    rw [hrest]
    simp [History.after, History.seen]

/-- A moment stays in the story. -/
private theorem moment_append {n : Nat} (more : List Moment)
    (h : ∃ moment, story[n]? = some moment ∧ moment.world = world) :
    ∃ moment, (story ++ more)[n]? = some moment ∧ moment.world = world := by
  obtain ⟨moment, hmoment, hworld⟩ := h
  have hlt := (List.getElem?_eq_some_iff.mp hmoment).1
  exact ⟨moment, by rw [List.getElem?_append_left hlt, hmoment], hworld⟩

/-- What a caller sees is recorded. -/
theorem Recorded.watch (recorded : client.Recorded story) (hmore : more.map Moment.world = worlds) :
    (client.watch worlds).Recorded (story ++ more) := by
  have hbegan := moment_append more recorded.began
  cases hstate : client.state with
  | waiting rest =>
    have hlength := recorded.waiting rest hstate
    rw [watch_of_waiting hstate]
    refine ⟨hbegan, ?_, ?_⟩
    · intro n world h
      rw [seen_follow] at h
      by_cases hlt : n < client.history.seen.reverse.length
      · rw [List.getElem?_append_left hlt] at h
        exact moment_append more (recorded.seen n world h)
      · have hge : client.history.seen.length ≤ n := by simpa using hlt
        rw [List.getElem?_append_right (by simpa using hge), ← hmore, List.getElem?_map,
          List.length_reverse] at h
        obtain ⟨moment, hmoment, hworld⟩ := Option.map_eq_some_iff.mp h
        refine ⟨moment, ?_, hworld⟩
        have hstory : story.length ≤ client.began + n := by omega
        have hindex : client.began + n - story.length = n - client.history.seen.length := by omega
        simp only [List.getElem?_append_right hstory, hindex, hmoment]
    · intro _ _
      dsimp only
      have hseen : (client.history.follow worlds).seen.length =
          client.history.seen.length + worlds.length := by
        rw [← List.length_reverse, seen_follow, List.length_append, List.length_reverse]
      have hlength' : more.length = worlds.length := by rw [← hmore, List.length_map]
      rw [List.length_append, hlength', hseen]
      omega
  | finished reply =>
    rw [watch_of_not_waiting (by simp [hstate])]
    exact ⟨hbegan, fun n world h => moment_append more (recorded.seen n world h), by simp [hstate]⟩
  | failed fault =>
    rw [watch_of_not_waiting (by simp [hstate])]
    exact ⟨hbegan, fun n world h => moment_append more (recorded.seen n world h), by simp [hstate]⟩

end Client

section Story

variable {story : List Moment} {worlds : List World} {world after : World} {me : RefreshCall}

/-- The story goes on with a moment that follows from the present one. -/
private theorem follows_moment {moment : Moment} (hstory : story.IsChain Moment.Follows)
    (hpresent : story.getLast?.map Moment.world = some world)
    (hfollows : ∀ last : Moment, last.world = world → last.Follows moment) :
    (story ++ [moment]).IsChain Moment.Follows := by
  refine List.isChain_append.mpr ⟨hstory, .singleton _, ?_⟩
  intro last hlast next hnext
  obtain rfl : moment = next := by simpa using hnext
  refine hfollows last ?_
  rw [Option.mem_def] at hlast
  simpa [hlast] using hpresent

/-- The story goes on with the deeds of a caller. -/
theorem follows_deeds (hstory : story.IsChain Moment.Follows)
    (hpresent : story.getLast?.map Moment.world = some world) (deeds : World.Deeds me world worlds) :
    (story ++ worlds.map (Moment.made (some me))).IsChain Moment.Follows := by
  induction worlds generalizing story world with
  | nil => simpa using hstory
  | cons next rest ih =>
    obtain ⟨hdeed, hrest⟩ := List.isChain_cons_cons.mp deeds
    have hnext : (story ++ [Moment.made (some me) next]).IsChain Moment.Follows := by
      refine follows_moment hstory hpresent ?_
      rintro last rfl
      exact hdeed
    have hall := ih hnext (by simp [Moment.made]) hrest
    simpa using hall

/-- The story goes on with what happens outside. -/
theorem follows_outside (hstory : story.IsChain Moment.Follows)
    (hpresent : story.getLast?.map Moment.world = some world) (outside : world.Outside after) :
    (story ++ [after].map (Moment.made none)).IsChain Moment.Follows := by
  refine follows_moment hstory hpresent ?_
  rintro last rfl
  exact outside

/-- The present moment is the last. -/
theorem present_append (hpresent : story.getLast?.map Moment.world = some world)
    (actor : Option RefreshCall) (worlds : List World) :
    (story ++ worlds.map (Moment.made actor)).getLast?.map Moment.world =
      some (worlds.getLastD world) := by
  rw [List.getLast?_append, List.getLast?_map, List.getLastD_eq_getLast?]
  cases worlds.getLast? <;> simp [hpresent, Moment.made]

end Story

namespace Interplay

variable {interplay : Interplay} {client : Client} {acting : Option TaskId} {schedule : Schedule}
  {worlds : List World} {actor : Option RefreshCall}

/-- A caller that acts is known by its name: no other has it or ever will. -/
structure Names (schedule : Schedule) (clients : List Client) (me : RefreshCall) : Prop where
  born : me.task < schedule.fresh
  clients : ∀ client ∈ clients, client.task = me.task → client.call = me
  tasks : ∀ task ∈ schedule.tasks, task.id = me.task → task.job.call task.id = me

/-- What holds of a run, while the caller `acting` has its turn, or none. -/
structure Sound (interplay : Interplay) (acting : Option TaskId) : Prop where
  orderly : interplay.schedule.Orderly none
  resumable : interplay.schedule.Resumable none
  story : interplay.story.IsChain Moment.Follows
  present : interplay.story.getLast?.map Moment.world = some interplay.schedule.world
  distinct : (interplay.clients.map Client.task).Nodup
  born : ∀ client ∈ interplay.clients, client.task < interplay.schedule.fresh
  apart : ∀ client ∈ interplay.clients, ∀ task ∈ interplay.schedule.tasks, task.id ≠ client.task
  fine : ∀ client ∈ interplay.clients, acting ≠ some client.task →
    client.Fine interplay.schedule.world
  recorded : ∀ client ∈ interplay.clients, client.Recorded interplay.story
  first : ∃ first rest, interplay.story = first :: rest ∧ first.world.Untouched
  named : ∀ moment ∈ interplay.story, ∀ me, moment.actor = some me →
    Names interplay.schedule interplay.clients me

/-- Names stay distinct when a schedule continues. -/
theorem Names.continues {clients : List Client} {me : RefreshCall} {before : Schedule}
    (names : Names before clients me) (continues : before.Continues schedule) :
    Names schedule clients me where
  born := Nat.lt_of_lt_of_le names.born continues.fresh
  clients := names.clients
  tasks task htask heq := by
    rcases continues.tasks task htask with ⟨other, hother, hid, hjob⟩ | hnew
    · have hcall := names.tasks other hother (hid.trans heq)
      rwa [hid, hjob] at hcall
    · exact absurd names.born (Nat.not_lt_of_le (heq ▸ hnew))

/-- The names of callers stay apart from those of tasks. -/
theorem Sound.apart_of_continues (sound : interplay.Sound acting)
    (continues : interplay.schedule.Continues schedule) {other : Client}
    (hother : other ∈ interplay.clients) : ∀ task ∈ schedule.tasks, task.id ≠ other.task := by
  intro task htask heq
  rcases continues.tasks task htask with ⟨before, hbefore, hid, -⟩ | hnew
  · exact sound.apart other hother before hbefore (hid.trans heq)
  · exact absurd (sound.born other hother) (Nat.not_lt_of_le (heq ▸ hnew))

/-- A caller acts in its own name. -/
theorem Sound.names_client (sound : interplay.Sound acting) (hclient : client ∈ interplay.clients) :
    Names interplay.schedule interplay.clients client.call where
  born := sound.born client hclient
  clients other hother heq := by
    rw [List.inj_on_of_nodup_map sound.distinct hother hclient heq]
  tasks task htask heq := absurd heq (sound.apart client hclient task htask)

/-- A task acts in its own name. -/
theorem Sound.names_task {task : Task} (sound : interplay.Sound acting)
    (htask : task ∈ interplay.schedule.tasks) :
    Names interplay.schedule interplay.clients (task.job.call task.id) where
  born := sound.orderly.born task htask
  clients other hother heq := absurd heq.symm (sound.apart other hother task htask)
  tasks other hother heq := by
    rw [List.inj_on_of_nodup_map sound.orderly.distinct hother htask heq]

/-- The world changes as the others see it. -/
theorem Sound.pass (sound : interplay.Sound acting) (orderly : schedule.Orderly none)
    (resumable : schedule.Resumable none)
    (story : (interplay.story ++ worlds.map (Moment.made actor)).IsChain Moment.Follows)
    (now : worlds.getLastD interplay.schedule.world = schedule.world)
    (continues : interplay.schedule.Continues schedule)
    (grows : ∀ client ∈ interplay.clients, acting ≠ some client.task →
      client.history.now = interplay.schedule.world →
        client.history.Grows client.task (client.history.follow worlds))
    (named : ∀ me, actor = some me → Names schedule interplay.clients me) :
    (interplay.pass actor worlds schedule).Sound acting where
  orderly := orderly
  resumable := resumable
  story := story
  present := by
    simp only [Interplay.pass]
    rw [present_append sound.present, now]
  distinct := by
    have htasks : (interplay.clients.map (·.watch worlds)).map Client.task =
        interplay.clients.map Client.task := by simp [Function.comp_def]
    simp only [Interplay.pass]
    rw [htasks]
    exact sound.distinct
  born other hother := by
    obtain ⟨before, hbefore, rfl⟩ := List.mem_map.mp hother
    rw [Client.task_watch]
    exact Nat.lt_of_lt_of_le (sound.born before hbefore) continues.fresh
  apart other hother := by
    obtain ⟨before, hbefore, rfl⟩ := List.mem_map.mp hother
    rw [Client.task_watch]
    exact sound.apart_of_continues continues hbefore
  fine other hother hne := by
    obtain ⟨before, hbefore, rfl⟩ := List.mem_map.mp hother
    rw [Client.task_watch] at hne
    exact (sound.fine before hbefore hne).watch (grows before hbefore hne) now
  recorded other hother := by
    obtain ⟨before, hbefore, rfl⟩ := List.mem_map.mp hother
    exact (sound.recorded before hbefore).watch (by simp [Moment.made, Function.comp_def])
  first := by
    obtain ⟨first, rest, hstory, hfirst⟩ := sound.first
    exact ⟨first, _, by simp only [Interplay.pass, hstory, List.cons_append]; rfl, hfirst⟩
  named moment hmoment me hme := by
    have hnames : Names schedule interplay.clients me := by
      rcases List.mem_append.mp hmoment with hbefore | hnew
      · exact (sound.named moment hbefore me hme).continues continues
      · obtain ⟨world, -, rfl⟩ := List.mem_map.mp hnew
        exact named me hme
    refine ⟨hnames.born, fun other hother heq => ?_, hnames.tasks⟩
    obtain ⟨before, hbefore, rfl⟩ := List.mem_map.mp hother
    rw [Client.task_watch] at heq
    rw [Client.call_watch]
    exact hnames.clients before hbefore heq

/-- The turn of a caller ends. -/
theorem Sound.settle (client : Client) {state : Turn Reply}
    (sound : interplay.Sound (some client.task))
    (hclient : client ∈ interplay.clients) {rest : Activity Reply}
    (hstate : client.state = .waiting rest)
    (hnow : client.history.now = interplay.schedule.world)
    (ends : state.Ends client.call (client.operation.Ended client.start client.call)
      client.history) :
    ({ interplay with
      clients := interplay.clients.map fun other =>
        if other.task = client.task then { other with state } else other } : Interplay).Sound none := by
  have htasks : (interplay.clients.map fun other =>
      if other.task = client.task then { other with state } else other).map Client.task =
        interplay.clients.map Client.task := by
    rw [List.map_map]
    refine List.map_congr_left fun other _ => ?_
    simp only [Function.comp_apply]
    split <;> rfl
  have hsame (other : Client) (hother : other ∈ interplay.clients)
      (heq : other.task = client.task) : other = client :=
    List.inj_on_of_nodup_map sound.distinct hother hclient heq
  have hmem (other : Client) (hother : other ∈ interplay.clients.map fun other =>
      if other.task = client.task then { other with state } else other) :
      ∃ before ∈ interplay.clients, before.task = other.task := by
    obtain ⟨before, hbefore, rfl⟩ := List.mem_map.mp hother
    exact ⟨before, hbefore, by split <;> rfl⟩
  exact {
    orderly := sound.orderly
    resumable := sound.resumable
    story := sound.story
    present := sound.present
    distinct := by
      rw [htasks]
      exact sound.distinct
    born := fun other hother => by
      obtain ⟨before, hbefore, heq⟩ := hmem other hother
      rw [← heq]
      exact sound.born before hbefore
    apart := fun other hother => by
      obtain ⟨before, hbefore, heq⟩ := hmem other hother
      rw [← heq]
      exact sound.apart before hbefore
    fine := fun other hother _ => by
      obtain ⟨before, hbefore, rfl⟩ := List.mem_map.mp hother
      split
      · next heq =>
        obtain rfl := hsame before hbefore heq
        cases state with
        | waiting rest => exact ⟨hnow, ends⟩
        | finished reply => exact ends
        | failed fault => trivial
      · next hne => exact sound.fine before hbefore (by simpa using Ne.symm hne)
    recorded := fun other hother => by
      obtain ⟨before, hbefore, rfl⟩ := List.mem_map.mp hother
      have hrecorded := sound.recorded before hbefore
      split
      · next heq =>
        obtain rfl := hsame before hbefore heq
        exact ⟨hrecorded.began, hrecorded.seen, fun _ _ => hrecorded.waiting rest hstate⟩
      · exact hrecorded
    first := sound.first
    named := fun moment hmoment me hme => by
      have hnames := sound.named moment hmoment me hme
      refine ⟨hnames.born, fun other hother heq => ?_, hnames.tasks⟩
      obtain ⟨before, hbefore, rfl⟩ := List.mem_map.mp hother
      have htask : (if before.task = client.task then { before with state } else before).task =
          before.task := by split <;> rfl
      have hcall : (if before.task = client.task then { before with state } else before).call =
          before.call := by split <;> rfl
      rw [hcall]
      exact hnames.clients before hbefore (htask.symm.trans heq) }

/-- The turn of a caller, from where it behaves. -/
theorem Sound.act {rest : Activity Reply} (sound : interplay.Sound (some client.task))
    (hclient : client ∈ interplay.clients) (hstate : client.state = .waiting rest)
    (hnow : client.history.now = interplay.schedule.world)
    (orderly : interplay.schedule.Orderly (some client.task))
    (behaves : rest.Behaves client.call (client.operation.Ended client.start client.call)
      client.history) : (interplay.act client rest).Sound none := by
  have htakes : Schedule.Takes client.call (client.operation.Ended client.start client.call)
      client.history interplay.schedule (interplay.schedule.passed client.task rest)
      (interplay.schedule.turn client.task rest) :=
    Schedule.Orderly.turn orderly (fun task htask _ => sound.resumable task htask (by simp))
      (sound.born client hclient) hnow behaves
  have hlast := htakes.now
  have hworld := htakes.now
  rw [History.follow_now, hnow] at hworld
  have hresumable : (interplay.schedule.turn client.task rest).1.Resumable none := by
    intro task htask _
    have hne := sound.apart_of_continues htakes.continues hclient task htask
    exact htakes.resumable task htask fun heq => hne (Option.some.inj heq).symm
  have hgrows : ∀ other ∈ interplay.clients, some client.task ≠ some other.task →
      other.history.now = interplay.schedule.world → other.history.Grows other.task
        (other.history.follow (interplay.schedule.passed client.task rest)) := by
    intro other _ hne hnow'
    have hdeeds := htakes.deeds
    rw [← hnow'] at hdeeds
    exact History.grows_follow (fun heq => hne (congrArg some heq)) hdeeds
  have hpass := sound.pass htakes.orderly.afterTurn hresumable
    (follows_deeds sound.story sound.present htakes.deeds) hworld htakes.continues hgrows
    fun me hme => Option.some.inj hme ▸ (sound.names_client hclient).continues htakes.continues
  let watched : Client :=
    { client with history := client.history.follow (interplay.schedule.passed client.task rest) }
  have hwatched : watched ∈
      (interplay.pass (some client.call) (interplay.schedule.passed client.task rest)
        (interplay.schedule.turn client.task rest).1).clients := by
    have heq : client.watch (interplay.schedule.passed client.task rest) = watched :=
      Client.watch_of_waiting hstate
    rw [← heq]
    exact List.mem_map_of_mem hclient
  exact hpass.settle watched hwatched hstate hlast htakes.ends

/-- A caller that can run waits at no gate. -/
theorem Sound.not_isWaiting (sound : interplay.Sound none) (hclient : client ∈ interplay.clients)
    (hready : client.task ∈ interplay.schedule.ready) :
    ¬ interplay.schedule.world.IsWaiting client.task := by
  rcases sound.orderly.woken client.task (.inl hready) with ⟨-, hfree⟩ | ⟨task, htask, hid, -⟩
  · exact hfree
  · exact absurd hid (sound.apart client hclient task htask)

/-- A caller that has its turn is not asked for more. -/
theorem Sound.excuse (sound : interplay.Sound none) (id : TaskId) : interplay.Sound (some id) where
  orderly := sound.orderly
  resumable := sound.resumable
  story := sound.story
  present := sound.present
  distinct := sound.distinct
  born := sound.born
  apart := sound.apart
  fine other hother _ := sound.fine other hother (by simp)
  recorded := sound.recorded
  first := sound.first
  named := sound.named

/-- The turn of a caller keeps a run sound. -/
theorem Sound.turnOfClient {rest : Activity Reply} (sound : interplay.Sound none)
    (hclient : client ∈ interplay.clients) (hstate : client.state = .waiting rest)
    (hready : client.task ∈ interplay.schedule.ready) :
    (interplay.turnOfClient client rest).Sound none := by
  have hfine := sound.fine client hclient (by simp)
  unfold Client.Fine at hfine
  rw [hstate] at hfine
  obtain ⟨hnow, hresumes⟩ := hfine
  have hfree := sound.not_isWaiting hclient hready
  rw [← hnow] at hfree
  have horderly := sound.orderly.resume client.task
  have hresumed : ({ interplay with
      schedule := interplay.schedule.resume client.task } : Interplay).Sound (some client.task) :=
    { sound.excuse client.task with
      orderly := horderly.afterTurn
      named := fun moment hmoment me hme =>
        have hnames := sound.named moment hmoment me hme
        ⟨hnames.born, hnames.clients, hnames.tasks⟩ }
  exact hresumed.act hclient hstate hnow horderly (hresumes client.history (.refl _) hfree)

/-- The turn of a task keeps a run sound. -/
theorem Sound.turnOfTask {task : Task} (sound : interplay.Sound none)
    (htask : task ∈ interplay.schedule.tasks) (hready : task.id ∈ interplay.schedule.ready) :
    (interplay.turnOfTask task).Sound none := by
  have hmoves := Schedule.Orderly.turnOfTask sound.orderly sound.resumable htask (.inl hready)
  refine sound.pass hmoves.orderly hmoves.resumable
    (follows_deeds sound.story sound.present hmoves.deeds) hmoves.now
    ⟨hmoves.continues.fresh, hmoves.continues.tasks⟩ ?_ fun me hme => Option.some.inj hme ▸
      (sound.names_task htask).continues ⟨hmoves.continues.fresh, hmoves.continues.tasks⟩
  intro other hother _ hnow
  have hdeeds := hmoves.deeds
  have hnow' : (interplay.schedule.resume task.id).world = other.history.now := hnow.symm
  rw [hnow'] at hdeeds
  exact History.grows_follow (sound.apart other hother task htask) hdeeds

/-- Time that passes keeps a run sound. -/
theorem Sound.elapse (sound : interplay.Sound none) (elapsed : Span) :
    (interplay.elapse elapsed).Sound none := by
  have houtside := Schedule.outside_elapse interplay.schedule elapsed
  refine sound.pass (sound.orderly.elapse elapsed) (sound.resumable.elapse elapsed)
    (follows_outside sound.story sound.present houtside)
    (Schedule.elapse_world interplay.schedule elapsed).symm
    (Schedule.continues_elapse interplay.schedule elapsed) ?_ (by simp)
  intro other _ _ hnow
  exact .step (.refl _) (.inr (hnow ▸ houtside))

/-- What happens outside keeps a run sound. -/
theorem Sound.disturb {world : World} (sound : interplay.Sound none)
    (outside : interplay.schedule.world.Outside world) :
    (interplay.disturb world).Sound none := by
  refine sound.pass (sound.orderly.outside outside) (sound.resumable.outside outside)
    (follows_outside sound.story sound.present outside) rfl
    ⟨Nat.le_refl _, fun task htask => .inl ⟨task, htask, rfl, rfl⟩⟩ ?_ (by simp)
  intro other _ _ hnow
  exact .step (.refl _) (.inr (hnow ▸ outside))

/-- A caller that comes sees the present moment. -/
private theorem recorded_of_present {story : List Moment} {world : World} {client : Client}
    (hpresent : story.getLast?.map Moment.world = some world)
    (hbegan : client.began = story.length - 1) (hstart : client.start = world)
    (hhistory : client.history = ⟨world, []⟩) : client.Recorded story := by
  obtain ⟨last, hlast, rfl⟩ := Option.map_eq_some_iff.mp hpresent
  have hmoment : story[client.began]? = some last := by
    rw [hbegan, ← List.getLast?_eq_getElem?, hlast]
  have hlength : client.began < story.length := (List.getElem?_eq_some_iff.mp hmoment).1
  refine ⟨⟨last, hmoment, hstart.symm⟩, ?_, ?_⟩
  · intro n world h
    rw [hhistory] at h
    cases n with
    | zero => exact ⟨last, hmoment, by simpa [History.seen] using h⟩
    | succ n => simp [History.seen] at h
  · intro _ _
    rw [hhistory]
    simp only [History.seen, List.length_cons, List.length_nil]
    omega

/-- A call keeps a run sound. -/
theorem Sound.call {operation : Operation} (sound : interplay.Sound none)
    (fits : operation.Fits interplay.schedule.world) : (interplay.call operation).Sound none := by
  let client : Client :=
    { task := interplay.schedule.fresh
      operation
      state := .waiting operation.activity
      start := interplay.schedule.world
      began := interplay.story.length - 1
      history := { now := interplay.schedule.world } }
  have horderly := sound.orderly.admit
  have hcame : ({ interplay with
      schedule := { interplay.schedule with fresh := interplay.schedule.fresh + 1 },
      clients := interplay.clients ++ [client] } : Interplay).Sound (some client.task) :=
    { orderly := horderly.afterTurn
      resumable := sound.resumable
      story := sound.story
      present := sound.present
      distinct := by
        have hfresh : ∀ other ∈ interplay.clients, other.task ≠ interplay.schedule.fresh :=
          fun other hother => Nat.ne_of_lt (sound.born other hother)
        rw [List.map_append]
        refine List.nodup_append.mpr ⟨sound.distinct, by simp, ?_⟩
        rintro a ha b hb rfl
        obtain ⟨other, hother, heq⟩ := List.mem_map.mp ha
        obtain rfl : a = client.task := by simpa using hb
        exact hfresh other hother heq
      born := fun other hother => by
        rcases List.mem_append.mp hother with hbefore | hnew
        · exact Nat.lt_succ_of_lt (sound.born other hbefore)
        · rw [List.mem_singleton.mp hnew]
          exact Nat.lt_succ_self _
      apart := fun other hother task htask => by
        rcases List.mem_append.mp hother with hbefore | hnew
        · exact sound.apart other hbefore task htask
        · rw [List.mem_singleton.mp hnew]
          exact Nat.ne_of_lt (sound.orderly.born task htask)
      fine := fun other hother hne => by
        rcases List.mem_append.mp hother with hbefore | hnew
        · exact sound.fine other hbefore (by simp)
        · rw [List.mem_singleton.mp hnew] at hne
          exact absurd rfl hne
      recorded := fun other hother => by
        rcases List.mem_append.mp hother with hbefore | hnew
        · exact sound.recorded other hbefore
        · rw [List.mem_singleton.mp hnew]
          exact recorded_of_present sound.present rfl rfl rfl
      first := sound.first
      named := fun moment hmoment me hme => by
        have hnames := sound.named moment hmoment me hme
        refine ⟨Nat.lt_succ_of_lt hnames.born, fun other hother heq => ?_, hnames.tasks⟩
        rcases List.mem_append.mp hother with hbefore | hnew
        · exact hnames.clients other hbefore heq
        · rw [List.mem_singleton.mp hnew] at heq
          exact absurd heq (Nat.ne_of_gt hnames.born) }
  exact hcame.act (List.mem_append_right _ (List.mem_singleton_self client)) rfl rfl horderly
    (Operation.behaves_activity (sound.orderly.standing (Nat.le_refl _)) fits)

/-- A caller that is dropped leaves a sound run behind. -/
theorem Sound.drop (sound : interplay.Sound none) (hclient : client ∈ interplay.clients) :
    (interplay.drop client).Sound none := by
  have hresume := sound.orderly.resume client.task
  have htakes : Schedule.Takes client.call _ ⟨interplay.schedule.world, []⟩
      (interplay.schedule.resume client.task) _ _ :=
    hresume.turn (sound.resumable.resume client.task) (sound.born client hclient) rfl
      (behaves_release sound.orderly.sound)
  have hworld := htakes.now
  rw [History.follow_now] at hworld
  have hgrows : ∀ other ∈ interplay.clients, some client.task ≠ some other.task →
      other.history.now = interplay.schedule.world → other.history.Grows other.task
        (other.history.follow ((interplay.schedule.resume client.task).passed client.task
          (release interplay.schedule.world.managers.length
            interplay.schedule.world.caches.length))) := by
    intro other _ hne hnow'
    have hdeeds := htakes.deeds
    have hnow : (interplay.schedule.resume client.task).world = other.history.now := hnow'.symm
    rw [hnow] at hdeeds
    exact History.grows_follow (fun heq => hne (congrArg some heq)) hdeeds
  have hcontinues := htakes.continues.trans (Schedule.continues_remove _ client.task)
  have hpass := (sound.excuse client.task).pass (htakes.orderly.afterTurn.remove client.task)
    htakes.resumable.remove (follows_deeds sound.story sound.present htakes.deeds) hworld
    ⟨hcontinues.fresh, hcontinues.tasks⟩ hgrows fun me hme => Option.some.inj hme ▸
      (sound.names_client hclient).continues ⟨hcontinues.fresh, hcontinues.tasks⟩
  exact {
    orderly := hpass.orderly
    resumable := hpass.resumable
    story := hpass.story
    present := hpass.present
    distinct := (List.filter_sublist.map _).nodup hpass.distinct
    born := fun other hother => hpass.born other (List.mem_of_mem_filter hother)
    apart := fun other hother => hpass.apart other (List.mem_of_mem_filter hother)
    fine := fun other hother _ => by
      obtain ⟨hmem, hne⟩ := List.mem_filter.mp hother
      exact hpass.fine other hmem (by simpa using Ne.symm (of_decide_eq_true hne))
    recorded := fun other hother => hpass.recorded other (List.mem_of_mem_filter hother)
    first := hpass.first
    named := fun moment hmoment me hme =>
      have hnames := hpass.named moment hmoment me hme
      ⟨hnames.born, fun other hother => hnames.clients other (List.mem_of_mem_filter hother),
        hnames.tasks⟩ }

/-- Every step keeps what holds of a run. -/
theorem Step.sound {next : Interplay} (step : Step interplay next) (sound : interplay.Sound none) :
    next.Sound none := by
  cases step with
  | turnOfClient hclient hstate hready => exact sound.turnOfClient hclient hstate hready
  | turnOfTask htask hready => exact sound.turnOfTask htask hready
  | elapse _ => exact sound.elapse _
  | disturb outside _ => exact sound.disturb outside
  | call fits => exact sound.call fits
  | drop hclient _ => exact sound.drop hclient

/-- Runs stay sound. -/
theorem Runs.sound {first last : Interplay} (runs : Runs first last) (sound : first.Sound none) :
    last.Sound none := by
  induction runs with
  | refl => exact sound
  | step _ step ih => exact step.sound ih

end Interplay

/-- In an untouched world, nothing is known of a manager but its policy. -/
theorem World.Untouched.manager_eq {world : World} (untouched : world.Untouched) (id : ManagerId) :
    world.manager id = { policy := (world.manager id).policy } := by
  unfold World.manager World.managed
  rw [List.getD_eq_getElem?_getD]
  cases h : world.managers[id]? with
  | none => rfl
  | some entry => exact (untouched.managers entry (List.mem_of_getElem? h)).1

/-- In an untouched world, no task follows advice. -/
theorem World.Untouched.followers_eq {world : World} (untouched : world.Untouched)
    (id : ManagerId) : (world.managed id).followers = 0 := by
  unfold World.managed
  rw [List.getD_eq_getElem?_getD]
  cases h : world.managers[id]? with
  | none => rfl
  | some entry => exact (untouched.managers entry (List.mem_of_getElem? h)).2

/-- In an untouched world, all caches are empty. -/
theorem World.Untouched.cache_eq {world : World} (untouched : world.Untouched) (id : Nat) :
    world.cache id = {} := by
  unfold World.cache
  rw [List.getD_eq_getElem?_getD]
  cases h : world.caches[id]? with
  | none => rfl
  | some cache => exact untouched.caches cache (List.mem_of_getElem? h)

/-- Nobody is at a gate of an untouched world. -/
theorem World.Untouched.callersAt_eq {world : World} (untouched : world.Untouched) (place : Place) :
    world.callersAt place = [] := by
  cases place with
  | manager id =>
    rw [World.callersAt, untouched.manager_eq]
    rfl
  | cache id => rw [World.callersAt, untouched.cache_eq, Gate.callers]; rfl

/-- In an untouched world, nobody waits anywhere. -/
theorem World.Untouched.queueAt_eq {world : World} (untouched : world.Untouched) (place : Place) :
    world.queueAt place = [] := by
  cases place with
  | manager id =>
    rw [World.queueAt, untouched.manager_eq]
    rfl
  | cache id => rw [World.queueAt, untouched.cache_eq]

/-- An untouched world is sound. -/
theorem World.Untouched.sound {world : World} (untouched : world.Untouched) : world.Sound where
  coherent id := by
    rw [untouched.manager_eq]
    exact TokenManager.coherent_of_unused
  distinct id := by
    rw [untouched.cache_eq]
    exact List.nodup_nil
  once task place other h := by
    rw [untouched.queueAt_eq] at h
    cases h

namespace Interplay

/-- All this holds of a run that begins. -/
theorem sound_start {world : World} (untouched : world.Untouched) : (start world).Sound none where
  orderly :=
    { sound := untouched.sound
      unborn := by
        rintro task - ⟨place, hplace⟩
        have hnobody : world.callersAt place = [] := untouched.callersAt_eq place
        exact absurd (hnobody ▸ hplace) List.not_mem_nil
      distinct := List.nodup_nil
      born := by simp [start]
      known := by simp [start]
      old := by simp [start, Schedule.IsWoken]
      woken := by simp [start, Schedule.IsWoken] }
  resumable := by simp [start, Schedule.Resumable]
  story := .singleton _
  present := rfl
  distinct := List.nodup_nil
  born := by simp [start]
  apart := by simp [start]
  fine := by simp [start]
  recorded := by simp [start]
  first := ⟨_, _, rfl, untouched⟩
  named := by simp [start]

/-- What holds in every run. -/
theorem Reachable.sound {interplay : Interplay} (reachable : interplay.Reachable) :
    interplay.Sound none := by
  obtain ⟨world, untouched, runs⟩ := reachable
  exact runs.sound (sound_start untouched)

end Interplay

end CloudSession
