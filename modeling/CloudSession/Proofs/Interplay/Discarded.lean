import CloudSession.Proofs.Interplay.Tended

/-!
# Loops that are given up

A loop of background refresh that is aborted does one thing more, when it has its next turn: it goes
away from the gate, whoever it lets in can run, and it is no more.
-/

namespace CloudSession

/-- If a moment is the work of a task, the task has done nothing in it to a manager but go away from
its gate. -/
def Moment.OnlyAbandons (task : TaskId) (id : ManagerId) (earlier later : Moment) : Prop :=
  ∀ me, later.actor = some me → me.task = task → earlier.world.Abandons task id later.world

section Moments

variable {task : TaskId} {id : ManagerId} {actor : Option RefreshCall} {worlds : List World}

/-- What others do is not the work of a task. -/
private theorem onlyAbandons_of_other (hother : ∀ me, actor = some me → me.task ≠ task)
    (present : Moment) :
    (present :: worlds.map (Moment.made actor)).IsChain (Moment.OnlyAbandons task id) := by
  induction worlds generalizing present with
  | nil => exact .singleton _
  | cons world rest ih =>
    exact .cons_cons (fun me hme htask => absurd htask (hother me hme)) (ih _)

/-- If a turn does nothing but abandon the call of a task, its moments do nothing else. -/
private theorem onlyAbandons_of_abandons (present : Moment)
    (h : (present.world :: worlds).IsChain (World.Abandons task id)) :
    (present :: worlds.map (Moment.made actor)).IsChain (Moment.OnlyAbandons task id) := by
  induction worlds generalizing present with
  | nil => exact .singleton _
  | cons world rest ih =>
    obtain ⟨hfirst, hrest⟩ := List.isChain_cons_cons.mp h
    exact .cons_cons (fun _ _ _ => hfirst) (ih (Moment.made actor world) hrest)

/-- A task that is away from the gate stays away through what others do. -/
private theorem isAway_of_other {story : List Moment} {world after : World}
    (hother : ∀ me, actor = some me → me.task ≠ task)
    (hstory : (story ++ worlds.map (Moment.made actor)).IsChain Moment.Follows)
    (hpresent : story.getLast?.map Moment.world = some world)
    (hafter : (story ++ worlds.map (Moment.made actor)).getLast?.map Moment.world = some after)
    (haway : (world.manager id).IsAway task) : (after.manager id).IsAway task := by
  have hchain := isChain_elsewhere hother hstory hpresent
  have hlast := present_append hpresent actor worlds
  rw [hafter] at hlast
  rw [Option.some.inj hlast]
  exact List.IsChain.induction (fun world : World => (world.manager id).IsAway task) _ hchain
    (fun _ _ elsewhere => elsewhere.isAway) (fun _ => haway) _ List.getLastD_mem_cons

end Moments

namespace Interplay

variable {interplay stopped last next : Interplay} {id : ManagerId} {task : TaskId} {loop : Task}

/-! ## The last turn of a loop -/

/-- A loop that has its turn is no more afterwards. It is away from the gate, and if it was inside,
the first that waits is inside now and can run. -/
structure FreesGate (interplay : Interplay) (id : ManagerId) (loop : Task) : Prop where
  ended : ∀ other ∈ (interplay.turnOfTask loop).schedule.tasks, other.id ≠ loop.id
  away : ((interplay.turnOfTask loop).schedule.world.manager id).IsAway loop.id
  handsOver : ∀ call, (interplay.schedule.world.manager id).gate.holder = some call →
    call.task = loop.id →
      ((interplay.turnOfTask loop).schedule.world.manager id).gate =
          (interplay.schedule.world.manager id).gate.handOver ∧
        ∀ first, (interplay.schedule.world.manager id).gate.handOver.holder = some first →
          first.task ∈ (interplay.turnOfTask loop).schedule.ready

/-- Whoever is inside the gate and breaks off hands it over. -/
private theorem gate_abandon {manager : TokenManager} {call : RefreshCall}
    (h : manager.gate.holder = some call) :
    (manager.abandon call.task).gate = manager.gate.handOver := by
  have hfound : manager.gate.callers.find? (·.task = call.task) = some call := by
    simp [Gate.callers, h]
  simp [TokenManager.abandon, hfound, TokenManager.leave, TokenManager.conclude, Gate.leave, h]

/-- The last turn of a loop that is aborted. -/
theorem Sound.turnOfAborted (sound : interplay.Sound none)
    (hloop : loop ∈ interplay.schedule.tasks) (hjob : loop.job = .background id)
    (haborted : loop.aborted = true) :
    interplay.FreesGate id loop ∧
      (interplay.schedule.world ::
        (interplay.schedule.resume loop.id).passedOfTask loop).IsChain
          (World.Abandons loop.id id) := by
  have hknown : id < interplay.schedule.world.managers.length := by
    have h := sound.orderly.known loop hloop
    rwa [hjob] at h
  obtain ⟨after, hturn, hchain, hgate, hready⟩ :=
    Schedule.turn_abandon loop.id (interplay.schedule.resume loop.id) hknown
  have hnext : (interplay.turnOfTask loop).schedule = after.remove loop.id := by
    have hcleanUp : loop.job.cleanUp = id.abandon := by rw [hjob]; rfl
    simp only [Interplay.turnOfTask, Interplay.pass, Schedule.turnOfTask, haborted, if_true,
      Schedule.breakOff, hcleanUp, hturn]
  have hpassed : (interplay.schedule.resume loop.id).passedOfTask loop =
      (interplay.schedule.resume loop.id).passed loop.id id.abandon := by
    have hcleanUp : loop.job.cleanUp = id.abandon := by rw [hjob]; rfl
    simp only [Schedule.passedOfTask, haborted, if_true, hcleanUp]
  have haway : ((interplay.turnOfTask loop).schedule.world.manager id).IsAway loop.id := by
    rw [hnext]
    have hcoherent := sound.orderly.sound.coherent id
    have habandoned := hcoherent.isAway_abandon loop.id
    unfold TokenManager.IsAway at habandoned ⊢
    rw [Schedule.remove, hgate]
    exact habandoned
  refine ⟨⟨?_, haway, ?_⟩, hpassed ▸ hchain⟩
  · intro other hother
    rw [hnext] at hother
    simpa using (List.mem_filter.mp hother).2
  · intro call hcall htask
    have hhanded : ((interplay.schedule.world.manager id).abandon loop.id).gate =
        (interplay.schedule.world.manager id).gate.handOver := htask ▸ gate_abandon hcall
    have hgate' : ((interplay.turnOfTask loop).schedule.world.manager id).gate =
        (interplay.schedule.world.manager id).gate.handOver := by
      rw [hnext]
      exact hgate.trans hhanded
    refine ⟨hgate', fun first hfirst => ?_⟩
    have hne : first.task ≠ loop.id :=
      haway first (Gate.mem_callers.mpr (.inl (hgate' ▸ hfirst)))
    have hbefore : (interplay.schedule.world.manager id).admitted? = some loop.id := by
      simp [TokenManager.admitted?, hcall, htask]
    have hafter : ((interplay.schedule.world.manager id).abandon loop.id).admitted? =
        some first.task := by simp [TokenManager.admitted?, hhanded, hfirst]
    have hwoken := hready first.task hafter (by
      intro h
      exact hne (Option.some.inj (h.symm.trans hbefore)))
    rw [hnext]
    exact List.mem_filter.mpr ⟨hwoken, by simpa using hne⟩

/-! ## From then on -/

/-- Callers stay who they are while the world changes. -/
theorem task_ne_of_pass (hclients : ∀ client ∈ last.clients, client.task ≠ task)
    (actor : Option RefreshCall) (worlds : List World) (schedule : Schedule) :
    ∀ client ∈ (last.pass actor worlds schedule).clients, client.task ≠ task := by
  intro client hclient
  obtain ⟨before, hbefore, rfl⟩ := List.mem_map.mp hclient
  rw [Client.task_watch]
  exact hclients before hbefore

/-- A step is the turn of a certain task, or the work of others that leaves the task where it is. -/
theorem Step.turn_or_retains (step : Step last next) (hborn : task < last.schedule.fresh)
    (hclients : ∀ client ∈ last.clients, client.task ≠ task) :
    (∃ loop ∈ last.schedule.tasks, loop.id = task ∧ loop.id ∈ last.schedule.ready ∧
        next = last.turnOfTask loop) ∨
      last.schedule.Retains next.schedule task ∧ (∀ client ∈ next.clients, client.task ≠ task) ∧
        ∃ (actor : Option RefreshCall) (worlds : List World),
          next.story = last.story ++ worlds.map (Moment.made actor) ∧
            ∀ me, actor = some me → me.task ≠ task := by
  have hwatched (worlds : List World) : ∀ client ∈ last.clients.map (·.watch worlds),
      client.task ≠ task :=
    task_ne_of_pass hclients none worlds last.schedule
  have hact {present : Interplay} {client : Client} {rest : Activity Reply}
      (hpresent : ∀ other ∈ present.clients, other.task ≠ task) :
      ∀ other ∈ (present.act client rest).clients, other.task ≠ task := by
    intro other hother
    obtain ⟨watched, hwatched, rfl⟩ := List.mem_map.mp hother
    obtain ⟨before, hbefore, rfl⟩ := List.mem_map.mp hwatched
    have hne := hpresent before hbefore
    split
    · simpa using hne
    · simpa using hne
  have hturn {α : Type} (me : TaskId) (activity : Activity α) (schedule : Schedule) :=
    (Schedule.advances_turn me activity schedule).retains task
  have hresume (id : TaskId) : last.schedule.Retains (last.schedule.resume id) task :=
    Schedule.retains_of_tasks_eq (Nat.le_refl _) rfl
  cases step with
  | @turnOfClient client rest hclient hstate _ =>
    refine .inr ⟨(hresume client.task).trans (hturn _ _ _), hact hclients, _, _, rfl, ?_⟩
    rintro _ ⟨⟩
    exact hclients client hclient
  | @turnOfTask other hother hready =>
    by_cases hid : other.id = task
    · exact .inl ⟨other, hother, hid, hready, rfl⟩
    · refine .inr ⟨(hresume other.id).trans (Schedule.retains_turnOfTask _ hid), hwatched _,
        _, _, rfl, ?_⟩
      rintro _ ⟨⟩
      exact hid
  | elapse _ =>
    obtain ⟨htasks, hfresh, -⟩ := Schedule.elapse_keeps last.schedule _
    exact .inr ⟨Schedule.retains_of_tasks_eq (Nat.le_of_eq hfresh.symm) htasks, hwatched _,
      _, _, rfl, by simp⟩
  | disturb _ _ =>
    exact .inr ⟨Schedule.retains_of_tasks_eq (Nat.le_refl _) rfl, hwatched _, _, _, rfl,
      by simp⟩
  | @call operation _ =>
    have hcame : last.schedule.Retains last.schedule.takeName task :=
      Schedule.retains_of_tasks_eq (Nat.le_succ _) rfl
    refine .inr ⟨hcame.trans (hturn _ _ _), hact ?_, _, _, rfl, ?_⟩
    · intro client hclient
      rcases List.mem_append.mp hclient with hbefore | hnew
      · exact hclients client hbefore
      · rw [List.mem_singleton.mp hnew]
        exact Nat.ne_of_gt hborn
    · rintro _ ⟨⟩
      exact Nat.ne_of_gt hborn
  | @drop client hclient _ =>
    have hne := hclients client hclient
    refine .inr ⟨((hresume client.task).trans (hturn _ _ _)).trans (Schedule.retains_remove _ hne),
      fun other hother => hwatched _ other (List.mem_of_mem_filter hother), _, _, rfl, ?_⟩
    rintro _ ⟨⟩
    exact hne

/-- A loop has been given up in `stopped`; this is what has come of it in `later`. -/
structure Discarded (stopped later : Interplay) (id : ManagerId) (task : TaskId) : Prop where
  born : task < later.schedule.fresh
  clients : ∀ client ∈ later.clients, client.task ≠ task
  aborted : ∀ loop ∈ later.schedule.tasks, loop.id = task →
    loop.aborted = true ∧ loop.job = .background id
  away : (∀ loop ∈ later.schedule.tasks, loop.id ≠ task) →
    (later.schedule.world.manager id).IsAway task
  story : stopped.story <+: later.story
  moments : ∀ (k : Nat) (earlier after : Moment), stopped.story.length ≤ k + 1 →
    later.story[k]? = some earlier → later.story[k + 1]? = some after →
      earlier.OnlyAbandons task id after

/-- A loop that has been given up remains so. -/
theorem Discarded.step (discarded : Discarded stopped last id task) (sound : last.Sound none)
    (step : Step last next) : Discarded stopped next id task := by
  obtain ⟨present, hpresent, hworld⟩ := Option.map_eq_some_iff.mp sound.present
  have hmoments {more : List Moment} (hstory : next.story = last.story ++ more)
      (hmore : (present :: more).IsChain (Moment.OnlyAbandons task id)) :
      ∀ (k : Nat) (earlier after : Moment), stopped.story.length ≤ k + 1 →
        next.story[k]? = some earlier → next.story[k + 1]? = some after →
          earlier.OnlyAbandons task id after := by
    intro k earlier after hk hearlier hafter
    rw [hstory] at hearlier hafter
    by_cases hold : k + 1 < last.story.length
    · rw [List.getElem?_append_left (Nat.lt_of_succ_lt hold)] at hearlier
      rw [List.getElem?_append_left hold] at hafter
      exact discarded.moments k earlier after hk hearlier hafter
    · exact isChain_append_elim hpresent hmore (Nat.le_of_not_lt hold) hearlier hafter
  rcases step.turn_or_retains discarded.born discarded.clients with
    ⟨loop, hloop, rfl, hready, rfl⟩ | ⟨hretains, hclients, actor, worlds, hstory, hother⟩
  · obtain ⟨haborted, hjob⟩ := discarded.aborted loop hloop rfl
    obtain ⟨hfrees, hchain⟩ := sound.turnOfAborted hloop hjob haborted
    have hmoves := Schedule.Orderly.turnOfTask sound.orderly sound.resumable hloop (.inl hready)
    exact {
      born := Nat.lt_of_lt_of_le discarded.born hmoves.continues.fresh
      clients := task_ne_of_pass discarded.clients _ _ _
      aborted := fun other hother hid => absurd hid (hfrees.ended other hother)
      away := fun _ => hfrees.away
      story := discarded.story.trans (List.prefix_append _ _)
      moments := hmoments rfl (onlyAbandons_of_abandons present (hworld ▸ hchain)) }
  · exact {
      born := Nat.lt_of_lt_of_le discarded.born hretains.fresh
      clients := hclients
      aborted := fun loop hloop hid => by
        obtain ⟨before, hbefore, hbecomes⟩ := hretains.origin loop hloop hid discarded.born
        obtain ⟨haborted, hjob⟩ := discarded.aborted before hbefore (hbecomes.id_eq.symm.trans hid)
        exact ⟨hbecomes.aborted haborted, hbecomes.job_eq.trans hjob⟩
      away := fun hgone => by
        have hbefore : ∀ loop ∈ last.schedule.tasks, loop.id ≠ task := by
          intro loop hloop hid
          obtain ⟨after, hafter, hbecomes⟩ := hretains.kept loop hloop hid
          exact hgone after hafter (hbecomes.id_eq.trans hid)
        have hnext := step.sound sound
        exact isAway_of_other hother (hstory ▸ hnext.story) sound.present
          (hstory ▸ hnext.present) (discarded.away hbefore)
      story := discarded.story.trans (hstory ▸ List.prefix_append _ _)
      moments := hmoments hstory (onlyAbandons_of_other hother present) }

/-- A loop that is discarded stays so in a run. -/
theorem Discarded.runs (discarded : Discarded stopped last id task) (sound : last.Sound none)
    (runs : last.Runs next) : Discarded stopped next id task := by
  induction runs with
  | refl => exact discarded
  | step runs step ih => exact ih.step (runs.sound sound) step

end Interplay

end CloudSession
