import CloudSession.Proofs.Activity.Contract
import CloudSession.Proofs.Schedule.Asleep

/-!
# The attempts of a loop

A loop of background refresh is at the gate from the beginning of an attempt to its end, which is
the last thing that it writes in that turn. Then the round is over, or the loop waits for the next
one: it can run again at once without a token, and with one it sleeps for the minimum wait at least.
-/

namespace CloudSession

open Activity

/-! ## Inside the gate -/

/-- No cached token will do for a new one. -/
theorem TokenManager.usable?_renew (manager : TokenManager) (now : Instant) :
    manager.usable? .renew now = .ok none := by
  unfold usable?
  cases manager.token <;> rfl

/-- Whatever a task writes, and wherever it waits, it is at the gate of a manager. -/
def ManagerId.atGate (id : ManagerId) (me : TaskId) : Contract where
  write world _ := ¬(world.manager id).IsAway me
  rest world := ¬(world.manager id).IsAway me

/-- A task is at the gate of a manager until the last write of what it has left to do. -/
def ManagerId.StaysUntil {α : Type} (id : ManagerId) (me : TaskId) (activity : Activity α) : Prop :=
  ∀ world, ¬(world.manager id).IsAway me → activity.Meets me (id.atGate me) (fun _ _ => True) world

section Gate

variable {id : ManagerId} {me : TaskId} {call : RefreshCall} {world : World}

/-- Whoever is at the gate still is while the token source is asked. -/
private theorem not_isAway_beginIssue (h : ¬(world.manager id).IsAway me) :
    ¬((world.beginIssue id call).1.manager id).IsAway me := by
  have hbeside := World.beside_issue world (world.managed id).issuer
  unfold World.beginIssue
  rw [World.manager_alterManager]
  split
  · rw [hbeside.manager]
    exact h
  · rwa [hbeside.manager]

/-- Whoever asks the token source is at the gate until the call is settled. -/
theorem ManagerId.staysUntil_refreshInside (id : ManagerId) (me : TaskId) (call : RefreshCall) :
    id.StaysUntil me (id.refreshInside call) := by
  intro world hthere
  unfold refreshInside
  refine meets_bind.mpr (meets_world.mpr (meets_bind.mpr (meets_update.mpr ⟨hthere, ?_⟩)))
  have hasked : ¬((world.beginIssue id call).1.manager id).IsAway me :=
    not_isAway_beginIssue hthere
  have hend (answer : Except TokenError Token) (later : World)
      (hlater : ¬(later.manager id).IsAway me) :
      ((id.alterAndWake fun manager => manager.settle call answer) >>= fun _ =>
        pure answer).Meets me (id.atGate me) (fun _ _ => True) later := by
    unfold alterAndWake
    refine meets_bind.mpr (meets_bind.mpr (meets_world.mpr (meets_bind.mpr
      (meets_modify.mpr ⟨hlater, ?_⟩))))
    split
    · exact meets_notify.mpr trivial
    · trivial
  have hanswer (answer : Except TokenError Token) (later : World)
      (hlater : ¬(later.manager id).IsAway me) :
      (do
        if answer.toOption.isNone then
          Activity.modify fun world => world.warn .refreshFailed
        id.alterAndWake fun manager => manager.settle call answer
        return answer : Activity (Except TokenError Token)).Meets me (id.atGate me)
          (fun _ _ => True) later := by
    dsimp only
    split
    · refine meets_bind.mpr (meets_modify.mpr ⟨hlater, hend answer _ ?_⟩)
      rwa [(World.beside_warn later .refreshFailed).manager]
    · exact hend answer later hlater
  refine meets_bind.mpr ?_
  have harrived (later : World) (hlater : ¬(later.manager id).IsAway me) :
      ¬((((world.beginIssue id call).2.arrive later).1).manager id).IsAway me := by
    have hbeside := World.beside_arrive world later (world.managed id).issuer
    rwa [World.beginIssue, hbeside.manager]
  unfold awaitToken
  split
  · exact meets_await.mpr
      ⟨hasked, fun later hlater => ⟨hlater, hanswer _ _ (harrived later hlater)⟩⟩
  · refine meets_bind.mpr (meets_world.mpr (meets_bind.mpr (meets_pause.mpr
      ⟨hasked, fun later hlater => meets_bind.mpr (meets_world.mpr ?_)⟩)))
    split
    · exact meets_update.mpr ⟨hlater, hanswer _ _ (harrived later hlater)⟩
    · exact hanswer _ later hlater

/-- Passes the gate, once it has arrived there, and refreshes the token. -/
def ManagerId.enter (id : ManagerId) (call : RefreshCall) :
    Activity (Except TokenError Token) := do
  if !((← Activity.world).manager id).admits call then
    Activity.wait
  id.takeOrRefresh call

/-- Whoever wants a new token in any case is at the gate until it has one, or has none. -/
theorem ManagerId.staysUntil_enter (id : ManagerId) (me : TaskId) :
    id.StaysUntil me (id.enter ⟨me, .renew⟩) := by
  have htake (later : World) (hlater : ¬(later.manager id).IsAway me) :
      (id.takeOrRefresh ⟨me, .renew⟩).Meets me (id.atGate me) (fun _ _ => True) later := by
    unfold takeOrRefresh
    refine meets_bind.mpr (meets_world.mpr (meets_bind.mpr (meets_check.mpr ⟨?_, ?_⟩)))
    · intro token? husable
      rw [TokenManager.usable?_renew] at husable
      obtain rfl := Except.ok.inj husable
      exact staysUntil_refreshInside id me _ later hlater
    · rw [TokenManager.usable?_renew]
      rintro ⟨⟩
  intro world hthere
  unfold enter
  refine meets_bind.mpr (meets_world.mpr ?_)
  dsimp only
  split
  · exact meets_bind.mpr (meets_wait.mpr ⟨hthere, fun later hlater => htake later hlater⟩)
  · exact htake world hthere

end Gate

/-! ## The end of an attempt -/

/-- What a loop does in a round once its attempt has ended. -/
def ManagerId.afterRefresh (id : ManagerId) : Activity (Option Job) := do
  if !(← id.isInUse) then
    return none
  id.awaitRound

/-- A round ends at once if the manager is no longer in use; else it refreshes the token and looks
again. -/
theorem ManagerId.backgroundRound_eq (id : ManagerId) :
    id.backgroundRound = id.isInUse >>= fun inUse =>
      if !inUse then pure none else id.refresh >>= fun _ => id.afterRefresh :=
  rfl

/-- The wait for the next round: there is none without a token, and with one it is long enough. -/
theorem TokenManager.backgroundWait_cases {manager : TokenManager} {now : Instant} {wait : Span}
    (h : manager.backgroundWait now = .ok wait) :
    manager.token = none ∧ wait = Span.zero ∨
      manager.token ≠ none ∧ minimumWait.nanos ≤ wait.nanos := by
  unfold backgroundWait at h
  cases htoken : manager.token with
  | none =>
    rw [htoken] at h
    exact .inl ⟨rfl, (Except.ok.inj h).symm⟩
  | some token =>
    rw [htoken] at h
    refine .inr ⟨by simp, ?_⟩
    cases htime : manager.policy.advisoryTime token with
    | error fault => simp [htime, bind, Except.bind] at h
    | ok time =>
      simp only [htime, bind, Except.bind, pure, Except.pure, Except.ok.injEq] at h
      rw [← h]
      split
      · exact Nat.le_refl _
      · omega

namespace Schedule

variable {schedule : Schedule} {id : ManagerId} {me : TaskId}

/-- Where a loop waits between its attempts: it can run again at once without a token, and with one
it sleeps long enough. -/
inductive RestsFrom (schedule : Schedule) (id : ManagerId) (me : TaskId) : Schedule → Prop
  | again : (schedule.world.manager id).token = none → schedule.RestsFrom id me (schedule.wake me)
  | sleeps (due : Span) : (schedule.world.manager id).token ≠ none →
      schedule.world.elapsed.nanos + TokenManager.minimumWait.nanos ≤ due.nanos →
      schedule.RestsFrom id me { schedule with timers := schedule.timers ++ [{ due, task := me }] }

/-- How a round ends, after its attempt. -/
inductive RoundEnds (schedule : Schedule) (id : ManagerId) (me : TaskId) :
    Schedule × Turn (Option Job) → Prop
  | finished : schedule.RoundEnds id me (schedule, .finished none)
  | fails (fault : Overflow) : schedule.RoundEnds id me (schedule, .failed fault)
  | rests {after : Schedule} : schedule.RestsFrom id me after →
      schedule.RoundEnds id me (after, .waiting (pure (some (.round id))))

/-- Whether a manager is in use is only looked up; it is, unless its owner is done with it. -/
theorem isInUse_bind {α : Type} (me : TaskId) (id : ManagerId) (f : Bool → Activity α)
    (schedule : Schedule) :
    ∃ inUse, ((schedule.world.managed id).dropped = false → inUse = true) ∧
      schedule.turn me (id.isInUse >>= f) = schedule.turn me (f inUse) ∧
      schedule.passed me (id.isInUse >>= f) = schedule.passed me (f inUse) ∧
      ∀ {call : RefreshCall} {post : α → History → Prop} {history : History},
        history.now = schedule.world → (id.isInUse >>= f).Behaves call post history →
          (f inUse).Behaves call post history := by
  refine ⟨_, fun h => ?_, rfl, rfl, fun {call post history} hnow behaves => ?_⟩
  · simp [h]
  · rw [← hnow]
    exact behaves

/-- To wait for the next round ends a round, and writes nothing. -/
theorem roundEnds_awaitRound (me : TaskId) (id : ManagerId) (schedule : Schedule) :
    schedule.passed me id.awaitRound = [] ∧
      schedule.RoundEnds id me (schedule.turn me id.awaitRound) := by
  cases hwait : (schedule.world.manager id).backgroundWait schedule.world.now with
  | error fault =>
    have hturn : schedule.turn me id.backgroundWait = (schedule, .failed fault) := by
      unfold ManagerId.backgroundWait
      simp only [bind, Activity.bind, Activity.world, turn, hwait, Activity.check]
    have hpassed : schedule.passed me id.backgroundWait = [] := by
      unfold ManagerId.backgroundWait
      simp only [bind, Activity.bind, Activity.world, passed, hwait, Activity.check]
    unfold ManagerId.awaitRound
    rw [turn_bind, passed_bind, hturn, hpassed]
    exact ⟨rfl, .fails fault⟩
  | ok wait =>
    have hturn : schedule.turn me id.backgroundWait = (schedule, .finished wait) := by
      unfold ManagerId.backgroundWait
      simp only [bind, Activity.bind, Activity.world, turn, hwait, Activity.check]
    have hpassed : schedule.passed me id.backgroundWait = [] := by
      unfold ManagerId.backgroundWait
      simp only [bind, Activity.bind, Activity.world, passed, hwait, Activity.check]
    unfold ManagerId.awaitRound
    rw [turn_bind_of_finished hturn, passed_bind_of_finished hturn, hpassed]
    dsimp only
    obtain ⟨hnone, rfl⟩ | ⟨hsome, hlong⟩ := TokenManager.backgroundWait_cases hwait
    · rw [if_pos rfl]
      exact ⟨rfl, .rests (.again hnone)⟩
    · have hne : wait ≠ Span.zero := by
        rintro rfl
        exact absurd hlong (by decide)
      rw [if_neg hne]
      simp only [bind, Activity.bind, Activity.pause, turn, passed, if_neg hne]
      exact ⟨rfl, .rests (.sleeps _ hsome (Nat.add_le_add_left hlong _))⟩

/-- Once its attempt has ended, the round is over, or the loop waits for the next one. -/
theorem roundEnds_afterRefresh (me : TaskId) (id : ManagerId) (schedule : Schedule) :
    schedule.passed me id.afterRefresh = [] ∧
      schedule.RoundEnds id me (schedule.turn me id.afterRefresh) := by
  unfold ManagerId.afterRefresh
  obtain ⟨inUse, -, hturn, hpassed, -⟩ := isInUse_bind me id _ schedule
  rw [hturn, hpassed]
  cases inUse with
  | false => exact ⟨rfl, .finished⟩
  | true => exact roundEnds_awaitRound me id schedule

/-! ## The turns of a loop -/

/-- Where a loop is once it has ended an attempt: it can run without a token, and with one it sleeps
for the minimum wait at least. -/
structure IsPaced (schedule : Schedule) (id : ManagerId) (me : TaskId) : Prop where
  restless : (schedule.world.manager id).token = none → me ∈ schedule.ready
  asleep : (schedule.world.manager id).token ≠ none → schedule.IsAborted me ∨
    schedule.IsAsleep me (schedule.world.elapsed.nanos + TokenManager.minimumWait.nanos)

/-- Where a loop is left to rest, the world is as it was. -/
theorem RestsFrom.world {after : Schedule} (rests : schedule.RestsFrom id me after) :
    after.world = schedule.world := by
  cases rests with
  | again _ => exact wake_world schedule me
  | sleeps _ _ _ => rfl

/-- A loop that is left to rest is woken some time. -/
theorem RestsFrom.isWoken {after : Schedule} (rests : schedule.RestsFrom id me after) :
    after.IsWoken me := by
  cases rests with
  | again _ => exact .inl (mem_ready_wake.mpr (.inr rfl))
  | sleeps due _ _ => exact .inr ⟨_, List.mem_append_right _ (List.mem_singleton_self _), rfl⟩

/-- A loop that is left to rest keeps its pace. -/
theorem RestsFrom.isPaced {after : Schedule} (rests : schedule.RestsFrom id me after)
    (hready : me ∈ schedule.ready → schedule.IsAborted me)
    (htimers : ∀ timer ∈ schedule.timers, timer.task ≠ me) : after.IsPaced id me := by
  cases rests with
  | again hnone =>
    refine ⟨fun _ => mem_ready_wake.mpr (.inr rfl), fun hsome => absurd ?_ hsome⟩
    rwa [wake_world]
  | sleeps due hsome hdue =>
    refine ⟨fun hnone => absurd hnone hsome, fun _ => ?_⟩
    by_cases hmem : me ∈ schedule.ready
    · exact .inl (hready hmem)
    · refine .inr ⟨hmem, fun timer htimer hid => ?_⟩
      rcases List.mem_append.mp htimer with hbefore | hnew
      · exact absurd hid (htimers timer hbefore)
      · rw [List.mem_singleton.mp hnew]
        exact hdue

/-- What comes of a turn in which a loop is at the gate: it is there until its last write. -/
structure Attempts (schedule : Schedule) (id : ManagerId) (me : TaskId) (worlds : List World)
    (result : Schedule × Turn (Option Job)) : Prop where
  there : (schedule.world :: worlds).IsChain fun world _ => ¬(world.manager id).IsAway me
  waits : ∀ rest, result.2 = .waiting rest →
    (∃ refresh : Activity (Except TokenError Token), rest = (refresh >>= fun _ => id.afterRefresh) ∧
        id.StaysUntil me refresh ∧ ¬(result.1.world.manager id).IsAway me) ∨
      rest = pure (some (.round id)) ∧ result.1.IsWoken me ∧ result.1.IsPaced id me
  ends : ∀ next, result.2 = .finished next → next = none

/-- The turn of a loop that is at the gate. -/
theorem attempts_turn {refresh : Activity (Except TokenError Token)} {purpose : Purpose}
    {post : Option Job → History → Prop} {history : History} (stays : id.StaysUntil me refresh)
    (there : ¬(schedule.world.manager id).IsAway me)
    (behaves : (refresh >>= fun _ => id.afterRefresh).Behaves ⟨me, purpose⟩ post history)
    (hnow : history.now = schedule.world) (hborn : me < schedule.fresh)
    (hready : me ∉ schedule.ready) (htimers : ∀ timer ∈ schedule.timers, timer.task ≠ me) :
    schedule.Attempts id me (schedule.passed me (refresh >>= fun _ => id.afterRefresh))
      (schedule.turn me (refresh >>= fun _ => id.afterRefresh)) := by
  obtain ⟨hchain, hends⟩ := (stays schedule.world there).turn
  have hready' (hover : ∀ rest, (schedule.turn me refresh).2 ≠ .waiting rest)
      (hmem : me ∈ (schedule.turn me refresh).1.ready) :
      (schedule.turn me refresh).1.IsAborted me :=
    (ready_of_turn (behaves_bind.mp behaves) hnow hborn (fun hne => absurd rfl hne)
      (fun _ => hover) hmem).resolve_left hready
  have htimers' (hover : ∀ rest, (schedule.turn me refresh).2 ≠ .waiting rest) :
      ∀ timer ∈ (schedule.turn me refresh).1.timers, timer.task ≠ me := by
    intro timer htimer
    rcases timers_of_turn me refresh schedule timer htimer with hbefore | ⟨-, rest, hrest⟩
    · exact htimers timer hbefore
    · exact absurd hrest (hover rest)
  rw [turn_bind, passed_bind]
  rcases heq : schedule.turn me refresh with ⟨next, ending⟩
  rw [heq] at hends hready' htimers'
  cases ending with
  | failed fault =>
    dsimp only
    rw [List.append_nil]
    exact ⟨hchain, by simp, by simp⟩
  | waiting rest =>
    dsimp only
    rw [List.append_nil]
    refine ⟨hchain, ?_, by simp⟩
    rintro _ ⟨⟩
    exact .inl ⟨rest, rfl, hends.2, hends.1⟩
  | finished answer =>
    dsimp only
    obtain ⟨hnone, hround⟩ := roundEnds_afterRefresh me id next
    rw [hnone, List.append_nil]
    rcases hresult : next.turn me id.afterRefresh with ⟨after, last⟩
    rw [hresult] at hround
    refine ⟨hchain, ?_, ?_⟩
    · rintro rest rfl
      cases hround with
      | rests hrests =>
        exact .inr ⟨rfl, hrests.isWoken, hrests.isPaced (hready' (by simp)) (htimers' (by simp))⟩
    · rintro job rfl
      cases hround with
      | finished => rfl

/-- The turn in which a loop begins an attempt, unless nobody uses the manager any more. -/
theorem attempts_backgroundRound {purpose : Purpose} {post : Option Job → History → Prop}
    {history : History} (known : id < schedule.world.managers.length)
    (behaves : id.backgroundRound.Behaves ⟨me, purpose⟩ post history)
    (hnow : history.now = schedule.world) (hborn : me < schedule.fresh)
    (hready : me ∉ schedule.ready) (htimers : ∀ timer ∈ schedule.timers, timer.task ≠ me) :
    (schedule.world.managed id).dropped = true ∧
        schedule.turn me id.backgroundRound = (schedule, .finished none) ∧
        schedule.passed me id.backgroundRound = [] ∨
      ∃ arrived worlds, ¬(arrived.manager id).IsAway me ∧
        schedule.passed me id.backgroundRound = arrived :: worlds ∧
        ({ schedule with world := arrived } : Schedule).Attempts id me worlds
          (schedule.turn me id.backgroundRound) := by
  rw [ManagerId.backgroundRound_eq] at behaves ⊢
  obtain ⟨inUse, hdropped, hturn, hpassed, hbehaves⟩ := isInUse_bind me id
    (fun inUse => if !inUse then pure none else id.refresh >>= fun _ => id.afterRefresh) schedule
  have hround := hbehaves hnow behaves
  rw [hturn, hpassed]
  cases inUse with
  | false =>
    refine .inl ⟨?_, rfl, rfl⟩
    by_contra hused
    cases hdropped (by simpa using hused)
  | true =>
    let arrived := schedule.world.alterManager id (·.arrive ⟨me, .renew⟩)
    have hthere : ¬(arrived.manager id).IsAway me := by
      intro haway
      rw [World.manager_alterManager, if_pos ⟨rfl, known⟩] at haway
      exact haway ⟨me, .renew⟩
        ((Gate.arrive_callers_perm _ _).mem_iff.mpr List.mem_cons_self) rfl
    have henter : (id.enter ⟨me, .renew⟩ >>= fun _ => id.afterRefresh).Behaves ⟨me, purpose⟩ post
        (history.after arrived) := by
      have hboth := hround.2
      rw [hnow] at hboth
      exact hboth
    exact .inr ⟨arrived, _, hthere, rfl, attempts_turn (id.staysUntil_enter me) hthere henter rfl
      hborn hready htimers⟩

end Schedule

end CloudSession
