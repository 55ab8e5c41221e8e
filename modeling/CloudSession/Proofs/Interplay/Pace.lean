import CloudSession.Proofs.Interplay.Bystander
import CloudSession.Proofs.Interplay.Lifecycle

/-!
# The pace of background refresh

An attempt of a loop begins when the loop arrives at the gate of its manager, and it ends when the
loop has gone away from there. From the end of an attempt to the beginning of the next, the minimum
wait passes, if a token is cached when the attempt ends. If none is, the loop can run at once, and
no time need pass until the next attempt.
-/

namespace CloudSession

section Lists

variable {α : Type} {R : α → α → Prop} {xs new : List α} {present a b : α} {k : Nat}

/-- Neighbours in a chain are related. -/
private theorem isChain_getElem? (h : xs.IsChain R) (ha : xs[k]? = some a)
    (hb : xs[k + 1]? = some b) : R a b := by
  obtain ⟨hk, rfl⟩ := List.getElem?_eq_some_iff.mp ha
  obtain ⟨hk', rfl⟩ := List.getElem?_eq_some_iff.mp hb
  exact List.isChain_iff_getElem.mp h k hk'

/-- Two items that follow one another are old, or the second of them is new. -/
private theorem consecutive_append (hpresent : xs.getLast? = some present)
    (ha : (xs ++ new)[k]? = some a) (hb : (xs ++ new)[k + 1]? = some b) :
    xs[k]? = some a ∧ xs[k + 1]? = some b ∨
      ∃ j, k + 1 = xs.length + j ∧ (present :: new)[j]? = some a ∧ new[j]? = some b := by
  by_cases hk : k + 1 < xs.length
  · rw [List.getElem?_append_left (Nat.lt_of_succ_lt hk)] at ha
    rw [List.getElem?_append_left hk] at hb
    exact .inl ⟨ha, hb⟩
  · obtain ⟨j, hj⟩ := Nat.exists_eq_add_of_le (Nat.le_of_not_lt hk)
    refine .inr ⟨j, hj, ?_, ?_⟩
    · obtain ⟨before, rfl⟩ := List.getLast?_eq_some_iff.mp hpresent
      have hkj : k = before.length + j := by
        rw [List.length_append, List.length_singleton] at hj
        omega
      rw [List.append_assoc, List.getElem?_append_right (by omega)] at ha
      rwa [hkj, Nat.add_sub_cancel_left] at ha
    · rw [List.getElem?_append_right (by omega), hj, Nat.add_sub_cancel_left] at hb
      exact hb

/-- If nothing follows what has a property, then whatever has it is the last. -/
private theorem getLastD_of_isChain {P : α → Prop} (h : xs.IsChain fun x _ => ¬P x)
    (ha : xs[k]? = some a) (hlast : P a) (default : α) : xs.getLastD default = a := by
  obtain ⟨hk, rfl⟩ := List.getElem?_eq_some_iff.mp ha
  have hend : k + 1 = xs.length := by
    by_contra hne
    exact isChain_getElem? h ha (List.getElem?_eq_getElem (by omega : k + 1 < xs.length)) hlast
  rw [List.getLastD_eq_getLast?, List.getLast?_eq_getElem?, ← hend, Nat.add_sub_cancel, ha]
  rfl

end Lists

/-- Whether a task is away from a gate can be computed. -/
instance (manager : TokenManager) (task : TaskId) : Decidable (manager.IsAway task) :=
  inferInstanceAs (Decidable (∀ other ∈ manager.gate.callers, other.task ≠ task))

namespace ManagerId

/-- A task begins an attempt: it arrives at the gate. -/
def Begins (id : ManagerId) (task : TaskId) (world after : World) : Prop :=
  (world.manager id).IsAway task ∧ ¬(after.manager id).IsAway task

/-- A task ends an attempt: it goes away from the gate. -/
def Ends (id : ManagerId) (task : TaskId) (world after : World) : Prop :=
  ¬(world.manager id).IsAway task ∧ (after.manager id).IsAway task

/-- Whether an attempt begins can be computed. -/
instance (id : ManagerId) (task : TaskId) (world after : World) :
    Decidable (id.Begins task world after) :=
  inferInstanceAs (Decidable (_ ∧ _))

/-- Whether an attempt ends can be computed. -/
instance (id : ManagerId) (task : TaskId) (world after : World) :
    Decidable (id.Ends task world after) :=
  inferInstanceAs (Decidable (_ ∧ _))

end ManagerId

namespace Interplay

variable {interplay last next : Interplay} {id : ManagerId} {task : TaskId}
  {R : World → World → Prop} {new : List World} {k : Nat} {after : World}

/-- The world at all moments so far. -/
def worlds (interplay : Interplay) : List World := interplay.story.map Moment.world

/-- With the moment after the `k`th, the world becomes another one, as `R` says. -/
def Changes (interplay : Interplay) (R : World → World → Prop) (k : Nat) (after : World) : Prop :=
  ∃ before, interplay.worlds[k]? = some before ∧ interplay.worlds[k + 1]? = some after ∧
    R before after

/-- The last world of a run is the present one. -/
theorem Sound.getLast?_worlds {acting : Option TaskId} (sound : interplay.Sound acting) :
    interplay.worlds.getLast? = some interplay.schedule.world := by
  rw [worlds, List.getLast?_map, sound.present]

/-- What neighbouring worlds are related by is a change. -/
theorem changes_getD (h : k + 1 < interplay.worlds.length)
    (hchange : R (interplay.worlds.getD k {}) (interplay.worlds.getD (k + 1) {})) :
    interplay.Changes R k (interplay.worlds.getD (k + 1) {}) := by
  refine ⟨_, ?_, ?_, hchange⟩
  · rw [← List.getElem_eq_getD (h := Nat.lt_of_succ_lt h), List.getElem?_eq_getElem]
  · rw [← List.getElem_eq_getD (h := h), List.getElem?_eq_getElem]

/-- A change was there before, or is one of the new. -/
theorem Changes.cases (changes : next.Changes R k after)
    (hworlds : next.worlds = last.worlds ++ new)
    (hpresent : last.worlds.getLast? = some last.schedule.world) :
    last.Changes R k after ∨ ∃ j before, k + 1 = last.worlds.length + j ∧
      (last.schedule.world :: new)[j]? = some before ∧ new[j]? = some after ∧ R before after := by
  obtain ⟨before, hbefore, hafter, hchange⟩ := changes
  rw [hworlds] at hbefore hafter
  rcases consecutive_append hpresent hbefore hafter with ⟨hold, hold'⟩ | ⟨j, hj, hfirst, hsecond⟩
  · exact .inl ⟨before, hold, hold', hchange⟩
  · exact .inr ⟨j, before, hj, hfirst, hsecond, hchange⟩

/-- A change is between two worlds of the run. -/
theorem Changes.lt_length (changes : interplay.Changes R k after) :
    k + 1 < interplay.worlds.length := by
  obtain ⟨-, -, hafter, -⟩ := changes
  exact (List.getElem?_eq_some_iff.mp hafter).1

/-- Where no new moment brings such a change about, it was there before. -/
theorem Changes.of_isChain (changes : next.Changes R k after)
    (hworlds : next.worlds = last.worlds ++ new)
    (hpresent : last.worlds.getLast? = some last.schedule.world)
    (hnone : (last.schedule.world :: new).IsChain fun world after => ¬R world after) :
    last.Changes R k after := by
  rcases changes.cases hworlds hpresent with hold | ⟨j, before, -, hfirst, hsecond, hchange⟩
  · exact hold
  · exact absurd hchange (isChain_getElem? hnone hfirst hsecond)

/-! ## What holds of a loop in a run -/

/-- The next attempt of a loop does not begin before so much time has passed. -/
structure RestsUntil (interplay : Interplay) (id : ManagerId) (task : TaskId) (k due : Nat) :
    Prop where
  begins : ∀ l begun, k < l → interplay.Changes (id.Begins task) l begun → due ≤ begun.elapsed.nanos
  asleep : due ≤ interplay.schedule.world.elapsed.nanos ∨
    ∀ loop ∈ interplay.schedule.tasks, loop.id = task → loop.aborted = false →
      ¬interplay.schedule.world.IsCaller task ∧ interplay.schedule.IsAsleep task due

/-- A loop can run, and then begins its next attempt. -/
def IsPending (interplay : Interplay) (id : ManagerId) (task : TaskId) : Prop :=
  ∀ loop ∈ interplay.schedule.tasks, loop.id = task → loop.aborted = false →
    task ∈ interplay.schedule.ready ∧
      (loop.rest = pure (some (.round id)) ∨ loop.rest = id.backgroundRound)

/-- The time until which a loop rests once it has ended an attempt. -/
def restsUntil (ended : World) : Nat :=
  ended.elapsed.nanos + TokenManager.minimumWait.nanos

/-- What holds of a loop, and of whatever has come of it. -/
structure Paced (interplay : Interplay) (id : ManagerId) (task : TaskId) : Prop where
  born : task < interplay.schedule.fresh
  clients : ∀ client ∈ interplay.clients, client.task ≠ task
  stage : ∀ loop ∈ interplay.schedule.tasks, loop.id = task → loop.job = .background id ∧
    (loop.aborted = false → id.LoopStage task interplay.schedule.world loop.rest)
  rested : ∀ k ended, interplay.Changes (id.Ends task) k ended →
    (ended.manager id).token ≠ none → interplay.RestsUntil id task k (restsUntil ended)
  restless : ∀ k ended, interplay.Changes (id.Ends task) k ended → (ended.manager id).token = none →
    (∀ l world, k < l → interplay.worlds[l]? = some world → (world.manager id).IsAway task) →
      interplay.IsPending id task

/-- What was to be seen can still be seen. -/
private theorem getElem?_worlds {l : Nat} {world : World}
    (hworlds : next.worlds = last.worlds ++ new) (h : last.worlds[l]? = some world) :
    next.worlds[l]? = some world := by
  rw [hworlds, List.getElem?_append_left (List.getElem?_eq_some_iff.mp h).1, h]

/-- What others do does not wake a loop before its time. -/
private theorem RestsUntil.undisturbed {due : Nat} (rests : last.RestsUntil id task k due)
    (orderly : next.schedule.Orderly none)
    (undisturbed : last.schedule.Undisturbed next.schedule task)
    (haway : ¬last.schedule.world.IsCaller task → ¬next.schedule.world.IsCaller task)
    (hbefore : ∀ loop ∈ next.schedule.tasks, loop.id = task → loop.aborted = false →
      loop ∈ last.schedule.tasks)
    (hbegins : ∀ l begun, next.Changes (id.Begins task) l begun →
      last.Changes (id.Begins task) l begun) : next.RestsUntil id task k due := by
  refine ⟨fun l begun hl hbegun => rests.begins l begun hl (hbegins l begun hbegun), ?_⟩
  rcases Nat.lt_or_ge next.schedule.world.elapsed.nanos due with hearly | hlate
  · refine .inr fun loop hloop hid haborted => ?_
    rcases rests.asleep with hdue | hasleep
    · exact absurd (hdue.trans undisturbed.elapsed) (Nat.not_le_of_lt hearly)
    · obtain ⟨hfree, hsleeps⟩ := hasleep loop (hbefore loop hloop hid haborted) hid haborted
      obtain hother | hsleeps | hdue := undisturbed.asleep due hfree hsleeps
      · exact absurd hother (hid ▸ orderly.not_isAborted hloop haborted)
      · exact ⟨haway hfree, hsleeps⟩
      · exact absurd hdue (Nat.not_le_of_lt hearly)
  · exact .inl hlate

/-- What others do does not change the pace of a loop. -/
theorem Paced.undisturbed {actor : Option RefreshCall} (paced : last.Paced id task)
    (sound : last.Sound none) (hnext : next.Sound none)
    (retains : last.schedule.Retains next.schedule task)
    (clients : ∀ client ∈ next.clients, client.task ≠ task)
    (hstory : next.story = last.story ++ new.map (Moment.made actor))
    (hother : ∀ me, actor = some me → me.task ≠ task)
    (undisturbed : last.schedule.Undisturbed next.schedule task) : next.Paced id task := by
  have helse : (last.schedule.world :: new).IsChain (World.Elsewhere task) :=
    isChain_elsewhere hother (hstory ▸ hnext.story) sound.present
  have hworlds : next.worlds = last.worlds ++ new := by
    simp [worlds, hstory, Moment.made, Function.comp_def]
  have hpresent := sound.getLast?_worlds
  have hlast : new.getLastD last.schedule.world = next.schedule.world := by
    have h := present_append sound.present actor new
    rw [← hstory, hnext.present] at h
    exact (Option.some.inj h).symm
  have hkept (P : World → Prop) (hstep : ∀ world after, World.Elsewhere task world after →
      P world → P after) (h : P last.schedule.world) : P next.schedule.world :=
    hlast ▸ List.IsChain.induction P _ helse hstep (fun _ => h) _ List.getLastD_mem_cons
  have hends (k : Nat) (ended : World) (h : next.Changes (id.Ends task) k ended) :
      last.Changes (id.Ends task) k ended :=
    h.of_isChain hworlds hpresent (helse.imp fun _ _ elsewhere hend =>
      hend.1 (elsewhere.isAway_iff.mp hend.2))
  have hbegins (k : Nat) (begun : World) (h : next.Changes (id.Begins task) k begun) :
      last.Changes (id.Begins task) k begun :=
    h.of_isChain hworlds hpresent (helse.imp fun _ _ elsewhere hbegin =>
      hbegin.2 (elsewhere.isAway_iff.mpr hbegin.1))
  have hbefore (loop : Task) (hloop : loop ∈ next.schedule.tasks) (hid : loop.id = task)
      (haborted : loop.aborted = false) : loop ∈ last.schedule.tasks := by
    obtain ⟨before, hmem, rfl | rfl⟩ := retains.origin loop hloop hid paced.born
    · exact hmem
    · cases haborted
  exact {
    born := Nat.lt_of_lt_of_le paced.born retains.fresh
    clients := clients
    stage := fun loop hloop hid => by
      obtain ⟨before, hmem, hbecomes⟩ := retains.origin loop hloop hid paced.born
      have hstage := paced.stage before hmem (hbecomes.id_eq.symm.trans hid)
      refine ⟨hbecomes.job_eq.trans hstage.1, fun haborted => ?_⟩
      have hsame := (paced.stage loop (hbefore loop hloop hid haborted) hid).2 haborted
      exact hkept (fun world => id.LoopStage task world loop.rest)
        (fun _ _ elsewhere stage => stage.elsewhere elsewhere) hsame
    rested := fun k ended hended htoken =>
      (paced.rested k ended (hends k ended hended) htoken).undisturbed hnext.orderly undisturbed
        (hkept (fun world => ¬world.IsCaller task)
          fun _ _ elsewhere hfree h => hfree (elsewhere.isCaller h)) hbefore hbegins
    restless := fun k ended hended htoken haway loop hloop hid haborted => by
      have hpending := paced.restless k ended (hends k ended hended) htoken
        fun l world hl hworld => haway l world hl (getElem?_worlds hworlds hworld)
      obtain ⟨hready, hrest⟩ := hpending loop (hbefore loop hloop hid haborted) hid haborted
      exact ⟨undisturbed.ready hready, hrest⟩ }

/-! ## The turns of a loop in a run -/

section Turns

variable {loop : Task} {due : Nat} {ended : World}

/-- A turn of a loop adds the worlds that it goes through. -/
theorem worlds_turnOfTask (last : Interplay) (loop : Task) : (last.turnOfTask loop).worlds =
    last.worlds ++ (last.schedule.resume loop.id).passedOfTask loop := by
  simp [worlds, turnOfTask, Interplay.pass, Moment.made, Function.comp_def]

/-- The last turn of a loop that is aborted. -/
private theorem Paced.turnOfAborted (paced : last.Paced id loop.id)
    (sound : last.Sound none) (hloop : loop ∈ last.schedule.tasks)
    (hready : loop.id ∈ last.schedule.ready) (haborted : loop.aborted = true) :
    (last.turnOfTask loop).Paced id loop.id := by
  have hjob := (paced.stage loop hloop rfl).1
  obtain ⟨hgone, hstays⟩ := (last.schedule.resume loop.id).turnOfTask_of_aborted hjob haborted
  have hmoves := sound.orderly.turnOfTask sound.resumable hloop (.inl hready)
  have hworlds := last.worlds_turnOfTask loop
  exact {
    born := Nat.lt_of_lt_of_le paced.born hmoves.continues.fresh
    clients := task_ne_of_pass paced.clients _ _ _
    stage := fun other hother hid => absurd hid (hgone other hother)
    rested := fun k ended hended htoken => by
      refine ⟨fun l begun hl hbegun => ?_,
        .inr fun other hother hid => absurd hid (hgone other hother)⟩
      have hbegun' := hbegun.of_isChain hworlds sound.getLast?_worlds
        (hstays.imp fun _ _ hstay hbegin => hbegin.2 (hstay hbegin.1))
      rcases hended.cases hworlds sound.getLast?_worlds with hold | ⟨j, -, hj, -⟩
      · exact (paced.rested k ended hold htoken).begins l begun hl hbegun'
      · have hlt := hbegun'.lt_length
        omega
    restless := fun k ended _ _ _ other hother hid => absurd hid (hgone other hother) }

variable (reachable : last.Reachable) (hloop : loop ∈ last.schedule.tasks)
  (hjob : loop.job = .background id) (hready : loop.id ∈ last.schedule.ready)
  (haborted : loop.aborted = false)
include reachable hloop

/-- No time passes in the turn of a loop. -/
private theorem elapsed_turnOfLoop :
    (last.turnOfTask loop).schedule.world.elapsed = last.schedule.world.elapsed :=
  Schedule.elapsed_turnOfTask (reachable.eachIs Job.lasting_heeds loop hloop).2

include hjob in
/-- No time passes in the turn of a loop. -/
private theorem elapsed_passedOfLoop :
    ∀ world ∈ (last.schedule.resume loop.id).passedOfTask loop,
      world.elapsed = last.schedule.world.elapsed :=
  Schedule.elapsed_passedOfTask (by simp [hjob]) (reachable.eachIs Job.lasting_heeds loop hloop).2

include hjob hready haborted

/-- A loop that has its turn does not sleep, so it has rested long enough. -/
private theorem RestsUntil.turnOfAlive (rests : last.RestsUntil id loop.id k due) :
    (last.turnOfTask loop).RestsUntil id loop.id k due := by
  have hdue : due ≤ last.schedule.world.elapsed.nanos :=
    rests.asleep.resolve_right fun h => (h loop hloop rfl haborted).2.1 hready
  refine ⟨fun l begun hl hbegun => ?_, .inl ?_⟩
  · rcases hbegun.cases (last.worlds_turnOfTask loop) reachable.sound.getLast?_worlds with
      hold | ⟨_, _, _, _, hnew, _⟩
    · exact rests.begins l begun hl hold
    · rwa [elapsed_passedOfLoop reachable hloop hjob begun (List.mem_of_getElem? hnew)]
  · rwa [elapsed_turnOfLoop reachable hloop]

/-- The turn of a loop that can run is the one before its next attempt, or brings it to the gate. -/
private theorem IsPending.turnOfAlive (pending : last.IsPending id loop.id)
    (haway : ∀ world ∈ (last.schedule.resume loop.id).passedOfTask loop,
      (world.manager id).IsAway loop.id) : (last.turnOfTask loop).IsPending id loop.id := by
  intro other hother hid halive
  have sound := reachable.sound
  obtain ⟨-, hrest | hrest⟩ := pending loop hloop rfl haborted
  · obtain ⟨-, hturn⟩ := (last.schedule.resume loop.id).turnOfTask_of_rests haborted hrest
    have hnext : (last.turnOfTask loop).schedule = _ := hturn
    rw [hnext] at hother ⊢
    exact ⟨List.mem_cons_self, .inr (Schedule.rest_resumeAt hother hid)⟩
  · obtain ⟨-, hgone⟩ | ⟨arrived, more, hmore, hthere⟩ := Schedule.passedOfTask_of_due
      sound.orderly sound.resumable hloop hjob hready haborted hrest
    · exact absurd hid (hgone other hother)
    · exact absurd (haway arrived (hmore ▸ List.mem_cons_self)) hthere

/-- If an attempt has ended in the turn of a loop and the loop goes on, that was the last write. -/
private theorem isPaced_of_ends (stage : id.LoopStage loop.id last.schedule.world loop.rest)
    {j : Nat} {before : World}
    (hbefore : (last.schedule.world :: (last.schedule.resume loop.id).passedOfTask loop)[j]? =
      some before)
    (hended : ((last.schedule.resume loop.id).passedOfTask loop)[j]? = some ended)
    (hends : id.Ends loop.id before ended) {other : Task}
    (hother : other ∈ (last.turnOfTask loop).schedule.tasks) (hid : other.id = loop.id)
    (halive : other.aborted = false) :
    (last.turnOfTask loop).schedule.world = ended ∧ other.rest = pure (some (.round id)) ∧
      ¬(last.turnOfTask loop).schedule.world.IsCaller loop.id ∧
        (last.turnOfTask loop).schedule.IsPaced id loop.id := by
  have sound := reachable.sound
  have hpaces := Schedule.paces_turnOfTask sound.orderly sound.resumable hloop hjob hready haborted
    stage
  have hmoves := sound.orderly.turnOfTask sound.resumable hloop (.inl hready)
  have hthere := hpaces.there ⟨other, hother, hid⟩
  have hlast : (last.turnOfTask loop).schedule.world = ended :=
    hmoves.now.symm.trans (getLastD_of_isChain
      (P := fun world => (world.manager id).IsAway loop.id) hthere hended hends.2 _)
  exact ⟨hlast, hpaces.paced ⟨before, List.mem_of_getElem? hbefore, hends.1⟩
    (hlast ▸ hends.2) other hother hid halive⟩

/-- After the end of an attempt, none begins in the same turn. -/
private theorem not_begins_of_ends (stage : id.LoopStage loop.id last.schedule.world loop.rest)
    {l : Nat} {begun : World} (hl : k < l) (hk : last.worlds.length ≤ k + 1) :
    ¬(last.turnOfTask loop).Changes (id.Begins loop.id) l begun := by
  intro hbegun
  have sound := reachable.sound
  have hpaces := Schedule.paces_turnOfTask sound.orderly sound.resumable hloop hjob hready haborted
    stage
  rcases hbegun.cases (last.worlds_turnOfTask loop) sound.getLast?_worlds with
    hold | ⟨i, _, hi, hfirst, hsecond, hbegins⟩
  · have hlt := hold.lt_length
    omega
  · obtain ⟨i, rfl⟩ : ∃ n, i = n + 1 := ⟨i - 1, by omega⟩
    rw [List.getElem?_cons_succ] at hfirst
    exact absurd (isChain_getElem? hpaces.begins hfirst hsecond hbegins.1) hbegins.2

omit hjob in
/-- The turn of a loop that is not aborted. -/
private theorem Paced.turnOfAlive (paced : last.Paced id loop.id) :
    (last.turnOfTask loop).Paced id loop.id := by
  have sound := reachable.sound
  obtain ⟨hjob, hstage⟩ := paced.stage loop hloop rfl
  have stage := hstage haborted
  have hpaces := Schedule.paces_turnOfTask sound.orderly sound.resumable hloop hjob hready haborted
    stage
  have hmoves := sound.orderly.turnOfTask sound.resumable hloop (.inl hready)
  have hworlds := last.worlds_turnOfTask loop
  exact {
    born := Nat.lt_of_lt_of_le paced.born hmoves.continues.fresh
    clients := task_ne_of_pass paced.clients _ _ _
    stage := fun other hother hid => by
      refine ⟨?_, hpaces.stage other hother hid⟩
      rcases hmoves.continues.tasks other hother with ⟨before, hbefore, hid', hjob'⟩ | hfresh
      · rw [← hjob']
        exact (paced.stage before hbefore (hid'.trans hid)).1
      · exact absurd paced.born (Nat.not_lt_of_le (hid ▸ hfresh))
    rested := fun k ended hended htoken => by
      rcases hended.cases hworlds sound.getLast?_worlds with
        hold | ⟨j, before, hj, hbefore, hafter, hends⟩
      · exact (paced.rested k ended hold htoken).turnOfAlive reachable hloop hjob hready haborted
      · refine ⟨fun l begun hl hbegun => absurd hbegun (not_begins_of_ends reachable hloop hjob
          hready haborted stage hl (by omega)), .inr fun other hother hid halive => ?_⟩
        obtain ⟨hlast, -, haway, hispaced⟩ := isPaced_of_ends reachable hloop hjob hready haborted
          stage hbefore hafter hends hother hid halive
        have hasleep := (hispaced.asleep (hlast ▸ htoken)).resolve_left
          (hid ▸ hmoves.orderly.not_isAborted hother halive)
        exact ⟨haway, by rwa [hlast] at hasleep⟩
    restless := fun k ended hended htoken haway => by
      rcases hended.cases hworlds sound.getLast?_worlds with
        hold | ⟨j, before, hj, hbefore, hafter, hends⟩
      · have hpending := paced.restless k ended hold htoken fun l world hl hworld =>
          haway l world hl (getElem?_worlds hworlds hworld)
        refine hpending.turnOfAlive reachable hloop hjob hready haborted fun world hworld => ?_
        obtain ⟨j, hj⟩ := List.mem_iff_getElem?.mp hworld
        have hlt := hold.lt_length
        refine haway (last.worlds.length + j) world (by omega) ?_
        rw [hworlds, List.getElem?_append_right (Nat.le_add_right _ _), Nat.add_sub_cancel_left, hj]
      · intro other hother hid halive
        obtain ⟨hlast, hrest, -, hispaced⟩ := isPaced_of_ends reachable hloop hjob hready haborted
          stage hbefore hafter hends hother hid halive
        exact ⟨hispaced.restless (hlast ▸ htoken), .inl hrest⟩ }

end Turns

/-- The turn of a loop that can run. -/
theorem Paced.turnOfTask {loop : Task} (paced : last.Paced id loop.id) (reachable : last.Reachable)
    (hloop : loop ∈ last.schedule.tasks) (hready : loop.id ∈ last.schedule.ready) :
    (last.turnOfTask loop).Paced id loop.id := by
  cases haborted : loop.aborted with
  | true => exact paced.turnOfAborted reachable.sound hloop hready haborted
  | false => exact paced.turnOfAlive reachable hloop hready haborted

/-- A step keeps what holds of a loop. -/
theorem Paced.step (paced : last.Paced id task) (reachable : last.Reachable)
    (step : Step last next) : next.Paced id task := by
  have hown (h : ∃ loop ∈ last.schedule.tasks, loop.id = task ∧ loop.id ∈ last.schedule.ready ∧
      next = last.turnOfTask loop) : next.Paced id task := by
    obtain ⟨loop, hloop, rfl, hready, rfl⟩ := h
    exact paced.turnOfTask reachable hloop hready
  rcases step.turn_or_undisturbed reachable paced.born paced.clients with hturn | hundisturbed
  · exact hown hturn
  rcases step.turn_or_retains paced.born paced.clients with
    hturn | ⟨hretains, hclients, actor, worlds, hstory, hother⟩
  · exact hown hturn
  · exact paced.undisturbed reachable.sound (step.sound reachable.sound) hretains hclients hstory
      hother hundisturbed

/-! ## Loops that are started -/

/-- A task that has not done anything yet has been at no gate. -/
theorem Sound.not_isCaller_of_idle {acting : Option TaskId} (sound : interplay.Sound acting)
    (hidle : ∀ moment ∈ interplay.story, ∀ me, moment.actor = some me → me.task ≠ task) :
    ∀ world ∈ interplay.worlds, ¬world.IsCaller task := by
  have hall (n : Nat) : ∀ moment, interplay.story[n]? = some moment →
      ¬moment.world.IsCaller task := by
    induction n with
    | zero =>
      obtain ⟨first, rest, hstory, huntouched⟩ := sound.first
      rintro moment hmoment ⟨place, hplace⟩
      rw [hstory] at hmoment
      obtain rfl : first = moment := Option.some.inj hmoment
      rw [huntouched.callersAt_eq] at hplace
      exact absurd hplace List.not_mem_nil
    | succ n ih =>
      intro moment hmoment hcaller
      have hlt := Nat.lt_of_succ_lt (List.getElem?_eq_some_iff.mp hmoment).1
      have hfollows := sound.follows (List.getElem?_eq_getElem hlt) hmoment
      have hbefore := ih _ (List.getElem?_eq_getElem hlt)
      unfold Moment.Follows at hfollows
      split at hfollows
      · next me hme =>
        have hne := hidle moment (List.mem_of_getElem? hmoment) me hme
        exact hbefore (hfollows.isCaller hne.symm hcaller)
      · exact hbefore (hfollows.isCaller hcaller)
  intro world hworld
  obtain ⟨moment, hmoment, rfl⟩ := List.mem_map.mp hworld
  obtain ⟨n, hn⟩ := List.mem_iff_getElem?.mp hmoment
  exact hall n moment hn

/-- A loop that has not done anything yet. -/
private theorem paced_of_idle {loop : Task} (sound : interplay.Sound none)
    (hloop : loop ∈ interplay.schedule.tasks) (hjob : loop.job = .background id)
    (hrest : loop.rest = id.awaitFirstRound)
    (hidle : ∀ moment ∈ interplay.story, ∀ me, moment.actor = some me → me.task ≠ loop.id) :
    interplay.Paced id loop.id := by
  have haway := sound.not_isCaller_of_idle hidle
  have hnever {k : Nat} {ended : World} (h : interplay.Changes (id.Ends loop.id) k ended) :
      False := by
    obtain ⟨before, hbefore, -, hends⟩ := h
    exact hends.1 (World.isAway_of_not_isCaller (haway before (List.mem_of_getElem? hbefore)))
  exact {
    born := sound.orderly.born loop hloop
    clients := fun client hclient => (sound.apart client hclient loop hloop).symm
    stage := fun other hother hid => by
      obtain rfl : other = loop := List.inj_on_of_nodup_map sound.orderly.distinct hother hloop hid
      refine ⟨hjob, fun _ => hrest ▸ .starts ?_⟩
      exact haway _ (List.mem_of_getLast? sound.getLast?_worlds)
    rested := fun k ended hended => (hnever hended).elim
    restless := fun k ended hended => (hnever hended).elim }

/-- A loop that is alive after a step was so before, or has just been started. -/
private theorem paced_of_started (step : Step last next) (reachable : last.Reachable)
    (alive : next.schedule.IsAlive id task) (hnew : ¬last.schedule.IsAlive id task) :
    next.Paced id task := by
  rcases step.startsNoLoop_or reachable.tended with hstarts | ⟨manager, known, rfl⟩
  · exact absurd (hstarts.alive id task alive) hnew
  have hnext := step.sound reachable.sound
  have hschedule : (last.call (.startBackground manager)).schedule =
      (last.schedule.takeName.turn last.schedule.fresh
        (ManagerId.startBackground manager)).1 := by
    rw [schedule_call, Schedule.turn_start]
  have hstory (moment : Moment) (hmoment : moment ∈ (last.call (.startBackground manager)).story)
      (me : RefreshCall) (hme : moment.actor = some me) : me.task ≤ last.schedule.fresh := by
    rcases List.mem_append.mp hmoment with hold | hmade
    · exact Nat.le_of_lt (reachable.sound.named moment hold me hme).born
    · obtain ⟨world, -, rfl⟩ := List.mem_map.mp hmade
      obtain rfl := Option.some.inj hme
      exact Nat.le_refl _
  obtain ⟨loop, hloop, rfl, hjob, haborted⟩ := alive
  have hmem := hloop
  rw [hschedule] at hmem
  obtain ⟨after, hturn, ⟨-, rfl⟩ | ⟨world, -, rfl⟩⟩ :=
    Schedule.turn_startBackground_cases last.schedule.fresh manager last.schedule.takeName
  · rw [hturn] at hmem
    rcases List.mem_append.mp hmem with hold | hlast
    · exact absurd ⟨loop, hold, rfl, hjob, haborted⟩ hnew
    · obtain rfl := List.mem_singleton.mp hlast
      obtain rfl := Job.background.inj hjob
      refine paced_of_idle hnext hloop rfl rfl fun moment hmoment me hme => ?_
      exact Nat.ne_of_lt (Nat.lt_succ_of_le (hstory moment hmoment me hme))
  · rw [hturn] at hmem
    exact absurd ⟨loop, hmem, rfl, hjob, haborted⟩ hnew

/-- What holds of every loop that is alive in some run. -/
theorem Reachable.paced (reachable : interplay.Reachable)
    (alive : interplay.schedule.IsAlive id task) : interplay.Paced id task := by
  obtain ⟨world, untouched, runs⟩ := reachable
  induction runs with
  | refl =>
    obtain ⟨loop, hloop, -⟩ := alive
    cases hloop
  | @step last next runs step ih =>
    have reachable : last.Reachable := ⟨world, untouched, runs⟩
    by_cases hbefore : last.schedule.IsAlive id task
    · exact (ih hbefore).step reachable step
    · exact paced_of_started step reachable alive hbefore

/-- What can be reached from a reachable point can be reached. -/
theorem Reachable.runs {first : Interplay} (reachable : first.Reachable) (runs : first.Runs last) :
    last.Reachable := by
  obtain ⟨world, untouched, before⟩ := reachable
  refine ⟨world, untouched, ?_⟩
  induction runs with
  | refl => exact before
  | step _ step ih => exact ih.step step

/-- Whatever comes of a loop, it keeps its pace. -/
theorem Paced.runs {first : Interplay} (paced : first.Paced id task) (reachable : first.Reachable)
    (runs : first.Runs last) : last.Paced id task := by
  induction runs with
  | refl => exact paced
  | step runs step ih => exact ih.step (reachable.runs runs) step

/-! ## The pace of a loop in a run -/

/-- The turn in which a loop begins its next attempt. -/
private theorem changes_of_due {loop : Task} (reachable : last.Reachable)
    (hloop : loop ∈ last.schedule.tasks) (hjob : loop.job = .background id)
    (hready : loop.id ∈ last.schedule.ready) (haborted : loop.aborted = false)
    (hrest : loop.rest = id.backgroundRound)
    (hdropped : (last.schedule.world.managed id).dropped = false)
    (haway : (last.schedule.world.manager id).IsAway loop.id) :
    ∃ begun, (last.turnOfTask loop).Changes (id.Begins loop.id) (last.worlds.length - 1) begun ∧
      begun.elapsed = last.schedule.world.elapsed := by
  have sound := reachable.sound
  have hpresent := sound.getLast?_worlds
  obtain ⟨hdropped', -⟩ | ⟨arrived, more, hmore, hthere⟩ := Schedule.passedOfTask_of_due
    sound.orderly sound.resumable hloop hjob hready haborted hrest
  · rw [hdropped] at hdropped'
    cases hdropped'
  have hworlds : (last.turnOfTask loop).worlds = last.worlds ++ arrived :: more :=
    hmore ▸ last.worlds_turnOfTask loop
  have hpassed := elapsed_passedOfLoop reachable hloop hjob arrived (hmore ▸ List.mem_cons_self)
  have hlength : 0 < last.worlds.length := by
    rw [List.length_pos_iff]
    rintro hnil
    rw [hnil] at hpresent
    cases hpresent
  refine ⟨arrived, ⟨last.schedule.world, ?_, ?_, haway, hthere⟩, hpassed⟩
  · rw [hworlds, List.getElem?_append_left (by omega), ← List.getLast?_eq_getElem?, hpresent]
  · rw [hworlds, Nat.sub_add_cancel hlength, List.getElem?_append_right (Nat.le_refl _),
      Nat.sub_self]
    rfl

/-- The turns of a loop that can run lead to the beginning of its next attempt. -/
private theorem exists_begins {loop : Task} (reachable : last.Reachable)
    (hloop : loop ∈ last.schedule.tasks) (hjob : loop.job = .background id)
    (hready : loop.id ∈ last.schedule.ready) (haborted : loop.aborted = false)
    (hrest : loop.rest = pure (some (.round id)) ∨ loop.rest = id.backgroundRound)
    (hdropped : (last.schedule.world.managed id).dropped = false)
    (haway : (last.schedule.world.manager id).IsAway loop.id) :
    ∃ later, last.Runs later ∧
      ∃ begun, later.Changes (id.Begins loop.id) (last.worlds.length - 1) begun ∧
        begun.elapsed = last.schedule.world.elapsed := by
  have hruns : last.Runs (last.turnOfTask loop) := .step (.refl _) (.turnOfTask hloop hready)
  rcases hrest with hrest | hrest
  · obtain ⟨hnone, hturn⟩ := (last.schedule.resume loop.id).turnOfTask_of_rests haborted hrest
    have hschedule : (last.turnOfTask loop).schedule = _ := hturn
    have hworlds : (last.turnOfTask loop).worlds = last.worlds := by
      rw [worlds_turnOfTask, hnone, List.append_nil]
    have hworld : (last.turnOfTask loop).schedule.world = last.schedule.world := by
      rw [hschedule]
      rfl
    have hagain : { loop with rest := id.backgroundRound } ∈
        (last.turnOfTask loop).schedule.tasks := by
      rw [hschedule]
      exact List.mem_map.mpr ⟨loop, hloop, if_pos rfl⟩
    have hready' : loop.id ∈ (last.turnOfTask loop).schedule.ready := by
      rw [hschedule]
      exact List.mem_cons_self
    obtain ⟨begun, hbegun, helapsed⟩ := changes_of_due (reachable.runs hruns) hagain hjob hready'
      haborted rfl (hworld ▸ hdropped) (hworld ▸ haway)
    rw [hworlds] at hbegun
    rw [hworld] at helapsed
    exact ⟨_, hruns.step (.turnOfTask hagain hready'), begun, hbegun, helapsed⟩
  · obtain ⟨begun, hbegun, helapsed⟩ :=
      changes_of_due reachable hloop hjob hready haborted hrest hdropped haway
    exact ⟨_, hruns, begun, hbegun, helapsed⟩

/-- How background refresh keeps its pace. -/
structure KeepsPace (interplay : Interplay) (id : ManagerId) (task : TaskId) : Prop where
  /-- If a token is cached when an attempt ends, the next one begins once the minimum wait has
  passed since then, or later. -/
  rests : ∀ k l ended begun, k < l → interplay.Changes (id.Ends task) k ended →
    (ended.manager id).token ≠ none → interplay.Changes (id.Begins task) l begun →
      ended.elapsed.nanos + TokenManager.minimumWait.nanos ≤ begun.elapsed.nanos
  /-- If none is, the loop can run from then on. Unless the owner is done with the manager, its
  turns lead to the beginning of the next attempt, and no time passes before that. -/
  restless : ∀ k ended, interplay.Changes (id.Ends task) k ended →
    (ended.manager id).token = none →
    (∀ l world, k < l → interplay.worlds[l]? = some world → (world.manager id).IsAway task) →
    interplay.schedule.IsAlive id task →
      task ∈ interplay.schedule.ready ∧
        ((interplay.schedule.world.managed id).dropped = false →
          ∃ later, interplay.Runs later ∧ ∃ l begun, k < l ∧
            later.Changes (id.Begins task) l begun ∧
              begun.elapsed = interplay.schedule.world.elapsed)

/-- In every run, every loop of background refresh keeps its pace. -/
theorem Reachable.keepsPace {first : Interplay} (reachable : first.Reachable)
    (alive : first.schedule.IsAlive id task) (runs : first.Runs last) : last.KeepsPace id task := by
  have hreachable := reachable.runs runs
  have hpaced := (reachable.paced alive).runs reachable runs
  refine ⟨fun k l ended begun hl hended htoken =>
      (hpaced.rested k ended hended htoken).begins l begun hl,
    fun k ended hended htoken haway halive => ?_⟩
  obtain ⟨loop, hloop, rfl, hjob, haborted⟩ := halive
  obtain ⟨hready, hrest⟩ := hpaced.restless k ended hended htoken haway loop hloop rfl haborted
  refine ⟨hready, fun hdropped => ?_⟩
  have hlt := hended.lt_length
  have hpresent := hreachable.sound.getLast?_worlds
  rw [List.getLast?_eq_getElem?] at hpresent
  have hnow := haway (last.worlds.length - 1) _ (by omega) hpresent
  obtain ⟨later, hlater, begun, hbegun, helapsed⟩ :=
    exists_begins hreachable hloop hjob hready haborted hrest hdropped hnow
  exact ⟨later, hlater, _, begun, by omega, hbegun, helapsed⟩

/-- Background refresh has been started; the token source refuses a token at first, and then gives
one that lives for a second. -/
def refusedFirst : Interplay :=
  let refused : IssuerAnswer := { token := fun _ => .error (.issuer "not now") }
  let brief : IssuerAnswer := { token := fun now => .ok (.issued "brief" "" "" 1 now) }
  (start (.solo {} [refused, brief])).call (.startBackground 0)

/-- The loop has ended two attempts. -/
def twiceEnded : Interplay :=
  (((refusedFirst.giveTaskTurn 2).giveTaskTurn 2).giveTaskTurn 2).giveTaskTurn 2

/-- The loop has ended a third attempt, two seconds later. -/
def thriceEnded : Interplay :=
  ((twiceEnded.elapse (.ofSeconds 2)).giveTaskTurn 2).giveTaskTurn 2

/-- The second attempt begins in the instant in which the first has failed, and the third once the
minimum wait has passed since the second. -/
theorem thriceEnded_keepsPace :
    refusedFirst.Reachable ∧ refusedFirst.schedule.IsAlive 0 2 ∧ refusedFirst.Runs thriceEnded ∧
      thriceEnded.KeepsPace 0 2 ∧
      (∃ ended begun, thriceEnded.Changes (ManagerId.Ends 0 2) 5 ended ∧
        (ended.manager 0).token = none ∧ thriceEnded.Changes (ManagerId.Begins 0 2) 6 begun ∧
          begun.elapsed = ended.elapsed) ∧
      ∃ ended begun, thriceEnded.Changes (ManagerId.Ends 0 2) 9 ended ∧
        (ended.manager 0).token ≠ none ∧ thriceEnded.Changes (ManagerId.Begins 0 2) 11 begun ∧
          begun.elapsed.nanos = ended.elapsed.nanos + TokenManager.minimumWait.nanos := by
  have reachable : refusedFirst.Reachable :=
    ⟨_, World.untouched_solo _ _, .step (.refl _) (.call Nat.zero_lt_one)⟩
  have alive : refusedFirst.schedule.IsAlive 0 2 := ⟨_, List.mem_singleton_self _, rfl, rfl, rfl⟩
  have hfirst : refusedFirst.Runs ((refusedFirst.giveTaskTurn 2).giveTaskTurn 2) :=
    .giveTaskTurn (.giveTaskTurn (.refl _) (by decide +kernel)) (by decide +kernel)
  have hsecond : refusedFirst.Runs twiceEnded :=
    .giveTaskTurn (.giveTaskTurn hfirst (by decide +kernel)) (by decide +kernel)
  have hwoken : refusedFirst.Runs (twiceEnded.elapse (.ofSeconds 2)) :=
    hsecond.step (.elapse (by decide +kernel))
  have runs : refusedFirst.Runs thriceEnded :=
    .giveTaskTurn (.giveTaskTurn hwoken (by decide +kernel)) (by decide +kernel)
  refine ⟨reachable, alive, runs, reachable.keepsPace alive runs,
    ⟨thriceEnded.worlds.getD 6 {}, thriceEnded.worlds.getD 7 {}, ?_⟩,
    thriceEnded.worlds.getD 10 {}, thriceEnded.worlds.getD 12 {}, ?_⟩
  · exact ⟨changes_getD (by decide +kernel) (by decide +kernel), by decide +kernel,
      changes_getD (by decide +kernel) (by decide +kernel), by decide +kernel⟩
  · exact ⟨changes_getD (by decide +kernel) (by decide +kernel), by decide +kernel,
      changes_getD (by decide +kernel) (by decide +kernel), by decide +kernel⟩

end Interplay

end CloudSession
