import CloudSession.Proofs.Activity.Behavior
import CloudSession.Proofs.World.Standing

/-!
# Visits

A task that carries out an activity turns to managers and caches one after the other. A `Visit` says
where it stands meanwhile, and that nothing has been forgotten since an earlier world. Whatever
happens elsewhere does not disturb a visit.
-/

namespace CloudSession

/-- A task stands at a place, or at none, since the world was `start`. -/
structure Visit (start : World) (me : RefreshCall) (held : List Nat) (spot : Option Place)
    (history : History) : Prop where
  standing : history.now.Standing me.task held spot
  since : start.Precedes history.now

namespace Visit

variable {start aside : World} {id : ManagerId} {me : RefreshCall} {held : List Nat}
  {spot : Option Place} {history later : History} {f : TokenManager → TokenManager}

/-- What happens elsewhere does not disturb a visit. -/
theorem grows (visit : Visit start me held spot history) (grows : history.Grows me.task later) :
    Visit start me held spot later := by
  induction grows with
  | refl => exact visit
  | step _ elsewhere ih =>
    exact ⟨elsewhere.standing ih.standing, ih.since.trans elsewhere.precedes⟩

/-- A change beside the managers and caches does not disturb a visit. -/
theorem beside (visit : Visit start me held spot history) (beside : history.now.Beside aside) :
    Visit start me held spot (history.after aside) := by
  have hdeed : history.now.Deed me aside := beside.deed visit.standing.sound
  exact ⟨visit.standing.beside beside, visit.since.trans hdeed.precedes⟩

/-- A task that stands nowhere may as well be on its way to a place. -/
theorem toward (visit : Visit start me held none history) (place : Place) :
    Visit start me held (some place) history :=
  ⟨visit.standing.toward place, visit.since⟩

/-- The managers are those of the beginning. -/
theorem known (visit : Visit start me held spot history) (known : id < start.managers.length) :
    id < history.now.managers.length := by
  rw [visit.since.managerCount]
  exact known

/-- What is done to a manager after a change beside it is done to the manager as it was. -/
theorem manager_after (visit : Visit start me held spot history) (known : id < start.managers.length)
    (beside : history.now.Beside aside) :
    (aside.alterManager id f).manager id = f (history.now.manager id) := by
  have hknown : id < aside.managers.length := by
    rw [beside.managerCount]
    exact visit.known known
  simp [World.manager_alterManager, hknown, beside.manager]

/-- A task that stands at a manager does a deed there. -/
theorem deed (visit : Visit start me held (some (.manager id)) history)
    (beside : history.now.Beside aside)
    (deed : (history.now.manager id).Deed me history.now.now history.now.elapsed
      (f (history.now.manager id))) :
    history.now.Deed me (aside.alterManager id f) :=
  visit.standing.deed_alterManager beside deed

/-- A deed at the manager does not end a visit. -/
theorem after (visit : Visit start me held (some (.manager id)) history)
    (beside : history.now.Beside aside)
    (deed : (history.now.manager id).Deed me history.now.now history.now.elapsed
      (f (history.now.manager id))) :
    Visit start me held (some (.manager id)) (history.after (aside.alterManager id f)) where
  standing := visit.standing.alterManager beside deed
  since := visit.since.trans (visit.deed beside deed).precedes

/-- A task that has gone away from a manager stands nowhere. -/
theorem away (visit : Visit start me held (some (.manager id)) history)
    (haway : (history.now.manager id).IsAway me.task) : Visit start me held none history :=
  ⟨visit.standing.away haway, visit.since⟩

/-- A deed that changes nothing at the gate leaves the task away from it. -/
theorem quiet (visit : Visit start me held none history) (known : id < start.managers.length)
    (deed : (history.now.manager id).Deed me history.now.now history.now.elapsed
      (f (history.now.manager id)))
    (hgate : (f (history.now.manager id)).gate = (history.now.manager id).gate) :
    history.now.Deed me (history.now.alterManager id f) ∧
      Visit start me held none (history.after (history.now.alterManager id f)) := by
  refine ⟨visit.standing.sound.deed_quiet deed hgate,
    ((visit.toward _).after (.refl _) deed).away ?_⟩
  have haway := visit.standing.managers id (by simp)
  rw [History.after, visit.manager_after known (.refl _)]
  intro other hother
  exact haway other (hgate ▸ hother)

end Visit

end CloudSession
