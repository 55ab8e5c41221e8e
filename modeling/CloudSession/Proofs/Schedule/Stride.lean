import CloudSession.Proofs.CredentialsCache.Stage
import CloudSession.Proofs.Schedule.Orderly
import Mathlib.Logic.Relation

/-!
# Turns are made of strides

Where the callers of a cache take turns, a turn is a sequence of strides with nothing in between.
-/

namespace CloudSession

/-- One stride of a task from how far it is, in some world. -/
def Turn.Strides {α : Type} (me : TaskId) (now after : Turn α × World) : Prop :=
  ∃ rest, now.1 = .waiting rest ∧ after = rest.stride me now.2

namespace Schedule

variable {α : Type} {me : TaskId}

/-- Activities with the same next stride go on alike. -/
theorem strides_of_stride_eq {activity other : Activity α} {world : World}
    {last : Turn α × World} (heq : activity.stride me world = other.stride me world)
    (strides : Relation.TransGen (Turn.Strides me) (.waiting other, world) last) :
    Relation.TransGen (Turn.Strides me) (.waiting activity, world) last := by
  have hfirst {after : Turn α × World} (h : Turn.Strides me (.waiting other, world) after) :
      Turn.Strides me (.waiting activity, world) after := by
    obtain ⟨rest, hrest, rfl⟩ := h
    obtain rfl : other = rest := Turn.waiting.inj hrest
    exact ⟨activity, rfl, heq.symm⟩
  obtain ⟨after, h, hrest⟩ := Relation.TransGen.head'_iff.mp strides
  exact .head' (hfirst h) hrest

variable {c script : Nat} {post : α → CacheStage → World → Prop} {stage : CacheStage}

/-- The turn of a caller of a cache leads where its strides lead. -/
theorem strides_turn {activity : Activity α} {schedule : Schedule}
    (henacts : activity.Enacts c script me post stage schedule.world) :
    Relation.TransGen (Turn.Strides me) (.waiting activity, schedule.world)
      ((turn me activity schedule).2, (turn me activity schedule).1.world) := by
  induction activity generalizing stage schedule with
  | done value => exact .single ⟨_, rfl, rfl⟩
  | fail => exact henacts.elim
  | read next ih =>
    refine strides_of_stride_eq ?_ (ih _ henacts.2)
    rfl
  | write after next ih =>
    obtain ⟨-, later, -, hnext⟩ := henacts
    exact .head ⟨_, rfl, rfl⟩ (@ih later { schedule with world := after } (hnext after))
  | self next ih =>
    refine strides_of_stride_eq ?_ (ih _ henacts.2)
    rfl
  | park next => exact .single ⟨_, rfl, rfl⟩
  | clock => exact henacts.elim
  | pass => exact henacts.elim
  | sleep span next ih =>
    obtain ⟨forced, answer, -, hnext⟩ := henacts
    have hfirst : Turn.Strides me (.waiting (.sleep span next), schedule.world)
        (.waiting next, schedule.world) := ⟨_, rfl, rfl⟩
    by_cases hspan : span = Span.zero
    · simp only [turn, if_pos hspan]
      exact .head hfirst (ih (hnext schedule.world))
    · simp only [turn, if_neg hspan]
      exact .single hfirst
  | wake task next ih =>
    have hworld := wake_world schedule task
    have hrest := @ih stage (schedule.wake task) (hworld ▸ henacts.2)
    rw [hworld] at hrest
    refine strides_of_stride_eq ?_ hrest
    rfl
  | spawn => exact henacts.elim
  | abort => exact henacts.elim

end Schedule

end CloudSession
