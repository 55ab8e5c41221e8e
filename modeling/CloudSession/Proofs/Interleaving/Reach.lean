import CloudSession.Proofs.Interleaving.Run

/-!
# How far a task has come with an activity

A caller works off one activity after another. Where in an interleaving it goes on with an activity,
how far it has come with it later, and where the activity comes to its end can be told from the
strides of the caller alone: what the caller does is then told by its parts.
-/

namespace CloudSession.Interleaving

variable {cached : CachedProvider} {run : Interleaving cached} {task : TaskId} {α β : Type}
  {activity rest other : Activity α} {value : α} {k m n : Nat}

/-- A task that has gone on with an activity since moment `m` is at `rest` at a later moment: each of
its strides in between was the next one of the activity. -/
inductive Reaches (run : Interleaving cached) (task : TaskId) (m : Nat) (activity : Activity α) :
    Nat → Activity α → Prop
  | begin : Reaches run task m activity m activity
  | other {n : Nat} {rest : Activity α} : Reaches run task m activity n rest →
      run.event n ≠ .stride task → Reaches run task m activity (n + 1) rest
  | stride {n : Nat} {rest next : Activity α} : Reaches run task m activity n rest →
      run.event n = .stride task →
      rest.stride task (run.moment n).world = (.waiting next, (run.moment (n + 1)).world) →
      Reaches run task m activity (n + 1) next

/-- A task that has gone on with an activity since moment `m` comes to the end of it after moment
`n`, with this value. What the task goes on with is part of the same stride. -/
structure Yields (run : Interleaving cached) (task : TaskId) (m : Nat) (activity : Activity α)
    (n : Nat) (value : α) : Prop where
  event : run.event n = .stride task
  ends : ∃ rest, run.Reaches task m activity n rest ∧
    rest.stride task (run.moment n).world = (.finished value, (run.moment n).world)

/-! ## One activity -/

namespace Reaches

/-- What is reached is reached no sooner than it was begun. -/
theorem le (h : run.Reaches task m activity n rest) : m ≤ n := by
  induction h with
  | begin => exact le_rfl
  | other _ _ ih => exact Nat.le_succ_of_le ih
  | stride _ _ _ ih => exact Nat.le_succ_of_le ih

/-- At the moment at which it goes on with an activity, a task has not come farther. -/
theorem eq_self (h : run.Reaches task m activity m rest) : rest = activity := by
  generalize hn : m = n at h
  cases h with
  | begin => rfl
  | other earlier _ => exact absurd earlier.le (by omega)
  | stride earlier _ _ => exact absurd earlier.le (by omega)

/-- At one moment, a task has one thing left to do. -/
theorem unique (h : run.Reaches task m activity n rest)
    (hother : run.Reaches task m activity n other) : rest = other := by
  induction h generalizing other with
  | begin => exact hother.eq_self.symm
  | @other n rest before hevent ih =>
    generalize hlast : n + 1 = last at hother
    cases hother with
    | begin => exact absurd before.le (by omega)
    | other earlier _ =>
      obtain rfl := Nat.succ.inj hlast
      exact ih earlier
    | stride earlier hstride _ =>
      obtain rfl := Nat.succ.inj hlast
      exact absurd hstride hevent
  | @stride n rest next before hevent hnext ih =>
    generalize hlast : n + 1 = last at hother
    cases hother with
    | begin => exact absurd before.le (by omega)
    | other earlier hnot =>
      obtain rfl := Nat.succ.inj hlast
      exact absurd hevent hnot
    | stride earlier _ hlater =>
      obtain rfl := Nat.succ.inj hlast
      rw [← ih earlier, hnext] at hlater
      exact Turn.waiting.inj (congrArg Prod.fst hlater)

/-- On its way, a task has been somewhere at each moment. -/
theorem exists_earlier (h : run.Reaches task m activity n rest) (hmk : m ≤ k) (hkn : k ≤ n) :
    ∃ earlier, run.Reaches task m activity k earlier := by
  induction h with
  | begin =>
    obtain rfl := Nat.le_antisymm hmk hkn
    exact ⟨activity, .begin⟩
  | other before hevent ih =>
    rcases Nat.le_succ_iff.mp hkn with hle | rfl
    · exact ih hle
    · exact ⟨_, before.other hevent⟩
  | stride before hevent hnext ih =>
    rcases Nat.le_succ_iff.mp hkn with hle | rfl
    · exact ih hle
    · exact ⟨_, before.stride hevent hnext⟩

/-- Where a task is after a stride, that stride has led it. -/
theorem exists_before (h : run.Reaches task m activity (n + 1) rest) (hmn : m ≤ n)
    (hevent : run.event n = .stride task) :
    ∃ before, run.Reaches task m activity n before ∧
      before.stride task (run.moment n).world = (.waiting rest, (run.moment (n + 1)).world) := by
  generalize hlast : n + 1 = last at h
  cases h with
  | begin => exact absurd hmn (by omega)
  | other _ hnot =>
    obtain rfl := Nat.succ.inj hlast
    exact absurd hevent hnot
  | stride before _ hnext =>
    obtain rfl := Nat.succ.inj hlast
    exact ⟨_, before, hnext⟩

/-- A task that has nothing left to do of an activity stays there. -/
theorem eq_done (h : run.Reaches task m activity n rest)
    (hdone : run.Reaches task m activity k (.done value)) (hkn : k ≤ n) : rest = .done value := by
  induction h with
  | begin =>
    obtain rfl := Nat.le_antisymm hkn hdone.le
    exact hdone.eq_self.symm
  | other before hevent ih =>
    rcases Nat.le_succ_iff.mp hkn with hle | rfl
    · exact ih hle
    · exact (before.other hevent).unique hdone
  | stride before hevent hnext ih =>
    rcases Nat.le_succ_iff.mp hkn with hle | rfl
    · rw [ih hle] at hnext
      cases hnext
    · exact (before.stride hevent hnext).unique hdone

end Reaches

namespace Yields

/-- A value is there no sooner than the activity was begun. -/
theorem le (h : run.Yields task m activity n value) : m ≤ n := by
  obtain ⟨-, rest, hrest, -⟩ := h
  exact hrest.le

/-- A task goes no farther with an activity that has come to its end. -/
theorem not_reaches (h : run.Yields task m activity n value) :
    ¬ run.Reaches task m activity (n + 1) rest := by
  obtain ⟨hevent, last, hlast, hends⟩ := h
  intro hrest
  generalize hnext : n + 1 = next at hrest
  cases hrest with
  | begin => exact absurd hlast.le (by omega)
  | other earlier hnot =>
    obtain rfl := Nat.succ.inj hnext
    exact hnot hevent
  | stride earlier _ hlater =>
    obtain rfl := Nat.succ.inj hnext
    rw [earlier.unique hlast, hends] at hlater
    cases hlater

/-- What is reached on the way to a value is reached before it. -/
theorem reaches_le (h : run.Yields task m activity n value)
    (hrest : run.Reaches task m activity k rest) : k ≤ n := by
  by_contra hlt
  obtain ⟨earlier, hearlier⟩ := hrest.exists_earlier (Nat.le_succ_of_le h.le) (by omega)
  exact h.not_reaches hearlier

/-- An activity comes to its end once. -/
theorem unique (h : run.Yields task m activity n value) {last : α}
    (hlast : run.Yields task m activity k last) : n = k ∧ value = last := by
  obtain ⟨-, rest, hrest, hends⟩ := id h
  obtain ⟨-, other, hother, hlater⟩ := id hlast
  obtain rfl := Nat.le_antisymm (hlast.reaches_le hrest) (h.reaches_le hother)
  rw [hrest.unique hother, hlater] at hends
  exact ⟨rfl, (Turn.finished.inj (congrArg Prod.fst hends)).symm⟩

end Yields

/-! ## Within one stride -/

/-- A task that has gone on with an activity since moment `m` does next what `next` does: it is there,
or gets there within the stride after moment `n`. -/
def IsAbout (run : Interleaving cached) (task : TaskId) (m : Nat) (activity : Activity α) (n : Nat)
    (next : Activity α) : Prop :=
  ∃ rest, run.Reaches task m activity n rest ∧
    rest.stride task (run.moment n).world = next.stride task (run.moment n).world

namespace IsAbout

variable {next last : Activity α}

/-- At the beginning, a task is about to do the activity itself. -/
theorem refl (activity : Activity α) : run.IsAbout task m activity m activity :=
  ⟨activity, .begin, rfl⟩

/-- A task that gets to another activity within a stride goes on with that. -/
theorem reaches (first : run.IsAbout task m activity k next) (hevent : run.event k = .stride task)
    (second : run.Reaches task k next n last) (hkn : k < n) :
    run.Reaches task m activity n last := by
  obtain ⟨rest, hrest, hstride⟩ := first
  induction second with
  | begin => exact absurd hkn (lt_irrefl k)
  | @other n later before hother ih =>
    rcases Nat.lt_succ_iff_lt_or_eq.mp hkn with hlt | rfl
    · exact (ih hlt).other hother
    · exact absurd hevent hother
  | @stride n later after before hgoes hafter ih =>
    rcases Nat.lt_succ_iff_lt_or_eq.mp hkn with hlt | rfl
    · exact (ih hlt).stride hgoes hafter
    · obtain rfl := before.eq_self
      exact hrest.stride hgoes (hstride.trans hafter)

/-- What a task is about to do is passed on through the stride that gets it there. -/
theorem trans (first : run.IsAbout task m activity k next) (hevent : run.event k = .stride task)
    (second : run.IsAbout task k next n last) : run.IsAbout task m activity n last := by
  obtain ⟨later, hlater, hlast⟩ := second
  rcases Nat.eq_or_lt_of_le hlater.le with rfl | hlt
  · obtain rfl := hlater.eq_self
    obtain ⟨rest, hrest, hstride⟩ := first
    exact ⟨rest, hrest, hstride.trans hlast⟩
  · exact ⟨later, first.reaches hevent hlater hlt, hlast⟩

end IsAbout

/-! ## One activity after another -/

section

variable {f : α → Activity β} {last : Activity β} {result : β}

/-- A task that has come so far with the first of two activities has come so far with both. -/
theorem Reaches.bind (h : run.Reaches task m activity n rest) (f : α → Activity β) :
    run.Reaches task m (activity >>= f) n (rest >>= f) := by
  induction h with
  | begin => exact .begin
  | other _ hevent ih => exact ih.other hevent
  | stride _ hevent hnext ih =>
    exact ih.stride hevent (Activity.stride_bind_of_waiting hnext f)

/-- At the end of the first of two activities, a task goes on with the second. -/
theorem Yields.isAbout_bind (h : run.Yields task m activity n value) :
    run.IsAbout task m (activity >>= f) n (f value) := by
  obtain ⟨-, rest, hrest, hends⟩ := h
  exact ⟨rest >>= f, hrest.bind f, Activity.stride_bind_of_finished hends f⟩

/-- A task that is at the second of two activities has come so far with both. -/
theorem Yields.reaches_bind (first : run.Yields task m activity k value)
    (second : run.Reaches task k (f value) n last) (hkn : k < n) :
    run.Reaches task m (activity >>= f) n last :=
  first.isAbout_bind.reaches first.event second hkn

/-- A task that works off two activities is at the first of them, or has come to the end of it and is
at the second. -/
theorem Reaches.bind_cases (h : run.Reaches task m (activity >>= f) n last) :
    (∃ rest, run.Reaches task m activity n rest ∧ last = rest >>= f) ∨
      ∃ k value, k < n ∧ run.Yields task m activity k value ∧
        run.Reaches task k (f value) n last := by
  induction h with
  | begin => exact .inl ⟨activity, .begin, rfl⟩
  | other _ hevent ih =>
    rcases ih with ⟨rest, hrest, heq⟩ | ⟨k, value, hkn, hyields, hlast⟩
    · exact .inl ⟨rest, hrest.other hevent, heq⟩
    · exact .inr ⟨k, value, Nat.lt_succ_of_lt hkn, hyields, hlast.other hevent⟩
  | @stride n last next _ hevent hnext ih =>
    rcases ih with ⟨rest, hrest, rfl⟩ | ⟨k, value, hkn, hyields, hlast⟩
    · rcases rest.stride_cases task (run.moment n).world with ⟨value, hstride⟩ | ⟨fault, hstride⟩ |
          ⟨later, after, hstride⟩
      · rw [Activity.stride_bind_of_finished hstride] at hnext
        have hyields : run.Yields task m activity n value := ⟨hevent, rest, hrest, hstride⟩
        exact .inr ⟨n, value, Nat.lt_succ_self n, hyields, Reaches.begin.stride hevent hnext⟩
      · rw [Activity.stride_bind_of_failed hstride] at hnext
        cases hnext
      · rw [Activity.stride_bind_of_waiting hstride] at hnext
        obtain ⟨hlater, rfl⟩ := Prod.mk.inj hnext
        exact .inl ⟨later, hrest.stride hevent hstride, (Turn.waiting.inj hlater).symm⟩
    · exact .inr ⟨k, value, Nat.lt_succ_of_lt hkn, hyields, hlast.stride hevent hnext⟩

end

/-! ## Callers -/

section

variable {turn : Turn Retrieved} {next : Activity Retrieved}

/-- A caller that does not go on stays where it is. -/
theorem callers_of_other (hcaller : (run.moment n).callers task = some turn)
    (hevent : run.event n ≠ .stride task) : (run.moment (n + 1)).callers task = some turn := by
  have hnext := run.next n
  generalize run.event n = event at hnext hevent
  generalize run.moment (n + 1) = after at hnext
  cases hnext with
  | outside => exact hcaller
  | @call other hnew =>
    have hne : task ≠ other := by
      rintro rfl
      rw [hnew] at hcaller
      cases hcaller
    simpa [Snapshot.call, hne] using hcaller
  | expiry => exact hcaller
  | @stride other _ _ _ =>
    have hne : task ≠ other := by
      rintro rfl
      exact hevent rfl
    simpa [Snapshot.stride, hne] using hcaller

/-- A caller that goes on was at some activity, and did not wait at a gate. -/
theorem exists_rest (hevent : run.event n = .stride task) :
    ∃ rest, (run.moment n).callers task = some (.waiting rest) ∧
      ¬ (run.moment n).world.IsWaiting task ∧
        run.moment (n + 1) = (run.moment n).stride task rest := by
  have hnext := run.next n
  rw [hevent] at hnext
  generalize run.moment (n + 1) = after at hnext
  cases hnext with
  | stride hrest hadmitted => exact ⟨_, hrest, hadmitted, rfl⟩

/-- A caller that is at some activity goes on with it. -/
theorem moment_of_stride (hcaller : (run.moment n).callers task = some (.waiting next))
    (hevent : run.event n = .stride task) :
    ¬ (run.moment n).world.IsWaiting task ∧
      run.moment (n + 1) = (run.moment n).stride task next := by
  obtain ⟨rest, hrest, hadmitted, hmoment⟩ := run.exists_rest hevent
  obtain rfl := Turn.waiting.inj (Option.some.inj (hcaller.symm.trans hrest))
  exact ⟨hadmitted, hmoment⟩

end

end CloudSession.Interleaving
