import CloudSession.Gate
import Mathlib.Data.List.Nodup

/-!
# What one caller does at a gate

A task arrives at a gate and goes away from it, and the others notice little of that: whoever is
inside stays inside, and whoever waits goes on waiting or is let in. `Gate.Move` says what a task
may do, and the lemmas say what this leaves alone. Callers are told apart by the tasks that make
them.
-/

namespace CloudSession.Gate

variable {α : Type}

/-- Callers of a gate are whoever is inside and whoever waits. -/
theorem mem_callers {gate : Gate α} {x : α} :
    x ∈ gate.callers ↔ gate.holder = some x ∨ x ∈ gate.queue := by
  simp [callers, Option.mem_toList]

/-- Whoever arrives is one more caller. -/
theorem arrive_callers_perm (gate : Gate α) (a : α) :
    (gate.arrive a).callers.Perm (a :: gate.callers) := by
  cases h : gate.holder with
  | none => simp [arrive, callers, h]
  | some b =>
    have hcons : gate.callers ++ [a] = b :: (gate.queue ++ [a]) := by simp [callers, h]
    simpa [arrive, callers, h, hcons] using List.perm_append_singleton a gate.callers

variable [DecidableEq α]

/-- The others stay in order when a caller goes away. -/
theorem leave_callers (gate : Gate α) (a : α) :
    (gate.leave a).callers = gate.callers.erase a := by
  cases h : gate.holder with
  | none => simp [leave, callers, h]
  | some b =>
    by_cases heq : b = a
    · subst heq
      cases hqueue : gate.queue <;> simp [leave, handOver, callers, h, hqueue]
    · simp [leave, callers, h, heq]

/-- Nobody becomes a caller because another leaves. -/
theorem leave_callers_sublist (gate : Gate α) (a : α) :
    (gate.leave a).callers.Sublist gate.callers := by
  rw [leave_callers]
  exact List.erase_sublist

/-- Whoever waits after another has left has waited before. -/
theorem leave_queue_sublist (gate : Gate α) (a : α) :
    (gate.leave a).queue.Sublist gate.queue := by
  by_cases h : gate.holder = some a
  · cases hqueue : gate.queue <;> simp [leave, handOver, h, hqueue]
  · simpa [leave, h] using List.erase_sublist

/-- Another caller stays inside. -/
theorem leave_holder {gate : Gate α} {a x : α} (hne : x ≠ a) (hx : gate.holder = some x) :
    (gate.leave a).holder = some x := by
  simp [leave, hx, hne]

/-- Another caller that waits is let in or goes on waiting. -/
theorem leave_queue {gate : Gate α} {a x : α} (hne : x ≠ a) (hx : x ∈ gate.queue) :
    x ∈ (gate.leave a).queue ∨ (gate.leave a).holder = some x := by
  by_cases h : gate.holder = some a
  · cases hqueue : gate.queue with
    | nil => simp [hqueue] at hx
    | cons next rest =>
      rcases List.mem_cons.mp (hqueue ▸ hx) with rfl | hrest
      · right
        simp [leave, handOver, h, hqueue]
      · left
        simpa [leave, handOver, h, hqueue] using hrest
  · left
    simpa [leave, h] using (List.mem_erase_of_ne hne).mpr hx

/-- A caller that has left is not at the gate any more. -/
theorem not_mem_leave_callers {gate : Gate α} {a : α} (hnodup : gate.callers.Nodup) :
    a ∉ (gate.leave a).callers := by
  rw [leave_callers]
  exact hnodup.not_mem_erase

/-! ## Whose turn it is -/

/-- The first of those at the gate is inside, so nobody waits for nobody. -/
def IsServed (gate : Gate α) : Prop :=
  gate.holder = gate.callers.head?

omit [DecidableEq α] in
/-- Once somebody has arrived, somebody is inside. -/
theorem isServed_arrive (gate : Gate α) (a : α) : (gate.arrive a).IsServed := by
  cases h : gate.holder with
  | none => simp [IsServed, Gate.arrive, callers, h]
  | some b => simp [IsServed, Gate.arrive, callers, h]

/-- Nobody waits at a gate without somebody inside, after somebody has left either. -/
theorem IsServed.leave {gate : Gate α} (served : gate.IsServed) (a : α) :
    (gate.leave a).IsServed := by
  cases h : gate.holder with
  | none =>
    have hqueue : gate.queue = [] := by simpa [IsServed, callers, h, eq_comm] using served
    simp [IsServed, Gate.leave, callers, h, hqueue]
  | some b =>
    by_cases heq : b = a
    · subst heq
      cases hqueue : gate.queue <;> simp [IsServed, Gate.leave, handOver, callers, h, hqueue]
    · simp [IsServed, Gate.leave, callers, h, heq]

/-- What a task may do at a gate. It arrives only if it is not there yet. -/
inductive Move (key : α → TaskId) (task : TaskId) : Gate α → Gate α → Prop
  | stay (gate : Gate α) : Move key task gate gate
  | arrive (gate : Gate α) (a : α) : key a = task → (∀ b ∈ gate.callers, key b ≠ task) →
      Move key task gate (gate.arrive a)
  | leave (gate : Gate α) (a : α) : key a = task → Move key task gate (gate.leave a)

namespace Move

variable {key : α → TaskId} {task : TaskId} {gate after : Gate α} {x : α}

/-- Nobody else is put out of the gate. -/
theorem holder_kept (move : Move key task gate after) (hx : key x ≠ task)
    (hholder : gate.holder = some x) : after.holder = some x := by
  cases move with
  | stay => exact hholder
  | arrive a _ _ => simp [Gate.arrive, hholder]
  | leave a ha => exact leave_holder (by rintro rfl; exact hx ha) hholder

/-- Nobody else that waits is sent away. -/
theorem queue_kept (move : Move key task gate after) (hx : key x ≠ task)
    (hqueue : x ∈ gate.queue) : x ∈ after.queue ∨ after.holder = some x := by
  cases move with
  | stay => exact Or.inl hqueue
  | arrive a _ _ =>
    left
    cases h : gate.holder <;> simp [Gate.arrive, h, hqueue]
  | leave a ha => exact leave_queue (by rintro rfl; exact hx ha) hqueue

/-- Nobody else is brought to the gate. -/
theorem callers_of (move : Move key task gate after) (hx : key x ≠ task)
    (hcaller : x ∈ after.callers) : x ∈ gate.callers := by
  cases move with
  | stay => exact hcaller
  | arrive a ha _ =>
    rcases List.mem_cons.mp ((arrive_callers_perm gate a).mem_iff.mp hcaller) with rfl | hmem
    · exact absurd ha hx
    · exact hmem
  | leave a ha => exact (leave_callers_sublist gate a).subset hcaller

/-- Nobody else is made to wait. -/
theorem queue_of (move : Move key task gate after) (hx : key x ≠ task)
    (hqueue : x ∈ after.queue) : x ∈ gate.queue := by
  cases move with
  | stay => exact hqueue
  | arrive a ha _ =>
    cases h : gate.holder with
    | none => simpa [Gate.arrive, h] using hqueue
    | some b =>
      have hcases : x ∈ gate.queue ∨ x = a := by simpa [Gate.arrive, h] using hqueue
      rcases hcases with hmem | rfl
      · exact hmem
      · exact absurd ha hx
  | leave a ha => exact (leave_queue_sublist gate a).subset hqueue

/-- Each task calls at the gate at most once. -/
theorem nodup (move : Move key task gate after) (hnodup : (gate.callers.map key).Nodup) :
    (after.callers.map key).Nodup := by
  cases move with
  | stay => exact hnodup
  | arrive a ha hnew =>
    refine ((arrive_callers_perm gate a).map key).nodup_iff.mpr (List.nodup_cons.mpr ⟨?_, hnodup⟩)
    rintro hmem
    obtain ⟨b, hb, hkey⟩ := List.mem_map.mp hmem
    exact hnew b hb (hkey.trans ha)
  | leave a ha => exact ((leave_callers_sublist gate a).map key).nodup hnodup

end Move

end CloudSession.Gate
