import CloudSession.Proofs.Interplay.Supply
import CloudSession.Proofs.TokenManager.RefreshTime

/-!
# One refresh at a time

At most one call of the token source of a manager is underway at any moment of any run. A call
begins only when its caller is inside the gate: on behalf of a caller that asks for the token, only
when there is no token or its mandatory refresh time is past, and on behalf of an advised refresh,
only when there is no token or its advisory refresh time is past. So callers that wait for the gate
while another one refreshes the token begin no call, unless the token is stale again when they look.
-/

namespace CloudSession

namespace TokenManager

variable {manager after : TokenManager} {me : RefreshCall} {now : Instant}
  {elapsed : Span} {n : Nat}

/-- A caller inside the gate begins call number `n` of the token source, which it needs. -/
structure Begins (manager after : TokenManager) (call : RefreshCall) (now : Instant) (n : Nat) :
    Prop where
  calls : ∃ began delay, after.calls = manager.calls ++ [{ caller := call, began, delay }]
  number : manager.calls.length = n
  inside : manager.gate.holder = some call
  stale : call.purpose = .avoidStale → ∀ token, manager.token = some token →
    now.IsPast (manager.policy.mandatoryTime token)
  advised : call.purpose = .followAdvice → ∀ token, manager.token = some token →
    now.IsPast (manager.policy.advisoryTime token)

/-- A call that is new after a deed has begun through it. -/
theorem Deed.begins (deed : Deed me now elapsed manager after) {issue : IssueCall}
    (hnew : manager.calls.length ≤ n) (hissue : after.calls[n]? = some issue) :
    manager.Begins after me now n ∧ issue.caller = me := by
  have hlt : n < after.calls.length := (List.getElem?_eq_some_iff.mp hissue).1
  obtain ⟨hcalls, -⟩ | ⟨delay, hcalls, -, hholder, -, husable⟩ | ⟨hcalls, -⟩ |
      ⟨_, answer, rfl, -⟩ := deed.effect_cases
  · rw [hcalls] at hlt
    omega
  · have hnumber : manager.calls.length = n := by
      rw [hcalls, List.length_append, List.length_singleton] at hlt
      omega
    refine ⟨⟨⟨elapsed, delay, hcalls⟩, hnumber, hholder, ?_, ?_⟩, ?_⟩
    · intro hpurpose token htoken
      rw [hpurpose] at husable
      exact isPast_of_usable (fun _ => rfl) husable htoken
    · intro hpurpose token htoken
      rw [hpurpose] at husable
      exact isPast_of_usable (fun _ => rfl) husable htoken
    · rw [hcalls, ← hnumber, List.getElem?_concat_length] at hissue
      rw [← Option.some.inj hissue]
  · rw [hcalls, conclude, List.length_map] at hlt
    omega
  · rw [settle_calls, conclude, List.length_map] at hlt
    omega

end TokenManager

namespace Interplay

/-- Between moment `k` and the next, a caller has begun call number `n` of the token source of a
manager. -/
def Began (interplay : Interplay) (id : ManagerId) (n k : Nat) (call : RefreshCall) : Prop :=
  ∃ earlier later, interplay.story[k]? = some earlier ∧ interplay.story[k + 1]? = some later ∧
    later.actor = some call ∧
      (earlier.world.manager id).Begins (later.world.manager id) call earlier.world.now n

/-- Throughout a run, a manager has one call of its token source underway at most, and begins none
without need. -/
structure SingleFlight (interplay : Interplay) (id : ManagerId) : Prop where
  /-- At no moment are two calls underway. -/
  one : ∀ moment ∈ interplay.story, ∀ (n m : Nat) (a b : IssueCall),
    (moment.world.manager id).calls[n]? = some a → (moment.world.manager id).calls[m]? = some b →
    a.isUnderway = true → b.isUnderway = true → n = m
  /-- Every call has begun in the course of the run, because its caller needed it. -/
  needed : ∀ (j n : Nat) (moment : Moment) (issue : IssueCall), interplay.story[j]? = some moment →
    (moment.world.manager id).calls[n]? = some issue →
      ∃ k < j, interplay.Began id n k issue.caller
  /-- Who has begun a call, and what for, is known by the name of the task. -/
  named : ∀ moment ∈ interplay.story, ∀ issue ∈ (moment.world.manager id).calls,
    Names interplay.schedule interplay.clients issue.caller
  /-- A caller that asks for the token, and waits for the gate while another one refreshes it with
  success, begins no call, if the token is in date whenever the caller does something inside the
  gate. -/
  shared : ∀ (i j l n : Nat) (first middle last : Moment) (issue : IssueCall) (token : Token)
    (me : RefreshCall), i ≤ j → j ≤ l → interplay.story[i]? = some first →
    interplay.story[j]? = some middle → interplay.story[l]? = some last →
    me.purpose = .avoidStale → me ∈ (first.world.manager id).gate.queue →
    (first.world.manager id).calls[n]? = some issue → issue.isUnderway = true →
    (middle.world.manager id).Succeeded n token →
    (∀ (k : Nat) (earlier later : Moment), i ≤ k → k < l → interplay.story[k]? = some earlier →
      interplay.story[k + 1]? = some later → later.actor = some me →
      (earlier.world.manager id).gate.holder = some me →
        ∀ cached, (earlier.world.manager id).token = some cached →
          earlier.world.now.IsWithin ((earlier.world.manager id).policy.mandatoryTime cached)) →
    ∀ (m : Nat) (call : IssueCall), (last.world.manager id).calls[m]? = some call →
      call.caller = me → m < (first.world.manager id).calls.length

variable {interplay : Interplay} {acting : Option TaskId} {id : ManagerId} {i j k l n : Nat}
  {earlier later first middle : Moment} {issue : IssueCall} {token : Token} {me : RefreshCall}

/-- A call that is new at a moment has begun between the one before and it. -/
theorem Sound.began_of_follows (sound : interplay.Sound acting)
    (hearlier : interplay.story[k]? = some earlier) (hlater : interplay.story[k + 1]? = some later)
    (hnew : (earlier.world.manager id).calls.length ≤ n)
    (hissue : (later.world.manager id).calls[n]? = some issue) :
    interplay.Began id n k issue.caller := by
  have hfollows := sound.follows hearlier hlater
  unfold Moment.Follows at hfollows
  split at hfollows
  · next me hactor =>
    obtain ⟨hbegins, rfl⟩ := (hfollows.managers id).begins hnew hissue
    exact ⟨earlier, later, hearlier, hlater, hactor, hbegins⟩
  · rw [hfollows.manager_eq] at hissue
    have hlt := (List.getElem?_eq_some_iff.mp hissue).1
    omega

/-- A call that is new since an earlier moment has begun in the meantime. -/
theorem Sound.began (sound : interplay.Sound acting) (hearlier : interplay.story[i]? = some earlier)
    (hlater : interplay.story[j]? = some later) (hij : i ≤ j)
    (hnew : (earlier.world.manager id).calls.length ≤ n)
    (hissue : (later.world.manager id).calls[n]? = some issue) :
    ∃ k, i ≤ k ∧ k < j ∧ interplay.Began id n k issue.caller := by
  induction j, hij using Nat.le_induction generalizing later issue with
  | base =>
    rw [hearlier] at hlater
    rw [← Option.some.inj hlater] at hissue
    have hlt := (List.getElem?_eq_some_iff.mp hissue).1
    omega
  | succ j hij ih =>
    have hlt : j < interplay.story.length :=
      Nat.lt_of_succ_lt (List.getElem?_eq_some_iff.mp hlater).1
    have hbetween := List.getElem?_eq_getElem hlt
    by_cases hold : n < (interplay.story[j].world.manager id).calls.length
    · have hbefore := List.getElem?_eq_getElem hold
      obtain ⟨k, hik, hkj, began⟩ := ih hbetween hbefore
      have hprecedes := sound.precedes hbetween hlater (Nat.le_succ j)
      obtain ⟨after, hafter, hbecomes⟩ := hprecedes.managers id n _ hbefore
      rw [hissue] at hafter
      rw [Option.some.inj hafter, hbecomes.caller]
      exact ⟨k, hik, Nat.lt_succ_of_lt hkj, began⟩
    · exact ⟨j, hij, Nat.lt_succ_self j,
        sound.began_of_follows hbetween hlater (Nat.le_of_not_lt hold) hissue⟩

/-- Every call has begun in the course of the run: nobody has used a manager at the first moment. -/
theorem Sound.began_of_call (sound : interplay.Sound acting)
    (hlater : interplay.story[j]? = some later)
    (hissue : (later.world.manager id).calls[n]? = some issue) :
    ∃ k < j, interplay.Began id n k issue.caller := by
  obtain ⟨start, rest, hstory, huntouched⟩ := sound.first
  have hstart : interplay.story[0]? = some start := by rw [hstory, List.getElem?_cons_zero]
  have hnone : (start.world.manager id).calls.length ≤ n := by
    rw [huntouched.manager_eq id]
    exact Nat.zero_le n
  obtain ⟨k, -, hkj, began⟩ := sound.began hstart hlater (Nat.zero_le j) hnone hissue
  exact ⟨k, hkj, began⟩

/-- Whoever is inside the gate, while a caller that was waiting there before has its turn inside,
finds a token that was refreshed in the meantime. -/
theorem Sound.cached_of_inside (sound : interplay.Sound acting)
    (hfirst : interplay.story[i]? = some first) (hmiddle : interplay.story[j]? = some middle)
    (hlater : interplay.story[k]? = some later) (hik : i ≤ k)
    (hqueue : me ∈ (first.world.manager id).gate.queue)
    (hissue : (first.world.manager id).calls[n]? = some issue) (hunderway : issue.isUnderway = true)
    (hsucceeded : (middle.world.manager id).Succeeded n token)
    (hinside : (later.world.manager id).gate.holder = some me) :
    ∃ cached, (later.world.manager id).token = some cached := by
  have hcoherent := (sound.world_sound (List.mem_of_getElem? hfirst)).coherent id
  have hcoherent' := (sound.world_sound (List.mem_of_getElem? hlater)).coherent id
  have hholder := hcoherent.holds issue (List.mem_of_getElem? hissue) hunderway
  have hne : issue.caller ≠ me := by
    rintro rfl
    have hnodup := List.Nodup.of_map _ hcoherent.distinct
    rw [Gate.callers, hholder] at hnodup
    exact (List.nodup_cons.mp hnodup).1 hqueue
  obtain ⟨now, hnow, hbecomes⟩ := (sound.precedes hfirst hlater hik).managers id n issue hissue
  -- the first caller would be inside still if its call were underway
  have hover : now.isUnderway = false := by
    by_contra hstill
    have hsame := hcoherent'.holds now (List.mem_of_getElem? hnow) (by simpa using hstill)
    rw [hinside, hbecomes.caller] at hsame
    exact hne (Option.some.inj hsame).symm
  have hkept : (later.world.manager id).Succeeded n token := by
    rcases Nat.le_total j k with hjk | hkj
    · have hprecedes := sound.precedes hmiddle hlater hjk
      exact hsucceeded.kept (hprecedes.managers id)
    · have hprecedes := sound.precedes hlater hmiddle hkj
      obtain ⟨kept, hkept, hbecomes'⟩ := hprecedes.managers id n now hnow
      rw [hbecomes'.final hover] at hkept
      obtain ⟨found, hfound, hstate⟩ := hsucceeded
      rw [hkept] at hfound
      rw [← Option.some.inj hfound] at hstate
      exact ⟨now, hnow, hstate⟩
  exact hcoherent'.cached_of_succeeded hkept

/-- In every run, every manager has one call of its token source underway at most, and begins none
without need. -/
theorem Reachable.singleFlight (reachable : interplay.Reachable) (id : ManagerId) :
    interplay.SingleFlight id where
  one moment hmoment n m a b ha hb haunderway hbunderway := by
    have hcoherent := (reachable.sound.world_sound hmoment).coherent id
    have hn := hcoherent.length_of_underway ha haunderway
    have hm := hcoherent.length_of_underway hb hbunderway
    omega
  needed j n moment issue hmoment hissue := reachable.sound.began_of_call hmoment hissue
  named moment hmoment issue hissue := by
    obtain ⟨j, hj⟩ := List.mem_iff_getElem?.mp hmoment
    obtain ⟨n, hn⟩ := List.mem_iff_getElem?.mp hissue
    obtain ⟨k, -, _, later, -, hlater, hactor, -⟩ := reachable.sound.began_of_call hj hn
    exact reachable.sound.named later (List.mem_of_getElem? hlater) issue.caller hactor
  shared i j l n first middle last issue token me hij hjl hfirst hmiddle hlast hpurpose hqueue
      hissue hunderway hsucceeded hindate m call hcall hcaller := by
    by_contra hnew
    obtain ⟨k, hik, hkl, earlier, later, hearlier, hlater, hactor, hbegins⟩ :=
      reachable.sound.began hfirst hlast (Nat.le_trans hij hjl) (Nat.le_of_not_lt hnew) hcall
    rw [hcaller] at hactor hbegins
    obtain ⟨cached, hcached⟩ := reachable.sound.cached_of_inside hfirst hmiddle hearlier hik hqueue
      hissue hunderway hsucceeded hbegins.inside
    have hwithin :=
      hindate k earlier later hik hkl hearlier hlater hactor hbegins.inside cached hcached
    exact (hbegins.stale hpurpose cached hcached).not_isWithin hwithin

/-- Two callers ask for the token one after the other; a second later it is there. -/
def twoGets : Interplay :=
  let answer : IssuerAnswer :=
    { delay := .ofSeconds 1, token := fun now => .ok (.issued "shared" "" "" 3600 now) }
  (((start (.solo {} [answer])).call (.getToken 0)).call (.getToken 0)).elapse (.ofSeconds 1)

/-- Two callers who ask at the same time get the same token, from a single call. -/
theorem twoGets_singleFlight :
    ((twoGets.giveTurn 1).giveTurn 2).Reachable ∧
      ((twoGets.giveTurn 1).giveTurn 2).clients.map Client.state =
        [.finished (.token (.ok (.issued "shared" "" "" 3600 .epoch))),
          .finished (.token (.ok (.issued "shared" "" "" 3600 .epoch)))] ∧
      (((twoGets.giveTurn 1).giveTurn 2).schedule.world.manager 0).calls.length = 1 ∧
      ((twoGets.giveTurn 1).giveTurn 2).SingleFlight 0 := by
  have reachable : ((twoGets.giveTurn 1).giveTurn 2).Reachable := by
    obtain ⟨world, untouched, runs⟩ : twoGets.Reachable := by
      refine ⟨_, World.untouched_solo _ _,
        .step (.step (.step (.refl _) (.call ?_)) (.call ?_)) (.elapse ?_)⟩
      · exact Nat.zero_lt_one
      · exact Nat.zero_lt_one
      · exact Nat.zero_le _
    have hfirst : Runs (start world) (twoGets.giveTurn 1) := runs.giveTurn (by decide +kernel)
    exact ⟨world, untouched, hfirst.giveTurn (by decide +kernel)⟩
  exact ⟨reachable, rfl, rfl, reachable.singleFlight 0⟩

end Interplay

end CloudSession
