import CloudSession.Proofs.Background.Turns
import CloudSession.Proofs.Interplay.Supply
import CloudSession.Proofs.TokenManager.RefreshTime

/-!
# Handing out the token and its expiry

Whoever asks a manager for its token is handed the cached one at once as long as one of the two
refresh times allows it, while the token counts as expired by the mandatory one alone. So both agree
unless a token is still within its advisory refresh time and no longer within the mandatory one, or
a refresh time cannot be computed. Nobody else gets an answer without having turned to the token
source or having found a token inside the gate that is not past its mandatory refresh time.
-/

namespace CloudSession

/-- A gate at which somebody arrives does not stay as it was. -/
theorem Gate.arrive_ne {α : Type} (gate : Gate α) (caller : α) : gate.arrive caller ≠ gate := by
  unfold Gate.arrive
  intro h
  split at h
  · next hnone =>
    have hholder := congrArg Gate.holder h
    simp [hnone] at hholder
  · have hqueue := congrArg (fun gate => gate.queue.length) h
    simp at hqueue

/-- A token that is offered is within its advisory refresh time, or past it and within the mandatory
one. -/
theorem offered_iff {world : World} {id : ManagerId} {token : Token} :
    Offered world id token ↔ (world.manager id).token = some token ∧
      (world.now.IsWithin ((world.manager id).policy.advisoryTime token) ∨
        world.now.IsPast ((world.manager id).policy.advisoryTime token) ∧
          world.now.IsWithin ((world.manager id).policy.mandatoryTime token)) := by
  unfold Offered
  refine and_congr_right fun hcached => ?_
  simp only [TokenManager.phase, hcached, RefreshPolicy.phase_eq_ok_iff]
  constructor
  · rintro ⟨phase, hphase, hne⟩
    cases phase with
    | fresh => exact .inl hphase
    | advised => exact .inr hphase
    | stale => exact absurd rfl hne
  · rintro (hwithin | hadvised)
    · exact ⟨.fresh, hwithin, by simp⟩
    · exact ⟨.advised, hadvised, by simp⟩

/-- At this time, a token within its advisory refresh time is within the mandatory one, and the
advisory one can be computed where the mandatory one has not passed. -/
structure RefreshPolicy.InOrder (policy : RefreshPolicy) (token : Token) (now : Instant) :
    Prop where
  within : now.IsWithin (policy.advisoryTime token) → now.IsWithin (policy.mandatoryTime token)
  computed : now.IsWithin (policy.mandatoryTime token) →
    ∃ time, policy.advisoryTime token = .ok time

/-- Handing a token out agrees with its expiry just where its refresh times are in order. -/
theorem RefreshPolicy.inOrder_iff {policy : RefreshPolicy} {token : Token} {now : Instant} :
    policy.InOrder token now ↔
      ((now.IsWithin (policy.advisoryTime token) ∨
          now.IsPast (policy.advisoryTime token) ∧ now.IsWithin (policy.mandatoryTime token)) ↔
        now.IsWithin (policy.mandatoryTime token)) := by
  constructor
  · rintro ⟨hwithin, hcomputed⟩
    refine ⟨fun h => h.elim hwithin And.right, fun hmandatory => ?_⟩
    obtain ⟨time, htime⟩ := hcomputed hmandatory
    rcases Instant.isWithin_or_isPast now htime with hadvisory | hpast
    · exact .inl hadvisory
    · exact .inr ⟨hpast, hmandatory⟩
  · intro hiff
    refine ⟨fun h => hiff.mp (.inl h), fun hmandatory => ?_⟩
    rcases hiff.mpr hmandatory with ⟨time, htime, -⟩ | ⟨⟨time, htime, -⟩, -⟩
    · exact ⟨time, htime⟩
    · exact ⟨time, htime⟩

namespace Schedule

/-- A task that asks a manager for its token is handed the cached one at once: meanwhile nobody
comes to the gate, and no call of the token source begins. -/
structure HandsOut (schedule : Schedule) (me : TaskId) (id : ManagerId) (token : Token) : Prop where
  cached : (schedule.world.manager id).token = some token
  answer : (schedule.turn me id.get).2 = .finished (.ok token)
  aside : ∀ world ∈ schedule.passed me id.get,
    (world.manager id).gate = (schedule.world.manager id).gate ∧
      (world.manager id).calls = (schedule.world.manager id).calls

variable {schedule : Schedule} {me : TaskId} {id : ManagerId} {token : Token}

/-- A refresh that is advised is started without a change at the gate. -/
theorem turn_advise_aside (schedule : Schedule) (me : TaskId) (id : ManagerId) :
    (∃ after, schedule.turn me id.advise = (after, .finished ())) ∧
      ∀ world ∈ schedule.passed me id.advise,
        (world.manager id).gate = (schedule.world.manager id).gate ∧
          (world.manager id).calls = (schedule.world.manager id).calls := by
  cases hadvise : (schedule.world.manager id).advise with
  | none =>
    have hflag : (schedule.world.manager id).advisoryInFlight = true := by
      simpa [TokenManager.advise] using hadvise
    obtain ⟨hturn, hpassed⟩ := turn_advise_of_inFlight me hflag
    exact ⟨⟨_, hturn⟩, by simp [hpassed]⟩
  | some advised =>
    have hnoted : ((schedule.world.alterManager id fun _ => advised).manager id).gate =
          (schedule.world.manager id).gate ∧
        ((schedule.world.alterManager id fun _ => advised).manager id).calls =
          (schedule.world.manager id).calls := by
      rw [World.manager_alterManager]
      split <;> simp [TokenManager.eq_of_advise hadvise]
    cases htasks : schedule.world.canStartTasks with
    | true =>
      obtain ⟨hturn, hpassed⟩ := turn_advise me hadvise htasks
      refine ⟨⟨_, hturn⟩, ?_⟩
      simpa [hpassed, World.manager_engage] using hnoted
    | false =>
      obtain ⟨hturn, hpassed⟩ := turn_advise_inVain me hadvise htasks
      refine ⟨⟨_, hturn⟩, ?_⟩
      simpa [hpassed] using hnoted

/-- A task that asks for a token that is stale comes to the gate. -/
theorem passed_get_of_stale (me : TaskId)
    (hphase : (schedule.world.manager id).phase schedule.world.now = .ok .stale) :
    ∃ rest, schedule.passed me id.get =
      schedule.world.alterManager id (·.arrive ⟨me, .avoidStale⟩) :: rest := by
  unfold ManagerId.get
  simp only [bind, Activity.bind, Activity.now, Activity.world, passed, hphase, Activity.check]
  exact ⟨_, rfl⟩

/-- A task is handed the cached token at once if it is offered. -/
theorem handsOut_of_offered (offered : Offered schedule.world id token) :
    schedule.HandsOut me id token := by
  obtain ⟨hcached, phase, hphase, hne⟩ := offered
  cases phase with
  | stale => exact absurd rfl hne
  | fresh =>
    refine ⟨hcached, ?_, ?_⟩
    · unfold ManagerId.get
      simp only [bind, Activity.bind, Activity.now, Activity.world, Schedule.turn, hphase,
        Activity.check, hcached, pure]
    · unfold ManagerId.get
      simp [bind, Activity.bind, Activity.now, Activity.world, passed, hphase, Activity.check,
        hcached, pure]
  | advised =>
    obtain ⟨⟨after, hadvise⟩, haside⟩ := turn_advise_aside schedule me id
    have hget : schedule.turn me id.get =
          schedule.turn me (id.advise >>= fun _ => pure (.ok token)) ∧
        schedule.passed me id.get =
          schedule.passed me (id.advise >>= fun _ =>
            pure (.ok token : Except TokenError Token)) := by
      unfold ManagerId.get
      simp only [bind, Activity.bind, Activity.now, Activity.world, Schedule.turn, passed, hphase,
        Activity.check, hcached, and_self]
    refine ⟨hcached, ?_, ?_⟩
    · rw [hget.1, turn_bind_of_finished hadvise]
      rfl
    · rw [hget.2, passed_bind_of_finished hadvise]
      have hdone : passed me (pure (.ok token : Except TokenError Token)) after = [] := rfl
      simpa [hdone] using haside

/-- A task that is handed the cached token at once was offered it. -/
theorem HandsOut.offered (handsOut : schedule.HandsOut me id token)
    (known : id < schedule.world.managers.length) : Offered schedule.world id token := by
  refine ⟨handsOut.cached, ?_⟩
  cases hphase : (schedule.world.manager id).phase schedule.world.now with
  | error fault =>
    have hover := handsOut.answer
    unfold ManagerId.get at hover
    simp [bind, Activity.bind, Activity.now, Activity.world, Schedule.turn, hphase,
      Activity.check] at hover
  | ok phase =>
    refine ⟨phase, rfl, ?_⟩
    rintro rfl
    obtain ⟨rest, hpassed⟩ := passed_get_of_stale me hphase
    obtain ⟨hgate, -⟩ := handsOut.aside _ (hpassed ▸ List.mem_cons_self)
    rw [World.manager_alterManager, if_pos ⟨rfl, known⟩] at hgate
    exact Gate.arrive_ne _ _ hgate

/-- A task is handed the token at once just when the manager says that it has not expired, unless
the refresh times of the token are not in order. -/
theorem handsOut_agrees_iff (me : TaskId) (known : id < schedule.world.managers.length) :
    ((∃ token, schedule.HandsOut me id token) ↔
        (schedule.world.manager id).isExpired schedule.world.now = .ok false) ↔
      ∀ token, (schedule.world.manager id).token = some token →
        (schedule.world.manager id).policy.InOrder token schedule.world.now := by
  have hhandsOut (token : Token) :
      schedule.HandsOut me id token ↔ Offered schedule.world id token :=
    ⟨fun handsOut => handsOut.offered known, handsOut_of_offered⟩
  simp only [hhandsOut, offered_iff, TokenManager.isExpired_eq_false_iff, RefreshPolicy.inOrder_iff]
  cases hcached : (schedule.world.manager id).token with
  | none => simp
  | some token => simp

end Schedule

namespace Interplay

variable {interplay : Interplay} {acting : Option TaskId} {client : Client} {id : ManagerId}

/-- A caller inside the gate of a manager has found a token that is not past its mandatory refresh
time. -/
def FoundInside (interplay : Interplay) (client : Client) (id : ManagerId) (token : Token) : Prop :=
  ∃ moment, interplay.During client moment ∧
    (moment.world.manager id).gate.holder = some client.call ∧
    (moment.world.manager id).token = some token ∧
    moment.world.now.IsWithin ((moment.world.manager id).policy.mandatoryTime token)

/-- Whoever asks for a token that has expired is answered by the token source, or finds a token
inside the gate, unless the token that has expired is within its advisory refresh time. -/
theorem Sound.answer_of_expired (sound : interplay.Sound none)
    (hclient : client ∈ interplay.clients) (hoperation : client.operation = .getToken id)
    {answer : Except TokenError Token}
    (hstate : client.state = .finished (.token answer))
    (hexpired : (client.start.manager id).isExpired client.start.now = .ok true) :
    (∃ token, answer = .ok token ∧ (client.start.manager id).token = some token ∧
        client.start.now.IsWithin ((client.start.manager id).policy.advisoryTime token)) ∨
      (∃ n, interplay.Asked client id n answer) ∨
      ∃ token, answer = .ok token ∧ interplay.FoundInside client id token := by
  have hyields := (sound.ended hclient hstate).yields
  rw [hoperation] at hyields
  have hpurpose : client.call.purpose = .avoidStale := by
    rw [Client.call, hoperation]
    rfl
  obtain ⟨_, ⟨⟩, ⟨token, rfl, offered⟩ | answered | ⟨token, rfl, world, hworld, hholder, hcached,
    husable⟩⟩ := hyields
  · obtain ⟨hcached, hwithin | ⟨-, hwithin⟩⟩ := offered_iff.mp offered
    · exact .inl ⟨token, rfl, hcached, hwithin⟩
    · have hpast := TokenManager.isExpired_eq_true_iff.mp hexpired token hcached
      exact absurd hwithin hpast.not_isWithin
  · obtain ⟨n, hasked, -⟩ := sound.asked_of_answered hclient answered
    exact .inr (.inl ⟨n, hasked⟩)
  · obtain ⟨moment, during, rfl⟩ := sound.during_of_seen hclient hworld
    rw [hpurpose] at husable
    exact .inr (.inr ⟨token, rfl, moment, during, hholder, hcached,
      TokenManager.isWithin_of_usable (fun _ => rfl) husable hcached⟩)

/-- In every run, a manager hands its token out at once just when it says that the token has not
expired, unless the refresh times of the token are not in order. Whoever asks for a token that has
expired is answered by the token source or finds a token inside the gate, unless the one that has
expired is within its advisory refresh time. -/
theorem Reachable.get_agrees_iff (reachable : interplay.Reachable) (id : ManagerId)
    (known : id < interplay.schedule.world.managers.length) :
    (∀ me, ((∃ token, interplay.schedule.HandsOut me id token) ↔
        (interplay.schedule.world.manager id).isExpired interplay.schedule.world.now = .ok false) ↔
      ∀ token, (interplay.schedule.world.manager id).token = some token →
        (interplay.schedule.world.manager id).policy.InOrder token interplay.schedule.world.now) ∧
    ∀ client ∈ interplay.clients, client.operation = .getToken id → ∀ answer,
      client.state = .finished (.token answer) →
      (client.start.manager id).isExpired client.start.now = .ok true →
        (∃ token, answer = .ok token ∧ (client.start.manager id).token = some token ∧
          client.start.now.IsWithin ((client.start.manager id).policy.advisoryTime token)) ∨
        (∃ n, interplay.Asked client id n answer) ∨
        ∃ token, answer = .ok token ∧ interplay.FoundInside client id token := by
  constructor
  · exact fun me => Schedule.handsOut_agrees_iff me known
  · intro client hclient hoperation answer hstate hexpired
    exact reachable.sound.answer_of_expired hclient hoperation hstate hexpired

/-- A minute after a token was issued that lives for a hundred seconds, where its refresh is
mandatory after half of that time but advised only in the last tenth. -/
def lateAdvice : Interplay :=
  let token (name : String) : IssuerAnswer :=
    { token := fun now => .ok (.issued name "" "" 100 now) }
  let policy : RefreshPolicy :=
    { advisory := RefreshThreshold.percent 10, mandatory := RefreshThreshold.percent 50 }
  ((start (.solo policy [token "first", token "second"])).call (.getToken 0)).elapse (.ofSeconds 60)

/-- With an advisory refresh time later than the mandatory one, a token is handed out though it
counts as expired. -/
theorem lateAdvice_get :
    (lateAdvice.schedule.world.manager 0).isExpired lateAdvice.schedule.world.now = .ok true ∧
      ∃ token, lateAdvice.schedule.HandsOut lateAdvice.schedule.fresh 0 token := by
  have reachable : lateAdvice.Reachable := by
    refine ⟨_, World.untouched_solo _ _, .step (.step (.refl _) (.call ?_)) (.elapse ?_)⟩
    · exact Nat.zero_lt_one
    · exact Nat.zero_le _
  have hexpired : (lateAdvice.schedule.world.manager 0).isExpired lateAdvice.schedule.world.now =
      .ok true := rfl
  refine ⟨hexpired, ?_⟩
  by_contra hnone
  obtain ⟨hagrees, -⟩ := reachable.get_agrees_iff 0 Nat.zero_lt_one
  have horder := (hagrees lateAdvice.schedule.fresh).mp (by simp [hnone, hexpired])
  have hcached : (lateAdvice.schedule.world.manager 0).token =
      some (.issued "first" "" "" 100 .epoch) := rfl
  have hwithin := (horder _ hcached).within ⟨.ofSeconds 90, by decide +kernel, by decide +kernel⟩
  exact (TokenManager.isExpired_eq_true_iff.mp hexpired _ hcached).not_isWithin hwithin

end Interplay

end CloudSession
