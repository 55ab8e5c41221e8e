import CloudSession.Proofs.Interplay.Supply
import CloudSession.Proofs.TokenManager.RefreshTime

/-!
# Credentials behind a cache carry a current token

A cache keeps a copy of the credentials that its provider gave it last. Where these carry tokens of
a manager, the copy is never served: whoever asks the cache gets a token that the manager had while
the caller was there, not past its mandatory refresh time, or one that the caller had issued itself.
Neither was replaced before the caller came.
-/

namespace CloudSession

namespace Interplay

/-- What is current about a token that a caller has got: it comes from a call of the token source
that the caller began itself, or was cached and not past its mandatory refresh time while the caller
was there. -/
def IsCurrent (interplay : Interplay) (client : Client) (id : ManagerId) (token : Token) : Prop :=
  (∃ n, interplay.Asked client id n (.ok token)) ∨
    ∃ moment, interplay.During client moment ∧ (moment.world.manager id).token = some token ∧
      moment.world.now.IsWithin ((moment.world.manager id).policy.mandatoryTime token)

/-- A token that a caller has got is that of a call at least as late as any whose token was the last
success at a moment before the caller came. -/
def IsNewest (interplay : Interplay) (client : Client) (id : ManagerId) (token : Token) : Prop :=
  ∃ m, interplay.Supplied client id m token ∧
    ∀ (i n : Nat) (earlier : Moment) (old : Token), i ≤ client.began →
      interplay.story[i]? = some earlier → (earlier.world.manager id).LastSuccess n old → n ≤ m

variable {interplay : Interplay} {acting : Option TaskId} {client : Client} {id : ManagerId}
  {token : Token} {n : Nat}

/-- A token with which a caller is supplied has not been replaced before the caller came. -/
theorem Sound.isNewest (sound : interplay.Sound acting)
    (supplied : interplay.Supplied client id n token) : interplay.IsNewest client id token :=
  ⟨n, supplied, fun _ _ _ _ hi hearlier hlast => sound.le_of_supplied hearlier hi hlast supplied⟩

/-- The policy of a manager stays what it was when a caller began. -/
theorem Sound.policy_eq (sound : interplay.Sound acting) (id : ManagerId)
    (hclient : client ∈ interplay.clients) {moment : Moment}
    (during : interplay.During client moment) :
    (moment.world.manager id).policy = (client.start.manager id).policy := by
  obtain ⟨first, hfirst, hstart⟩ := (sound.recorded client hclient).began
  rw [← hstart]
  exact (sound.precedes_during hfirst (Nat.le_refl _) during).policies id

/-- The token of credentials behind a cache, if the manager refreshes by the default thresholds. -/
theorem Sound.isCurrent_of_carries (sound : interplay.Sound none)
    (hclient : client ∈ interplay.clients) (hpurpose : client.call.purpose = .avoidStale)
    (hadvisory : (client.start.manager id).policy.advisory = RefreshThreshold.defaultAdvisory)
    (hmandatory : (client.start.manager id).policy.mandatory = RefreshThreshold.defaultMandatory)
    (hlifetime : token.expiresIn.toInt ≤ RefreshThreshold.longestLifetime)
    (hsource : (∃ world ∈ client.history.seen, Offered world id token) ∨
      Answered client.start id client.call (.ok token) client.history.seen ∨
        Found id client.call token client.history.seen) :
    interplay.IsCurrent client id token := by
  rcases hsource with ⟨world, hworld, hcached, phase, hphase, hne⟩ | answered |
      ⟨world, hworld, -, hcached, husable⟩
  · obtain ⟨moment, during, rfl⟩ := sound.during_of_seen hclient hworld
    have hpolicy := sound.policy_eq id hclient during
    rw [← hpolicy] at hadvisory hmandatory
    rw [TokenManager.phase, hcached] at hphase
    exact .inr ⟨moment, during, hcached,
      RefreshPolicy.isWithin_of_default hadvisory hmandatory hlifetime hphase hne⟩
  · obtain ⟨n, hasked, -⟩ := sound.asked_of_answered hclient answered
    exact .inl ⟨n, hasked⟩
  · obtain ⟨moment, during, rfl⟩ := sound.during_of_seen hclient hworld
    rw [hpurpose] at husable
    exact .inr ⟨moment, during, hcached,
      TokenManager.isWithin_of_usable (fun _ => rfl) husable hcached⟩

/-- In every run, the credentials that a cache over a token manager hands out carry a current token,
if the manager refreshes by the default thresholds and its tokens do not live too long for these.
That token has not been replaced before the caller came. -/
theorem Reachable.credentials_current (reachable : interplay.Reachable)
    (hclient : client ∈ interplay.clients) {cache : Nat} {name : String}
    {serviceInstance : Option String} {credentials : Credentials}
    (hoperation : client.operation = .getCredentials ⟨cache, .tokens name id serviceInstance⟩)
    (hstate : client.state = .finished (.credentials (.ok credentials)))
    (hadvisory : (client.start.manager id).policy.advisory = RefreshThreshold.defaultAdvisory)
    (hmandatory : (client.start.manager id).policy.mandatory = RefreshThreshold.defaultMandatory) :
    ∃ token, credentials = Credentials.ofToken token serviceInstance name ∧
      (token.expiresIn.toInt ≤ RefreshThreshold.longestLifetime →
        interplay.IsCurrent client id token) ∧
      interplay.IsNewest client id token := by
  have sound := reachable.sound
  have hyields := (sound.ended hclient hstate).yields
  rw [hoperation] at hyields
  obtain ⟨_, ⟨⟩, hcarries⟩ := hyields
  obtain ⟨token, hcredentials, hsource⟩ := hcarries credentials rfl
  have hpurpose : client.call.purpose = .avoidStale := by
    rw [Client.call, hoperation]
    rfl
  refine ⟨token, hcredentials, fun hlifetime => ?_, ?_⟩
  · exact sound.isCurrent_of_carries hclient hpurpose hadvisory hmandatory hlifetime hsource
  · rcases hsource with ⟨world, hworld, hcached, -⟩ | answered | ⟨world, hworld, -, hcached, -⟩
    · obtain ⟨n, supplied⟩ := sound.supplied_of_cached hclient hworld hcached
      exact sound.isNewest supplied
    · obtain ⟨n, -, hsupplied⟩ := sound.asked_of_answered hclient answered
      exact sound.isNewest (hsupplied token rfl)
    · obtain ⟨n, supplied⟩ := sound.supplied_of_cached hclient hworld hcached
      exact sound.isNewest supplied

/-- Credentials are asked for twice, half an hour apart; their token is replaced in the meantime. -/
def halfAnHourLater : Interplay :=
  let token (name : String) : IssuerAnswer :=
    { token := fun now => .ok (.issued name "" "" 3600 now) }
  let ask : Operation := .getCredentials ⟨0, .tokens "provider" 0 none⟩
  ((((start (.solo {} [token "first", token "second"])).call ask).call (.refreshToken 0)).elapse
    (.ofSeconds 1800)).call ask

/-- Half an hour later, the credentials carry the token that has replaced the first one, which is
current and the newest. -/
theorem halfAnHourLater_credentials_current :
    ∃ client ∈ halfAnHourLater.clients,
      client.state = .finished (.credentials
        (.ok (.ofToken (.issued "second" "" "" 3600 .epoch) none "provider"))) ∧
      halfAnHourLater.IsCurrent client 0 (.issued "second" "" "" 3600 .epoch) ∧
      halfAnHourLater.IsNewest client 0 (.issued "second" "" "" 3600 .epoch) := by
  have reachable : halfAnHourLater.Reachable := by
    refine ⟨_, World.untouched_solo _ _,
      .step (.step (.step (.step (.refl _) (.call ?_)) (.call ?_)) (.elapse ?_)) (.call ?_)⟩
    · exact ⟨Nat.zero_lt_one, List.not_mem_nil, Nat.zero_lt_one⟩
    · exact Nat.zero_lt_one
    · exact Nat.zero_le _
    · exact ⟨Nat.zero_lt_one, List.not_mem_nil, Nat.zero_lt_one⟩
  obtain ⟨client, hlast, hoperation, hstate, hadvisory, hmandatory⟩ :
      ∃ client, halfAnHourLater.clients.getLast? = some client ∧
        client.operation = .getCredentials ⟨0, .tokens "provider" 0 none⟩ ∧
        client.state = .finished (.credentials
          (.ok (.ofToken (.issued "second" "" "" 3600 .epoch) none "provider"))) ∧
        (client.start.manager 0).policy.advisory = RefreshThreshold.defaultAdvisory ∧
        (client.start.manager 0).policy.mandatory = RefreshThreshold.defaultMandatory :=
    ⟨_, rfl, rfl, rfl, rfl, rfl⟩
  have hclient := List.mem_of_getLast? hlast
  obtain ⟨token, htoken, hcurrent, hnewest⟩ :=
    reachable.credentials_current hclient hoperation hstate hadvisory hmandatory
  obtain rfl : Token.issued "second" "" "" 3600 .epoch = token := by
    simpa [Credentials.ofToken] using htoken
  exact ⟨client, hclient, hstate, hcurrent (by decide +kernel), hnewest⟩

end Interplay

end CloudSession
