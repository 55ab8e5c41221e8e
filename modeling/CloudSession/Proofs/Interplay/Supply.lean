import CloudSession.Proofs.Interplay.Story
import CloudSession.Proofs.TokenManager.Success

/-!
# Where the tokens of callers come from

A caller that has got a token from a manager was there while the token was cached, and so the last
success; `Interplay.Supplied` gives the number of the call that has yielded it. For callers that
come one after the other, these numbers never fall.
-/

namespace CloudSession.Interplay

/-- While a caller was there, the token of call number `n` was the last success. -/
def Supplied (interplay : Interplay) (client : Client) (id : ManagerId) (n : Nat) (token : Token) :
    Prop :=
  ∃ moment, interplay.During client moment ∧ (moment.world.manager id).LastSuccess n token

/-- A caller has got an answer of the token source by call number `n`, which it began itself. -/
def Asked (interplay : Interplay) (client : Client) (id : ManagerId) (n : Nat)
    (answer : Except TokenError Token) : Prop :=
  (client.start.manager id).calls.length ≤ n ∧
    ∃ moment issue, interplay.During client moment ∧
      (moment.world.manager id).calls[n]? = some issue ∧ issue.caller = client.call ∧
        issue.state = .ended answer

variable {interplay : Interplay} {acting : Option TaskId} {client next : Client} {id : ManagerId}
  {n m : Nat} {token other : Token}

/-- A token that was cached while a caller was there. -/
theorem Sound.supplied_of_cached (sound : interplay.Sound acting)
    (hclient : client ∈ interplay.clients) {world : World} (hworld : world ∈ client.history.seen)
    (hcached : (world.manager id).token = some token) :
    ∃ n, interplay.Supplied client id n token := by
  obtain ⟨moment, during, rfl⟩ := sound.during_of_seen hclient hworld
  have hcoherent := (sound.world_sound during.mem).coherent id
  obtain ⟨n, hn⟩ := hcoherent.lastSuccess hcached
  exact ⟨n, moment, during, hn⟩

/-- An answer of the token source is that of one call, and its token is the last success then. -/
theorem Sound.asked_of_answered (sound : interplay.Sound acting)
    (hclient : client ∈ interplay.clients) {answer : Except TokenError Token}
    (answered : Answered client.start id client.call answer client.history.seen) :
    ∃ n, interplay.Asked client id n answer ∧
      ∀ token, answer = .ok token → interplay.Supplied client id n token := by
  obtain ⟨world, hworld, n, issue, hbegan, hlength, hissue, hcaller, hstate⟩ := answered
  obtain ⟨moment, during, rfl⟩ := sound.during_of_seen hclient hworld
  have hcoherent := (sound.world_sound during.mem).coherent id
  refine ⟨n, ⟨hbegan, moment, issue, during, hissue, hcaller, hstate⟩, ?_⟩
  rintro token rfl
  exact ⟨moment, during, TokenManager.lastSuccess_of_length hlength hissue hstate⟩

/-- What was the last success before a caller began is no later than what it is supplied with. -/
theorem Sound.le_of_supplied (sound : interplay.Sound acting) {i : Nat} {earlier : Moment}
    (hearlier : interplay.story[i]? = some earlier) (hi : i ≤ client.began)
    (hlast : (earlier.world.manager id).LastSuccess n token)
    (supplied : interplay.Supplied client id m other) : n ≤ m := by
  obtain ⟨moment, during, hm⟩ := supplied
  exact (sound.precedes_during hearlier hi during).le_of_lastSuccess hlast hm

end CloudSession.Interplay
