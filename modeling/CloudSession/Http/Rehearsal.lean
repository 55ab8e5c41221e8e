import CloudSession.Http.Message

/-!
# Rehearsed connections

A connection for tests: it answers requests with prepared responses in order, and keeps each request
beside the one that was expected in its place.
-/

namespace CloudSession.Http

/-- A request that was sent, beside the expected one. -/
structure Sent where
  expected : Request
  actual : Request
  deriving Repr

/-- The exchanges that are still prepared, and the requests that were answered, oldest first. -/
structure Rehearsal where
  prepared : List (Request × Response)
  sent : List Sent := []
  deriving Repr

/-- What a connection says when no response is left. -/
def exhaustedMessage : String := "No more data"

/-- Sends a request; without a prepared response this fails. -/
def Rehearsal.send (connection : Rehearsal) (actual : Request) :
    Rehearsal × Except String Response :=
  match connection.prepared with
  | [] => (connection, .error exhaustedMessage)
  | (expected, response) :: rest =>
    ({ prepared := rest, sent := connection.sent ++ [{ expected, actual }] }, .ok response)

/-- Sends requests in order. -/
def Rehearsal.sendAll (connection : Rehearsal) :
    List Request → Rehearsal × List (Except String Response)
  | [] => (connection, [])
  | request :: rest =>
    let (next, outcome) := connection.send request
    let (last, outcomes) := next.sendAll rest
    (last, outcome :: outcomes)

/-- Whether a request that was sent is the expected one. -/
def Sent.matches (sent : Sent) (ignored : List String) : Bool :=
  sent.expected.isAsExpected sent.actual ignored

end CloudSession.Http
