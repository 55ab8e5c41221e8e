import CloudSession.Http.Message
import CloudSession.Http.Rehearsal
import CloudSession.Time

/-!
# Scripted connections

A connection that is laid down beforehand: how long each request takes, and what then comes back. A
request that is given up takes its delay with it, but leaves what would have come back to the next
one. The requests that got a response are kept.
-/

namespace CloudSession.Http

/-- The delays and the outcomes that are left, and the requests that were answered, oldest first. -/
structure Script where
  delays : List Span := []
  outcomes : List (Except String Response) := []
  answered : List Request := []

namespace Script

/-- How long the next request takes; a request without a delay of its own takes no time. -/
def depart (script : Script) : Script × Span :=
  match script.delays with
  | [] => (script, Span.zero)
  | delay :: rest => ({ script with delays := rest }, delay)

/-- What comes back to a request that has taken its time. When nothing is left, the connection
fails. -/
def arrive (script : Script) (request : Request) : Script × Except String Response :=
  match script.outcomes with
  | [] => (script, .error exhaustedMessage)
  | .error detail :: rest => ({ script with outcomes := rest }, .error detail)
  | .ok response :: rest =>
    ({ script with outcomes := rest, answered := script.answered ++ [request] }, .ok response)

end Script

end CloudSession.Http
