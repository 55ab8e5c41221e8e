/-!
# Instants and spans

An `Instant` is a point of wall-clock time and a `Span` is a length of time, both counted in
nanoseconds. Whole seconds since the Unix epoch are 64-bit words, and arithmetic that would leave
their range is reported or saturates, as each operation says.
-/

namespace CloudSession

/-- How many 64-bit words there are. -/
def wordCount : Nat := 0x10000000000000000

/-- The least number above all signed 64-bit words. -/
def signedLimit : Int := 0x8000000000000000

/-- Nanoseconds in a second. -/
def nanosPerSecond : Nat := 1000000000

/-- A length of time in nanoseconds. -/
structure Span where
  nanos : Nat
  deriving DecidableEq, Repr, Ord

/-- A point of wall-clock time, in nanoseconds since the Unix epoch. -/
structure Instant where
  nanos : Int
  deriving DecidableEq, Repr

/-- Arithmetic on times left the representable range where that is not provided for. -/
inductive Overflow where
  | overflow
  deriving DecidableEq, Repr

namespace Span

/-- A span of whole seconds. -/
def ofSeconds (seconds : Nat) : Span := ⟨seconds * nanosPerSecond⟩

/-- A span of whole milliseconds. -/
def ofMillis (millis : Nat) : Span := ⟨millis * 1000000⟩

/-- The whole seconds of a span. -/
def seconds (span : Span) : Nat := span.nanos / nanosPerSecond

/-- The span without length. -/
def zero : Span := ⟨0⟩

/-- The spans below this bound are the representable ones: their seconds are 64-bit words. -/
def limit : Nat := wordCount * nanosPerSecond

/-- The `n`-fold span, if it is representable. -/
def times? (span : Span) (n : Nat) : Except Overflow Span :=
  if span.nanos * n < limit then .ok ⟨span.nanos * n⟩ else .error .overflow

/-- The `n`-th part of a span, rounded down. -/
def dividedBy (span : Span) (n : Nat) : Span := ⟨span.nanos / n⟩

end Span

namespace Instant

/-- The instant from which time is counted. -/
def epoch : Instant := ⟨0⟩

/-- The instant `seconds` after the epoch. -/
def ofSeconds (seconds : Int) : Instant := ⟨seconds * nanosPerSecond⟩

/-- The instant `millis` milliseconds after the epoch. -/
def ofMillis (millis : Int) : Instant := ⟨millis * 1000000⟩

/-- The whole seconds since the epoch, rounded toward the epoch. -/
def seconds (time : Instant) : Int := time.nanos.tdiv nanosPerSecond

/-- The whole milliseconds since the epoch, rounded down. -/
def millis (time : Instant) : Int := time.nanos.fdiv 1000000

/-- `a.atOrBefore b`: `a` is no later than `b`. -/
def atOrBefore (a b : Instant) : Bool := a.nanos ≤ b.nanos

/-- Instants lie within the 64-bit seconds around the epoch. -/
def isRepresentable (nanos : Int) : Bool :=
  -signedLimit * nanosPerSecond ≤ nanos && nanos < signedLimit * nanosPerSecond

/-- The instant a span later, if it is representable. -/
def later? (time : Instant) (span : Span) : Except Overflow Instant :=
  if isRepresentable (time.nanos + span.nanos) then .ok ⟨time.nanos + span.nanos⟩
  else .error .overflow

/-- The instant a span earlier, or the epoch if that is not representable. -/
def earlierOrEpoch (time : Instant) (span : Span) : Instant :=
  if isRepresentable (time.nanos - span.nanos) then ⟨time.nanos - span.nanos⟩ else epoch

/-- The instant a span later, on a clock without bounds. -/
def plus (time : Instant) (span : Span) : Instant := ⟨time.nanos + span.nanos⟩

/-- How long after `start` the instant is; nothing if it is earlier. -/
def since (time start : Instant) : Span := ⟨(time.nanos - start.nanos).toNat⟩

end Instant

/-- The nearest 64-bit word. -/
def saturate (n : Int) : Int64 :=
  if n < -signedLimit then Int64.minValue
  else if signedLimit ≤ n then Int64.maxValue
  else Int64.ofInt n

/-- The 64-bit word with value `n`, if there is one. -/
def word? (n : Int) : Option Int64 :=
  if -signedLimit ≤ n ∧ n < signedLimit then some (Int64.ofInt n) else none

end CloudSession
