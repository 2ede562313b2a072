/-! # Durations

Durations in microseconds, printed in up to three parts. The microseconds are always shown,
milliseconds above one millisecond, and seconds above one second. The two limits themselves do not
count as above, so exactly one millisecond and one second show zero parts only.
-/

namespace JitTrace

/-- The text of a known duration. -/
def formatMicroseconds (micros : Nat) : String :=
  let tail := s!"{micros % 1000}μs"
  let tail := if 1000 < micros then s!"{micros / 1000 % 1000}ms {tail}" else tail
  if 1000000 < micros then s!"{micros / 1000000}s {tail}" else tail

/-- The text of a duration, which may be unknown. -/
def formatDuration : Option UInt64 → String
  | none => "?s"
  | some micros => formatMicroseconds micros.toNat

end JitTrace
