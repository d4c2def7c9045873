/-! Readings of the two clocks, in nanoseconds. -/
namespace Aafp.Foundation

/-- A reading of the monotonic clock. -/
abbrev Instant := Nat

/-- The distance of two instants. -/
abbrev Duration := Nat

def Duration.fromSecs (seconds : Nat) : Duration := seconds * 1000000000

/-- A reading of the wall clock, which may be before the epoch. -/
abbrev SystemTime := Int

/-- Whole seconds since the epoch. A time before it counts as zero. -/
def unixSeconds (time : SystemTime) : UInt64 :=
  if time < 0 then 0 else UInt64.ofNat (time.toNat / 1000000000)

end Aafp.Foundation
