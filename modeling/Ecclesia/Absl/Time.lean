import Ecclesia.Library.Rounding

namespace Ecclesia.Absl

/-!
# Durations and times of the base library

A duration is a number of quarters of a nanosecond, or infinite.  Arithmetic that leaves the range of
the finite durations saturates to an infinite one, and a division of durations rounds towards zero
and saturates as an integer.  These follow the documented behaviour of the functions the program
calls; only what the modelled code uses is present.
-/

/-- An `absl::Duration`.  A finite one has 64 bits of seconds. -/
inductive Duration where
  | finite (ticks : Int) (lower : -36893488147419103232000000000 <= ticks)
      (upper : ticks < 36893488147419103232000000000)
  | infinite
  | negativeInfinite
deriving DecidableEq

/-- The duration of a number of quarters of a nanosecond, which saturates. -/
def Duration.ofTicks (ticks : Int) : Duration :=
  if lower : -36893488147419103232000000000 <= ticks then
    if upper : ticks < 36893488147419103232000000000 then .finite ticks lower upper else .infinite
  else .negativeInfinite

def seconds (count : Int64) : Duration :=
  .ofTicks (count.toInt * 4000000000)

def nanoseconds (count : Int64) : Duration :=
  .ofTicks (count.toInt * 4)

def zeroDuration : Duration :=
  .ofTicks 0

namespace Duration

def lt : Duration -> Duration -> Bool
  | .finite first _ _, .finite second _ _ => first < second
  | .negativeInfinite, .negativeInfinite => false
  | .negativeInfinite, _ => true
  | _, .negativeInfinite => false
  | .infinite, _ => false
  | .finite _ _ _, .infinite => true

def neg : Duration -> Duration
  | .finite ticks _ _ => .ofTicks (-ticks)
  | .infinite => .negativeInfinite
  | .negativeInfinite => .infinite

def add : Duration -> Duration -> Duration
  | .finite first _ _, .finite second _ _ => .ofTicks (first + second)
  | .finite _ _ _, second => second
  | first, _ => first

/-- `operator-=` -/
def sub : Duration -> Duration -> Duration
  | .finite first _ _, .finite second _ _ => .ofTicks (first - second)
  | .finite _ _ _, second => second.neg
  | first, _ => first

def infiniteOf (duration : Duration) : Duration :=
  if duration.lt zeroDuration then .negativeInfinite else .infinite

/-- The quotient by zero, or of an infinite duration. -/
def saturatedQuotient (numerator denominator : Duration) : Int64 :=
  if numerator.lt zeroDuration = denominator.lt zeroDuration then Int64.maxValue
  else Int64.minValue

end Duration

/-- `absl::IDivDuration`: the quotient and the remainder. -/
def iDivDuration (numerator denominator : Duration) : Int64 × Duration :=
  match numerator, denominator with
  | .finite first _ _, .finite second _ _ =>
    if second = 0 then
      (numerator.saturatedQuotient denominator, numerator.infiniteOf)
    else
      let quotient := .ofIntClamp (first.tdiv second)
      (quotient, .ofTicks (first - quotient.toInt * second))
  | .finite _ _ _, _ => (0, numerator)
  | _, _ => (numerator.saturatedQuotient denominator, numerator.infiniteOf)

namespace Duration

/-- `operator/` -/
def div (numerator denominator : Duration) : Int64 :=
  (iDivDuration numerator denominator).1

/-- `operator%=`, whose quotient does not saturate. -/
def mod (numerator denominator : Duration) : Duration :=
  match numerator, denominator with
  | .finite first _ _, .finite second _ _ =>
    if second = 0 then numerator.infiniteOf else .ofTicks (first.tmod second)
  | .finite _ _ _, _ => numerator
  | _, _ => numerator.infiniteOf

end Duration

def absDuration (duration : Duration) : Duration :=
  if duration.lt zeroDuration then duration.neg else duration

/-- An `absl::Time`, which is a duration since the epoch. -/
structure Time where
  sinceEpoch : Duration
deriving DecidableEq

def unixEpoch : Time :=
  ⟨zeroDuration⟩

def infiniteFuture : Time :=
  ⟨.infinite⟩

namespace Time

/-- `operator<` -/
def lt (first second : Time) : Bool :=
  first.sinceEpoch.lt second.sinceEpoch

/-- `operator+` -/
def add (time : Time) (duration : Duration) : Time :=
  ⟨time.sinceEpoch.add duration⟩

/-- `operator-` of two times. -/
def sub (first second : Time) : Duration :=
  first.sinceEpoch.sub second.sinceEpoch

end Time

end Ecclesia.Absl
