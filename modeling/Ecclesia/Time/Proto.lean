import Ecclesia.Absl.Strings
import Ecclesia.Absl.Time

namespace Ecclesia.Time

open Absl Library

/-!
# Times and durations in protos

The proto of a duration has seconds and nanoseconds of one sign, and only durations of about ten
thousand years are valid.  The proto of a time has the seconds since the epoch and the nanoseconds of
the last one.

The definitions follow `time/proto.cc`.
-/

/-- A `google::protobuf::Duration`. -/
structure ProtoDuration where
  seconds : Int64
  nanos : Int32
deriving DecidableEq

/-- A `google::protobuf::Timestamp`. -/
structure ProtoTimestamp where
  seconds : Int64
  nanos : Int32
deriving DecidableEq

def validate (d : ProtoDuration) : Status :=
  let sec := d.seconds.toInt
  let ns := d.nanos.toInt
  if sec < -315576000000 ∨ 315576000000 < sec then
    .invalidArgument (text "seconds=" ++ strCatInt sec)
  else if ns < -999999999 ∨ 999999999 < ns then
    .invalidArgument (text "nanos=" ++ strCatInt ns)
  else if (sec < 0 ∧ 0 < ns) ∨ (0 < sec ∧ ns < 0) then
    .invalidArgument (text "sign mismatch")
  else .okStatus

def abslTimeFromProtoTime (timestamp : ProtoTimestamp) : Absl.Time :=
  (unixEpoch.add (seconds timestamp.seconds)).add (nanoseconds timestamp.nanos.toInt64)

def abslTimeToProtoTime (timestamp : Absl.Time) : StatusOr ProtoTimestamp :=
  if timestamp.lt unixEpoch then
    .error (.internal (text
      "timestamps earlier than UnixEpoch cannot be converted to protobuf::Timestamp."))
  else if timestamp = infiniteFuture then
    .error (.internal (text "InfiniteFuture timestamp cannot be converted to protobuf::Timestamp."))
  else
    let duration := timestamp.sub unixEpoch
    let rest := duration.mod (seconds 1)
    .ok ⟨duration.div (seconds 1), (rest.div (nanoseconds 1)).toInt32⟩

/-- The proto that `AbslDurationToProtoDuration` fills, before it is validated. -/
def protoOfDuration (d : Duration) : ProtoDuration :=
  let s := iDivDuration d (seconds 1)
  let n := iDivDuration s.2 (nanoseconds 1)
  ⟨s.1, n.1.toInt32⟩

def abslDurationToProtoDuration (d : Duration) : StatusOr ProtoDuration :=
  let proto := protoOfDuration d
  let status := validate proto
  if status.isOk then .ok proto else .error status

def abslDurationFromProtoDuration (proto : ProtoDuration) : StatusOr Duration :=
  let status := validate proto
  if status.isOk then
    .ok ((seconds proto.seconds).add (nanoseconds proto.nanos.toInt64))
  else .error status

def truncated : Duration -> Duration
  | .finite ticks _ _ => .ofTicks (ticks.tdiv 4 * 4)
  | duration => duration

def roundedDown (time : Absl.Time) : Absl.Time :=
  match time.sinceEpoch with
  | .finite ticks _ _ => ⟨.ofTicks (ticks / 4 * 4)⟩
  | _ => time

variable {ticks : Int}

lemma ofTicks_of_fits (lower : -36893488147419103232000000000 <= ticks)
    (upper : ticks < 36893488147419103232000000000) :
    Duration.ofTicks ticks = .finite ticks lower upper := by
  rw [Duration.ofTicks, dif_pos lower, dif_pos upper]

lemma seconds_eq (count : Int64) :
    ∃ lower upper, seconds count = .finite (count.toInt * 4000000000) lower upper := by
  have low := count.le_toInt
  have high := count.toInt_lt
  exact ⟨by omega, by omega, ofTicks_of_fits ..⟩

lemma nanoseconds_eq (count : Int64) :
    ∃ lower upper, nanoseconds count = .finite (count.toInt * 4) lower upper := by
  have low := count.le_toInt
  have high := count.toInt_lt
  exact ⟨by omega, by omega, ofTicks_of_fits ..⟩

lemma toInt_clamp {number : Int} (lower : -9223372036854775808 <= number)
    (upper : number < 9223372036854775808) : (Int64.ofIntClamp number).toInt = number := by
  apply Int64.toInt_ofIntClamp
  · exact lower
  · exact Int.le_of_lt_add_one upper

lemma toInt_toInt32 {number : Int64} (lower : -2147483648 <= number.toInt)
    (upper : number.toInt < 2147483648) : number.toInt32.toInt = number.toInt := by
  rw [Int64.toInt_toInt32]
  exact Int.bmod_eq_of_le (by omega) (by omega)

/-- A division of which the quotient fits. -/
lemma iDivDuration_finite {unit count rest : Int} {lower upper unitLower unitUpper}
    (positive : 0 < unit) (truncates : Truncates unit ticks count rest)
    (countLower : -9223372036854775808 <= count) (countUpper : count < 9223372036854775808) :
    iDivDuration (.finite ticks lower upper) (.finite unit unitLower unitUpper) =
      (.ofIntClamp count, .ofTicks rest) := by
  rw [iDivDuration]
  dsimp only
  rw [if_neg positive.ne', (truncates.tdiv_tmod positive).1, toInt_clamp countLower countUpper]
  have isRest : ticks - count * unit = rest := by
    rw [truncates.sum]
    omega
  rw [isRest]

lemma seconds_one : seconds 1 = .finite 4000000000 (by decide) (by decide) := by
  decide

lemma nanoseconds_one : nanoseconds 1 = .finite 4 (by decide) (by decide) := by
  decide

lemma protoOfDuration_finite (lower upper) :
    ∃ rest quarters,
      Truncates 4000000000 ticks (protoOfDuration (.finite ticks lower upper)).seconds.toInt rest ∧
      Truncates 4 rest (protoOfDuration (.finite ticks lower upper)).nanos.toInt quarters := by
  have inSeconds : Truncates 4000000000 ticks _ _ := truncates_tdiv_tmod (by decide)
  have inNanos : Truncates 4 (ticks.tmod 4000000000) _ _ := truncates_tdiv_tmod (by decide)
  rcases id inSeconds with ⟨sum, restLower, restUpper, signLower, signUpper⟩
  rcases id inNanos with ⟨restSum, quartersLower, quartersUpper, _⟩
  refine ⟨ticks.tmod 4000000000, (ticks.tmod 4000000000).tmod 4, ?_, ?_⟩
  · rw [protoOfDuration, seconds_one,
      iDivDuration_finite (by decide) inSeconds (by omega) (by omega)]
    rw [toInt_clamp (by omega) (by omega)]
    exact inSeconds
  · rw [protoOfDuration, seconds_one, nanoseconds_one,
      iDivDuration_finite (by decide) inSeconds (by omega) (by omega)]
    rw [ofTicks_of_fits (by omega) (by omega),
      iDivDuration_finite (by decide) inNanos (by omega) (by omega)]
    have whole := @toInt_clamp ((ticks.tmod 4000000000).tdiv 4) (by omega) (by omega)
    dsimp only
    rw [toInt_toInt32 (by omega) (by omega), whole]
    exact inNanos

/-- A proto that passes `Validate`. -/
structure Valid (d : ProtoDuration) : Prop where
  seconds : |d.seconds.toInt| <= 315576000000
  nanos : |d.nanos.toInt| <= 999999999
  sameSign : SameSign d.seconds.toInt d.nanos.toInt

lemma validate_isOk (d : ProtoDuration) : (validate d).isOk = true <-> Valid d := by
  unfold validate
  dsimp only
  split
  · refine iff_of_false Bool.false_ne_true ?_
    intro valid
    have within := abs_le.mp valid.seconds
    omega
  · split
    · refine iff_of_false Bool.false_ne_true ?_
      intro valid
      have within := abs_le.mp valid.nanos
      omega
    · split
      · rename_i opposite
        refine iff_of_false Bool.false_ne_true ?_
        intro valid
        exact opposite.elim valid.sameSign.1 valid.sameSign.2
      · rename_i same
        refine iff_of_true rfl ⟨abs_le.mpr (by omega), abs_le.mpr (by omega), ?_⟩
        exact ⟨fun below => same (.inl below), fun above => same (.inr above)⟩

lemma abslDurationFromProtoDuration_isOk (p : ProtoDuration) :
    (abslDurationFromProtoDuration p).isOk = true <-> Valid p := by
  rw [<- validate_isOk, abslDurationFromProtoDuration]
  cases ok : (validate p).isOk with
  | false => exact iff_of_false Bool.false_ne_true Bool.false_ne_true
  | true => exact iff_of_true rfl rfl

variable {p : ProtoDuration}

lemma abslDurationFromProtoDuration_valid (valid : Valid p) :
    ∃ lower upper, abslDurationFromProtoDuration p =
      .ok (.finite (p.seconds.toInt * 4000000000 + p.nanos.toInt * 4) lower upper) := by
  have secondsWithin := abs_le.mp valid.seconds
  have nanosWithin := abs_le.mp valid.nanos
  refine ⟨by omega, by omega, ?_⟩
  have ok := (validate_isOk p).mpr valid
  rcases seconds_eq p.seconds with ⟨_, _, isSeconds⟩
  rcases nanoseconds_eq p.nanos.toInt64 with ⟨_, _, isNanos⟩
  rw [abslDurationFromProtoDuration, isSeconds, isNanos, if_pos ok, Duration.add,
    Int32.toInt_toInt64, ofTicks_of_fits]

lemma protoOfDuration_eq (valid : Valid p) (lower upper) :
    protoOfDuration (.finite (p.seconds.toInt * 4000000000 + p.nanos.toInt * 4) lower upper) = p := by
  have nanosWithin := abs_le.mp valid.nanos
  have sameSign := valid.sameSign
  rcases protoOfDuration_finite lower upper with ⟨rest, quarters, inSeconds, inNanos⟩
  have expected : Truncates 4000000000 (p.seconds.toInt * 4000000000 + p.nanos.toInt * 4)
      p.seconds.toInt (p.nanos.toInt * 4) := by
    refine ⟨rfl, by omega, by omega, ?_, ?_⟩
    · have notBelow := sameSign.1
      omega
    · have notAbove := sameSign.2
      omega
  have sameSeconds := (inSeconds.tdiv_tmod (by decide)).1.symm.trans
    (expected.tdiv_tmod (by decide)).1
  have sameRest := (inSeconds.tdiv_tmod (by decide)).2.symm.trans (expected.tdiv_tmod (by decide)).2
  have expectedNanos : Truncates 4 rest p.nanos.toInt 0 :=
    ⟨by omega, by decide, by decide, by simp [SameSign]⟩
  have sameNanos := (inNanos.tdiv_tmod (by decide)).1.symm.trans
    (expectedNanos.tdiv_tmod (by decide)).1
  generalize protoOfDuration _ = proto at sameSeconds sameNanos
  cases proto
  cases p
  rw [ProtoDuration.mk.injEq]
  exact ⟨Int64.toInt_inj.mp sameSeconds, Int32.toInt_inj.mp sameNanos⟩

lemma abslDurationToProtoDuration_eq_ok {d : Duration} :
    abslDurationToProtoDuration d = .ok p <-> Valid p ∧ p = protoOfDuration d := by
  rw [abslDurationToProtoDuration]
  cases ok : (validate (protoOfDuration d)).isOk with
  | false =>
    apply iff_of_false
    · intro impossible
      cases impossible
    · rintro ⟨valid, rfl⟩
      rw [(validate_isOk _).mpr valid] at ok
      cases ok
  | true =>
    constructor
    · intro same
      cases same
      exact ⟨(validate_isOk _).mp ok, rfl⟩
    · rintro ⟨_, rfl⟩
      rfl

lemma abslDurationToProtoDuration_isOk (d : Duration) :
    (abslDurationToProtoDuration d).isOk = true <-> Valid (protoOfDuration d) := by
  rw [<- validate_isOk, abslDurationToProtoDuration]
  cases ok : (validate (protoOfDuration d)).isOk with
  | false => exact iff_of_false Bool.false_ne_true Bool.false_ne_true
  | true => exact iff_of_true rfl rfl

lemma valid_protoOfDuration (lower upper) :
    Valid (protoOfDuration (.finite ticks lower upper)) <->
      -1262304000004000000000 < ticks ∧ ticks < 1262304000004000000000 := by
  rcases protoOfDuration_finite lower upper with ⟨rest, quarters, inSeconds, inNanos⟩
  rcases inSeconds with ⟨sum, restLower, restUpper, signLower, signUpper⟩
  rcases inNanos with ⟨restSum, quartersLower, quartersUpper, nanosLower, nanosUpper⟩
  constructor
  · intro valid
    have secondsWithin := abs_le.mp valid.seconds
    omega
  · intro within
    refine ⟨abs_le.mpr (by omega), abs_le.mpr (by omega), by omega, by omega⟩

lemma absDuration_lt (lower upper) :
    (absDuration (.finite ticks lower upper)).lt (seconds 315576000001) = true <->
      -1262304000004000000000 < ticks ∧ ticks < 1262304000004000000000 := by
  have bound : seconds 315576000001 =
      .finite 1262304000004000000000 (by decide) (by decide) := by decide
  have isNegative : (Duration.finite ticks lower upper).lt zeroDuration = true <-> ticks < 0 :=
    decide_eq_true_iff
  rw [absDuration, bound]
  by_cases negative : ticks < 0
  · rw [if_pos (isNegative.mpr negative), Duration.neg, Duration.ofTicks, dif_pos (by omega)]
    split
    · rw [Duration.lt, decide_eq_true_iff]
      omega
    · exact iff_of_false Bool.false_ne_true (by omega)
  · rw [if_neg (fun below => negative (isNegative.mp below)), Duration.lt, decide_eq_true_iff]
    omega

/-- The ticks of the two fields of a proto, rounded towards zero. -/
lemma truncated_finite (lower upper) (isProto : p = protoOfDuration (.finite ticks lower upper)) :
    truncated (.finite ticks lower upper) =
      .ofTicks (p.seconds.toInt * 4000000000 + p.nanos.toInt * 4) := by
  rcases protoOfDuration_finite lower upper with ⟨rest, quarters, inSeconds, inNanos⟩
  rw [<- isProto] at inSeconds inNanos
  rcases inSeconds with ⟨sum, restLower, restUpper, signLower, signUpper⟩
  rcases inNanos with ⟨restSum, quartersLower, quartersUpper, nanosLower, nanosUpper⟩
  have whole : Truncates 4 ticks (p.seconds.toInt * 1000000000 + p.nanos.toInt) quarters :=
    ⟨by omega, quartersLower, quartersUpper, by omega, by omega⟩
  have joined : (p.seconds.toInt * 1000000000 + p.nanos.toInt) * 4 =
      p.seconds.toInt * 4000000000 + p.nanos.toInt * 4 := by omega
  rw [truncated, (whole.tdiv_tmod (by decide)).1, joined]

lemma mod_seconds (lower upper) :
    (Duration.finite ticks lower upper).mod (seconds 1) =
      (iDivDuration (.finite ticks lower upper) (seconds 1)).2 := by
  have inSeconds : Truncates 4000000000 ticks _ _ := truncates_tdiv_tmod (by decide)
  rcases id inSeconds with ⟨sum, restLower, restUpper, signLower, signUpper⟩
  rw [seconds_one, iDivDuration_finite (by decide) inSeconds (by omega) (by omega), Duration.mod]
  exact if_neg (by decide)

lemma abslTimeToProtoTime_finite (lower upper) (notBefore : 0 <= ticks) :
    abslTimeToProtoTime ⟨.finite ticks lower upper⟩ =
      .ok ⟨(protoOfDuration (.finite ticks lower upper)).seconds,
        (protoOfDuration (.finite ticks lower upper)).nanos⟩ := by
  have isNotBefore : (Absl.Time.mk (.finite ticks lower upper)).lt unixEpoch ≠ true := by
    intro before
    have negative : ticks < 0 := of_decide_eq_true before
    omega
  have sinceEpoch : (Absl.Time.mk (.finite ticks lower upper)).sub unixEpoch =
      .finite ticks lower upper := by
    change Duration.ofTicks (ticks - 0) = _
    rw [Int.sub_zero, ofTicks_of_fits]
  rw [abslTimeToProtoTime, if_neg isNotBefore, sinceEpoch]
  dsimp only
  rw [mod_seconds]
  rfl

lemma abslTimeFromProtoTime_eq (p : ProtoTimestamp) :
    abslTimeFromProtoTime p = ⟨.ofTicks (p.seconds.toInt * 4000000000 + p.nanos.toInt * 4)⟩ := by
  rcases seconds_eq p.seconds with ⟨low, high, isSeconds⟩
  rcases nanoseconds_eq p.nanos.toInt64 with ⟨_, _, isNanos⟩
  have fromEpoch : zeroDuration.add (seconds p.seconds) =
      .finite (p.seconds.toInt * 4000000000) low high := by
    rw [isSeconds]
    change Duration.ofTicks (0 + p.seconds.toInt * 4000000000) = _
    rw [Int.zero_add, ofTicks_of_fits]
  rw [abslTimeFromProtoTime, unixEpoch, Absl.Time.add, Absl.Time.add, fromEpoch, isNanos,
    Duration.add, Int32.toInt_toInt64]

lemma abslTimeToProtoTime_isOk (t : Absl.Time) :
    (abslTimeToProtoTime t).isOk = true <-> t.lt unixEpoch = false ∧ t ≠ infiniteFuture := by
  rw [abslTimeToProtoTime]
  cases before : t.lt unixEpoch with
  | true => exact iff_of_false Bool.false_ne_true (fun both => Bool.false_ne_true both.1.symm)
  | false =>
    by_cases future : t = infiniteFuture
    · rw [if_pos future]
      exact iff_of_false Bool.false_ne_true (fun both => both.2 future)
    · rw [if_neg future]
      exact iff_of_true rfl ⟨rfl, future⟩

lemma abslTimeFromProtoTime_of_ok {t : Absl.Time} {p : ProtoTimestamp}
    (success : abslTimeToProtoTime t = .ok p) :
    0 <= p.nanos.toInt ∧ p.nanos.toInt <= 999999999 ∧ abslTimeFromProtoTime p = roundedDown t := by
  have isOk : (abslTimeToProtoTime t).isOk = true := by
    rw [success]
    rfl
  rcases (abslTimeToProtoTime_isOk t).mp isOk with ⟨notBefore, notFuture⟩
  rcases t with ⟨sinceEpoch⟩
  cases sinceEpoch with
  | infinite => exact absurd rfl notFuture
  | negativeInfinite => cases notBefore
  | finite ticks lower upper =>
    have nonneg : 0 <= ticks := Int.not_lt.mp (of_decide_eq_false notBefore)
    rw [abslTimeToProtoTime_finite lower upper nonneg] at success
    rcases protoOfDuration_finite lower upper with ⟨rest, quarters, inSeconds, inNanos⟩
    cases success
    rcases inSeconds with ⟨sum, restLower, restUpper, signLower, signUpper⟩
    rcases inNanos with ⟨restSum, quartersLower, quartersUpper, nanosLower, nanosUpper⟩
    refine ⟨by dsimp only; omega, by dsimp only; omega, ?_⟩
    have whole : ticks / 4 * 4 =
        (protoOfDuration (.finite ticks lower upper)).seconds.toInt * 4000000000 +
          (protoOfDuration (.finite ticks lower upper)).nanos.toInt * 4 := by omega
    rw [abslTimeFromProtoTime_eq, roundedDown]
    dsimp only
    rw [whole]

/-- Durations that are not too long are rounded towards zero, and times from the epoch on down. -/
theorem protoTimes_survive :
    (∀ p : ProtoDuration,
      ((abslDurationFromProtoDuration p).isOk = true <->
        |p.seconds.toInt| <= 315576000000 ∧ |p.nanos.toInt| <= 999999999 ∧
          SameSign p.seconds.toInt p.nanos.toInt) ∧
      ∀ d, abslDurationFromProtoDuration p = .ok d -> abslDurationToProtoDuration d = .ok p) ∧
    (∀ d : Duration,
      ((abslDurationToProtoDuration d).isOk = true <->
        (absDuration d).lt (seconds 315576000001) = true) ∧
      ∀ p, abslDurationToProtoDuration d = .ok p ->
        abslDurationFromProtoDuration p = .ok (truncated d)) ∧
    ∀ t : Absl.Time,
      ((abslTimeToProtoTime t).isOk = true <-> t.lt unixEpoch = false ∧ t ≠ infiniteFuture) ∧
      ∀ p, abslTimeToProtoTime t = .ok p ->
        0 <= p.nanos.toInt ∧ p.nanos.toInt <= 999999999 ∧
          abslTimeFromProtoTime p = roundedDown t := by
  refine ⟨fun p => ⟨?_, fun d success => ?_⟩, fun d => ⟨?_, fun p success => ?_⟩,
    fun t => ⟨abslTimeToProtoTime_isOk t, fun p success => abslTimeFromProtoTime_of_ok success⟩⟩
  · rw [abslDurationFromProtoDuration_isOk]
    constructor
    · rintro ⟨inSeconds, inNanos, same⟩
      exact ⟨inSeconds, inNanos, same⟩
    · rintro ⟨inSeconds, inNanos, same⟩
      exact ⟨inSeconds, inNanos, same⟩
  · have valid : Valid p := by
      rw [<- abslDurationFromProtoDuration_isOk, success]
      rfl
    rcases abslDurationFromProtoDuration_valid valid with ⟨lower, upper, isDuration⟩
    rw [isDuration] at success
    cases success
    rw [abslDurationToProtoDuration_eq_ok, protoOfDuration_eq valid]
    exact ⟨valid, rfl⟩
  · rw [abslDurationToProtoDuration_isOk, <- validate_isOk]
    cases d with
    | finite ticks lower upper => rw [validate_isOk, valid_protoOfDuration, absDuration_lt]
    | infinite => decide
    | negativeInfinite => decide
  · rcases abslDurationToProtoDuration_eq_ok.mp success with ⟨valid, isProto⟩
    cases d with
    | finite ticks lower upper =>
      rcases abslDurationFromProtoDuration_valid valid with ⟨low, high, isDuration⟩
      rw [isDuration, truncated_finite lower upper isProto, ofTicks_of_fits]
    | infinite =>
      subst isProto
      exact absurd ((validate_isOk _).mpr valid) (by decide)
    | negativeInfinite =>
      subst isProto
      exact absurd ((validate_isOk _).mpr valid) (by decide)

end Ecclesia.Time
