import Mathlib.Tactic.Linarith

namespace Ecclesia.Server

/-!
# Ids of subscriptions and events

`RedfishId` counts upwards from a start id.  One number is reserved to say that no start
id was given, and makes the next id a random one.  The counter does not know whether it
was given this number or has come to it by counting.  The definitions follow
`redfish_id.hpp`; the random number is a parameter of a call.
-/

def startIdMagicNumber : Int := 16011979

def int64Max : Int := 2 ^ 63 - 1

/-- `NextId`: the id that is returned, which is also the state of the counter afterwards. -/
def nextId (rand : Nat) (lastId : Int) : Int :=
  if lastId = startIdMagicNumber then (rand % 100000000 : Nat)
  else if int64Max <= lastId + 1 then 0
  else lastId + 1

/-- The call that starts again from zero. -/
def Wraps (lastId : Int) : Prop :=
  lastId ≠ startIdMagicNumber ∧ int64Max <= lastId + 1

instance (lastId : Int) : Decidable (Wraps lastId) :=
  inferInstanceAs (Decidable (_ ∧ _))

/-- The id that is returned by a call, for given random numbers; before the first call, the
start id. -/
def idAfter (start : Int) (rands : Nat -> Nat) : Nat -> Int
  | 0 => start
  | call + 1 => nextId (rands call) (idAfter start rands call)

/-- The ids of the first calls increase strictly, if none of these starts again from zero. -/
def StrictlyIncreasing (start : Int) (calls : Nat) : Prop :=
  ∀ rands : Nat -> Nat, (∀ call, call < calls -> ¬ Wraps (idAfter start rands call)) ->
    ∀ earlier later, 0 < earlier -> earlier < later -> later <= calls ->
      idAfter start rands earlier < idAfter start rands later

lemma idAfter_eq_add {start : Int} {rands : Nat -> Nat} {calls : Nat}
    (unwrapped : ∀ call, call < calls -> ¬ Wraps (idAfter start rands call))
    (plain : ∀ call, call < calls -> start + (call : Int) ≠ startIdMagicNumber) :
    ∀ call, call <= calls -> idAfter start rands call = start + (call : Int) := by
  intro call
  induction call with
  | zero =>
    intro _
    simp [idAfter]
  | succ call ih =>
    intro within
    have before := ih (Nat.le_of_succ_le within)
    have notMagic := plain call within
    have notWrapping := unwrapped call within
    rw [Wraps] at notWrapping
    rw [idAfter, nextId]
    omega

lemma idAfter_zero_le {start : Int} (below : start <= startIdMagicNumber) (call : Nat) :
    idAfter start (fun _ => 0) call <= startIdMagicNumber := by
  induction call with
  | zero => exact below
  | succ call ih =>
    rw [idAfter, nextId]
    split_ifs with magic wraps
    · simp [startIdMagicNumber]
    · simp [startIdMagicNumber]
    · omega

/-- The ids increase just if the counter starts above the magic number, or does not count
past it. -/
theorem nextId_strictlyIncreasing_iff {start : Int} {calls : Nat}
    (explicit : start ≠ startIdMagicNumber) :
    StrictlyIncreasing start calls ↔
      startIdMagicNumber < start ∨ start + (calls : Int) <= startIdMagicNumber := by
  constructor
  · intro increasing
    by_contra escaped
    rcases not_or.mp escaped with ⟨notAbove, past⟩
    have below : start < startIdMagicNumber := lt_of_le_of_ne (not_lt.mp notAbove) explicit
    have bounded : ∀ call, idAfter start (fun _ => 0) call <= startIdMagicNumber :=
      idAfter_zero_le (le_of_lt below)
    have unwrapped : ∀ call, ¬ Wraps (idAfter start (fun _ => 0) call) := by
      rintro call ⟨-, wraps⟩
      have small := bounded call
      simp only [int64Max, startIdMagicNumber] at wraps small
      omega
    rcases Int.eq_ofNat_of_zero_le (sub_nonneg.mpr (le_of_lt below)) with ⟨steps, distance⟩
    -- The counter comes to the magic number by counting, and starts again from zero.
    have reaches : idAfter start (fun _ => 0) steps = startIdMagicNumber := by
      rw [idAfter_eq_add (fun call _ => unwrapped call) _ steps (Nat.le_refl steps)]
      · omega
      · intro call earlier
        omega
    have falls : idAfter start (fun _ => 0) (steps + 1) = 0 := by
      rw [idAfter, reaches]
      rfl
    have order := increasing (fun _ => 0) (fun call _ => unwrapped call) steps (steps + 1)
      (by omega) (Nat.lt_succ_self steps) (by omega)
    rw [reaches, falls] at order
    simp [startIdMagicNumber] at order
  · intro plain rands unwrapped earlier later positive order within
    have counts := idAfter_eq_add unwrapped (by
      intro call inside
      omega)
    rw [counts earlier (by omega), counts later within]
    omega

theorem nextId_strictlyIncreasing_three : StrictlyIncreasing 7 3 :=
  (nextId_strictlyIncreasing_iff (by decide)).mpr (.inr (by decide))

/-- The second id after this start is random, and can be zero. -/
theorem nextId_falls_at_magic : ¬ StrictlyIncreasing 16011978 2 := by
  intro increasing
  have order := increasing (fun _ => 0) (by decide) 1 2 (by decide) (by decide) (by decide)
  revert order
  decide

end Ecclesia.Server
