import Mathlib.Tactic.NormNum
import UwbRanging.Proofs.Exact.Length
import UwbRanging.Proofs.Exact.Rational
import UwbRanging.Proofs.Exchange.Rounded
import UwbRanging.Proofs.Simulation.Chance
import UwbRanging.Proofs.Telemetry.Lines
import UwbRanging.Simulation.Handshake
import UwbRanging.Simulation.Room

/-!
How well an exchange without noise tells the flight time. Only the rounding to whole ticks stands between the exact
times and the readings, so each interval is off by at most a tick. The estimators divide by the whole exchange what the
errors amount to over the replies, and the drift, which is known to the asymmetric one only as the difference between
both durations, hardly matters.
-/

namespace UwbRanging

open Extended

section Readings

variable {K : Type} [Field K] [LinearOrder K] [IsStrictOrderedRing K] [FloorSemiring K] [SquareRoot K] {x y : K}

/-- A count is within half a tick of the time that it rounds. -/
theorem abs_toCount_sub_le (hx : 0 ≤ x) (hsmall : x < 2 ^ 63) :
    |(Arith.toCount (finite x) : K) - x| ≤ 2⁻¹ := by
  have hhalf : (0 : K) ≤ x + 2⁻¹ := add_nonneg hx (by norm_num)
  have hfits : ⌊x + 2⁻¹⌋₊ ≤ 2 ^ 64 - 1 := by
    rw [← Nat.lt_succ_iff, Nat.floor_lt hhalf]
    push_cast
    linarith [(by norm_num : (2⁻¹ : K) < 1)]
  have hcount : Arith.toCount (finite x) = ⌊x + 2⁻¹⌋₊ := min_eq_right hfits
  have hle := Nat.floor_le hhalf
  have hlt := Nat.lt_floor_add_one (x + 2⁻¹)
  rw [hcount, abs_le]
  constructor <;> linarith [(by norm_num : (2⁻¹ : K) + 2⁻¹ = 1)]

theorem toCount_mono (h : x ≤ y) : Arith.toCount (finite x) ≤ Arith.toCount (finite y) :=
  min_le_min_left _ (Nat.floor_mono (add_le_add_left h _))

/-- Between two rounded readings of one clock there is one tick more or less at most, also where it wraps. -/
theorem abs_elapsedSince_sub_le (hx : 0 ≤ x) (hxy : x ≤ y) (hy : y < 2 ^ 63) (hshort : y - x < 2 ^ 40 - 1) :
    |((Timestamp.wrap (Arith.toCount (finite y))).elapsedSince (Timestamp.wrap (Arith.toCount (finite x))) : K) -
      (y - x)| ≤ 1 := by
  have hearlier := abs_toCount_sub_le hx (hxy.trans_lt hy)
  have hlater := abs_toCount_sub_le (hx.trans hxy) hy
  have hmono := toCount_mono hxy
  generalize Arith.toCount (finite x) = m at hearlier hmono ⊢
  generalize Arith.toCount (finite y) = n at hlater hmono ⊢
  have hhalves : (2⁻¹ : K) + 2⁻¹ = 1 := by norm_num
  rw [abs_le] at hearlier hlater
  have hless : (n : K) < ((m + 2 ^ 40 : ℕ) : K) := by
    push_cast
    linarith
  have helapsed := (Timestamp.shows_wrap n).elapsedSince_of_lt (Timestamp.shows_wrap m) (by omega) (by
    have := Nat.cast_lt.1 hless
    rw [Timestamp.clockPeriod_eq]
    omega)
  have hticks : ((Timestamp.wrap n).elapsedSince (Timestamp.wrap m) : K) = n - m := by
    exact_mod_cast congrArg (Int.cast : ℤ → K) helapsed
  rw [hticks, abs_le]
  constructor <;> linarith

end Readings

section Errors

variable {K : Type} [Field K]

/-- What the contrast is off by comes from the errors of A's intervals and of B's, each over a reply. -/
theorem Intervals.contrast_sub_eq (iv : Intervals) (tof drift : K) :
    iv.contrast - (iv.roundTripReplier + iv.replyReplier) * (2 * tof) =
      40000000 * ((iv.roundTripReplier - (2 * tof + 40000000) * (1 + drift)) -
        (iv.replyReplier - 40000000 * (1 + drift))) +
      40000000 * (1 + drift) * ((iv.roundTripInitiator - (2 * tof + 40000000)) - (iv.replyInitiator - 40000000)) +
      2 * tof * ((1 + drift) * (iv.roundTripInitiator - (2 * tof + 40000000)) -
        (iv.replyReplier - 40000000 * (1 + drift))) +
      ((iv.roundTripInitiator - (2 * tof + 40000000)) * (iv.roundTripReplier - (2 * tof + 40000000) * (1 + drift)) -
        (iv.replyInitiator - 40000000) * (iv.replyReplier - 40000000 * (1 + drift))) := by
  rw [contrast]
  ring

variable [LinearOrder K] [IsStrictOrderedRing K]

/-- Counted intervals, each within a tick of what it would be without rounding: `tof` ticks of flight, the replies after
the delay, B's clock too fast by `drift`. -/
structure Intervals.Near (iv : Intervals) (tof drift : K) : Prop where
  roundTripInitiator : |(iv.roundTripInitiator : K) - (2 * tof + 40000000)| ≤ 1
  replyInitiator : |(iv.replyInitiator : K) - 40000000| ≤ 1
  roundTripReplier : |(iv.roundTripReplier : K) - (2 * tof + 40000000) * (1 + drift)| ≤ 1
  replyReplier : |(iv.replyReplier : K) - 40000000 * (1 + drift)| ≤ 1

theorem abs_mul_le {x y bound bound' : K} (hx : |x| ≤ bound) (hy : |y| ≤ bound') : |x * y| ≤ bound * bound' := by
  rw [abs_mul]
  exact mul_le_mul hx hy (abs_nonneg _) ((abs_nonneg _).trans hx)

variable {iv : Intervals} {tof drift : K}

theorem abs_flights_le (hnonneg : 0 ≤ tof) (hle : tof ≤ 3100) : |2 * tof| ≤ 6200 :=
  abs_le.2 ⟨by linarith, by linarith⟩

/-- A quotient is near to what its numerator is nearly the multiple of. -/
theorem abs_div_sub_lt {num den x bound : K} (hden : 0 < den) (h : |num - den * x| < bound * den) :
    |num / den - x| < bound := by
  have hsplit : num / den - x = (num - den * x) / den := by
    field_simp
  rw [hsplit, abs_div, abs_of_pos hden, div_lt_iff₀ hden]
  exact h

variable (h : iv.Near tof drift) (hnonneg : 0 ≤ tof) (hle : tof ≤ 3100) (hdrift : |drift| ≤ 20 / 1000000)
include h hnonneg hle hdrift

theorem Intervals.Near.abs_contrast_sub_le :
    |iv.contrast - (iv.roundTripReplier + iv.replyReplier) * (2 * tof)| ≤ 160020000 := by
  obtain ⟨hra, hda, hrb, hdb⟩ := h
  rw [iv.contrast_sub_eq tof drift]
  generalize (iv.roundTripInitiator - (2 * tof + 40000000) : K) = x₁ at hra ⊢
  generalize (iv.replyInitiator - 40000000 : K) = x₂ at hda ⊢
  generalize (iv.roundTripReplier - (2 * tof + 40000000) * (1 + drift) : K) = y₂ at hrb ⊢
  generalize (iv.replyReplier - 40000000 * (1 + drift) : K) = y₁ at hdb ⊢
  have hrate : |1 + drift| ≤ 1 + 20 / 1000000 := (abs_add_le 1 drift).trans (by rw [abs_one]; linarith)
  have htwo {x y : K} (hx : |x| ≤ 1) (hy : |y| ≤ 1) : |x - y| ≤ 2 := (abs_sub x y).trans (by linarith)
  have hreplier : |40000000 * (y₂ - y₁)| ≤ 40000000 * 2 := abs_mul_le (abs_of_pos (by norm_num)).le (htwo hrb hdb)
  have hinitiator : |40000000 * (1 + drift) * (x₁ - x₂)| ≤ 40000000 * (1 + 20 / 1000000) * 2 :=
    abs_mul_le (abs_mul_le (abs_of_pos (by norm_num)).le hrate) (htwo hra hda)
  have hflight : |2 * tof * ((1 + drift) * x₁ - y₁)| ≤ 6200 * (1 + 20 / 1000000 + 1) := by
    refine abs_mul_le (abs_flights_le hnonneg hle) ((abs_sub _ _).trans ?_)
    linarith [abs_mul_le hrate hra]
  have hproducts : |x₁ * y₂ - x₂ * y₁| ≤ 1 * 1 + 1 * 1 :=
    (abs_sub _ _).trans (add_le_add (abs_mul_le hra hrb) (abs_mul_le hda hdb))
  rw [abs_le] at hreplier hinitiator hflight hproducts ⊢
  constructor <;> linarith

/-- Each node takes part for twice the delay, up to the flight, the drift and the rounding. -/
theorem Intervals.Near.durations :
    (79998000 : K) ≤ iv.roundTripReplier + iv.replyReplier ∧
      |(iv.roundTripReplier + iv.replyReplier : K) - (iv.roundTripInitiator + iv.replyInitiator)| ≤ 1605 := by
  obtain ⟨hra, hda, hrb, hdb⟩ := h
  have hflight := abs_mul_le (abs_flights_le hnonneg hle) hdrift
  rw [abs_le] at hra hda hrb hdb hdrift hflight ⊢
  refine ⟨?_, ?_, ?_⟩ <;> linarith

theorem Intervals.Near.abs_driftCompensated_sub_lt :
    |iv.contrast / (2 * (iv.roundTripReplier + iv.replyReplier)) - tof| < 3 / 2 := by
  obtain ⟨hreplier, -⟩ := h.durations hnonneg hle hdrift
  have herror := h.abs_contrast_sub_le hnonneg hle hdrift
  have hsame : iv.contrast - 2 * (iv.roundTripReplier + iv.replyReplier) * tof =
      iv.contrast - (iv.roundTripReplier + iv.replyReplier) * (2 * tof) := by ring
  refine abs_div_sub_lt (by linarith) ?_
  rw [hsame]
  linarith

theorem Intervals.Near.abs_asymmetric_sub_lt :
    |iv.contrast / (iv.roundTripInitiator + iv.replyInitiator + (iv.roundTripReplier + iv.replyReplier)) - tof| <
      3 / 2 := by
  obtain ⟨hreplier, hdifference⟩ := h.durations hnonneg hle hdrift
  have herror := h.abs_contrast_sub_le hnonneg hle hdrift
  have hshare := abs_mul_le (abs_le.2 ⟨by linarith, hle⟩ : |tof| ≤ 3100) hdifference
  have hsplit : iv.contrast - (iv.roundTripInitiator + iv.replyInitiator +
        (iv.roundTripReplier + iv.replyReplier)) * tof =
      iv.contrast - (iv.roundTripReplier + iv.replyReplier) * (2 * tof) +
        tof * (iv.roundTripReplier + iv.replyReplier - (iv.roundTripInitiator + iv.replyInitiator)) := by ring
  have hinitiator := (abs_le.1 hdifference).2
  refine abs_div_sub_lt (by linarith) ?_
  rw [hsplit]
  refine (abs_add_le _ _).trans_lt ?_
  linarith

/-- No interval has more than 26 bits. -/
theorem Intervals.Near.short : iv.Short := by
  obtain ⟨hra, hda, hrb, hdb⟩ := h
  have hflight := abs_mul_le (abs_flights_le hnonneg hle) hdrift
  rw [abs_le] at hra hda hrb hdb hdrift hflight
  have hlt {n : ℕ} (hn : (n : K) ≤ 50000000) : n < 2 ^ 26 := by
    have : n ≤ 50000000 := by exact_mod_cast hn
    omega
  exact ⟨hlt (by linarith), hlt (by linarith), hlt (by linarith), hlt (by linarith)⟩

end Errors

section Estimates

variable {K : Type} [Field K] [LinearOrder K] [IsStrictOrderedRing K] [FloorSemiring K] [SquareRoot K]

/-- An estimator succeeds, and its error is less than a bound, in exact arithmetic and in binary64. -/
def Exchange.TellsWithin (e : Exchange) (bound tof : K) (estimator : Estimator) : Prop :=
  (∃ estimate : K, e.timeOfFlight estimator = .ok (finite estimate) ∧ |estimate - tof| < bound) ∧
    ∃ (estimate : Float) (v : ℚ), e.timeOfFlight estimator = .ok estimate ∧ Represents estimate v ∧
      |(v : K) - tof| < bound

theorem Exchange.tellsWithin_of_near {e : Exchange} {tof drift : K} (h : e.intervals.Near tof drift)
    (hnonneg : 0 ≤ tof) (hle : tof ≤ 3100) (hdrift : |drift| ≤ 20 / 1000000) (estimator : Estimator) :
    e.TellsWithin 2 tof estimator := by
  obtain ⟨hreplier, hdifference⟩ := h.durations hnonneg hle hdrift
  have hshort := h.short hnonneg hle hdrift
  rw [abs_le] at hdifference
  have hpos : 0 < e.intervals.roundTripReplier + e.intervals.replyReplier := by
    rw [← Nat.cast_pos (α := K)]
    push_cast
    linarith
  have hratio : e.intervals.roundTripInitiator + e.intervals.replyInitiator ≤
      2 * (e.intervals.roundTripReplier + e.intervals.replyReplier) := by
    rw [← Nat.cast_le (α := K)]
    push_cast
    linarith
  have hexact : ∃ exact : K, e.timeOfFlight estimator = .ok (finite exact) ∧ |exact - tof| < 3 / 2 := by
    cases estimator with
    | asymmetric => exact ⟨_, asymmetric_eq_contrast hpos, h.abs_asymmetric_sub_lt hnonneg hle hdrift⟩
    | driftCompensated =>
        obtain ⟨hra, hda, hrb, hdb⟩ := hshort
        refine ⟨_, driftCompensated_eq_contrast ?_ ?_ hpos, h.abs_driftCompensated_sub_lt hnonneg hle hdrift⟩
        all_goals
          rw [Timestamp.clockPeriod_eq]
          omega
  obtain ⟨exact, hestimate, herror⟩ := hexact
  obtain ⟨t, v, exact', htof, hv, hestimate', hrounding⟩ := timeOfFlight_rounded (K := K) hshort hpos hratio estimator
  obtain rfl : exact = exact' := finite.inj (Except.ok.inj (hestimate.symm.trans hestimate'))
  refine ⟨⟨exact, hestimate, by linarith⟩, t, v, htof, hv, ?_⟩
  calc |(v : K) - tof| = |(v - exact) + (exact - tof)| := by rw [sub_add_sub_cancel]
    _ ≤ |(v : K) - exact| + |exact - tof| := abs_add_le _ _
    _ < 2 ^ (-25 : ℤ) + 3 / 2 := add_lt_add_of_le_of_lt hrounding herror
    _ < 2 := by norm_num

end Estimates

section Handshakes

variable {α : Type} [Arith α]

namespace Handshake

/-- What A's clock counts, as far as it has bits for it. -/
def rawA (h : Handshake α) (time : α) : Nat :=
  Arith.toCount (h.offsetA + time) &&& timestampMax

def rawB (h : Handshake α) (time : α) : Nat :=
  Arith.toCount (h.offsetB + time * (Arith.one + h.driftB)) &&& timestampMax

/-- The exchange as it is taken from the raw readings, which are checked for their width. -/
def simulate (h : Handshake α) (tof : α) : Except RangingError Exchange :=
  let tA1 := Arith.zero
  let rB1 := tA1 + tof + h.jitterB1
  let tB1 := rB1 + replyDelay
  let rA1 := tB1 + tof + h.jitterA1
  let tA2 := rA1 + replyDelay
  let rB2 := tA2 + tof + h.jitterB2
  Exchange.ofRaw (h.rawA tA1) (h.rawB rB1) (h.rawB tB1) (h.rawA rA1) (h.rawA tA2) (h.rawB rB2)

theorem and_timestampMax (count : Nat) : count &&& timestampMax = (Timestamp.wrap count).ticks :=
  Nat.and_two_pow_sub_one_eq_mod count 40

/-- Masked readings pass the check, whatever the times are. -/
theorem simulate_eq (h : Handshake α) (tof : α) : h.simulate tof = .ok (h.exchange tof) := by
  refine Exchange.ofRaw_eq_ok_iff.2 ?_
  simp only [rawA, rawB, and_timestampMax]
  rfl

end Handshake

end Handshakes

section Noiseless

variable {K : Type} [Field K] [LinearOrder K]

/-- Two clocks that start anywhere within their period, one of them too fast or too slow by up to 20 parts in a
million. -/
structure DriftingClocks (K : Type) [Field K] [LinearOrder K] where
  offsetA : K
  offsetB : K
  driftB : K
  offsetA_nonneg : 0 ≤ offsetA
  offsetA_lt : offsetA < 2 ^ 40
  offsetB_nonneg : 0 ≤ offsetB
  offsetB_lt : offsetB < 2 ^ 40
  abs_driftB_le : |driftB| ≤ 20 / 1000000

/-- Nothing is stamped too early or too late. -/
def DriftingClocks.handshake (c : DriftingClocks K) : Handshake (Extended K) :=
  ⟨finite c.offsetA, finite c.offsetB, finite c.driftB, finite 0, finite 0, finite 0⟩

namespace DriftingClocks

section Times

variable [FloorSemiring K] [SquareRoot K] (c : DriftingClocks K)

theorem clockA_eq (t : K) :
    c.handshake.clockA (finite t) = Timestamp.wrap (Arith.toCount (finite (c.offsetA + t))) := by
  simp [Handshake.clockA, handshake]

theorem clockB_eq (t : K) :
    c.handshake.clockB (finite t) = Timestamp.wrap (Arith.toCount (finite (c.offsetB + t * (1 + c.driftB)))) := by
  simp [Handshake.clockB, handshake]

/-- The six readings, at the times of the messages. -/
theorem exchange_eq (tof : K) : c.handshake.exchange (finite tof) =
    ⟨c.handshake.clockA (finite 0), c.handshake.clockB (finite tof), c.handshake.clockB (finite (tof + 40000000)),
      c.handshake.clockA (finite (2 * tof + 40000000)), c.handshake.clockA (finite (2 * tof + 80000000)),
      c.handshake.clockB (finite (3 * tof + 80000000))⟩ := by
  have hreplied : tof + 40000000 + tof = 2 * tof + 40000000 := by ring
  have hanswered : 2 * tof + 40000000 + 40000000 = 2 * tof + 80000000 := by ring
  have hreceived : 2 * tof + 80000000 + tof = 3 * tof + 80000000 := by ring
  simp only [Handshake.exchange, handshake, Handshake.replyDelay, zero_eq, ofNat_eq, finite_add_finite, zero_add,
    add_zero, Nat.cast_ofNat, hreplied, hanswered, hreceived]

end Times

variable [IsStrictOrderedRing K] [FloorSemiring K] [SquareRoot K] (c : DriftingClocks K) {s t tof : K}

theorem elapsedSince_clockA (hs : 0 ≤ s) (hst : s ≤ t) (ht : t ≤ 2 ^ 37) :
    |((c.handshake.clockA (finite t)).elapsedSince (c.handshake.clockA (finite s)) : K) - (t - s)| ≤ 1 := by
  have hstart := c.offsetA_nonneg
  have hstart' := c.offsetA_lt
  have helapsed := abs_elapsedSince_sub_le (x := c.offsetA + s) (y := c.offsetA + t) (by linarith) (by linarith)
    (by linarith) (by linarith)
  rwa [add_sub_add_left_eq_sub, ← clockA_eq, ← clockA_eq] at helapsed

theorem elapsedSince_clockB (hs : 0 ≤ s) (hst : s ≤ t) (ht : t ≤ 2 ^ 37) :
    |((c.handshake.clockB (finite t)).elapsedSince (c.handshake.clockB (finite s)) : K) - (t - s) * (1 + c.driftB)| ≤
      1 := by
  have hstart := c.offsetB_nonneg
  have hstart' := c.offsetB_lt
  have hrate : 0 ≤ 1 + c.driftB ∧ 1 + c.driftB ≤ 2 := by
    have hdrift := abs_le.1 c.abs_driftB_le
    constructor <;> linarith
  have hfirst : 0 ≤ s * (1 + c.driftB) := mul_nonneg hs hrate.1
  have hsecond : s * (1 + c.driftB) ≤ t * (1 + c.driftB) := mul_le_mul_of_nonneg_right hst hrate.1
  have hbound : t * (1 + c.driftB) ≤ 2 ^ 37 * 2 := mul_le_mul ht hrate.2 hrate.1 (by norm_num)
  have helapsed := abs_elapsedSince_sub_le (x := c.offsetB + s * (1 + c.driftB)) (y := c.offsetB + t * (1 + c.driftB))
    (by linarith) (by linarith) (by linarith) (by linarith)
  rwa [add_sub_add_left_eq_sub, ← sub_mul, ← clockB_eq, ← clockB_eq] at helapsed

theorem near_exchange (hnonneg : 0 ≤ tof) (hle : tof ≤ 3100) :
    (c.handshake.exchange (finite tof)).intervals.Near tof c.driftB := by
  rw [exchange_eq]
  have hroundTripA := c.elapsedSince_clockA (s := 0) (t := 2 * tof + 40000000) le_rfl (by linarith) (by linarith)
  have hreplyA := c.elapsedSince_clockA (s := 2 * tof + 40000000) (t := 2 * tof + 80000000) (by linarith) (by linarith)
    (by linarith)
  have hroundTripB := c.elapsedSince_clockB (s := tof + 40000000) (t := 3 * tof + 80000000) (by linarith) (by linarith)
    (by linarith)
  have hreplyB := c.elapsedSince_clockB (s := tof) (t := tof + 40000000) hnonneg (by linarith) (by linarith)
  refine ⟨?_, ?_, ?_, ?_⟩
  · rwa [sub_zero] at hroundTripA
  · rwa [show 2 * tof + 80000000 - (2 * tof + 40000000) = 40000000 by ring] at hreplyA
  · rwa [show 3 * tof + 80000000 - (tof + 40000000) = 2 * tof + 40000000 by ring] at hroundTripB
  · rwa [add_sub_cancel_left] at hreplyB

end DriftingClocks

/-- Without noise, what chance decides is how two clocks start and drift. -/
theorem Handshake.always_draw_noiseless [IsStrictOrderedRing K] [FloorSemiring K] [SquareRoot K] :
    Random.Always (Handshake.draw (Arith.zero : Extended K)) fun h => ∃ c : DriftingClocks K, h = c.handshake := by
  have hperiod : (Arith.ofNat clockPeriod : Extended K) = finite (2 ^ 40) := by
    rw [ofNat_eq, Timestamp.clockPeriod_eq, Nat.cast_pow, Nat.cast_ofNat]
  have hdrift : (-maxDrift : Extended K) = finite (-20) ∧ (maxDrift : Extended K) = finite 20 := by
    simp [maxDrift]
  have hjitter : drawJitter (Arith.zero : Extended K) = pure (finite 0) := by
    simp [drawJitter]
  rw [draw, hjitter, hperiod, zero_eq, hdrift.1, hdrift.2]
  refine Random.Gives.always ?_
  refine (Random.gives_between_finite (by norm_num)).bind fun _ hA => ?_
  refine (Random.gives_between_finite (by norm_num)).bind fun _ hB => ?_
  refine (Random.gives_between_finite (by norm_num)).bind fun _ hd => Random.gives_pure ?_
  obtain ⟨offsetA, rfl, hA, hA'⟩ := hA
  obtain ⟨offsetB, rfl, hB, hB'⟩ := hB
  obtain ⟨drift, rfl, hd, hd'⟩ := hd
  refine ⟨⟨offsetA, offsetB, drift * (1 / 1000000), hA, hA', hB, hB', ?_⟩, ?_⟩
  · rw [abs_le]
    constructor <;> linarith
  · rw [Arith.ratio, ofNat_eq, ofNat_eq, finite_div_finite _ (by norm_num), finite_mul_finite]
    push_cast
    rfl

/-- A place between the walls. -/
structure Spot.InRoom (p : Spot K) : Prop where
  x_nonneg : 0 ≤ p.x
  x_le : p.x ≤ 10
  y_nonneg : 0 ≤ p.y
  y_le : p.y ≤ 10

/-- The places of the room are up to 3100 ticks of flight apart. -/
theorem Spot.InRoom.flightTime_le [IsStrictOrderedRing K] {p q : Spot K} (hp : p.InRoom) (hq : q.InRoom) {distance : K}
    (h : distance * distance = (p.x - q.x) ^ 2 + (p.y - q.y) ^ 2) : distance / LengthUnit.ticks.inMeters ≤ 3100 := by
  obtain ⟨hpx, hpx', hpy, hpy'⟩ := hp
  obtain ⟨hqx, hqx', hqy, hqy'⟩ := hq
  have hx : (p.x - q.x) ^ 2 ≤ 10 ^ 2 := sq_le_sq' (by linarith) (by linarith)
  have hy : (p.y - q.y) ^ 2 ≤ 10 ^ 2 := sq_le_sq' (by linarith) (by linarith)
  have hunit : (200 : K) ≤ 3100 * LengthUnit.ticks.inMeters * (3100 * LengthUnit.ticks.inMeters) := by
    norm_num [LengthUnit.inMeters]
  have hpos : (0 : K) < LengthUnit.ticks.inMeters := LengthUnit.ticks.inMeters_pos
  rw [div_le_iff₀ hpos]
  exact nonneg_le_nonneg_of_sq_le_sq (by linarith) (by linarith)

end Noiseless

section Accuracy

variable {K : Type} [Field K] [LinearOrder K] [IsStrictOrderedRing K] [FloorSemiring K] [SquareRoot K]

/-- The exchange is accepted, and the error of both estimators is less than a bound. -/
def Handshake.TellsWithin (h : Handshake (Extended K)) (bound tof : K) : Prop :=
  ∃ e, h.simulate (finite tof) = .ok e ∧ ∀ estimator, e.TellsWithin bound tof estimator

theorem DriftingClocks.tellsWithin (c : DriftingClocks K) {tof : K} (hnonneg : 0 ≤ tof) (hle : tof ≤ 3100) :
    c.handshake.TellsWithin 2 tof :=
  ⟨_, c.handshake.simulate_eq _,
    Exchange.tellsWithin_of_near (c.near_exchange hnonneg hle) hnonneg hle c.abs_driftB_le⟩

/-- Without noise an exchange tells flight times of up to 3100 ticks with an error of less than two ticks, whatever the
clocks show at the start and however they drift, and so whatever is drawn. No two places of the room are farther from
each other. -/
theorem noiseless_within_two_ticks {tof : K} (hnonneg : 0 ≤ tof) (hle : tof ≤ 3100) :
    (∀ c : DriftingClocks K, c.handshake.TellsWithin 2 tof) ∧
      Random.Always (Handshake.draw (Arith.zero : Extended K)) (Handshake.TellsWithin · 2 tof) ∧
      ∀ (p q : Spot K) (distance : K), p.InRoom → q.InRoom → 0 ≤ distance →
        distance * distance = (p.x - q.x) ^ 2 + (p.y - q.y) ^ 2 →
        ∀ c : DriftingClocks K, c.handshake.TellsWithin 2 (distance / LengthUnit.ticks.inMeters) := by
  refine ⟨fun c => c.tellsWithin hnonneg hle, ?_, ?_⟩
  · refine Handshake.always_draw_noiseless.mono fun h hdrawn => ?_
    obtain ⟨c, rfl⟩ := hdrawn
    exact c.tellsWithin hnonneg hle
  · intro p q distance hp hq hdistance hpythagoras c
    exact c.tellsWithin (div_nonneg hdistance LengthUnit.ticks.inMeters_pos.le) (hp.flightTime_le hq hpythagoras)

end Accuracy

/-- A's clock wraps between two ticks at the start, B's while it replies, and B's runs as fast as it may. -/
def wrappingHandshake : Handshake (Extended ℚ) :=
  ⟨finite (2 ^ 40 - 1 / 4), finite (2 ^ 40 - 20000000), finite (20 / 1000000), finite 0, finite 0, finite 0⟩

theorem noiseless_within_two_ticks_wrapping :
    ∃ e, wrappingHandshake.simulate (finite (6200 / 3)) = .ok e ∧
      e.intervals = ⟨40004133, 40000000, 40004933, 40000800⟩ ∧
      e.timeOfFlight .asymmetric = .ok (finite (4133 / 2 : ℚ)) ∧
        e.TellsWithin (2 : ℚ) (6200 / 3) .driftCompensated := by
  obtain ⟨htells, -⟩ := noiseless_within_two_ticks (by norm_num : (0 : ℚ) ≤ 6200 / 3) (by norm_num)
  obtain ⟨e, he, hestimates⟩ := htells ⟨2 ^ 40 - 1 / 4, 2 ^ 40 - 20000000, 20 / 1000000, by norm_num, by norm_num,
    by norm_num, by norm_num, by norm_num [abs_of_pos]⟩
  obtain rfl : e = wrappingHandshake.exchange (finite (6200 / 3)) :=
    Except.ok.inj (he.symm.trans (wrappingHandshake.simulate_eq _))
  refine ⟨_, he, ?_, toOption_eq_some_iff.1 ?_, hestimates .driftCompensated⟩
  · decide +kernel
  · decide +kernel

end UwbRanging
