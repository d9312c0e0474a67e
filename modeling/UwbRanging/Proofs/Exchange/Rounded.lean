import UwbRanging.Proofs.Exchange.Agreement
import UwbRanging.Proofs.Float.Value

/-!
What binary64 makes of the estimates. For exchanges of less than a second all counts, their sums and the products of two
of them are computed without error. The asymmetric estimate is then rounded once, by its division; the drift-compensated
one four times, since the drift is rounded before it is applied.
-/

namespace UwbRanging

open Extended
open Rounding (RoundsTo)

/-- Intervals short enough for the product of two of them to be a number of 52 bits. -/
structure Intervals.Short (iv : Intervals) : Prop where
  roundTripInitiator_lt : iv.roundTripInitiator < 2 ^ 26
  replyInitiator_lt : iv.replyInitiator < 2 ^ 26
  roundTripReplier_lt : iv.roundTripReplier < 2 ^ 26
  replyReplier_lt : iv.replyReplier < 2 ^ 26

section Asymmetric

variable {iv : Intervals}

theorem Intervals.Short.abs_contrast_lt (h : iv.Short) :
    |(iv.roundTripInitiator * iv.roundTripReplier - iv.replyInitiator * iv.replyReplier : ℤ)| < 2 ^ 52 := by
  have hproduct {m n : ℕ} (hm : m < 2 ^ 26) (hn : n < 2 ^ 26) : ((m * n : ℕ) : ℤ) < 2 ^ 52 := by
    exact_mod_cast (Nat.mul_lt_mul'' hm hn : m * n < 2 ^ 26 * 2 ^ 26)
  have hroundTrips := hproduct h.roundTripInitiator_lt h.roundTripReplier_lt
  have hreplies := hproduct h.replyInitiator_lt h.replyReplier_lt
  rw [← Nat.cast_mul, ← Nat.cast_mul, abs_lt]
  omega

theorem represents_count {n : ℕ} (hn : n < 2 ^ 27) : Represents (Arith.ofNat n) ((n : ℤ) : ℚ) := by
  rw [Int.cast_natCast]
  exact Represents.ofNat (by omega)

/-- The product of the round trips less that of the replies is computed without error. -/
theorem Intervals.Short.represents_contrast (h : iv.Short) :
    Represents (Arith.ofNat iv.roundTripInitiator * Arith.ofNat iv.roundTripReplier -
      Arith.ofNat iv.replyInitiator * Arith.ofNat iv.replyReplier) iv.contrast := by
  have hproduct {m n : ℕ} (hm : m < 2 ^ 26) (hn : n < 2 ^ 26) :
      Represents (Arith.ofNat m * Arith.ofNat n) ((m * n : ℤ) : ℚ) := by
    have hless : ((m * n : ℕ) : ℤ) < 2 ^ 52 := by
      exact_mod_cast (Nat.mul_lt_mul'' hm hn : m * n < 2 ^ 26 * 2 ^ 26)
    refine (represents_count (hm.trans (by decide))).mul_whole (represents_count (hn.trans (by decide))) ?_
    rw [← Nat.cast_mul, Nat.abs_cast]
    omega
  have hdifference := (hproduct h.roundTripInitiator_lt h.roundTripReplier_lt).sub_whole
    (hproduct h.replyInitiator_lt h.replyReplier_lt) (h.abs_contrast_lt.trans (by decide))
  push_cast at hdifference
  exact hdifference

theorem Intervals.Short.represents_total (h : iv.Short) :
    Represents (Arith.ofNat iv.roundTripInitiator + Arith.ofNat iv.replyInitiator + Arith.ofNat iv.roundTripReplier +
        Arith.ofNat iv.replyReplier)
      (iv.roundTripInitiator + iv.replyInitiator + (iv.roundTripReplier + iv.replyReplier)) := by
  obtain ⟨hra, hda, hrb, hdb⟩ := h
  have htwo := (represents_count (hra.trans (by decide))).add_whole (represents_count (hda.trans (by decide)))
    (by rw [abs_lt]; omega)
  have hthree := htwo.add_whole (represents_count (hrb.trans (by decide))) (by rw [abs_lt]; omega)
  have hfour := hthree.add_whole (represents_count (hdb.trans (by decide))) (by rw [abs_lt]; omega)
  push_cast at hfour
  rwa [add_assoc] at hfour

/-- The asymmetric estimate is the nearest binary64 number to the exact one. -/
theorem Intervals.asymmetricTof_rounded (h : iv.Short) (hpos : 0 < iv.roundTripReplier + iv.replyReplier) :
    ∃ (t : Float) (v : ℚ), iv.asymmetricTof = .ok t ∧ Represents t v ∧
      RoundsTo (iv.contrast / (iv.roundTripInitiator + iv.replyInitiator +
        (iv.roundTripReplier + iv.replyReplier))) v := by
  have htotal : (1 : ℚ) ≤ iv.roundTripInitiator + iv.replyInitiator + (iv.roundTripReplier + iv.replyReplier) := by
    exact_mod_cast (by omega : 1 ≤ iv.roundTripInitiator + iv.replyInitiator + (iv.roundTripReplier + iv.replyReplier))
  have hcontrast : |(iv.contrast : ℚ)| < 2 ^ (52 : ℤ) := by
    rw [contrast]
    exact_mod_cast h.abs_contrast_lt
  have hsmall : |(iv.contrast / (iv.roundTripInitiator + iv.replyInitiator +
      (iv.roundTripReplier + iv.replyReplier)) : ℚ)| < 2 ^ (1023 : ℤ) := by
    rw [abs_div, abs_of_pos (zero_lt_one.trans_le htotal)]
    exact (div_le_self (abs_nonneg _) htotal).trans_lt
      (hcontrast.trans_le (zpow_le_zpow_right₀ one_le_two (by decide)))
  obtain ⟨v, hv, hround⟩ := h.represents_contrast.div h.represents_total (zero_lt_one.trans_le htotal).ne' hsmall
  refine ⟨_, v, ?_, hv, hround⟩
  rw [asymmetricTof, h.represents_total.eq_zero (zero_lt_one.trans_le htotal).ne']
  rfl

end Asymmetric

section DriftCompensated

variable {own other roundTrip reply : ℕ}

/-- The errors of the four roundings: of the drift, of what it amounts to over the reply, of the corrected reply, and of
the half. -/
theorem abs_half_sub_le {drift amount rest half : ℚ} (hreply : reply < 2 ^ 26)
    (hdrift : |drift - (own - other) / other| ≤ 2 ^ (1 - 54 : ℤ))
    (hamount : |amount - drift * reply| ≤ 2 ^ (27 - 54 : ℤ))
    (hrest : |rest - (roundTrip - reply - amount)| ≤ 2 ^ (28 - 54 : ℤ))
    (hhalf : |half - 1 / 2 * rest| ≤ 2 ^ (28 - 54 : ℤ)) :
    |half - (roundTrip - reply - (own - other) / other * reply) / 2| ≤ 2 ^ (-25 : ℤ) := by
  have hover : |drift * reply - (own - other) / other * reply| ≤ 2 ^ (1 - 54 : ℤ) * 2 ^ (26 : ℤ) := by
    rw [← sub_mul, abs_mul, Nat.abs_cast]
    refine mul_le_mul hdrift ?_ (Nat.cast_nonneg _) (by positivity)
    exact_mod_cast hreply.le
  rw [abs_le] at hover hamount hrest hhalf ⊢
  norm_num at hover hamount hrest hhalf ⊢
  constructor <;> linarith

theorem represents_half : Represents (Arith.ratio 1 2) (1 / 2) := by
  have hone : Represents (Arith.ofNat 1) ((1 : ℕ) : ℚ) := Represents.ofNat (by decide)
  have htwo : Represents (Arith.ofNat 2) ((2 : ℕ) : ℚ) := Represents.ofNat (by decide)
  have hbelow : |((1 : ℕ) : ℚ) / (2 : ℕ)| < 2 ^ (0 : ℤ) := by norm_num
  obtain ⟨v, hv, hround⟩ := hone.div htwo (by norm_num)
    (hbelow.trans_le (zpow_le_zpow_right₀ one_le_two (by decide)))
  have hexact := hround.exact 0 (2 ^ 52) (by decide) (by norm_num) (by norm_num)
  rw [hexact] at hv
  exact_mod_cast hv

/-- The drift is at most one in size, so its rounding is small. -/
theorem exists_drift (hown : own < 2 ^ 27) (hother : other < 2 ^ 27) (hpos : 0 < other) (hratio : own ≤ 2 * other) :
    ∃ drift : ℚ, Represents ((Arith.ofNat own - Arith.ofNat other) / Arith.ofNat other) drift ∧
      |drift - (own - other) / other| ≤ 2 ^ (1 - 54 : ℤ) ∧ |drift| ≤ 2 := by
  have hpos' : (0 : ℚ) < other := Nat.cast_pos.2 hpos
  have hratio' : |((own - other) / other : ℚ)| ≤ 1 := by
    rw [abs_div, abs_of_pos hpos', div_le_one hpos']
    exact_mod_cast (by rw [abs_le]; omega : |(own - other : ℤ)| ≤ other)
  have hdifference := (represents_count hown).sub_whole (represents_count hother) (by rw [abs_lt]; omega)
  have hdivisor := represents_count hother
  push_cast at hdifference hdivisor
  obtain ⟨drift, hdrift, herror⟩ := Represents.exists_close (hdifference.div hdivisor hpos'.ne') (k := 1) (by decide)
    (by decide) (hratio'.trans_lt (by norm_num))
  refine ⟨drift, hdrift, herror, ?_⟩
  rw [abs_le] at hratio' herror ⊢
  norm_num at herror ⊢
  constructor <;> linarith

/-- In the steps of binary64, for any counts that are not too large if A's clock runs at most twice as fast. -/
theorem driftCompensated_rounded (hown : own < 2 ^ 27) (hother : other < 2 ^ 27) (hroundTrip : roundTrip < 2 ^ 26)
    (hreply : reply < 2 ^ 26) (hpos : 0 < other) (hratio : own ≤ 2 * other) :
    ∃ v : ℚ, Represents (Arith.ratio 1 2 * (Arith.ofNat roundTrip - Arith.ofNat reply -
        (Arith.ofNat own - Arith.ofNat other) / Arith.ofNat other * Arith.ofNat reply)) v ∧
      |v - (roundTrip - reply - (own - other) / other * reply) / 2| ≤ 2 ^ (-25 : ℤ) := by
  have hreply' : (reply : ℚ) < 2 ^ (26 : ℤ) := by exact_mod_cast hreply
  have hbase : |(roundTrip - reply : ℚ)| < 2 ^ (26 : ℤ) := by
    exact_mod_cast (by rw [abs_lt]; omega : |(roundTrip - reply : ℤ)| < 2 ^ 26)
  have hfactor := represents_count (hreply.trans (by decide))
  have hrest := (represents_count (hroundTrip.trans (by decide))).sub_whole hfactor (by rw [abs_lt]; omega)
  push_cast at hrest hfactor
  obtain ⟨drift, hdrift, hdriftError, hdriftBound⟩ := exists_drift hown hother hpos hratio
  have hamountBound : |drift * reply| < 2 ^ (27 : ℤ) := by
    calc |drift * reply| = |drift| * reply := by rw [abs_mul, Nat.abs_cast]
      _ ≤ 2 * reply := mul_le_mul_of_nonneg_right hdriftBound (Nat.cast_nonneg _)
      _ < 2 * 2 ^ (26 : ℤ) := mul_lt_mul_of_pos_left hreply' two_pos
      _ = 2 ^ (27 : ℤ) := by norm_num
  obtain ⟨amount, hamount, hamountError⟩ := Represents.exists_close (hdrift.mul hfactor) (k := 27) (by decide)
    (by decide) hamountBound
  have hrestBound : |roundTrip - reply - amount| < 2 ^ (28 : ℤ) := by
    rw [abs_lt] at hbase hamountBound ⊢
    rw [abs_le] at hamountError
    norm_num at hbase hamountBound hamountError ⊢
    constructor <;> linarith
  obtain ⟨rest, hrest', hrestError⟩ := Represents.exists_close (hrest.sub hamount) (k := 28) (by decide) (by decide)
    hrestBound
  have hhalfBound : |1 / 2 * rest| < 2 ^ (28 : ℤ) := by
    rw [abs_lt] at hrestBound ⊢
    rw [abs_le] at hrestError
    norm_num at hrestBound hrestError ⊢
    constructor <;> linarith
  obtain ⟨half, hhalf, hhalfError⟩ := Represents.exists_close (represents_half.mul hrest') (k := 28) (by decide)
    (by decide) hhalfBound
  exact ⟨half, hhalf, abs_half_sub_le hreply hdriftError hamountError hrestError hhalfError⟩

end DriftCompensated

section Estimates

variable {K : Type} [Field K] [LinearOrder K] [IsStrictOrderedRing K] [FloorSemiring K] [SquareRoot K] {e : Exchange}

theorem Intervals.asymmetricTof_close {iv : Intervals} (h : iv.Short)
    (hpos : 0 < iv.roundTripReplier + iv.replyReplier) :
    ∃ (t : Float) (v : ℚ), iv.asymmetricTof = .ok t ∧ Represents t v ∧
      |v - iv.contrast / (iv.roundTripInitiator + iv.replyInitiator + (iv.roundTripReplier + iv.replyReplier))| ≤
        2 ^ (-25 : ℤ) := by
  obtain ⟨t, v, htof, hv, hround⟩ := asymmetricTof_rounded h hpos
  obtain ⟨hra, hda, hrb, hdb⟩ := h
  have htotal : (iv.roundTripInitiator + iv.replyInitiator + iv.roundTripReplier + iv.replyReplier : ℚ) ≠ 0 := by
    exact_mod_cast (by omega : iv.roundTripInitiator + iv.replyInitiator + iv.roundTripReplier + iv.replyReplier ≠ 0)
  have hbound := abs_quotient_lt (K := ℚ) 25 hra hda hrb hdb htotal
  rw [add_assoc] at hbound
  exact ⟨t, v, htof, hv, (hround.error 25 (by decide) hbound).trans (zpow_le_zpow_right₀ one_le_two (by decide))⟩

theorem Exchange.driftCompensatedTof_close {e : Exchange} (hown : e.tA2.elapsedSince e.tA1 < 2 ^ 27)
    (hother : e.rB2.elapsedSince e.rB1 < 2 ^ 27) (hroundTrip : e.rA1.elapsedSince e.tA1 < 2 ^ 26)
    (hreply : e.tB1.elapsedSince e.rB1 < 2 ^ 26) (hpos : 0 < e.rB2.elapsedSince e.rB1)
    (hratio : e.tA2.elapsedSince e.tA1 ≤ 2 * e.rB2.elapsedSince e.rB1) :
    ∃ (t : Float) (v : ℚ), e.driftCompensatedTof = .ok t ∧ Represents t v ∧
      |v - (e.rA1.elapsedSince e.tA1 -
        e.tA2.elapsedSince e.tA1 / e.rB2.elapsedSince e.rB1 * e.tB1.elapsedSince e.rB1) / 2| ≤ 2 ^ (-25 : ℤ) := by
  obtain ⟨v, hv, herror⟩ := driftCompensated_rounded hown hother hroundTrip hreply hpos hratio
  have hne : (e.rB2.elapsedSince e.rB1 : ℚ) ≠ 0 := Nat.cast_ne_zero.2 hpos.ne'
  have hdivisor : Represents (Arith.ofNat (e.rB2.elapsedSince e.rB1)) (e.rB2.elapsedSince e.rB1) :=
    Represents.ofNat (by omega)
  refine ⟨_, v, ?_, hv, ?_⟩
  · rw [driftCompensatedTof, hdivisor.eq_zero hne]
    rfl
  · have hsame (own other roundTrip reply : ℚ) (h : other ≠ 0) :
        roundTrip - reply - (own - other) / other * reply = roundTrip - own / other * reply := by
      field_simp
      ring
    rwa [hsame _ _ _ _ hne] at herror

/-- For short exchanges binary64 adds an error of less than a ten-millionth of a tick to either estimate, as long as A's
clock runs at most twice as fast as B's. -/
theorem Exchange.timeOfFlight_rounded (h : e.intervals.Short)
    (hpos : 0 < e.intervals.roundTripReplier + e.intervals.replyReplier)
    (hratio : e.intervals.roundTripInitiator + e.intervals.replyInitiator ≤
      2 * (e.intervals.roundTripReplier + e.intervals.replyReplier)) (estimator : Estimator) :
    ∃ (t : Float) (v : ℚ) (exact : K), e.timeOfFlight estimator = .ok t ∧ Represents t v ∧
      e.timeOfFlight estimator = .ok (finite exact) ∧ |(v : K) - exact| ≤ 2 ^ (-25 : ℤ) := by
  have hcast {v w : ℚ} (herror : |v - w| ≤ 2 ^ (-25 : ℤ)) : |(v : K) - (w : K)| ≤ 2 ^ (-25 : ℤ) := by
    have hcast : ((|v - w| : ℚ) : K) ≤ ((2 ^ (-25 : ℤ) : ℚ) : K) := Rat.cast_le.2 herror
    simpa only [Rat.cast_abs, Rat.cast_sub, Rat.cast_zpow, Rat.cast_ofNat] using hcast
  cases estimator with
  | asymmetric =>
      obtain ⟨t, v, htof, hv, herror⟩ := Intervals.asymmetricTof_close h hpos
      refine ⟨t, v, _, htof, hv, asymmetric_eq_contrast hpos, ?_⟩
      have herror' := hcast herror
      simp only [Intervals.contrast] at herror' ⊢
      push_cast at herror'
      exact herror'
  | driftCompensated =>
      obtain ⟨hra, hda, hrb, hdb⟩ := h
      have hown := elapsedSince_initiator (e := e) (by rw [Timestamp.clockPeriod_eq]; omega)
      have hother := elapsedSince_replier (e := e) (by rw [Timestamp.clockPeriod_eq]; omega)
      have hpos' : 0 < e.rB2.elapsedSince e.rB1 := hother ▸ hpos
      have hne : (e.rB2.elapsedSince e.rB1 : K) ≠ 0 := Nat.cast_ne_zero.2 hpos'.ne'
      obtain ⟨t, v, htof, hv, herror⟩ :=
        driftCompensatedTof_close (e := e) (by omega) (by omega) hra hdb hpos' (by omega)
      refine ⟨t, v, _, htof, hv, (driftCompensatedTof_exact e).trans (if_neg hne), ?_⟩
      have herror' := hcast herror
      push_cast at herror'
      exact herror'

end Estimates

end UwbRanging
