import UwbRanging.Proofs.Exact.Rational
import UwbRanging.Proofs.Exchange.Exact
import UwbRanging.Proofs.Fallible
import UwbRanging.Proofs.Float.Bounds
import UwbRanging.Proofs.Guarded
import UwbRanging.Proofs.Timestamp

/-!
Exchanges without an estimate. An estimator gives up where the intervals that it divides by sum to zero. No interval is
negative, so that happens only if the readings of a clock coincide, wherever the clock wraps. For all other readings
nothing is divided by zero, and the asymmetric estimate is less than half a period of the clock.
-/

namespace UwbRanging

/-- Arithmetic that tells a sum of ticks from zero, for as many intervals as the estimators add. -/
class TellsTicks (α : Type) [Arith α] : Prop where
  one {a : ℕ} (ha : a < 2 ^ 40) : Arith.eq (Arith.ofNat a : α) Arith.zero = decide (a = 0)
  two {a b : ℕ} (ha : a < 2 ^ 40) (hb : b < 2 ^ 40) :
    Arith.eq (Arith.ofNat a + Arith.ofNat b : α) Arith.zero = decide (a + b = 0)
  four {a b c d : ℕ} (ha : a < 2 ^ 40) (hb : b < 2 ^ 40) (hc : c < 2 ^ 40) (hd : d < 2 ^ 40) :
    Arith.eq (Arith.ofNat a + Arith.ofNat b + Arith.ofNat c + Arith.ofNat d : α) Arith.zero = decide (a + b + c + d = 0)

section Binary64

open Float.Model Float.Model.UnpackedFloat

/-- A binary64 number in the place of some ticks: zero if there are none, and not less than one otherwise. -/
def CountOf (k : ℤ) (n : ℕ) (x : Float) : Prop :=
  (n = 0 ∧ x.toModel.unpack = .zero .positive) ∨ (n ≠ 0 ∧ Positive k x)

variable {k : ℤ} {m n : ℕ} {x y : Float}

theorem countOf_ofNat (hn : n < 2 ^ 40) : CountOf 55 n (Arith.ofNat n) := by
  rcases Nat.eq_zero_or_pos n with rfl | hpos
  · exact .inl ⟨rfl, unpack_zero⟩
  · exact .inr ⟨hpos.ne', positive_ofNat hpos (Nat.lt_trans hn (by decide))⟩

theorem CountOf.mono {l : ℤ} (h : CountOf k n x) (hkl : k ≤ l) : CountOf l n x :=
  h.imp_right fun hpos => ⟨hpos.1, hpos.2.mono hkl⟩

theorem CountOf.count (h : CountOf k n x) : Count k x :=
  h.imp And.right And.right

theorem CountOf.add (hx : CountOf k m x) (hy : CountOf k n y) (hk : k ≤ 970) : CountOf (k + 2) (m + n) (x + y) := by
  rcases hx with ⟨rfl, hx⟩ | ⟨hm, hx⟩
  · rcases hy with ⟨rfl, hy⟩ | ⟨hn, hy⟩
    · refine .inl ⟨rfl, ?_⟩
      change unpack Format.binary64 (pack Format.binary64
        (UnpackedFloat.add Format.binary64 x.toModel.unpack y.toModel.unpack)) = _
      rw [hx, hy]
      exact unpack_packedZero
    · exact .inr ⟨by omega, Count.add_positive (.inl hx) hy hk⟩
  · exact .inr ⟨by omega, hx.add_count hy.count hk⟩

theorem CountOf.eq_zero (h : CountOf k n x) : Arith.eq x Arith.zero = decide (n = 0) := by
  rcases h with ⟨rfl, hx⟩ | ⟨hn, hx⟩
  · change UnpackedFloat.beq x.toModel.unpack (Float.ofNat 0).toModel.unpack = true
    rw [hx, unpack_zero]
    rfl
  · rw [hx.eq_zero, decide_eq_false hn]

instance : TellsTicks Float where
  one ha := (countOf_ofNat ha).eq_zero
  two ha hb := ((countOf_ofNat ha).add (countOf_ofNat hb) (by decide)).eq_zero
  four ha hb hc hd := by
    have htwo := (countOf_ofNat ha).add (countOf_ofNat hb) (by decide)
    have hthree := htwo.add ((countOf_ofNat hc).mono (by decide)) (by decide)
    exact (hthree.add ((countOf_ofNat hd).mono (by decide)) (by decide)).eq_zero

end Binary64

section Exact

open Extended

variable {K : Type} [Field K] [LinearOrder K] [IsStrictOrderedRing K] [FloorSemiring K] [SquareRoot K]

instance : TellsTicks (Extended K) where
  one _ := by simp
  two _ _ := by
    simp only [ofNat_eq, finite_add_finite, zero_eq, eq_finite]
    exact_mod_cast rfl
  four _ _ _ _ := by
    simp only [ofNat_eq, finite_add_finite, zero_eq, eq_finite]
    exact_mod_cast rfl

end Exact

section Failures

variable {α : Type} [Arith α]

/-- No estimate fails for another reason than that the intervals leave nothing to divide by. -/
theorem Exchange.timeOfFlight_error {e : Exchange} {estimator : Estimator} {error : RangingError}
    (h : e.timeOfFlight (α := α) estimator = .error error) : error = .degenerateExchange := by
  cases estimator with
  | asymmetric =>
      simp only [timeOfFlight, Intervals.asymmetricTof] at h
      split at h <;> cases h
      rfl
  | driftCompensated =>
      simp only [timeOfFlight, driftCompensatedTof] at h
      split at h <;> cases h
      rfl

theorem OverheardExchange.timeDifference_error {o : OverheardExchange} {error : RangingError}
    (h : (o.timeDifference : Except RangingError α) = .error error) : error = .degenerateExchange := by
  simp only [timeDifference] at h
  split at h
  · cases h
    rfl
  · cases htof : (o.exchange.timeOfFlight .driftCompensated : Except RangingError α) with
    | error e =>
        rw [htof] at h
        cases h
        exact Exchange.timeOfFlight_error htof
    | ok tof =>
        rw [htof] at h
        cases h

variable [TellsTicks α]

/-- There is no asymmetric estimate if both clocks stand still. -/
theorem Exchange.asymmetric_error_iff (e : Exchange) :
    (e.timeOfFlight .asymmetric : Except RangingError α) = .error .degenerateExchange ↔
      (e.tA1 = e.rA1 ∧ e.rA1 = e.tA2) ∧ e.rB1 = e.tB1 ∧ e.tB1 = e.rB2 := by
  have htotal := TellsTicks.four (α := α) (e.rA1.elapsedSince_lt e.tA1) (e.tA2.elapsedSince_lt e.rA1)
    (e.rB2.elapsedSince_lt e.tB1) (e.tB1.elapsedSince_lt e.rB1)
  have hstill : e.rA1.elapsedSince e.tA1 + e.tA2.elapsedSince e.rA1 + e.rB2.elapsedSince e.tB1 +
      e.tB1.elapsedSince e.rB1 = 0 ↔ (e.tA1 = e.rA1 ∧ e.rA1 = e.tA2) ∧ e.rB1 = e.tB1 ∧ e.tB1 = e.rB2 := by
    simp only [Nat.add_eq_zero_iff, Timestamp.elapsedSince_eq_zero_iff]
    grind
  simp only [timeOfFlight, Intervals.asymmetricTof, intervals, htotal, decide_eq_true_eq, hstill]
  split <;> simp_all

/-- There is no drift-compensated estimate if the clock of the replier shows the same at the end as at the start. -/
theorem Exchange.driftCompensated_error_iff (e : Exchange) :
    (e.timeOfFlight .driftCompensated : Except RangingError α) = .error .degenerateExchange ↔ e.rB1 = e.rB2 := by
  have hother := TellsTicks.one (α := α) (e.rB2.elapsedSince_lt e.rB1)
  simp only [timeOfFlight, driftCompensatedTof, hother, decide_eq_true_eq, Timestamp.elapsedSince_eq_zero_iff,
    eq_comm (a := e.rB2)]
  split <;> simp_all

/-- If time passes for the replier, there are both estimates. -/
theorem Exchange.exists_timeOfFlight_of_ne {e : Exchange} (h : e.rB1 ≠ e.rB2) (estimator : Estimator) :
    ∃ tof : α, e.timeOfFlight estimator = .ok tof := by
  cases hresult : (e.timeOfFlight estimator : Except RangingError α) with
  | ok tof => exact ⟨tof, rfl⟩
  | error error =>
      obtain rfl := timeOfFlight_error hresult
      cases estimator with
      | asymmetric =>
          obtain ⟨-, hreply, hroundTrip⟩ := e.asymmetric_error_iff.1 hresult
          exact absurd (hreply.trans hroundTrip) h
      | driftCompensated => exact absurd (e.driftCompensated_error_iff.1 hresult) h

/-- Whatever the listener has read. -/
theorem OverheardExchange.timeDifference_error_iff (o : OverheardExchange) :
    (o.timeDifference : Except RangingError α) = .error .degenerateExchange ↔
      (o.exchange.tA1 = o.exchange.rA1 ∧ o.exchange.rA1 = o.exchange.tA2) ∨ o.exchange.rB1 = o.exchange.rB2 := by
  have hown := TellsTicks.two (α := α) (o.exchange.rA1.elapsedSince_lt o.exchange.tA1)
    (o.exchange.tA2.elapsedSince_lt o.exchange.rA1)
  have hstill : o.exchange.rA1.elapsedSince o.exchange.tA1 + o.exchange.tA2.elapsedSince o.exchange.rA1 = 0 ↔
      o.exchange.tA1 = o.exchange.rA1 ∧ o.exchange.rA1 = o.exchange.tA2 := by
    simp only [Nat.add_eq_zero_iff, Timestamp.elapsedSince_eq_zero_iff]
    grind
  rw [← o.exchange.driftCompensated_error_iff (α := α)]
  simp only [timeDifference, Exchange.intervals, hown, decide_eq_true_eq, hstill]
  split
  case isTrue h => simp [h]
  case isFalse h =>
    cases (o.exchange.timeOfFlight .driftCompensated : Except RangingError α) with
    | error error => simp [h, bind, Except.bind]
    | ok tof => simp [h, bind, Except.bind, pure, Except.pure]

end Failures

section Divisions

variable {α : Type} [Arith α]

theorem Intervals.asymmetricTof_guarded (iv : Intervals) :
    (iv.asymmetricTof : Except RangingError (Guarded α)) = iv.asymmetricTof.map .number :=
  Guarded.checked_quotient _ _ _

variable [TellsTicks α]

/-- The other divisor in the formula is the two of the one half. -/
theorem Exchange.driftCompensatedTof_guarded (e : Exchange) :
    (e.driftCompensatedTof : Except RangingError (Guarded α)) = e.driftCompensatedTof.map .number := by
  have htwo : Arith.eq (Arith.ofNat 2 : α) Arith.zero = false := TellsTicks.one (by decide)
  simp only [driftCompensatedTof, Guarded.ofNat_eq_number, Guarded.zero_eq_number, Guarded.number_sub,
    Guarded.eq_number, Guarded.ratio_eq_number 1 htwo]
  split
  case isTrue => rfl
  case isFalse hother =>
    rw [Guarded.number_div _ (Bool.eq_false_of_not_eq_true hother)]
    rfl

theorem Exchange.timeOfFlight_guarded (e : Exchange) (estimator : Estimator) :
    (e.timeOfFlight estimator : Except RangingError (Guarded α)) = (e.timeOfFlight estimator).map .number := by
  cases estimator with
  | asymmetric => exact e.intervals.asymmetricTof_guarded
  | driftCompensated => exact e.driftCompensatedTof_guarded

theorem OverheardExchange.timeDifference_guarded (o : OverheardExchange) :
    (o.timeDifference : Except RangingError (Guarded α)) = o.timeDifference.map .number := by
  simp only [timeDifference, Guarded.ofNat_eq_number, Guarded.zero_eq_number, Guarded.number_add, Guarded.eq_number,
    Exchange.timeOfFlight_guarded]
  split
  case isTrue => rfl
  case isFalse hown =>
    rw [Guarded.number_div _ (Bool.eq_false_of_not_eq_true hown)]
    cases (o.exchange.timeOfFlight .driftCompensated : Except RangingError α) <;> rfl

end Divisions

section Estimates

/-- A result that is degenerate in one case, and in all others a number that is computed without a division by zero. -/
structure DegenerateIff (case : Prop) {α : Type} (result : Except RangingError α)
    (guarded : Except RangingError (Guarded α)) : Prop where
  fails_iff : result = .error .degenerateExchange ↔ case
  defined : ¬ case → ∃ x, result = .ok x ∧ guarded = .ok (.number x)

theorem DegenerateIff.of_guarded {case : Prop} {α : Type} {result : Except RangingError α}
    {guarded : Except RangingError (Guarded α)} (hguarded : guarded = result.map .number)
    (honly : ∀ error, result = .error error → error = .degenerateExchange)
    (hfails : result = .error .degenerateExchange ↔ case) : DegenerateIff case result guarded where
  fails_iff := hfails
  defined hcase := by
    cases hresult : result with
    | error error =>
        obtain rfl := honly error hresult
        exact absurd (hfails.1 hresult) hcase
    | ok x => exact ⟨x, rfl, by rw [hguarded, hresult]; rfl⟩

/-- Which readings leave an estimate undefined in an arithmetic. -/
structure OverheardExchange.DegenerateOnlyIfStill (α : Type) [Arith α] (o : OverheardExchange) : Prop where
  asymmetric : DegenerateIff
    ((o.exchange.tA1 = o.exchange.rA1 ∧ o.exchange.rA1 = o.exchange.tA2) ∧
      o.exchange.rB1 = o.exchange.tB1 ∧ o.exchange.tB1 = o.exchange.rB2)
    (o.exchange.timeOfFlight .asymmetric : Except RangingError α) (o.exchange.timeOfFlight .asymmetric)
  driftCompensated : DegenerateIff (o.exchange.rB1 = o.exchange.rB2)
    (o.exchange.timeOfFlight .driftCompensated : Except RangingError α) (o.exchange.timeOfFlight .driftCompensated)
  timeDifference : DegenerateIff
    ((o.exchange.tA1 = o.exchange.rA1 ∧ o.exchange.rA1 = o.exchange.tA2) ∨ o.exchange.rB1 = o.exchange.rB2)
    (o.timeDifference : Except RangingError α) o.timeDifference

theorem OverheardExchange.degenerateOnlyIfStill (α : Type) [Arith α] [TellsTicks α] (o : OverheardExchange) :
    o.DegenerateOnlyIfStill α where
  asymmetric := .of_guarded (o.exchange.timeOfFlight_guarded _) (fun _ => Exchange.timeOfFlight_error)
    o.exchange.asymmetric_error_iff
  driftCompensated := .of_guarded (o.exchange.timeOfFlight_guarded _) (fun _ => Exchange.timeOfFlight_error)
    o.exchange.driftCompensated_error_iff
  timeDifference := .of_guarded o.timeDifference_guarded (fun _ => timeDifference_error) o.timeDifference_error_iff

open Extended

variable {K : Type} [Field K] [LinearOrder K] [IsStrictOrderedRing K]

theorem two_mul_mul_le {x y bound : K} (hx : 0 ≤ x) (hy : 0 ≤ y) (hxb : x ≤ bound) (hyb : y ≤ bound) :
    2 * (x * y) ≤ bound * (x + y) := by
  have hleft : x * y ≤ bound * y := mul_le_mul_of_nonneg_right hxb hy
  have hright : x * y ≤ x * bound := mul_le_mul_of_nonneg_left hyb hx
  linarith

/-- The products in the formula are at most half as large as the longest interval times the divisor. -/
theorem abs_quotient_lt (bits : ℕ) {ra da rb db : ℕ} (hra : ra < 2 ^ (bits + 1)) (hda : da < 2 ^ (bits + 1))
    (hrb : rb < 2 ^ (bits + 1)) (hdb : db < 2 ^ (bits + 1)) (htotal : (ra + da + rb + db : K) ≠ 0) :
    |((ra * rb - da * db) / (ra + da + rb + db) : K)| < 2 ^ bits := by
  have hle {n : ℕ} (hn : n < 2 ^ (bits + 1)) : (n : K) ≤ 2 * 2 ^ bits - 1 := by
    have hnext : ((n + 1 : ℕ) : K) ≤ (2 ^ (bits + 1) : ℕ) := Nat.cast_le.2 hn
    rw [pow_succ'] at hnext
    push_cast at hnext
    linarith
  have hnonneg (n : ℕ) : (0 : K) ≤ n := Nat.cast_nonneg n
  have hpos : (0 : K) < ra + da + rb + db :=
    lt_of_le_of_ne (by linarith [hnonneg ra, hnonneg da, hnonneg rb, hnonneg db]) htotal.symm
  have hroundTrips := two_mul_mul_le (hnonneg ra) (hnonneg rb) (hle hra) (hle hrb)
  have hreplies := two_mul_mul_le (hnonneg da) (hnonneg db) (hle hda) (hle hdb)
  have hroundTrips' := mul_nonneg (hnonneg ra) (hnonneg rb)
  have hreplies' := mul_nonneg (hnonneg da) (hnonneg db)
  rw [abs_div, abs_of_pos hpos, div_lt_iff₀ hpos, abs_lt]
  constructor <;> linarith [hnonneg ra, hnonneg da, hnonneg rb, hnonneg db]

variable [FloorSemiring K] [SquareRoot K]

theorem Exchange.abs_asymmetric_lt {e : Exchange} {tof : Extended K} (h : e.timeOfFlight .asymmetric = .ok tof) :
    ∃ x : K, tof = finite x ∧ |x| < 2 ^ 39 := by
  simp only [timeOfFlight, Intervals.asymmetricTof_exact] at h
  split at h
  case isTrue => cases h
  case isFalse htotal =>
    cases h
    exact ⟨_, rfl, abs_quotient_lt 39 (e.rA1.elapsedSince_lt e.tA1) (e.tA2.elapsedSince_lt e.rA1)
      (e.rB2.elapsedSince_lt e.tB1) (e.tB1.elapsedSince_lt e.rB1) htotal⟩

/-- An estimate fails exactly if the clocks that it divides by show no time passing, in binary64 as in exact arithmetic
and whatever a listener has read. Otherwise it is computed without a division by zero, no difference of readings leaves
the range of a word, and the asymmetric estimate lies within half a period on either side of zero. -/
theorem OverheardExchange.degenerate_iff_still (o : OverheardExchange) :
    o.DegenerateOnlyIfStill Float ∧ o.DegenerateOnlyIfStill (Extended K) ∧
      (∀ later earlier : Timestamp, (later.elapsedWord? earlier).map UInt64.toNat = some (later.elapsedSince earlier)) ∧
      ∀ tof : Extended K, o.exchange.timeOfFlight .asymmetric = .ok tof →
        ∃ x, tof = finite x ∧ -2 ^ 39 < x ∧ x < 2 ^ 39 := by
  refine ⟨o.degenerateOnlyIfStill _, o.degenerateOnlyIfStill _, fun later earlier => ?_, fun tof htof => ?_⟩
  · have hword : later.elapsedSince earlier < UInt64.size :=
      (later.elapsedSince_lt earlier).trans (by decide)
    rw [Timestamp.elapsedWord?_eq, Option.map_some, UInt64.toNat_ofNat_of_lt' hword]
  · obtain ⟨x, hx, hbound⟩ := Exchange.abs_asymmetric_lt htof
    exact ⟨x, hx, abs_lt.1 hbound⟩

/-- The longest round trips, with replies that take no time; the listener's clock wraps between the messages. -/
def longestOverheard : OverheardExchange where
  exchange := ⟨.wrap 0, .wrap 5, .wrap 5, .wrap (2 ^ 40 - 1), .wrap (2 ^ 40 - 1), .wrap 4⟩
  rL1 := .wrap (2 ^ 40 - 3)
  rL2 := .wrap 8
  rL3 := .wrap 8

theorem degenerate_iff_still_longest :
    longestOverheard.DegenerateOnlyIfStill Float ∧
      longestOverheard.exchange.timeOfFlight .asymmetric = .ok (finite (2 ^ 39 - 1 / 2 : ℚ)) ∧
      (-2 ^ 39 < (2 ^ 39 - 1 / 2 : ℚ) ∧ (2 ^ 39 - 1 / 2 : ℚ) < 2 ^ 39) := by
  obtain ⟨hfloat, -, -, hbounds⟩ := longestOverheard.degenerate_iff_still (K := ℚ)
  have hestimate : longestOverheard.exchange.timeOfFlight .asymmetric = .ok (finite (2 ^ 39 - 1 / 2 : ℚ)) := by
    refine toOption_eq_some_iff.1 ?_
    decide +kernel
  obtain ⟨x, hx, hlow, hhigh⟩ := hbounds _ hestimate
  obtain rfl := Extended.finite.inj hx
  exact ⟨hfloat, hestimate, hlow, hhigh⟩

end Estimates

end UwbRanging
