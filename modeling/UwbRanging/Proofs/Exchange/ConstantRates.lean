import Mathlib.Tactic.FieldSimp
import Mathlib.Tactic.Linarith
import UwbRanging.Proofs.Exact.Rational
import UwbRanging.Proofs.Exchange.Exact
import UwbRanging.Proofs.Timestamp

/-!
Exchanges between clocks that run at constant rates, each at its own. Wherever the clocks wrap, the ticks between two
readings are the time in between at the rate of the clock, as long as nobody takes part for a whole period. From these
ticks the estimators recover the flight time, and the listener how much farther one anchor is than the other: neither
the offsets of the clocks nor the delays of the replies leave a trace.
-/

namespace UwbRanging

open Extended

/-- A counter that runs at a constant rate. -/
structure Clock (K : Type) [Field K] [LinearOrder K] where
  /-- Ticks per unit of true time. -/
  rate : K
  /-- Where the counter stands at time zero. -/
  offset : K
  rate_pos : 0 < rate

/-- The course of an exchange in true time. -/
structure Course (K : Type) [Field K] [LinearOrder K] where
  /-- When A sends its first message. -/
  start : K
  /-- How long a message is under way between A and B. -/
  flight : K
  /-- How long B takes to reply to the first message. -/
  replyB : K
  /-- How long A takes to answer the reply. -/
  replyA : K
  flight_nonneg : 0 ≤ flight
  replyB_nonneg : 0 ≤ replyB
  replyA_nonneg : 0 ≤ replyA

section Definitions

variable {K : Type} [Field K] [LinearOrder K]

/-- Where the counter stands at a time. -/
def Clock.count (k : Clock K) (time : K) : K :=
  k.offset + k.rate * time

/-- At that time the counter stands at a whole number, and the clock shows the reading. -/
def Clock.Stamps (k : Clock K) (time : K) (reading : Timestamp) : Prop :=
  ∃ n : ℤ, (n : K) = k.count time ∧ reading.Shows n

namespace Course

variable (c : Course K)

def rB1 : K :=
  c.start + c.flight

def tB1 : K :=
  c.rB1 + c.replyB

def rA1 : K :=
  c.tB1 + c.flight

def tA2 : K :=
  c.rA1 + c.replyA

def rB2 : K :=
  c.tA2 + c.flight

/-- How long each node takes part, from its first reading to its last: a flight and B's reply, a flight and A's. -/
def duration : K :=
  c.flight + c.replyB + (c.flight + c.replyA)

end Course

/-- The readings that the clocks of A and B show in a course. -/
structure Exchange.StampedBy (e : Exchange) (a b : Clock K) (c : Course K) : Prop where
  tA1 : a.Stamps c.start e.tA1
  rB1 : b.Stamps c.rB1 e.rB1
  tB1 : b.Stamps c.tB1 e.tB1
  rA1 : a.Stamps c.rA1 e.rA1
  tA2 : a.Stamps c.tA2 e.tA2
  rB2 : b.Stamps c.rB2 e.rB2

/-- The same with the clock of a listener, whose flight times from A and from B are given. -/
structure OverheardExchange.StampedBy (o : OverheardExchange) (a b l : Clock K) (c : Course K) (flightA flightB : K) :
    Prop where
  exchange : o.exchange.StampedBy a b c
  rL1 : l.Stamps (c.start + flightA) o.rL1
  rL2 : l.Stamps (c.tB1 + flightB) o.rL2
  rL3 : l.Stamps (c.tA2 + flightA) o.rL3

end Definitions

variable {K : Type} [Field K] [LinearOrder K] [IsStrictOrderedRing K] {a b l : Clock K} {c : Course K}

/-- Between two readings that are less than a period apart, the clock ticks at its rate for as long as it takes. -/
theorem Clock.elapsedSince_eq {k : Clock K} {s t : K} {earlier later : Timestamp} (hearlier : k.Stamps s earlier)
    (hlater : k.Stamps t later) (hle : s ≤ t) (hperiod : k.rate * (t - s) < clockPeriod) :
    (later.elapsedSince earlier : K) = k.rate * (t - s) := by
  obtain ⟨m, hm, hearlier⟩ := hearlier
  obtain ⟨n, hn, hlater⟩ := hlater
  have hticks : ((n - m : ℤ) : K) = k.rate * (t - s) := by
    rw [Int.cast_sub, hn, hm, count, count]
    ring
  have hforward : m ≤ n := by
    have hpos : (0 : K) ≤ (n - m : ℤ) := hticks ▸ mul_nonneg k.rate_pos.le (sub_nonneg.2 hle)
    exact Int.sub_nonneg.1 (by exact_mod_cast hpos)
  have hwithin : n - m < clockPeriod := by
    rw [← hticks] at hperiod
    exact_mod_cast hperiod
  rw [← hticks, ← hlater.elapsedSince_of_lt hearlier hforward hwithin, Int.cast_natCast]

/-- Each node stamps three messages with its clock. If the clock ticks less than a period from the first to the third,
no tick in between is lost. -/
theorem Clock.ticks_of_three {k : Clock K} {r s t : K} {first second third : Timestamp} (hfirst : k.Stamps r first)
    (hsecond : k.Stamps s second) (hthird : k.Stamps t third) (hrs : r ≤ s) (hst : s ≤ t)
    (hperiod : k.rate * (t - r) < clockPeriod) :
    (second.elapsedSince first : K) = k.rate * (s - r) ∧ (third.elapsedSince second : K) = k.rate * (t - s) ∧
      (third.elapsedSince first : K) = k.rate * (t - r) := by
  have hpart : k.rate * (s - r) < clockPeriod :=
    (mul_le_mul_of_nonneg_left (sub_le_sub_right hst r) k.rate_pos.le).trans_lt hperiod
  have hrest : k.rate * (t - s) < clockPeriod :=
    (mul_le_mul_of_nonneg_left (sub_le_sub_left hrs t) k.rate_pos.le).trans_lt hperiod
  exact ⟨elapsedSince_eq hfirst hsecond hrs hpart, elapsedSince_eq hsecond hthird hst hrest,
    elapsedSince_eq hfirst hthird (hrs.trans hst) hperiod⟩

namespace Exchange.StampedBy

variable {e : Exchange} (h : e.StampedBy a b c)
include h

/-- What passes on A's clock: its round trip, its reply, and both together. -/
theorem ticks_initiator (ha : a.rate * c.duration < clockPeriod) :
    (e.intervals.roundTripInitiator : K) = a.rate * (2 * c.flight + c.replyB) ∧
      (e.intervals.replyInitiator : K) = a.rate * c.replyA ∧ (e.tA2.elapsedSince e.tA1 : K) = a.rate * c.duration := by
  have hroundTrip : c.rA1 - c.start = 2 * c.flight + c.replyB := by
    unfold Course.rA1 Course.tB1 Course.rB1
    ring
  have hreply : c.tA2 - c.rA1 = c.replyA := add_sub_cancel_left _ _
  have hwhole : c.tA2 - c.start = c.duration := by
    unfold Course.duration
    linarith
  rw [← hroundTrip, ← hreply, ← hwhole]
  refine Clock.ticks_of_three h.tA1 h.rA1 h.tA2 ?_ ?_ (hwhole ▸ ha)
  · linarith [c.flight_nonneg, c.replyB_nonneg]
  · linarith [c.replyA_nonneg]

/-- What passes on B's clock: its reply, its round trip, and both together. -/
theorem ticks_replier (hb : b.rate * c.duration < clockPeriod) :
    (e.intervals.replyReplier : K) = b.rate * c.replyB ∧
      (e.intervals.roundTripReplier : K) = b.rate * (2 * c.flight + c.replyA) ∧
        (e.rB2.elapsedSince e.rB1 : K) = b.rate * c.duration := by
  have hreply : c.tB1 - c.rB1 = c.replyB := add_sub_cancel_left _ _
  have hroundTrip : c.rB2 - c.tB1 = 2 * c.flight + c.replyA := by
    unfold Course.rB2 Course.tA2 Course.rA1
    ring
  have hwhole : c.rB2 - c.rB1 = c.duration := by
    unfold Course.duration
    linarith
  rw [← hreply, ← hroundTrip, ← hwhole]
  refine Clock.ticks_of_three h.rB1 h.tB1 h.rB2 ?_ ?_ (hwhole ▸ hb)
  · linarith [c.replyB_nonneg]
  · linarith [c.flight_nonneg, c.replyA_nonneg]

variable [FloorSemiring K] [SquareRoot K] (ha : a.rate * c.duration < clockPeriod)
  (hb : b.rate * c.duration < clockPeriod) (hpos : 0 < c.duration)
include ha hb hpos

theorem asymmetricTof_eq :
    (e.intervals.asymmetricTof : Except RangingError (Extended K)) =
      .ok (finite (2 * a.rate * b.rate * c.flight / (a.rate + b.rate))) := by
  obtain ⟨hroundTripA, hreplyA, -⟩ := h.ticks_initiator ha
  obtain ⟨hreplyB, hroundTripB, -⟩ := h.ticks_replier hb
  have hrates : a.rate + b.rate ≠ 0 := (add_pos a.rate_pos b.rate_pos).ne'
  have htotal : a.rate * (2 * c.flight + c.replyB) + a.rate * c.replyA + b.rate * (2 * c.flight + c.replyA) +
      b.rate * c.replyB = (a.rate + b.rate) * c.duration := by
    unfold Course.duration
    ring
  have hproducts : a.rate * (2 * c.flight + c.replyB) * (b.rate * (2 * c.flight + c.replyA)) -
      a.rate * c.replyA * (b.rate * c.replyB) = 2 * a.rate * b.rate * c.flight * c.duration := by
    unfold Course.duration
    ring
  rw [Intervals.asymmetricTof_exact, hroundTripA, hreplyA, hroundTripB, hreplyB, htotal, hproducts,
    if_neg (mul_ne_zero hrates hpos.ne'), mul_div_mul_right _ _ hpos.ne']

theorem driftCompensatedTof_eq :
    (e.driftCompensatedTof : Except RangingError (Extended K)) = .ok (finite (a.rate * c.flight)) := by
  obtain ⟨hroundTripA, -, hown⟩ := h.ticks_initiator ha
  obtain ⟨hreplyB, -, hother⟩ := h.ticks_replier hb
  have hb0 : b.rate ≠ 0 := b.rate_pos.ne'
  have hcorrected : a.rate * c.duration / (b.rate * c.duration) * (b.rate * c.replyB) = a.rate * c.replyB := by
    rw [mul_div_mul_right _ _ hpos.ne', div_mul_eq_mul_div, mul_left_comm, mul_div_cancel_left₀ _ hb0]
  have hroundTrip : (e.rA1.elapsedSince e.tA1 : K) = a.rate * (2 * c.flight + c.replyB) := hroundTripA
  have hreply : (e.tB1.elapsedSince e.rB1 : K) = b.rate * c.replyB := hreplyB
  rw [Exchange.driftCompensatedTof_exact, hroundTrip, hreply, hown, hother, hcorrected,
    if_neg (mul_ne_zero hb0 hpos.ne')]
  congr 2
  ring

end Exchange.StampedBy

/-- What passes on the listener's clock between the arrivals of the three messages. The distances of the anchors differ
by no more than the distance between them, so the messages arrive in the order in which they are sent. -/
theorem OverheardExchange.StampedBy.ticks_listener {o : OverheardExchange} {flightA flightB : K}
    (h : o.StampedBy a b l c flightA flightB) (hl : l.rate * c.duration < clockPeriod)
    (htriangle : |flightA - flightB| ≤ c.flight) :
    (o.rL2.elapsedSince o.rL1 : K) = l.rate * (c.flight + c.replyB - (flightA - flightB)) ∧
      (o.rL3.elapsedSince o.rL2 : K) = l.rate * (c.flight + c.replyA + (flightA - flightB)) := by
  obtain ⟨hlow, hhigh⟩ := abs_le.1 htriangle
  have hfirst : c.tB1 + flightB - (c.start + flightA) = c.flight + c.replyB - (flightA - flightB) := by
    unfold Course.tB1 Course.rB1
    ring
  have hsecond : c.tA2 + flightA - (c.tB1 + flightB) = c.flight + c.replyA + (flightA - flightB) := by
    unfold Course.tA2 Course.rA1
    ring
  have hwhole : c.tA2 + flightA - (c.start + flightA) = c.duration := by
    unfold Course.duration
    linarith
  rw [← hfirst, ← hsecond]
  obtain ⟨hbefore, hafter, -⟩ := Clock.ticks_of_three h.rL1 h.rL2 h.rL3 (by linarith [c.replyB_nonneg])
    (by linarith [c.replyA_nonneg]) (hwhole ▸ hl)
  exact ⟨hbefore, hafter⟩

section Estimates

variable [FloorSemiring K] [SquareRoot K]

/-- Both estimates are exact. The asymmetric one is the flight time at the harmonic mean of the rates of the two clocks,
and the drift-compensated one the flight time at the rate of A's clock; with clocks that show true time, both are the
flight time itself. -/
theorem Exchange.timeOfFlight_constant_rates {e : Exchange} (h : e.StampedBy a b c)
    (ha : a.rate * c.duration < clockPeriod) (hb : b.rate * c.duration < clockPeriod) (hpos : 0 < c.duration) :
    e.timeOfFlight .asymmetric = .ok (finite (2 * a.rate * b.rate * c.flight / (a.rate + b.rate))) ∧
    e.timeOfFlight .driftCompensated = .ok (finite (a.rate * c.flight)) ∧
    (a.rate = 1 → b.rate = 1 → ∀ estimator, e.timeOfFlight estimator = .ok (finite c.flight)) := by
  have hasymmetric := h.asymmetricTof_eq ha hb hpos
  have hdriftCompensated := h.driftCompensatedTof_eq ha hb hpos
  refine ⟨hasymmetric, hdriftCompensated, fun hrateA hrateB estimator => ?_⟩
  rw [hrateA, hrateB] at hasymmetric
  rw [hrateA, one_mul] at hdriftCompensated
  cases estimator with
  | asymmetric =>
      have hmean : 2 * 1 * 1 * c.flight / (1 + 1) = c.flight := by ring
      rwa [hmean] at hasymmetric
  | driftCompensated => exact hdriftCompensated

/-- A clock that shows true time and wraps 20000 ticks later. -/
def trueClock : Clock ℚ where
  rate := 1
  offset := 2 ^ 40 - 20000
  rate_pos := one_pos

/-- A clock that is a tenth too fast. Its counter is still below zero when the first message arrives. -/
def fastClock : Clock ℚ where
  rate := 11 / 10
  offset := -300
  rate_pos := by norm_num

def unevenCourse : Course ℚ where
  start := 0
  flight := 200
  replyB := 50000
  replyA := 30000
  flight_nonneg := by norm_num
  replyB_nonneg := by norm_num
  replyA_nonneg := by norm_num

/-- The readings of that course: both clocks wrap before the second message is sent or received. -/
def wrappedExchange : Exchange where
  tA1 := .wrap (2 ^ 40 - 20000)
  rB1 := .wrap (2 ^ 40 - 80)
  tB1 := .wrap 54920
  rA1 := .wrap 30400
  tA2 := .wrap 60400
  rB2 := .wrap 88360

theorem stampedBy_wrappedExchange : wrappedExchange.StampedBy trueClock fastClock unevenCourse where
  tA1 := ⟨2 ^ 40 - 20000, by decide +kernel, by decide +kernel⟩
  rB1 := ⟨-80, by decide +kernel, by decide +kernel⟩
  tB1 := ⟨54920, by decide +kernel, by decide +kernel⟩
  rA1 := ⟨2 ^ 40 + 30400, by decide +kernel, by decide +kernel⟩
  tA2 := ⟨2 ^ 40 + 60400, by decide +kernel, by decide +kernel⟩
  rB2 := ⟨88360, by decide +kernel, by decide +kernel⟩

theorem timeOfFlight_constant_rates_wrapped :
    wrappedExchange.StampedBy trueClock fastClock unevenCourse ∧
      trueClock.rate * unevenCourse.duration < clockPeriod ∧ fastClock.rate * unevenCourse.duration < clockPeriod ∧
      0 < unevenCourse.duration ∧
      wrappedExchange.timeOfFlight .asymmetric = .ok (finite (4400 / 21 : ℚ)) ∧
      wrappedExchange.timeOfFlight .driftCompensated = .ok (finite (200 : ℚ)) := by
  have ha : trueClock.rate * unevenCourse.duration < clockPeriod := by decide +kernel
  have hb : fastClock.rate * unevenCourse.duration < clockPeriod := by decide +kernel
  have hpos : 0 < unevenCourse.duration := by decide +kernel
  obtain ⟨hasymmetric, hdriftCompensated, -⟩ :=
    Exchange.timeOfFlight_constant_rates stampedBy_wrappedExchange ha hb hpos
  have hmean : 2 * trueClock.rate * fastClock.rate * unevenCourse.flight / (trueClock.rate + fastClock.rate) =
      4400 / 21 := by decide +kernel
  have hflight : trueClock.rate * unevenCourse.flight = 200 := by decide +kernel
  rw [hmean] at hasymmetric
  rw [hflight] at hdriftCompensated
  exact ⟨stampedBy_wrappedExchange, ha, hb, hpos, hasymmetric, hdriftCompensated⟩

/-- The time difference is exact: how much longer the flight from A takes than the flight from B, at the rate of the
listener's clock. It is positive if and only if the listener is farther from A. -/
theorem OverheardExchange.timeDifference_constant_rates {o : OverheardExchange} {flightA flightB : K}
    (h : o.StampedBy a b l c flightA flightB) (htriangle : |flightA - flightB| ≤ c.flight)
    (ha : a.rate * c.duration < clockPeriod) (hb : b.rate * c.duration < clockPeriod)
    (hl : l.rate * c.duration < clockPeriod) (hpos : 0 < c.duration) :
    ∃ d : Extended K, o.timeDifference = .ok d ∧ d = finite (l.rate * (flightA - flightB)) ∧
      (Arith.lt Arith.zero d = true ↔ flightB < flightA) := by
  obtain ⟨hroundTrip, hreply, -⟩ := h.exchange.ticks_initiator ha
  obtain ⟨hfirst, hsecond⟩ := h.ticks_listener hl htriangle
  have ha0 : a.rate ≠ 0 := a.rate_pos.ne'
  have hown : a.rate * (2 * c.flight + c.replyB) + a.rate * c.replyA = a.rate * c.duration := by
    unfold Course.duration
    ring
  have hlistened : l.rate * (c.flight + c.replyB - (flightA - flightB)) +
      l.rate * (c.flight + c.replyA + (flightA - flightB)) = l.rate * c.duration := by
    unfold Course.duration
    ring
  refine ⟨finite (l.rate * (flightA - flightB)), ?_, rfl, ?_⟩
  · rw [OverheardExchange.timeDifference_exact (h.exchange.driftCompensatedTof_eq ha hb hpos), hroundTrip, hreply,
      hfirst, hsecond, hown, hlistened, mul_div_mul_right _ _ hpos.ne']
    · congr 2
      field_simp
      ring
    · rw [hroundTrip, hreply, hown]
      exact mul_ne_zero ha0 hpos.ne'
  · rw [zero_eq, lt_finite, decide_eq_true_eq, mul_pos_iff_of_pos_left l.rate_pos, sub_pos]

end Estimates

/-- A clock that is a tenth too slow. -/
def slowClock : Clock ℚ where
  rate := 9 / 10
  offset := 2 ^ 40 - 1000
  rate_pos := by norm_num

/-- The same course with a listener that is nearer to A. -/
def wrappedOverheard : OverheardExchange where
  exchange := wrappedExchange
  rL1 := .wrap (2 ^ 40 - 955)
  rL2 := .wrap 44315
  rL3 := .wrap 71405

theorem stampedBy_wrappedOverheard :
    wrappedOverheard.StampedBy trueClock fastClock slowClock unevenCourse 50 150 where
  exchange := stampedBy_wrappedExchange
  rL1 := ⟨2 ^ 40 - 955, by decide +kernel, by decide +kernel⟩
  rL2 := ⟨2 ^ 40 + 44315, by decide +kernel, by decide +kernel⟩
  rL3 := ⟨2 ^ 40 + 71405, by decide +kernel, by decide +kernel⟩

theorem timeDifference_constant_rates_wrapped :
    wrappedOverheard.StampedBy trueClock fastClock slowClock unevenCourse 50 150 ∧
      |(50 - 150 : ℚ)| ≤ unevenCourse.flight ∧ trueClock.rate * unevenCourse.duration < clockPeriod ∧
      fastClock.rate * unevenCourse.duration < clockPeriod ∧ slowClock.rate * unevenCourse.duration < clockPeriod ∧
      0 < unevenCourse.duration ∧ wrappedOverheard.timeDifference = .ok (finite (-90 : ℚ)) := by
  have htriangle : |(50 - 150 : ℚ)| ≤ unevenCourse.flight := by decide +kernel
  have ha : trueClock.rate * unevenCourse.duration < clockPeriod := by decide +kernel
  have hb : fastClock.rate * unevenCourse.duration < clockPeriod := by decide +kernel
  have hl : slowClock.rate * unevenCourse.duration < clockPeriod := by decide +kernel
  have hpos : 0 < unevenCourse.duration := by decide +kernel
  obtain ⟨d, hd, hvalue, -⟩ :=
    OverheardExchange.timeDifference_constant_rates stampedBy_wrappedOverheard htriangle ha hb hl hpos
  have hfarther : slowClock.rate * (50 - 150) = -90 := by decide +kernel
  rw [hvalue, hfarther] at hd
  exact ⟨stampedBy_wrappedOverheard, htriangle, ha, hb, hl, hpos, hd⟩

end UwbRanging
