import UwbRanging.Proofs.Decimal.Places
import UwbRanging.Proofs.Exchange
import UwbRanging.Proofs.Float.NotANumber
import UwbRanging.Proofs.Simulation.Chance
import UwbRanging.Proofs.Telemetry.Printing
import UwbRanging.Simulation.Testbed

/-!
What simulated nodes print in a round, whatever chance decides: for every two nodes the range and the clock readings of
an exchange, each of which is decoded as what it means, and no readings that an estimator could not use. A round is not
refused as long as jitter can be drawn.
-/

namespace UwbRanging

open Telemetry

section Texts

theorem endsWithDigit_of_magnitudeText {whole fraction magnitude : List Char}
    (h : MagnitudeText whole fraction magnitude) (hfraction : fraction ≠ []) : EndsWithDigit magnitude := by
  cases h with
  | whole _ _ => exact absurd rfl hfraction
  | point _ _ hf => exact ((hf.endsWithDigit hfraction).append ['.']).append _
  | fraction _ hf => exact (hf.endsWithDigit hfraction).append ['.']

/-- A range as a simulated node prints it. -/
def rangeLine (other : NodeId) (parameter : UInt32) (range : Float) : String :=
  "TW, " ++ toString other.toNat ++ ", " ++ toString parameter.toNat ++ ", " ++ Decimal.fixed 2 range

theorem decode_rangeLine (other : NodeId) (parameter : UInt32) {k : ℤ} {range : Float} (h : Below k range) :
    ∃ x, decode (rangeLine other parameter range) = .ok (.twoWayRange other parameter x none) := by
  obtain ⟨negative, m, e, hfinite⟩ := h.exists_ofFloat
  obtain ⟨sign, whole, fraction, magnitude, hsign, hmagnitude, hlength, htext⟩ :=
    Decimal.fixed_text (show 0 < 2 by decide) hfinite
  have hnumber := NumberText.decimal hsign hmagnitude .none
  rw [List.append_nil] at hnumber
  have hline : (rangeLine other parameter range).toList = "TW,".toList ++ ((' ' :: Nat.toDigits 10 other.toNat) ++
      ((',' :: ' ' :: Nat.toDigits 10 parameter.toNat) ++ (',' :: ' ' :: (sign ++ magnitude)))) := by
    simp [rangeLine, htext]
  have hend : EndsWithDigit magnitude :=
    endsWithDigit_of_magnitudeText hmagnitude (List.ne_nil_of_length_pos (by omega))
  have hbody := TwoWayRangeText.withParameter (firstWordText_space (wordText_toDigits other))
    (nextText_commaSpace (wordText_toDigits parameter)) (nextText_commaSpace hnumber)
  exact ⟨_, decode_of_bodyText hline (((hend.append (',' :: ' ' :: sign)).append _).append _) (.twoWayRange hbody)⟩

/-- What the four lines of an announcement say. -/
def announcedTelemetry (index : Nat) : List (TelemetryLine Float) :=
  [.configItem "SCHEDULE_USED" "SYNTHETIC", .address 0 (nodeIdOf index), .associated true,
    .timeslot (UInt32.ofNat index)]

theorem decode_announcement {index : Nat} (h : index < UInt32.size) :
    (announcement index).map (fun line => decode line.text) = (announcedTelemetry index).map .ok := by
  have haddress : decode ("TA, 0, " ++ toString (nodeIdOf index).toNat) = .ok (.address 0 (nodeIdOf index)) := by
    have hline : ("TA, 0, " ++ toString (nodeIdOf index).toNat).toList =
        "TA,".toList ++ ([' ', '0'] ++ (',' :: ' ' :: Nat.toDigits 10 (nodeIdOf index).toNat)) := by simp
    have hbody := BodyText.address (firstWordText_space (wordText_toDigits 0))
      (nextText_commaSpace (wordText_toDigits (nodeIdOf index)))
    exact decode_of_bodyText hline (((endsWithDigit_toDigits _).append [',', ' ']).append _) hbody
  have htimeslot : decode ("ts, " ++ toString index) = .ok (.timeslot (UInt32.ofNat index)) := by
    have hline : ("ts, " ++ toString index).toList = "ts,".toList ++ (' ' :: Nat.toDigits 10 index) := by simp
    have hword := wordText_toDigits (UInt32.ofNat index)
    rw [UInt32.toNat_ofNat_of_lt' h] at hword
    exact decode_of_bodyText hline ((endsWithDigit_toDigits _).append [' ']) (.timeslot (firstWordText_space hword))
  simp only [announcement, announcedTelemetry, List.map_cons, List.map_nil, haddress, htimeslot]
  rfl

theorem decode_of_mem_announcement {index : Nat} (h : index < UInt32.size) {line : StreamLine}
    (hline : line ∈ announcement index) : ∃ decoded ∈ announcedTelemetry index, decode line.text = .ok decoded := by
  have hdecoded : decode line.text ∈ (announcement index).map fun line => decode line.text :=
    List.mem_map_of_mem hline
  rw [decode_announcement h] at hdecoded
  obtain ⟨decoded, hmem, heq⟩ := List.mem_map.1 hdecoded
  exact ⟨decoded, hmem, heq.symm⟩

end Texts

section Rounds

/-- What a node prints in a round: a range that has been computed, with the parameter in force, or readings with an
estimate. -/
inductive RangingLine (parameter : UInt32) (stream : String) : StreamLine → Prop where
  | range (other : NodeId) {k : ℤ} {range : Float} (h : Below k range) :
      RangingLine parameter stream ⟨stream, rangeLine other parameter range⟩
  | readings (other : NodeId) {e : Exchange} {tof : Float} (h : e.driftCompensatedTof = .ok tof) :
      RangingLine parameter stream ⟨stream, e.dumpLine other⟩

theorem RangingLine.decoded {parameter : UInt32} {stream : String} {line : StreamLine}
    (h : RangingLine parameter stream line) :
    (∃ other x, decode line.text = .ok (.twoWayRange other parameter x none)) ∨
      ∃ other e, ∃ tof : Float, e.driftCompensatedTof = .ok tof ∧ decode line.text = .ok (.rawExchange other e) := by
  cases h with
  | range other hbelow =>
      obtain ⟨x, hdecoded⟩ := decode_rangeLine other parameter hbelow
      exact .inl ⟨other, x, hdecoded⟩
  | readings other htof => exact .inr ⟨other, _, _, htof, decode_dumpLine other _⟩

theorem RangingLine.not_mem_announcement {parameter : UInt32} {stream : String} {line : StreamLine}
    (h : RangingLine parameter stream line) {index : Nat} (hindex : index < UInt32.size) :
    line ∉ announcement index := by
  intro hline
  obtain ⟨decoded, hmem, hannounced⟩ := decode_of_mem_announcement hindex hline
  obtain ⟨other, x, hdecoded⟩ | ⟨other, e, _, _, hdecoded⟩ := h.decoded
  all_goals
    rw [hdecoded, Except.ok.injEq] at hannounced
    simp [announcedTelemetry, ← hannounced] at hmem

/-- A range that is printed of an estimate: the estimate in centimeters, or one that is off by up to the size of the
room. -/
def PrintedRange (tof range : Float) : Prop :=
  let estimate : Float := (Length.mk tof .ticks).valueIn .centimeters
  range = estimate ∨ ∃ w, range = estimate + Random.point (-1) 1 w * roomSize * 100

theorem PrintedRange.below {e : Exchange} {tof range : Float} (htof : e.driftCompensatedTof = .ok tof)
    (h : PrintedRange tof range) : Below 190 range := by
  have hestimate := Exchange.below_valueIn_centimeters htof
  rcases h with rfl | ⟨w, rfl⟩
  · exact hestimate.mono (by omega)
  · have hlow : Below 60 (-1 : Float) := by decide +kernel
    have hwidth : Below 3 (1 - (-1) : Float) := by decide +kernel
    have hroom : Below 10 (roomSize : Float) := by decide +kernel
    have hhundred : Below 10 (100 : Float) := by decide +kernel
    have hshare := Random.below_point hlow hwidth (by omega) (by omega) (by omega) w
    have herror := (hshare.mul hroom (by omega) (by omega)).mul hhundred (by omega) (by omega)
    exact (hestimate.add (herror.mono (by omega)) (by omega) (by omega)).mono (by omega)

/-- What a node prints about an exchange: nothing if there is no estimate, otherwise a range and the readings. -/
inductive ExchangeLines (parameter : UInt32) (stream : String) (other : NodeId) (e : Exchange) :
    List StreamLine → Prop where
  | degenerate {error : RangingError} (h : e.driftCompensatedTof (α := Float) = .error error) :
      ExchangeLines parameter stream other e []
  | measured {tof range : Float} (h : e.driftCompensatedTof = .ok tof) (hrange : PrintedRange tof range) :
      ExchangeLines parameter stream other e [⟨stream, rangeLine other parameter range⟩, ⟨stream, e.dumpLine other⟩]

theorem ExchangeLines.rangingLine {parameter : UInt32} {stream : String} {other : NodeId} {e : Exchange}
    {lines : List StreamLine} (h : ExchangeLines parameter stream other e lines) :
    ∀ line ∈ lines, RangingLine parameter stream line := by
  cases h with
  | degenerate _ => exact List.forall_mem_nil _
  | measured htof hrange =>
      simp only [List.forall_mem_cons]
      exact ⟨.range _ (hrange.below htof), .readings _ htof, List.forall_mem_nil _⟩

/-- The exchange of two places is one that can be drawn with the noise. -/
def Simulates (noise : Float) (here there : Spot Float) (e : Exchange) : Prop :=
  ∃ handshake : Handshake Float, Random.CanGive (Handshake.draw noise) handshake ∧
    handshake.exchange (here.distanceTo there / metersPerTick) = e

/-- The places of two different nodes, each with every other, in the order in which they range. -/
def rangingPairs (spots : List (Spot Float)) : List ((Spot Float × ℕ) × Spot Float × ℕ) :=
  spots.zipIdx.flatMap fun node => (spots.zipIdx.filter fun other => node.2 ≠ other.2).map fun other => (node, other)

/-- What all nodes print in a round: for every two of them, in both directions, what is printed about an exchange. -/
def RoundPrinted (noise : Float) (parameter : UInt32) (spots : List (Spot Float)) (lines : List StreamLine) : Prop :=
  ∃ chunks, lines = chunks.flatten ∧ List.Forall₂ (fun pair chunk => ∃ e, Simulates noise pair.1.1 pair.2.1 e ∧
    ExchangeLines parameter (streamOf pair.1.2) (nodeIdOf pair.2.2) e chunk) (rangingPairs spots) chunks

theorem RoundPrinted.rangingLine {noise : Float} {parameter : UInt32} {spots : List (Spot Float)}
    {lines : List StreamLine} (h : RoundPrinted noise parameter spots lines) :
    ∀ line ∈ lines, ∃ i < spots.length, RangingLine parameter (streamOf i) line := by
  obtain ⟨chunks, rfl, hchunks⟩ := h
  intro line hline
  obtain ⟨chunk, hchunk, hline⟩ := List.mem_flatten.1 hline
  obtain ⟨i, hi, rfl⟩ := List.getElem_of_mem hchunk
  obtain ⟨e, -, hprinted⟩ := hchunks.get (hchunks.length_eq ▸ hi) hi
  refine ⟨_, ?_, hprinted.rangingLine line hline⟩
  obtain ⟨node, hnode, hpair⟩ := List.mem_flatMap.1 (List.get_mem (rangingPairs spots) ⟨i, hchunks.length_eq ▸ hi⟩)
  obtain ⟨other, -, hpair⟩ := List.mem_map.1 hpair
  rw [← hpair]
  exact List.snd_lt_of_mem_zipIdx hnode

end Rounds

section Draws

open UwbRanging.Random

/-- Jitter can be drawn: the width of its range is a finite number. -/
def JitterFits (noise : Float) : Prop :=
  0 < noise → (noise - -noise).isFinite = true

instance (noise : Float) : Decidable (JitterFits noise) :=
  inferInstanceAs (Decidable (0 < noise → _))

theorem gives_drawJitter {noise : Float} (h : JitterFits noise) :
    Gives Barren (Handshake.drawJitter noise) fun _ => True := by
  rw [Handshake.drawJitter]
  split
  case isTrue hpos =>
    have hnoise : 0 < noise := of_decide_eq_true hpos
    exact (gives_between_float (decide_eq_true (neg_lt_self_of_pos hnoise)) (h hnoise)).mono fun _ _ => trivial
  case isFalse => exact gives_pure trivial

theorem gives_clockOffset : Gives Barren (between Arith.zero (Arith.ofNat clockPeriod : Float)) fun _ => True :=
  (gives_between_float (by decide +kernel) (by decide +kernel)).mono fun _ _ => trivial

theorem gives_drift : Gives Barren (between (-Handshake.maxDrift) (Handshake.maxDrift : Float)) fun _ => True :=
  (gives_between_float (by decide +kernel) (by decide +kernel)).mono fun _ _ => trivial

theorem gives_draw {noise : Float} (h : JitterFits noise) :
    Gives Barren (Handshake.draw noise) (CanGive (Handshake.draw noise)) := by
  have hdraw : Gives Barren (Handshake.draw noise) fun _ => True := by
    refine gives_clockOffset.bind fun _ _ => gives_clockOffset.bind fun _ _ => gives_drift.bind fun _ _ => ?_
    refine (gives_drawJitter h).bind fun _ _ => (gives_drawJitter h).bind fun _ _ => ?_
    exact (gives_drawJitter h).bind fun _ _ => gives_pure trivial
  exact hdraw.canGive.mono fun _ => And.right

/-- Readings are drawn before the first jitter, and refused with it. -/
theorem refused_draw {noise : Float} (h : ¬ JitterFits noise) :
    Refused Barren .rangeOverflow (Handshake.draw noise) := by
  have hjitter : Refused Barren .rangeOverflow (Handshake.drawJitter noise) := by
    obtain ⟨hnoise, hwidth⟩ := Classical.not_imp.1 h
    rw [Handshake.drawJitter, if_pos (show Arith.lt Arith.zero noise = true from decide_eq_true hnoise)]
    exact refused_between (decide_eq_true (neg_lt_self_of_pos hnoise)) (eq_false_of_ne_true hwidth)
  refine gives_clockOffset.refused fun _ _ => gives_clockOffset.refused fun _ _ => ?_
  exact gives_drift.refused fun _ _ => hjitter.bind _

theorem clampToUnit_cases {x : Float} (h : x.isNaN = false) :
    clampToUnit x == 1 ∨ 0 ≤ clampToUnit x ∧ clampToUnit x < 1 := by
  rw [clampToUnit]
  split
  case isTrue => exact .inr (by decide +kernel)
  case isFalse hzero =>
    split
    case isTrue => exact .inl (by decide +kernel)
    case isFalse hone =>
      have hle : 0 ≤ x := (le_or_lt_of_numbers (by decide +kernel) h).resolve_right hzero
      rcases lt_or_beq_or_lt_of_numbers h (by decide +kernel : (1 : Float).isNaN = false) with hless | heq | hmore
      · exact .inr ⟨hle, hless⟩
      · exact .inl heq
      · exact absurd hmore hone

/-- What is drawn as a range: the reason why there is none, or one for an estimate. -/
def RangeDrawn (e : Exchange) : Except RangingError Float → Prop
  | .error error => e.driftCompensatedTof (α := Float) = .error error
  | .ok range => ∃ tof, e.driftCompensatedTof = .ok tof ∧ PrintedRange tof range

theorem gives_drawRange (e : Exchange) {outlierRate : Float} (hrate : outlierRate.isNaN = false) :
    Gives Barren (drawRange e outlierRate) (RangeDrawn e) := by
  rw [drawRange]
  cases htof : e.driftCompensatedTof (α := Float) with
  | error error =>
      have hdistance : e.distance (α := Float) .driftCompensated = .error error := by
        simp only [Exchange.distance, Exchange.timeOfFlight, htof]
        rfl
      rw [hdistance]
      exact gives_pure htof
  | ok tof =>
      have hdistance : e.distance (α := Float) .driftCompensated = .ok ⟨tof, .ticks⟩ := by
        simp only [Exchange.distance, Exchange.timeOfFlight, htof]
        rfl
      rw [hdistance]
      refine (gives_happens (clampToUnit_cases hrate)).bind fun outlying _ => ?_
      split
      · have hshare : Gives Barren (between (-1 : Float) 1) fun x => ∃ w, point (-1) 1 w = x :=
          gives_between_float (by decide +kernel) (by decide +kernel)
        refine hshare.bind fun share hdrawn => gives_pure ⟨tof, htof, ?_⟩
        obtain ⟨w, rfl⟩ := hdrawn
        exact .inr ⟨w, rfl⟩
      · exact gives_pure ⟨tof, htof, .inl rfl⟩

variable {settings : SimulationSettings}

theorem gives_rangingLines (hnoise : JitterFits settings.noise) (hrate : settings.outlierRate.isNaN = false)
    (stream : String) (here : Spot Float) (index : Nat) (there : Spot Float) :
    Gives Barren (rangingLines settings stream here index there) fun lines => ∃ e,
      Simulates settings.noise here there e ∧ ExchangeLines settings.parameter stream (nodeIdOf index) e lines := by
  refine (gives_draw hnoise).bind fun handshake hhandshake => ?_
  refine (gives_drawRange _ hrate).bind fun drawn hdrawn => ?_
  cases drawn with
  | error error => exact gives_pure ⟨_, ⟨handshake, hhandshake, rfl⟩, .degenerate hdrawn⟩
  | ok range =>
      obtain ⟨tof, htof, hrange⟩ := hdrawn
      exact gives_pure ⟨_, ⟨handshake, hhandshake, rfl⟩, .measured htof hrange⟩

theorem gives_roundLines (hnoise : JitterFits settings.noise) (hrate : settings.outlierRate.isNaN = false)
    (spots : List (Spot Float)) :
    Gives Barren (roundLines settings spots) (RoundPrinted settings.noise settings.parameter spots) := by
  have hnode (node : Spot Float × ℕ) := gives_mapM fun (other : Spot Float × ℕ)
    (_ : other ∈ spots.zipIdx.filter fun other => node.2 ≠ other.2) =>
      gives_rangingLines hnoise hrate (streamOf node.2) node.1 other.2 other.1
  refine (gives_mapM fun node (_ : node ∈ spots.zipIdx) => hnode node).bind fun lines hlines => gives_pure ?_
  refine ⟨lines.flatten, rfl, ?_⟩
  rw [rangingPairs, List.flatMap]
  refine List.rel_flatten (List.forall₂_map_left_iff.2 (hlines.imp fun node ofNode hofNode => ?_))
  exact List.forall₂_map_left_iff.2 hofNode

/-- Nobody ranges in a round for which no jitter can be drawn, unless there is at most one node. -/
theorem refused_roundLines (hnoise : ¬ JitterFits settings.noise) {spots : List (Spot Float)}
    (hspots : 2 ≤ spots.length) : Refused Barren .rangeOverflow (roundLines settings spots) := by
  obtain ⟨here, there, others, rfl⟩ : ∃ here there others, spots = here :: there :: others := by
    match spots, hspots with
    | here :: there :: others, _ => exact ⟨here, there, others, rfl⟩
  have hpair : Refused Barren .rangeOverflow (rangingLines settings (streamOf 0) here 1 there) :=
    (refused_draw hnoise).bind _
  have hnode := refused_mapM_cons
    (fun other : Spot Float × ℕ => rangingLines settings (streamOf 0) here other.2 other.1) (a := (there, 1)) hpair
    ((others.zipIdx 2).filter fun other => 0 ≠ other.2)
  rw [roundLines, List.zipIdx_cons]
  refine Refused.bind (refused_mapM_cons _ ?_ _) _
  exact hnode

/-- Nodes that take part for the first time announce themselves, before anybody ranges. -/
theorem gives_nextLines {t : SimulatedTestbed} (hnoise : JitterFits t.settings.noise)
    (hrate : t.settings.outlierRate.isNaN = false) : Gives Barren t.nextLines fun lines => ∃ ranging,
      lines = (List.range' t.announced (t.present.length - t.announced)).flatMap announcement ++ ranging ∧
        RoundPrinted t.settings.noise t.settings.parameter t.present ranging :=
  (gives_roundLines hnoise hrate t.present).bind fun ranging hranging => gives_pure ⟨ranging, rfl, hranging⟩

end Draws

end UwbRanging
