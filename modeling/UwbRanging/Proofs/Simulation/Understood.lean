import UwbRanging.Proofs.Collection.Accounting
import UwbRanging.Proofs.Collection.Interleaving
import UwbRanging.Proofs.Simulation.PrintedLines

/-!
What a simulated testbed has printed, as a collector sees it. Each node has announced itself before anything else, and
nothing is skipped.
-/

namespace UwbRanging

open Telemetry

theorem streamOf_injective : Function.Injective streamOf := by
  intro i j h
  have hlists := congrArg String.toList h
  have hdigits : Nat.toDigits 10 i = Nat.toDigits 10 j := by
    simpa [streamOf, Nat.toString_eq_ofList_toDigits] using hlists
  rw [← Decimal.digitsValue_toDigits i, hdigits, Decimal.digitsValue_toDigits]

theorem stream_of_mem_announcement {index : ℕ} {line : StreamLine} (h : line ∈ announcement index) :
    line.stream = streamOf index := by
  obtain ⟨_, _, rfl⟩ := List.mem_map.1 h
  rfl

theorem RangingLine.stream_eq {parameter : UInt32} {stream : String} {line : StreamLine}
    (h : RangingLine parameter stream line) : line.stream = stream := by
  cases h <;> rfl

/-- What is printed while one node after another starts: announcements, and what nodes that have started measure. -/
inductive Printed : ℕ → List StreamLine → Prop where
  | nil : Printed 0 []
  | announcement {n : ℕ} {lines : List StreamLine} (h : Printed n lines) : Printed (n + 1) (lines ++ announcement n)
  | ranging {n i : ℕ} {lines : List StreamLine} {parameter : UInt32} {line : StreamLine} (h : Printed n lines)
      (hi : i < n) (hline : RangingLine parameter (streamOf i) line) : Printed n (lines ++ [line])

namespace Printed

variable {n : ℕ} {lines : List StreamLine}

theorem announcements (h : Printed n lines) (k : ℕ) :
    Printed (n + k) (lines ++ (List.range' n k).flatMap UwbRanging.announcement) := by
  induction k with
  | zero => simpa using h
  | succ k ih =>
      have hnext := ih.announcement
      rw [List.range'_1_concat, List.flatMap_append, ← List.append_assoc]
      simpa [Nat.add_assoc] using hnext

theorem rangings (h : Printed n lines) {parameter : UInt32} {ranging : List StreamLine}
    (hranging : ∀ line ∈ ranging, ∃ i < n, RangingLine parameter (streamOf i) line) : Printed n (lines ++ ranging) := by
  induction ranging generalizing lines with
  | nil => simpa using h
  | cons line ranging ih =>
      obtain ⟨i, hi, hline⟩ := hranging line List.mem_cons_self
      have hrest := ih (h.ranging hi hline) fun line' hline' => hranging line' (List.mem_cons_of_mem line hline')
      rwa [List.append_assoc] at hrest

/-- Every line is one of a node that has started. -/
theorem stream_of_mem (h : Printed n lines) : ∀ line ∈ lines, ∃ i < n, line.stream = streamOf i := by
  induction h with
  | nil => exact List.forall_mem_nil _
  | announcement h ih =>
      intro line hline
      rcases List.mem_append.1 hline with hline | hline
      · obtain ⟨i, hi, hstream⟩ := ih line hline
        exact ⟨i, Nat.lt_succ_of_lt hi, hstream⟩
      · exact ⟨_, Nat.lt_succ_self _, stream_of_mem_announcement hline⟩
  | ranging h hi hline ih =>
      intro line' hline'
      rcases List.mem_append.1 hline' with hline' | hline'
      · exact ih line' hline'
      · rw [List.mem_singleton.1 hline']
        exact ⟨_, hi, hline.stream_eq⟩

/-- A node that has started announced itself first, and since then it has printed what it measured. -/
theorem linesOf_eq (h : Printed n lines) {i : ℕ} (hi : i < n) : ∃ rest,
    linesOf (streamOf i) lines = UwbRanging.announcement i ++ rest ∧
      ∀ line ∈ rest, ∃ parameter, RangingLine parameter (streamOf i) line := by
  induction h with
  | nil => exact absurd hi (Nat.not_lt_zero i)
  | @announcement n lines h ih =>
      rw [linesOf_append]
      by_cases hin : i = n
      · subst hin
        have hnone : linesOf (streamOf i) lines = [] := by
          refine List.filter_eq_nil_iff.2 fun line hline => ?_
          obtain ⟨j, hj, hstream⟩ := h.stream_of_mem line hline
          simpa [hstream] using streamOf_injective.ne hj.ne
        rw [hnone, linesOf_eq_self fun _ => stream_of_mem_announcement]
        exact ⟨[], by simp, List.forall_mem_nil _⟩
      · obtain ⟨rest, hrest, hmeasured⟩ := ih (by omega)
        rw [linesOf_eq_nil (fun _ => stream_of_mem_announcement)
          (streamOf_injective.ne hin), hrest, List.append_nil]
        exact ⟨rest, rfl, hmeasured⟩
  | @ranging n j lines parameter line h hj hline ih =>
      obtain ⟨rest, hrest, hmeasured⟩ := ih hi
      rw [linesOf_append, hrest, List.append_assoc]
      by_cases hij : i = j
      · subst hij
        rw [linesOf_eq_self (List.forall_mem_singleton.2 hline.stream_eq)]
        refine ⟨rest ++ [line], rfl, fun line' hline' => ?_⟩
        rcases List.mem_append.1 hline' with hline' | hline'
        · exact hmeasured line' hline'
        · rw [List.mem_singleton.1 hline']
          exact ⟨parameter, hline⟩
      · rw [linesOf_eq_nil (List.forall_mem_singleton.2 hline.stream_eq) (streamOf_injective.ne hij), List.append_nil]
        exact ⟨rest, rfl, hmeasured⟩

end Printed

namespace Collector

/-- Known addresses stay known. -/
theorem isSome_address?_consume {c : Collector Float} {stream : String} (h : (c.address? stream).isSome = true)
    (line : StreamLine) : ((c.consume line).address? stream).isSome = true := by
  rw [consume_eq, address?_eq_known]
  rw [address?_eq_known] at h
  simp only [after]
  cases line.decoded? with
  | none => exact h
  | some decoded =>
      simp only [Option.elim_some, known_streamsAfter]
      split
      · rw [StreamInfo.heed_address, Option.isSome_or, h, Bool.or_true]
      · exact h

/-- A collector that knows so many simulated nodes, and has skipped nothing. -/
structure Understands (n : ℕ) (c : Collector Float) : Prop where
  known : ∀ i < n, (c.address? (streamOf i)).isSome = true
  skipped : c.skipped = 0

variable {n : ℕ} {c : Collector Float}

theorem Understands.consume (h : c.Understands n) {line : StreamLine} {decoded : TelemetryLine Float}
    (hdecoded : decode line.text = .ok decoded)
    (hfiled : decoded.isFiled c.settings (c.address? line.stream) = true) : (c.consume line).Understands n where
  known i hi := isSome_address?_consume (h.known i hi) line
  skipped := by
    have hsome : line.decoded? = some decoded := by rw [StreamLine.decoded?, hdecoded]; rfl
    rw [consume_eq, hsome]
    simp only [after, Option.any_some, hfiled, if_true]
    exact h.skipped

/-- The address that a line announces is known from then on. -/
theorem address?_consume_address (c : Collector Float) {line : StreamLine} {high low : UInt32}
    (hdecoded : decode line.text = .ok (.address high low)) : (c.consume line).address? line.stream = some low := by
  have hsome : line.decoded? = some (.address high low) := by rw [StreamLine.decoded?, hdecoded]; rfl
  rw [consume_eq, hsome, address?_eq_known]
  simp only [after, Option.elim_some, known_streamsAfter, if_true]
  rfl

/-- An announcement is understood, and makes its node known. -/
theorem Understands.announcement (h : c.Understands n) (hn : n < UInt32.size) :
    (c.consumeAll (announcement n)).Understands (n + 1) := by
  have hdecode := decode_announcement hn
  obtain ⟨l₁, l₂, l₃, l₄, hlines⟩ : ∃ l₁ l₂ l₃ l₄, UwbRanging.announcement n = [l₁, l₂, l₃, l₄] := ⟨_, _, _, _, rfl⟩
  have hstream : l₂.stream = streamOf n := stream_of_mem_announcement (by rw [hlines]; simp)
  rw [hlines] at hdecode ⊢
  simp only [announcedTelemetry, List.map_cons, List.map_nil, List.cons.injEq, and_true] at hdecode
  obtain ⟨h₁, h₂, h₃, h₄⟩ := hdecode
  have hall := (((h.consume h₁ rfl).consume h₂ rfl).consume h₃ rfl).consume h₄ rfl
  refine ⟨fun i hi => ?_, hall.skipped⟩
  rcases Nat.lt_succ_iff_lt_or_eq.1 hi with hi | rfl
  · exact hall.known i hi
  · have hknown := (c.consume l₁).address?_consume_address h₂
    rw [hstream] at hknown
    exact isSome_address?_consume (isSome_address?_consume (by rw [hknown]; rfl) l₃) l₄

/-- What a known node measures is understood, and its readings are never degenerate. -/
theorem Understands.ranging (h : c.Understands n) {i : ℕ} (hi : i < n) {parameter : UInt32} {line : StreamLine}
    (hline : RangingLine parameter (streamOf i) line) : (c.consume line).Understands n := by
  have hknown := h.known i hi
  rw [← hline.stream_eq] at hknown
  obtain ⟨other, x, hdecoded⟩ | ⟨other, e, tof, htof, hdecoded⟩ := hline.decoded
  · exact h.consume hdecoded hknown
  · refine h.consume hdecoded ?_
    obtain ⟨tof', hestimate⟩ := Exchange.exists_timeOfFlight htof c.settings.estimator
    rw [TelemetryLine.isFiled, hknown, hestimate]
    rfl

theorem understands_of_printed (settings : CollectorSettings Float) {lines : List StreamLine} (h : Printed n lines)
    (hn : n ≤ UInt32.size) : ((new settings).consumeAll lines).Understands n := by
  induction h with
  | nil => exact ⟨fun i hi => absurd hi (Nat.not_lt_zero i), rfl⟩
  | announcement h ih =>
      rw [consumeAll_append]
      exact (ih (Nat.le_of_succ_le hn)).announcement hn
  | ranging h hi hline ih =>
      rw [consumeAll_append]
      exact (ih hn).ranging hi hline

end Collector

end UwbRanging
