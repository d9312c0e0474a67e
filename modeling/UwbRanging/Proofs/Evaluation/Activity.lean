import Mathlib.Data.List.Induction
import Mathlib.Order.Bounds.Defs
import UwbRanging.Evaluation.Activity
import UwbRanging.Proofs.Exact.Rational
import UwbRanging.Proofs.Measurement

/-!
The activity of a run follows from two readings of it: the extent of its parameters, which does not depend on their
order, and the number of measurements of each node. Both agree with what the run holds, and in exact arithmetic a rate
over the whole run is the count it was computed from.
-/

namespace UwbRanging

theorem toNat_max (p q : UInt32) : (max p q).toNat = max p.toNat q.toNat := by
  change (if p ≤ q then q else p).toNat = max p.toNat q.toNat
  rw [apply_ite UInt32.toNat, Nat.max_def]
  rfl

instance commutative_max : Std.Commutative (max : UInt32 → UInt32 → UInt32) where
  comm p q := UInt32.toNat.inj (by rw [toNat_max, toNat_max, Nat.max_comm])

instance associative_max : Std.Associative (max : UInt32 → UInt32 → UInt32) where
  assoc p q r := UInt32.toNat.inj (by simp only [toNat_max, Nat.max_assoc])

theorem max_eq_or (p q : UInt32) : max p q = p ∨ max p q = q :=
  ite_eq_or_eq (p ≤ q) q p |>.symm

namespace CollectedRun

section Extent

theorem extent?_perm {ps qs : List UInt32} (h : ps.Perm qs) : extent? ps = extent? qs := by
  induction h with
  | nil => rfl
  | cons p h _ =>
      refine congrArg some (h.foldl_eq' (fun q _ r _ z => ?_) (p, p))
      grind
  | swap p q ps =>
      simp only [extent?, List.foldl_cons]
      grind
  | trans _ _ ih ih' => exact ih.trans ih'

theorem extent?_concat (ps : List UInt32) (q : UInt32) :
    extent? (ps ++ [q]) = some ((extent? ps).elim (q, q) fun e => (min e.1 q, max e.2 q)) := by
  cases ps with
  | nil => rfl
  | cons p ps => simp [extent?]

theorem extent?_eq_none_iff {ps : List UInt32} : extent? ps = none ↔ ps = [] := by
  cases ps <;> simp [extent?]

theorem isLeast_concat {ps : List UInt32} {lo : UInt32} (h : IsLeast {p | p ∈ ps} lo) (q : UInt32) :
    IsLeast {p | p ∈ ps ++ [q]} (min lo q) := by
  constructor
  · change min lo q ∈ ps ++ [q]
    rcases Std.min_eq_or (a := lo) (b := q) with hmin | hmin
    · rw [hmin]
      exact List.mem_append_left _ h.1
    · rw [hmin]
      exact List.mem_append_right _ (List.mem_singleton_self q)
  · intro p hp
    rcases List.mem_append.1 hp with hp | hp
    · exact UInt32.le_trans Std.min_le_left (h.2 hp)
    · exact List.mem_singleton.1 hp ▸ Std.min_le_right

theorem isGreatest_concat {ps : List UInt32} {hi : UInt32} (h : IsGreatest {p | p ∈ ps} hi) (q : UInt32) :
    IsGreatest {p | p ∈ ps ++ [q]} (max hi q) := by
  constructor
  · change max hi q ∈ ps ++ [q]
    rcases max_eq_or hi q with hmax | hmax
    · rw [hmax]
      exact List.mem_append_left _ h.1
    · rw [hmax]
      exact List.mem_append_right _ (List.mem_singleton_self q)
  · intro p hp
    rw [UInt32.le_iff_toNat_le, toNat_max]
    rcases List.mem_append.1 hp with hp | hp
    · exact Nat.le_trans (UInt32.le_iff_toNat_le.1 (h.2 hp)) (Nat.le_max_left _ _)
    · exact List.mem_singleton.1 hp ▸ Nat.le_max_right _ _

theorem isLeast_isGreatest_extent? {ps : List UInt32} {e : UInt32 × UInt32} (h : extent? ps = some e) :
    IsLeast {p | p ∈ ps} e.1 ∧ IsGreatest {p | p ∈ ps} e.2 := by
  induction ps using List.reverseRecOn generalizing e with
  | nil => cases h
  | append_singleton ps q ih =>
      rw [extent?_concat] at h
      cases hps : extent? ps with
      | none =>
          obtain rfl := extent?_eq_none_iff.1 hps
          cases h
          exact ⟨⟨List.mem_singleton_self q, fun p hp => List.mem_singleton.1 hp ▸ UInt32.le_refl _⟩,
            List.mem_singleton_self q, fun p hp => List.mem_singleton.1 hp ▸ UInt32.le_refl _⟩
      | some e' =>
          rw [hps] at h
          cases h
          obtain ⟨hlo, hhi⟩ := ih hps
          exact ⟨isLeast_concat hlo q, isGreatest_concat hhi q⟩

end Extent

variable {α : Type}

section Counts

variable (ds : List (NodeId × List (Measurement α)))

/-- The lengths of some series, added up for each node. -/
def lengthsByNode : SortedMap NodeId Nat :=
  ds.foldl (fun counts d => counts.upsert d.1 fun n => n.getD 0 + d.2.length) .empty

theorem lengthsByNode_concat (d : NodeId × List (Measurement α)) :
    lengthsByNode (ds ++ [d]) = (lengthsByNode ds).upsert d.1 fun n => n.getD 0 + d.2.length :=
  List.foldl_append

theorem get?_lengthsByNode (node : NodeId) :
    (lengthsByNode ds).get? node =
      if node ∈ ds.map Prod.fst then some ((ds.filter (·.1 = node)).map (·.2.length)).sum else none := by
  induction ds using List.reverseRecOn with
  | nil => rfl
  | append_singleton ds d ih =>
      -- a node that has not occurred yet has counted nothing, which is also the sum of nothing
      have hcount : ((lengthsByNode ds).get? node).getD 0 = ((ds.filter (·.1 = node)).map (·.2.length)).sum := by
        rw [ih]
        split
        case isTrue => rfl
        case isFalse hnode =>
          have hnone : ds.filter (·.1 = node) = [] :=
            List.filter_eq_nil_iff.2 fun e he hkey => hnode (List.mem_map.2 ⟨e, he, of_decide_eq_true hkey⟩)
          rw [hnone]
          rfl
      rw [lengthsByNode_concat, SortedMap.get?_upsert, List.filter_append, List.map_append, List.map_append,
        List.sum_append]
      by_cases hnode : node = d.1
      · subst hnode
        rw [if_pos rfl, hcount]
        simp
      · have hmem : node ∈ ds.map Prod.fst ++ [d].map Prod.fst ↔ node ∈ ds.map Prod.fst := by
          simp only [List.map_cons, List.map_nil, List.mem_append, List.mem_singleton, hnode, or_false]
        simp only [if_neg hnode, ih, hmem, List.filter_singleton, Ne.symm hnode, decide_false, cond_false, List.map_nil,
          List.sum_nil, Nat.add_zero]

theorem sum_lengthsByNode : (lengthsByNode ds).values.sum = (ds.map (·.2.length)).sum := by
  induction ds using List.reverseRecOn with
  | nil => rfl
  | append_singleton ds d ih =>
      rw [lengthsByNode_concat, SortedMap.sum_values_upsert, ih, List.map_append, List.sum_append]
      rfl

end Counts

/-- The least and the greatest parameter of the ranges and distance differences of a run. -/
def parameterExtent? (run : CollectedRun α) : Option (UInt32 × UInt32) :=
  extent? (run.reportedSeries.flatMap fun d => d.2.map Measurement.parameter)

/-- The measurements that each node of a run reported. -/
def nodeCounts (run : CollectedRun α) : SortedMap NodeId Nat :=
  lengthsByNode run.reportedSeries

theorem activity?_eq [Arith α] (run : CollectedRun α) (step : Option α) :
    run.activity? step = run.parameterExtent?.map fun extent =>
      let duration := step.map fun s => Arith.ofNat (extent.2 - extent.1).toNat * s
      { first := extent.1
        last := extent.2
        counts := run.nodeCounts
        duration
        rates := (duration.filter (Arith.lt Arith.zero)).map fun d =>
          run.nodeCounts.map fun _ n => Arith.ofNat n / d } := by
  unfold activity?
  change run.parameterExtent?.bind _ = _
  cases run.parameterExtent? <;> rfl

/-- All ranges and distance differences of a run. -/
def reported (run : CollectedRun α) : List (Measurement α) :=
  run.twr.series.values.flatten ++ run.tdoa.series.values.flatten

theorem parameters_reportedSeries (run : CollectedRun α) :
    (run.reportedSeries.flatMap fun d => d.2.map Measurement.parameter) = run.reported.map Measurement.parameter := by
  simp only [reportedSeries, reported, SortedMap.values, List.flatMap_def, List.map_append, List.flatten_append,
    List.map_flatten, List.map_map, Function.comp_def]

theorem length_reported (run : CollectedRun α) :
    run.reported.length = run.twr.totalMeasurements + run.tdoa.totalMeasurements :=
  List.length_append

theorem parameterExtent?_eq_none_iff (run : CollectedRun α) :
    run.parameterExtent? = none ↔ run.twr.totalMeasurements = 0 ∧ run.tdoa.totalMeasurements = 0 := by
  rw [parameterExtent?, extent?_eq_none_iff, parameters_reportedSeries, List.map_eq_nil_iff, ← List.length_eq_zero_iff,
    length_reported, Nat.add_eq_zero_iff]

/-- The nodes that reported a series of ranges, and the listeners that reported one of distance differences. -/
theorem mem_nodes_reportedSeries_iff (run : CollectedRun α) (node : NodeId) :
    node ∈ run.reportedSeries.map Prod.fst ↔
      (∃ k ∈ run.twr.keys, k.1 = node) ∨ ∃ k ∈ run.tdoa.keys, k.1 = node := by
  simp only [reportedSeries, MeasurementSet.keys, SortedMap.keys, List.map_append, List.map_map, List.mem_append,
    List.mem_map, Function.comp_apply, exists_exists_and_eq_and]

theorem sum_filter_reportedSeries (run : CollectedRun α) (node : NodeId) :
    ((run.reportedSeries.filter (·.1 = node)).map (·.2.length)).sum =
      run.twr.countUnder (·.1 = node) + run.tdoa.countUnder (·.1 = node) := by
  rw [reportedSeries, List.filter_append, List.map_append, List.sum_append, List.filter_map, List.filter_map,
    List.map_map, List.map_map]
  rfl

theorem get?_nodeCounts (run : CollectedRun α) (node : NodeId) :
    run.nodeCounts.get? node =
      if node ∈ run.reportedSeries.map Prod.fst then
        some (run.twr.countUnder (·.1 = node) + run.tdoa.countUnder (·.1 = node))
      else none := by
  rw [nodeCounts, get?_lengthsByNode, sum_filter_reportedSeries]

theorem mem_keys_nodeCounts_iff (run : CollectedRun α) (node : NodeId) :
    node ∈ run.nodeCounts.keys ↔ (∃ k ∈ run.twr.keys, k.1 = node) ∨ ∃ k ∈ run.tdoa.keys, k.1 = node := by
  simp only [SortedMap.mem_keys_iff, get?_nodeCounts, Option.ite_none_right_eq_some, Option.some.injEq,
    exists_and_left, exists_eq', and_true, mem_nodes_reportedSeries_iff]

theorem sum_nodeCounts (run : CollectedRun α) :
    run.nodeCounts.values.sum = run.twr.totalMeasurements + run.tdoa.totalMeasurements := by
  rw [nodeCounts, sum_lengthsByNode, reportedSeries, List.map_append, List.sum_append, List.map_map, List.map_map,
    MeasurementSet.totalMeasurements_eq, MeasurementSet.totalMeasurements_eq]
  rfl

end CollectedRun

section Consistency

variable {α : Type} [Arith α]

/-- What an activity says is what the run holds. -/
structure RunActivity.Describes (a : RunActivity α) (run : CollectedRun α) (step : Option α) : Prop where
  isLeast_first : IsLeast {p | ∃ m ∈ run.reported, m.parameter = p} a.first
  isGreatest_last : IsGreatest {p | ∃ m ∈ run.reported, m.parameter = p} a.last
  /-- The subtraction in the span does not wrap around. -/
  first_add_span : a.first.toNat + a.span.toNat = a.last.toNat
  mem_counts_iff (node : NodeId) :
    node ∈ a.counts.keys ↔ (∃ k ∈ run.twr.keys, k.1 = node) ∨ ∃ k ∈ run.tdoa.keys, k.1 = node
  counts_eq {node : NodeId} {n : Nat} (h : a.counts.get? node = some n) :
    n = run.twr.countUnder (·.1 = node) + run.tdoa.countUnder (·.1 = node)
  sum_counts : a.counts.values.sum = run.twr.totalMeasurements + run.tdoa.totalMeasurements
  duration_eq : a.duration = step.map fun s => Arith.ofNat a.span.toNat * s
  isSome_rates_iff :
    a.rates.isSome = true ↔ (∃ s, step = some s) ∧ ∃ d, a.duration = some d ∧ Arith.lt Arith.zero d = true
  keys_rates {rates : SortedMap NodeId α} (h : a.rates = some rates) : rates.keys = a.counts.keys

variable {run : CollectedRun α} {step : Option α} {a : RunActivity α}

theorem CollectedRun.activity?_eq_none_iff :
    run.activity? step = none ↔ run.twr.totalMeasurements = 0 ∧ run.tdoa.totalMeasurements = 0 := by
  rw [activity?_eq, Option.map_eq_none_iff, parameterExtent?_eq_none_iff]

/-- The rates are quotients by a duration that is greater than zero. -/
theorem RunActivity.rates_eq (h : run.activity? step = some a) {rates : SortedMap NodeId α}
    (hrates : a.rates = some rates) :
    ∃ d, a.duration = some d ∧ Arith.lt Arith.zero d = true ∧ rates = a.counts.map fun _ n => Arith.ofNat n / d := by
  obtain ⟨extent, -, rfl⟩ := Option.map_eq_some_iff.1 ((run.activity?_eq step).symm.trans h)
  obtain ⟨d, hd, hquotients⟩ := Option.map_eq_some_iff.1 hrates
  obtain ⟨hduration, hpos⟩ := Option.filter_eq_some_iff.1 hd
  exact ⟨d, hduration, hpos, hquotients.symm⟩

theorem CollectedRun.describes_of_activity? (h : run.activity? step = some a) : a.Describes run step := by
  have hmem : {p | ∃ m ∈ run.reported, m.parameter = p} =
      {p | p ∈ run.reportedSeries.flatMap fun d => d.2.map Measurement.parameter} := by
    simp only [parameters_reportedSeries, List.mem_map]
  obtain ⟨extent, hextent, rfl⟩ := Option.map_eq_some_iff.1 ((run.activity?_eq step).symm.trans h)
  obtain ⟨hleast, hgreatest⟩ := isLeast_isGreatest_extent? hextent
  have hle : extent.1 ≤ extent.2 := hleast.2 hgreatest.1
  refine ⟨hmem ▸ hleast, hmem ▸ hgreatest, ?_, run.mem_keys_nodeCounts_iff, ?_, run.sum_nodeCounts, rfl, ?_, ?_⟩
  · have hspan : (extent.2 - extent.1).toNat = extent.2.toNat - extent.1.toNat := UInt32.toNat_sub_of_le _ _ hle
    have hnat := UInt32.le_iff_toNat_le.1 hle
    change extent.1.toNat + (extent.2 - extent.1).toNat = extent.2.toNat
    omega
  · intro node n hn
    rw [get?_nodeCounts, Option.ite_none_right_eq_some] at hn
    exact (Option.some.inj hn.2).symm
  · cases step with
    | none => simp
    | some s => simp
  · intro rates hrates
    obtain ⟨d, -, -, rfl⟩ := RunActivity.rates_eq h hrates
    exact SortedMap.keys_map _ _

end Consistency

section Exact

open Extended

variable {K : Type} [Field K] [LinearOrder K] [IsStrictOrderedRing K] [FloorSemiring K] [SquareRoot K]

/-- A duration greater than zero is a number, unless a step takes forever. -/
theorem exists_finite_of_zero_lt_mul {n : Nat} {s : Extended K}
    (h : Arith.lt Arith.zero (Arith.ofNat n * s) = true) :
    (∃ d, 0 < d ∧ Arith.ofNat n * s = finite d) ∨
      s = infinite false ∧ (Arith.ofNat n * s : Extended K) = infinite false := by
  rw [zero_eq, ofNat_eq] at *
  cases s with
  | finite x => exact .inl ⟨n * x, of_decide_eq_true h, rfl⟩
  | infinite negative =>
      have hmul : (finite (n : K) * infinite negative : Extended K) =
          if (n : K) = 0 then nan else infinite negative := by
        have hsign : decide ((n : K) < 0) = false := decide_eq_false (Nat.cast_nonneg n).not_gt
        change (if (n : K) = 0 then nan else infinite (negative ^^ decide ((n : K) < 0))) = _
        rw [hsign, Bool.xor_false]
      rw [hmul] at h ⊢
      split at h
      case isTrue => cases h
      case isFalse hn =>
        cases negative with
        | false => exact .inr ⟨rfl, if_neg hn⟩
        | true => cases h
  | nan => cases h

/-- A rate over the whole duration is a count again. Where a step takes forever, no node measures at any rate. -/
theorem RunActivity.rate_mul_duration {run : CollectedRun (Extended K)} {step : Option (Extended K)}
    {a : RunActivity (Extended K)} (h : run.activity? step = some a) {rates : SortedMap NodeId (Extended K)}
    (hrates : a.rates = some rates) {node : NodeId} {n : Nat} (hn : a.counts.get? node = some n) :
    (∃ d r : K, a.duration = some (finite d) ∧ rates.get? node = some (finite r) ∧ r * d = n) ∨
      step = some (infinite false) ∧ rates.get? node = some (finite 0) := by
  obtain ⟨d, hduration, hpos, rfl⟩ := RunActivity.rates_eq h hrates
  have hsteps := (CollectedRun.describes_of_activity? h).duration_eq.symm.trans hduration
  obtain ⟨s, rfl, rfl⟩ := Option.map_eq_some_iff.1 hsteps
  have hrate (d : Extended K) : (a.counts.map fun _ n => Arith.ofNat n / d).get? node = some (finite (n : K) / d) := by
    rw [SortedMap.get?_map, hn, Option.map_some, ofNat_eq]
  rcases exists_finite_of_zero_lt_mul hpos with ⟨d, hd, hmul⟩ | ⟨rfl, hmul⟩
  · refine .inl ⟨d, n / d, hduration.trans (congrArg some hmul), ?_, div_mul_cancel₀ _ hd.ne'⟩
    rw [hmul, hrate, finite_div_finite _ hd.ne']
  · refine .inr ⟨rfl, ?_⟩
    rw [hmul, hrate, finite_div_infinite]

end Exact

/-- A run has an activity as soon as it holds a measurement, and the activity describes the run. In exact arithmetic
every rate makes up the count again over the duration, which is a number unless a step takes forever. -/
theorem activity_describes_run {α : Type} [Arith α] (run : CollectedRun α) (step : Option α) {K : Type} [Field K]
    [LinearOrder K] [IsStrictOrderedRing K] [FloorSemiring K] [SquareRoot K] (exactRun : CollectedRun (Extended K))
    (exactStep : Option (Extended K)) :
    (run.activity? step = none ↔ run.twr.totalMeasurements = 0 ∧ run.tdoa.totalMeasurements = 0) ∧
    (∀ a, run.activity? step = some a → a.Describes run step) ∧
    ∀ a rates node n, exactRun.activity? exactStep = some a → a.rates = some rates → a.counts.get? node = some n →
      (∃ d r : K, a.duration = some (.finite d) ∧ rates.get? node = some (.finite r) ∧ r * d = n) ∨
        exactStep = some (.infinite false) ∧ rates.get? node = some (.finite 0) :=
  ⟨CollectedRun.activity?_eq_none_iff, fun _ h => CollectedRun.describes_of_activity? h,
    fun _ _ _ _ h hrates hn => RunActivity.rate_mul_duration h hrates hn⟩

/-- Node 1 ranges with two others and listens; one of its series and all of node 6 are empty. -/
def sparseRun {α : Type} [Arith α] : CollectedRun α where
  twr := ⟨.centimeters, .ofList [((1, 2), [⟨7, Arith.ofNat 50⟩, ⟨4294967295, Arith.ofNat 51⟩]), ((1, 3), []),
    ((4, 1), [⟨9, Arith.ofNat 80⟩])]⟩
  tdoa := ⟨.centimeters, .ofList [((1, 2, 3), [⟨5, Arith.ofNat 20⟩]), ((6, 1, 2), [])]⟩
  exchanges := .empty .ticks
  streams := .empty

/-- The span is close to the greatest there is, and a step takes half a second. -/
theorem activity_describes_run_sparse :
    ∃ a a' rates, sparseRun.activity? (some (0.5 : Float)) = some a ∧
      sparseRun.activity? (some (.finite (1 / 2) : Extended ℚ)) = some a' ∧ a'.rates = some rates ∧
      a.Describes sparseRun (some 0.5) ∧ (a.first, a.span, a.last) = (5, 4294967290, 4294967295) ∧
      a.counts.entries = [(1, 3), (4, 1), (6, 0)] ∧
      ∃ d r : ℚ, a'.duration = some (.finite d) ∧ rates.get? 1 = some (.finite r) ∧ r * d = 3 := by
  have hfloat : (sparseRun.activity? (some (0.5 : Float))).map (fun a =>
      ((a.first, a.span, a.last), a.counts.entries)) =
      some ((5, 4294967290, 4294967295), [(1, 3), (4, 1), (6, 0)]) := by
    decide +kernel
  have hexact : (sparseRun.activity? (some (.finite (1 / 2) : Extended ℚ))).map (fun a =>
      (a.rates.isSome, a.counts.get? 1)) = some (true, some 3) := by
    decide +kernel
  obtain ⟨a, ha, hreading⟩ := Option.map_eq_some_iff.1 hfloat
  obtain ⟨a', ha', hrest⟩ := Option.map_eq_some_iff.1 hexact
  obtain ⟨hsome, hcount⟩ := Prod.ext_iff.1 hrest
  obtain ⟨rates, hrates⟩ := Option.isSome_iff_exists.1 hsome
  obtain ⟨hextent, hcounts⟩ := Prod.ext_iff.1 hreading
  obtain ⟨-, hdescribes, hrate⟩ :=
    activity_describes_run sparseRun (some (0.5 : Float)) sparseRun (some (.finite (1 / 2) : Extended ℚ))
  rcases hrate a' rates 1 3 ha' hrates hcount with hnumbers | ⟨hforever, -⟩
  · exact ⟨a, a', rates, ha, ha', hrates, hdescribes a ha, hextent, hcounts, hnumbers⟩
  · cases hforever

end UwbRanging
