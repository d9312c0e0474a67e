import UwbRanging.Evaluation.DerivedTdoa
import UwbRanging.Proofs.Fallible
import UwbRanging.Proofs.SortedMap

/-!
The derived distance differences, look-up by look-up: at a listener and two of its neighbours stands the difference of
the two mean ranges, and nothing else is derived.
-/

namespace UwbRanging

variable {α : Type} [Arith α]

/-- The mean range of a pair, if it has any. -/
def MeasurementSet.meanAt? (s : MeasurementSet RangeKey α) (k : RangeKey) : Option α :=
  (s.series? k).bind fun series => (Statistics.mean (series.map Measurement.distance)).toOption

/-- The mean that is stored for a node and a neighbour of it. -/
def rangeAt? (means : SortedMap NodeId (SortedMap NodeId α)) (node other : NodeId) : Option α :=
  (means.get? node).bind (·.get? other)

omit [Arith α] in
theorem rangeAt?_upsert (means : SortedMap NodeId (SortedMap NodeId α)) (k : RangeKey) (m : α) (node other : NodeId) :
    rangeAt? (means.upsert k.1 fun ranges => (ranges.getD .empty).insert k.2 m) node other =
      if (node, other) = k then some m else rangeAt? means node other := by
  obtain ⟨l, o⟩ := k
  simp only [rangeAt?, SortedMap.get?_upsert, Prod.mk.injEq]
  by_cases hnode : node = l
  · subst hnode
    by_cases hother : other = o
    · simp [hother, SortedMap.get?_insert]
    · cases hm : means.get? node <;> simp [hother, SortedMap.get?_insert]
  · simp [hnode]

/-- One series more among the means. -/
def addMean (means : SortedMap NodeId (SortedMap NodeId α)) (e : RangeKey × List (Measurement α)) :
    SortedMap NodeId (SortedMap NodeId α) :=
  match Statistics.mean (e.2.map Measurement.distance) with
  | .ok m => means.upsert e.1.1 fun ranges => (ranges.getD .empty).insert e.1.2 m
  | .error _ => means

theorem meanRanges_eq (s : MeasurementSet RangeKey α) : meanRanges s = s.series.entries.foldl addMean .empty :=
  rfl

theorem rangeAt?_foldl_addMean {es : List (RangeKey × List (Measurement α))}
    (h : ∀ k v w, (k, v) ∈ es → (k, w) ∈ es → v = w) {node other : NodeId} {m : α} :
    rangeAt? (es.foldl addMean .empty) node other = some m ↔
      ∃ series, ((node, other), series) ∈ es ∧ Statistics.mean (series.map Measurement.distance) = .ok m := by
  induction es using List.reverseRecOn with
  | nil => simp [rangeAt?]
  | append_singleton es e ih =>
      have hearlier := ih fun k v w hv hw => h k v w (List.mem_append_left _ hv) (List.mem_append_left _ hw)
      have hlast : e ∈ es ++ [e] := by simp
      rw [List.foldl_append, List.foldl_cons, List.foldl_nil, addMean]
      cases hmean : Statistics.mean (e.2.map Measurement.distance) with
      | error error =>
          rw [hearlier]
          constructor
          · rintro ⟨series, hmem, hm⟩
            exact ⟨series, List.mem_append_left _ hmem, hm⟩
          · rintro ⟨series, hmem, hm⟩
            rcases List.mem_append.1 hmem with hmem | hmem
            · exact ⟨series, hmem, hm⟩
            · obtain rfl := List.mem_singleton.1 hmem
              rw [hmean] at hm
              cases hm
      | ok m' =>
          simp only [rangeAt?_upsert]
          by_cases hk : (node, other) = e.1
          · rw [if_pos hk, hk]
            constructor
            · rintro ⟨⟩
              exact ⟨e.2, hlast, hmean⟩
            · rintro ⟨series, hmem, hm⟩
              rw [h _ _ _ hmem hlast, hmean] at hm
              cases hm
              rfl
          · have hne (series : List (Measurement α)) : ((node, other), series) ≠ e :=
              fun heq => hk (congrArg Prod.fst heq)
            rw [if_neg hk, hearlier]
            simp [hne]

/-- The stored means are those of the series. -/
theorem rangeAt?_meanRanges (s : MeasurementSet RangeKey α) (node other : NodeId) :
    rangeAt? (meanRanges s) node other = s.meanAt? (node, other) := by
  refine Option.ext fun m => ?_
  have hunique : ∀ k v w, (k, v) ∈ s.series.entries → (k, w) ∈ s.series.entries → v = w := fun k v w hv hw =>
    Option.some.inj ((SortedMap.get?_eq_some_iff.2 hv).symm.trans (SortedMap.get?_eq_some_iff.2 hw))
  rw [meanRanges_eq, rangeAt?_foldl_addMean hunique, MeasurementSet.meanAt?]
  simp only [Option.bind_eq_some_iff, MeasurementSet.series?, SortedMap.get?_eq_some_iff, toOption_eq_some_iff]

theorem mem_rangeDifferences_iff {node : NodeId} {ranges : SortedMap NodeId α} {k : TdoaKey} {d : α} :
    (k, d) ∈ rangeDifferences node ranges ↔
      k.1 = node ∧ k.2.1 ≠ k.2.2 ∧ ∃ x y, ranges.get? k.2.1 = some x ∧ ranges.get? k.2.2 = some y ∧ x - y = d := by
  obtain ⟨l, a, b⟩ := k
  simp only [rangeDifferences, List.mem_flatMap, List.mem_map, List.mem_filter, SortedMap.get?_eq_some_iff,
    Prod.mk.injEq, Prod.exists, decide_eq_true_eq]
  constructor
  · rintro ⟨a', x, ha, b', y, ⟨hb, hne⟩, ⟨rfl, rfl, rfl⟩, rfl⟩
    exact ⟨rfl, hne, x, y, ha, hb, rfl⟩
  · rintro ⟨rfl, hne, x, y, ha, hb, rfl⟩
    exact ⟨a, x, ha, b, y, ⟨hb, hne⟩, ⟨rfl, rfl, rfl⟩, rfl⟩

/-- What is derived for a listener and two nodes. -/
theorem get?_tdoaFromMeanRanges (s : MeasurementSet RangeKey α) (node a b : NodeId) :
    (tdoaFromMeanRanges (meanRanges s)).get? (node, a, b) =
      if a = b then none
      else (s.meanAt? (node, a)).bind fun x => (s.meanAt? (node, b)).map fun y => x - y := by
  have hlisted (d : α) :
      ((node, a, b), d) ∈ (meanRanges s).entries.flatMap (fun e => rangeDifferences e.1 e.2) ↔
        a ≠ b ∧ ∃ x y, s.meanAt? (node, a) = some x ∧ s.meanAt? (node, b) = some y ∧ x - y = d := by
    simp only [List.mem_flatMap, mem_rangeDifferences_iff, Prod.exists, ← rangeAt?_meanRanges, rangeAt?,
      Option.bind_eq_some_iff, ← SortedMap.get?_eq_some_iff]
    constructor
    · rintro ⟨_, ranges, hranges, rfl, hne, x, y, hx, hy, hd⟩
      exact ⟨hne, x, y, ⟨ranges, hranges, hx⟩, ⟨ranges, hranges, hy⟩, hd⟩
    · rintro ⟨hne, x, y, ⟨ranges, hranges, hx⟩, ⟨ranges', hranges', hy⟩, hd⟩
      rw [hranges] at hranges'
      cases hranges'
      exact ⟨node, ranges, hranges, rfl, hne, x, y, hx, hy, hd⟩
  refine Option.ext fun d => ?_
  change (SortedMap.ofList ((meanRanges s).entries.flatMap fun e => rangeDifferences e.1 e.2)).get? (node, a, b) =
    some d ↔ _
  rw [SortedMap.get?_ofList_eq_some_iff, hlisted]
  · by_cases hab : a = b
    · simp [hab]
    · simp only [hab, if_false, ne_eq, not_false_eq_true, true_and, Option.bind_eq_some_iff, Option.map_eq_some_iff]
      constructor
      · rintro ⟨x, y, hx, hy, hd⟩
        exact ⟨x, hx, y, hy, hd⟩
      · rintro ⟨x, hx, y, hy, hd⟩
        exact ⟨x, y, hx, hy, hd⟩
  · intro v w hv hw
    obtain ⟨-, x, y, hx, hy, rfl⟩ := (hlisted v).1 hv
    obtain ⟨-, x', y', hx', hy', rfl⟩ := (hlisted w).1 hw
    rw [hx] at hx'
    rw [hy] at hy'
    cases hx'
    cases hy'
    rfl

end UwbRanging
