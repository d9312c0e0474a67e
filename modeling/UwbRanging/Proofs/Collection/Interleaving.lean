import UwbRanging.Proofs.Collection.Accounting
import UwbRanging.Proofs.Collection.History

/-!
What a collector makes of several streams does not depend on how their lines are mixed. Everything it holds is read
off the history stream by stream: what is known of a node comes from its own stream alone, and so does a series, as
long as no other stream announces the address under which it is filed.
-/

namespace UwbRanging

variable {β κ : Type}

/-- The lines of one stream, in the order of arrival. -/
def linesOf (stream : String) (lines : List StreamLine) : List StreamLine :=
  lines.filter (·.stream = stream)

theorem linesOf_append (port : String) (xs ys : List StreamLine) :
    linesOf port (xs ++ ys) = linesOf port xs ++ linesOf port ys :=
  List.filter_append xs ys

theorem linesOf_eq_self {port : String} {lines : List StreamLine} (h : ∀ line ∈ lines, line.stream = port) :
    linesOf port lines = lines :=
  List.filter_eq_self.2 fun line hline => by simpa using h line hline

theorem linesOf_eq_nil {port p : String} {lines : List StreamLine} (h : ∀ line ∈ lines, line.stream = port)
    (hne : p ≠ port) : linesOf p lines = [] :=
  List.filter_eq_nil_iff.2 fun line hline => by simpa [h line hline] using hne.symm

/-- Two histories with the same lines on every stream, mixed in two ways. -/
def SameStreams (xs ys : List StreamLine) : Prop :=
  ∀ stream, linesOf stream xs = linesOf stream ys

/-- No address is announced by two streams. -/
def OwnAddresses (lines : List StreamLine) : Prop :=
  ∀ s t node, node ∈ announced TelemetryLine.shortAddress? s lines →
    node ∈ announced TelemetryLine.shortAddress? t lines → s = t

theorem announced_linesOf (item : TelemetryLine Float → Option β) (stream : String) (lines : List StreamLine) :
    announced item stream (linesOf stream lines) = announced item stream lines := by
  unfold announced linesOf
  rw [List.filterMap_filter]
  refine List.filterMap_congr fun line _ => ?_
  by_cases h : line.stream = stream <;> simp [h]

theorem SameStreams.announced_eq {xs ys : List StreamLine} (h : SameStreams xs ys)
    (item : TelemetryLine Float → Option β) (stream : String) :
    announced item stream xs = announced item stream ys := by
  rw [← announced_linesOf item stream xs, h stream, announced_linesOf]

theorem SameStreams.perm {xs ys : List StreamLine} (h : SameStreams xs ys) : xs.Perm ys := by
  rw [List.perm_iff_count]
  intro line
  have hcount : ∀ zs : List StreamLine, zs.count line = (linesOf line.stream zs).count line := by
    intro zs
    exact (List.count_filter (by simp)).symm
  rw [hcount xs, hcount ys, h line.stream]

/-- What `f` makes of the lines of a history, each under the address in force on its stream. -/
def replayUnderAddress (f : StreamLine → Option NodeId → Option β) (lines : List StreamLine) : List β :=
  replay (fun earlier line => f line (addressInForce line.stream earlier)) lines

theorem replayUnderAddress_append_singleton (f : StreamLine → Option NodeId → Option β) (lines : List StreamLine)
    (line : StreamLine) : replayUnderAddress f (lines ++ [line]) =
      replayUnderAddress f lines ++ (f line (addressInForce line.stream lines)).toList :=
  replay_append_singleton _ lines line

theorem addressInForce_linesOf (stream : String) (lines : List StreamLine) :
    addressInForce stream (linesOf stream lines) = addressInForce stream lines := by
  rw [addressInForce, lastAnnounced, announced_linesOf]
  rfl

/-- What is filed under one address comes from the one stream that announces the address. -/
theorem replayUnderAddress_of_owner {f : StreamLine → Option NodeId → Option β} {node : NodeId} {owner : String}
    {lines : List StreamLine} (hf : ∀ line node?, f line node? ≠ none → node? = some node)
    (howner : ∀ s, node ∈ announced TelemetryLine.shortAddress? s lines → s = owner) :
    replayUnderAddress f lines = replayUnderAddress f (linesOf owner lines) := by
  induction lines using List.reverseRecOn with
  | nil => rfl
  | append_singleton lines line ih =>
      have hearlier : ∀ s, node ∈ announced TelemetryLine.shortAddress? s lines → s = owner := by
        intro s hs
        apply howner s
        rw [announced, List.filterMap_append]
        exact List.mem_append_left _ hs
      rw [replayUnderAddress_append_singleton, ih hearlier]
      by_cases hline : line.stream = owner
      · have hlines : linesOf owner (lines ++ [line]) = linesOf owner lines ++ [line] := by
          simp [linesOf, hline]
        rw [hlines, replayUnderAddress_append_singleton, hline, addressInForce_linesOf]
      · have hlines : linesOf owner (lines ++ [line]) = linesOf owner lines := by
          simp [linesOf, hline]
        -- a line of another stream is under another address, and `f` makes nothing of it
        have hnone : f line (addressInForce line.stream lines) = none := by
          by_contra hsome
          exact hline (hearlier _ (List.mem_of_getLast? (hf _ _ hsome)))
        rw [hlines, hnone, Option.toList_none, List.append_nil]

/-- Two mixes of the same streams have the same lines filed under each address. -/
theorem SameStreams.replayUnderAddress_eq {xs ys : List StreamLine} (hsame : SameStreams xs ys)
    (hown : OwnAddresses xs) {f : StreamLine → Option NodeId → Option β} {node : NodeId}
    (hf : ∀ line node?, f line node? ≠ none → node? = some node) :
    replayUnderAddress f xs = replayUnderAddress f ys := by
  obtain ⟨owner, howner⟩ : ∃ owner, ∀ s, node ∈ announced TelemetryLine.shortAddress? s xs → s = owner := by
    by_cases h : ∃ s, node ∈ announced TelemetryLine.shortAddress? s xs
    · obtain ⟨owner, hmem⟩ := h
      exact ⟨owner, fun s hs => hown s owner node hs hmem⟩
    · exact ⟨"", fun s hs => absurd ⟨s, hs⟩ h⟩
  have howner' : ∀ s, node ∈ announced TelemetryLine.shortAddress? s ys → s = owner := by
    intro s hs
    rw [← hsame.announced_eq] at hs
    exact howner s hs
  rw [replayUnderAddress_of_owner hf howner, replayUnderAddress_of_owner hf howner', hsame owner]

section Series

variable [DecidableEq κ] {α : Type}

theorem seriesAt_replay (f : List StreamLine → StreamLine → Option (κ × Measurement α)) (k : κ)
    (lines : List StreamLine) :
    seriesAt k (replay f lines) =
      replay (fun earlier line => (f earlier line).bind fun e => if e.1 = k then some e.2 else none) lines := by
  induction lines using List.reverseRecOn with
  | nil => rfl
  | append_singleton lines line ih =>
      rw [replay_append_singleton, replay_append_singleton, seriesAt, List.filterMap_append, ← seriesAt, ih]
      cases f lines line with
      | none => rfl
      | some e => by_cases h : e.1 = k <;> simp [h]

/-- The series under each key are the same in two mixes of the same streams, if the key tells the address under
which they are filed. -/
theorem SameStreams.seriesAt_eq {xs ys : List StreamLine} (hsame : SameStreams xs ys) (hown : OwnAddresses xs)
    (filed? : StreamLine → Option NodeId → Option (κ × Measurement α)) (node : κ → NodeId)
    (hentry : ∀ line node? e, filed? line node? = some e → node? = some (node e.1)) (k : κ) :
    seriesAt k (replayUnderAddress filed? xs) = seriesAt k (replayUnderAddress filed? ys) := by
  have hkey : ∀ line node?, ((filed? line node?).bind fun e => if e.1 = k then some e.2 else none) ≠ none →
      node? = some (node k) := by
    intro line node? hsome
    cases he : filed? line node? with
    | none => exact absurd (by rw [he]; rfl) hsome
    | some e =>
        rw [he, Option.bind_some] at hsome
        have hk : e.1 = k := by
          by_contra hne
          exact hsome (if_neg hne)
        rw [hentry line node? e he, hk]
  simp only [replayUnderAddress, seriesAt_replay]
  exact hsame.replayUnderAddress_eq hown hkey

variable [KeyOrder κ]

/-- Filling an empty set in two ways that agree at every key. -/
theorem pushAll_empty_congr (unit : LengthUnit) {es fs : List (κ × Measurement α)}
    (h : ∀ k, seriesAt k es = seriesAt k fs) :
    (MeasurementSet.empty unit).pushAll es = (MeasurementSet.empty unit).pushAll fs := by
  refine MeasurementSet.ext ?_ (SortedMap.ext_get? fun k => ?_)
  · rw [MeasurementSet.pushAll_unit, MeasurementSet.pushAll_unit]
  · have hes := series?_pushAll_empty unit es k
    rwa [h k, ← series?_pushAll_empty] at hes

end Series

theorem LastAnnounced.unique {lines : List StreamLine} {s : String} {i j : StreamInfo}
    (hi : LastAnnounced lines s i) (hj : LastAnnounced lines s j) : i = j := by
  refine StreamInfo.ext (hi.address.trans hj.address.symm) (hi.linkAddress.trans hj.linkAddress.symm)
    (hi.timeslot.trans hj.timeslot.symm) (hi.associated.trans hj.associated.symm)
    (hi.neighbors.trans hj.neighbors.symm) (SortedMap.ext_get? fun name => ?_)
  rw [hi.config, hj.config]

theorem LastAnnounced.of_sameStreams {xs ys : List StreamLine} {s : String} {info : StreamInfo}
    (h : LastAnnounced xs s info) (hsame : SameStreams xs ys) : LastAnnounced ys s info := by
  have hlast : ∀ {β : Type} (item : TelemetryLine Float → Option β),
      lastAnnounced item s ys = lastAnnounced item s xs := by
    intro β item
    rw [lastAnnounced, lastAnnounced, hsame.announced_eq]
  constructor <;> simp only [addressInForce, hlast]
  exacts [h.address, h.linkAddress, h.timeslot, h.associated, h.neighbors, h.config]

/-- Whether a stream sent a line of its own that satisfies `p`. -/
theorem any_linesOf (p : StreamLine → Bool) (stream : String) (lines : List StreamLine) :
    (linesOf stream lines).any p = lines.any fun line => line.stream = stream && p line := by
  simp [linesOf, List.any_filter]

namespace Collector

/-- The streams that are finished are those that sent a line saying so. -/
theorem contains_finished (settings : CollectorSettings Float) (lines : List StreamLine) (s : String) :
    ((new settings).consumeAll lines).finished.contains s =
      (linesOf s lines).any fun line => line.decoded?.any (·.isFinish) := by
  rw [any_linesOf]
  induction lines using List.reverseRecOn with
  | nil => rfl
  | append_singleton lines line ih =>
      rw [consumeAll_append_singleton, List.any_append, ← ih]
      simp only [after, List.any_cons, List.any_nil, Bool.or_false]
      by_cases hfinish : line.decoded?.any (·.isFinish) = true
      · rw [if_pos hfinish, SortedMap.contains, SortedMap.get?_insert]
        by_cases hs : s = line.stream
        · simp [hs, hfinish]
        · simp [SortedMap.contains, hs, Ne.symm hs]
      · simp [hfinish]

section SameStreams

variable (settings : CollectorSettings Float) {xs ys : List StreamLine} (hsame : SameStreams xs ys)

section OwnAddresses

variable (hown : OwnAddresses xs)

include hsame hown

theorem twr_eq_of_sameStreams :
    ((new settings).consumeAll xs).run.twr = ((new settings).consumeAll ys).run.twr := by
  rw [(sets_consumeAll settings xs).1, (sets_consumeAll settings ys).1]
  refine pushAll_empty_congr _ (hsame.seriesAt_eq hown
    (fun line node? => line.decoded?.bind (·.filedRange? settings node?)) Prod.fst ?_)
  intro line node? e he
  obtain ⟨decoded, -, he⟩ := Option.bind_eq_some_iff.1 he
  exact TelemetryLine.node_of_filedRange? he

theorem tdoa_eq_of_sameStreams :
    ((new settings).consumeAll xs).run.tdoa = ((new settings).consumeAll ys).run.tdoa := by
  rw [(sets_consumeAll settings xs).2.1, (sets_consumeAll settings ys).2.1]
  refine pushAll_empty_congr _ (hsame.seriesAt_eq hown
    (fun line node? => line.decoded?.bind (·.filedTdoa? settings node?)) Prod.fst ?_)
  intro line node? e he
  obtain ⟨decoded, -, he⟩ := Option.bind_eq_some_iff.1 he
  exact TelemetryLine.node_of_filedTdoa? he

theorem exchanges_eq_of_sameStreams :
    ((new settings).consumeAll xs).run.exchanges = ((new settings).consumeAll ys).run.exchanges := by
  rw [(sets_consumeAll settings xs).2.2, (sets_consumeAll settings ys).2.2]
  refine pushAll_empty_congr _ (hsame.seriesAt_eq hown
    (fun line node? => line.decoded?.bind (·.filedExchange? settings node?)) Prod.fst ?_)
  intro line node? e he
  obtain ⟨decoded, -, he⟩ := Option.bind_eq_some_iff.1 he
  exact TelemetryLine.node_of_filedExchange? he

end OwnAddresses

include hsame

theorem streams_eq_of_sameStreams :
    ((new settings).consumeAll xs).run.streams = ((new settings).consumeAll ys).run.streams := by
  refine SortedMap.ext_get? fun s => ?_
  have hcontains : ((new settings).consumeAll xs).run.streams.contains s =
      ((new settings).consumeAll ys).run.streams.contains s := by
    rw [contains_streams, contains_streams, hasAnnounced, hasAnnounced, ← any_linesOf, ← any_linesOf, hsame s]
  have hknown := ((lastAnnounced_known settings xs s).of_sameStreams hsame).unique
    (lastAnnounced_known settings ys s)
  exact SortedMap.get?_eq_of_contains_eq hcontains hknown

theorem finished_eq_of_sameStreams :
    ((new settings).consumeAll xs).finished = ((new settings).consumeAll ys).finished := by
  refine SortedMap.ext_get? fun s => ?_
  have hcontains : ((new settings).consumeAll xs).finished.contains s =
      ((new settings).consumeAll ys).finished.contains s := by
    rw [contains_finished, contains_finished, hsame s]
  exact SortedMap.get?_eq_of_contains_eq (d := ()) hcontains rfl

end SameStreams

/-- Two mixes of the same streams lead to the same collector. -/
theorem consumeAll_eq_of_sameStreams (settings : CollectorSettings Float) {xs ys : List StreamLine}
    (hsame : SameStreams xs ys) (hown : OwnAddresses xs) :
    (new settings).consumeAll xs = (new settings).consumeAll ys := by
  have htwr := twr_eq_of_sameStreams settings hsame hown
  have htdoa := tdoa_eq_of_sameStreams settings hsame hown
  have hexchanges := exchanges_eq_of_sameStreams settings hsame hown
  have hrun : ((new settings).consumeAll xs).run = ((new settings).consumeAll ys).run :=
    CollectedRun.ext htwr htdoa hexchanges (streams_eq_of_sameStreams settings hsame)
  -- the counts follow from the balance, since they count the same lines and the same measurements
  have hbalanceX := balanced_consumeAll settings xs
  have hbalanceY := balanced_consumeAll settings ys
  have hrecorded : ((new settings).consumeAll xs).recorded = ((new settings).consumeAll ys).recorded := by
    rw [← hbalanceX.every_record, ← hbalanceY.every_record, measurementCount, measurementCount, hrun,
      statusCount, statusCount, hsame.perm.countP_eq]
  have hskipped : ((new settings).consumeAll xs).skipped = ((new settings).consumeAll ys).skipped := by
    have hX := hbalanceX.every_line
    have hY := hbalanceY.every_line
    have hlength := hsame.perm.length_eq
    omega
  refine Collector.ext ?_ hrun (finished_eq_of_sameStreams settings hsame) hrecorded hskipped
  rw [settings_consumeAll, settings_consumeAll]

end Collector

end UwbRanging
