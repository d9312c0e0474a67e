import Mathlib.Data.List.Induction
import UwbRanging.Proofs.Collection.Filing

/-!
A collection is a replay of its history. What a collector holds after any lines is read off the lines alone: each
series is the list of the measurements that were filed under its key, under the address that was in force when they
came, and each stream is known by what it announced last.
-/

namespace UwbRanging

variable {β κ : Type}

/-- What `f` makes of each line, given the lines before it. -/
def replayFrom (f : List StreamLine → StreamLine → Option β) (earlier : List StreamLine) :
    List StreamLine → List β
  | [] => []
  | line :: later => (f earlier line).toList ++ replayFrom f (earlier ++ [line]) later

/-- What `f` makes of each line of a history, in the order of arrival. -/
def replay (f : List StreamLine → StreamLine → Option β) (lines : List StreamLine) : List β :=
  replayFrom f [] lines

/-- What a stream announced of one item, in the order of arrival. -/
def announced (item : TelemetryLine Float → Option β) (stream : String) (lines : List StreamLine) : List β :=
  lines.filterMap fun line => if line.stream = stream then line.decoded?.bind item else none

/-- What a stream announced last of one item. -/
def lastAnnounced (item : TelemetryLine Float → Option β) (stream : String) (lines : List StreamLine) :
    Option β :=
  (announced item stream lines).getLast?

/-- The short address that a stream announced last. -/
def addressInForce (stream : String) (lines : List StreamLine) : Option NodeId :=
  lastAnnounced TelemetryLine.shortAddress? stream lines

section Entries

variable (settings : CollectorSettings Float)

/-- The ranges of a history, each with its key. The key is made from the address in force when the range came. -/
def rangeEntries (lines : List StreamLine) : List (RangeKey × Measurement Float) :=
  replay (fun earlier line =>
    line.decoded?.bind (·.filedRange? settings (addressInForce line.stream earlier))) lines

/-- The distance differences of a history, each with its key. -/
def tdoaEntries (lines : List StreamLine) : List (TdoaKey × Measurement Float) :=
  replay (fun earlier line =>
    line.decoded?.bind (·.filedTdoa? settings (addressInForce line.stream earlier))) lines

/-- The estimates from the readings of a history, each with its key. -/
def exchangeEntries (lines : List StreamLine) : List (RangeKey × Measurement Float) :=
  replay (fun earlier line =>
    line.decoded?.bind (·.filedExchange? settings (addressInForce line.stream earlier))) lines

end Entries

/-- The measurements at one key, in order. -/
def seriesAt {α : Type} [DecidableEq κ] (k : κ) (entries : List (κ × Measurement α)) : List (Measurement α) :=
  entries.filterMap fun e => if e.1 = k then some e.2 else none

/-- A list as a map holds it, where an empty list has no entry. -/
def listed (xs : List β) : Option (List β) :=
  if xs = [] then none else some xs

/-- What is known of a node is what its stream announced last, item by item. -/
structure LastAnnounced (lines : List StreamLine) (stream : String) (info : StreamInfo) : Prop where
  address : info.address = addressInForce stream lines
  linkAddress : info.linkAddress = lastAnnounced TelemetryLine.linkAddress? stream lines
  timeslot : info.timeslot = lastAnnounced TelemetryLine.timeslot? stream lines
  associated : info.associated = lastAnnounced TelemetryLine.associated? stream lines
  neighbors : info.neighbors = (lastAnnounced TelemetryLine.neighborList? stream lines).getD []
  config : ∀ setting, info.config.get? setting = lastAnnounced (TelemetryLine.configValue? setting) stream lines

/-- Whether a stream sent a line that says something about its node. -/
def hasAnnounced (stream : String) (lines : List StreamLine) : Bool :=
  lines.any fun line => line.stream = stream && line.decoded?.any (·.isAnnouncement)

theorem replayFrom_append (f : List StreamLine → StreamLine → Option β) (earlier xs ys : List StreamLine) :
    replayFrom f earlier (xs ++ ys) = replayFrom f earlier xs ++ replayFrom f (earlier ++ xs) ys := by
  induction xs generalizing earlier with
  | nil => simp [replayFrom]
  | cons x xs ih =>
      simp only [List.cons_append, replayFrom, ih, List.append_assoc, List.nil_append]

/-- The last line of a history is the one made sense of last, and with all the others before it. -/
theorem replay_append_singleton (f : List StreamLine → StreamLine → Option β) (lines : List StreamLine)
    (line : StreamLine) : replay f (lines ++ [line]) = replay f lines ++ (f lines line).toList := by
  simp only [replay, replayFrom_append, replayFrom, List.nil_append, List.append_nil]

theorem lastAnnounced_append_singleton (item : TelemetryLine Float → Option β) (stream : String)
    (lines : List StreamLine) (line : StreamLine) :
    lastAnnounced item stream (lines ++ [line]) =
      (if line.stream = stream then line.decoded?.bind item else none).or (lastAnnounced item stream lines) := by
  unfold lastAnnounced announced
  rw [List.filterMap_append, List.getLast?_append]
  congr 1
  cases h : if line.stream = stream then line.decoded?.bind item else none <;> simp [h]

/-- A line of another stream, or one that is not understood, changes nothing of what was announced last. -/
theorem LastAnnounced.of_silent {lines : List StreamLine} {line : StreamLine} {s : String} {info : StreamInfo}
    (h : LastAnnounced lines s info) (hline : line.stream ≠ s ∨ line.decoded? = none) :
    LastAnnounced (lines ++ [line]) s info := by
  have hlast : ∀ {β : Type} (item : TelemetryLine Float → Option β),
      lastAnnounced item s (lines ++ [line]) = lastAnnounced item s lines := by
    intro β item
    rw [lastAnnounced_append_singleton]
    rcases hline with hs | hdecoded
    · rw [if_neg hs, Option.none_or]
    · rw [hdecoded, Option.bind_none, ite_self, Option.none_or]
  constructor <;> simp only [addressInForce, hlast]
  exacts [h.address, h.linkAddress, h.timeslot, h.associated, h.neighbors, h.config]

/-- Heeding a line keeps what is known of its stream up to date. -/
theorem LastAnnounced.heed {lines : List StreamLine} {line : StreamLine} {s : String} {info : StreamInfo}
    {decoded : TelemetryLine Float} (h : LastAnnounced lines s info) (hs : line.stream = s)
    (hline : line.decoded? = some decoded) : LastAnnounced (lines ++ [line]) s (info.heed decoded) := by
  have hlast : ∀ {β : Type} (item : TelemetryLine Float → Option β),
      lastAnnounced item s (lines ++ [line]) = (item decoded).or (lastAnnounced item s lines) := by
    intro β item
    rw [lastAnnounced_append_singleton, if_pos hs, hline, Option.bind_some]
  constructor <;> simp only [addressInForce, hlast]
  · rw [StreamInfo.heed_address, h.address, addressInForce]
  · rw [StreamInfo.heed_linkAddress, h.linkAddress]
  · rw [StreamInfo.heed_timeslot, h.timeslot]
  · rw [StreamInfo.heed_associated, h.associated]
  · rw [StreamInfo.heed_neighbors, h.neighbors]
    cases decoded.neighborList? <;> rfl
  · intro setting
    rw [StreamInfo.heed_config, h.config]

theorem hasAnnounced_append_singleton (stream : String) (lines : List StreamLine) (line : StreamLine) :
    hasAnnounced stream (lines ++ [line]) =
      (hasAnnounced stream lines ||
        (line.stream = stream && line.decoded?.any (·.isAnnouncement))) := by
  simp [hasAnnounced]

section Series

variable {α : Type} [DecidableEq κ] [KeyOrder κ]

theorem series?_push (s : MeasurementSet κ α) (j k : κ) (m : Measurement α) :
    (s.push k m).series? j = if j = k then some ((s.series? k).getD [] ++ [m]) else s.series? j :=
  s.series.get?_upsert j k _

theorem listed_append_singleton (xs : List β) (x : β) :
    listed (xs ++ [x]) = some ((listed xs).getD [] ++ [x]) := by
  unfold listed
  by_cases h : xs = []
  · simp [h]
  · simp [h]

/-- Filling a set that was empty: the series at a key is the list of the measurements filed under that key. -/
theorem series?_pushAll_empty (unit : LengthUnit) (entries : List (κ × Measurement α)) (k : κ) :
    ((MeasurementSet.empty unit).pushAll entries).series? k = listed (seriesAt k entries) := by
  induction entries using List.reverseRecOn with
  | nil => rfl
  | append_singleton entries e ih =>
      obtain ⟨j, m⟩ := e
      rw [MeasurementSet.pushAll_append, MeasurementSet.pushAll_singleton, series?_push, seriesAt,
        List.filterMap_append, ← seriesAt]
      by_cases h : k = j
      · subst h
        rw [if_pos rfl, ih, ← listed_append_singleton]
        simp
      · rw [if_neg h, ih]
        simp [Ne.symm h]

end Series

namespace Collector

/-- What is known of a stream, which is nothing as long as it has announced nothing. -/
def known (streams : SortedMap String StreamInfo) (stream : String) : StreamInfo :=
  (streams.get? stream).getD .empty

theorem address?_eq_known {α : Type} (c : Collector α) (stream : String) :
    c.address? stream = (known c.run.streams stream).address := by
  unfold address? known
  cases c.run.streams.get? stream <;> rfl

theorem contains_streamsAfter {α : Type} (streams : SortedMap String StreamInfo) (stream s : String)
    (line : TelemetryLine α) :
    (streamsAfter streams stream line).contains s =
      (streams.contains s || (stream = s && line.isAnnouncement)) := by
  unfold streamsAfter SortedMap.contains
  by_cases hline : line.isAnnouncement = true
  · rw [if_pos hline, SortedMap.get?_upsert]
    by_cases hs : s = stream
    · simp [hs, hline]
    · simp [hs, Ne.symm hs]
  · simp [hline]

theorem known_streamsAfter {α : Type} (streams : SortedMap String StreamInfo) (stream s : String)
    (line : TelemetryLine α) :
    known (streamsAfter streams stream line) s =
      if stream = s then (known streams s).heed line else known streams s := by
  unfold streamsAfter known
  by_cases hline : line.isAnnouncement = true
  · rw [if_pos hline, SortedMap.get?_upsert]
    by_cases hs : s = stream
    · simp [hs]
    · simp [hs, Ne.symm hs]
  · -- a line that announces nothing leaves everything known of its stream as it is
    have hheed : ∀ info : StreamInfo, info.heed line = info := by
      intro info
      cases line <;> first | rfl | exact absurd rfl hline
    simp [hline, hheed]

theorem lastAnnounced_known (settings : CollectorSettings Float) (lines : List StreamLine) (s : String) :
    LastAnnounced lines s (known ((new settings).consumeAll lines).run.streams s) := by
  induction lines using List.reverseRecOn with
  | nil => exact ⟨rfl, rfl, rfl, rfl, rfl, fun _ => rfl⟩
  | append_singleton lines line ih =>
      rw [consumeAll_append_singleton]
      simp only [after]
      cases hline : line.decoded? with
      | none => exact ih.of_silent (Or.inr hline)
      | some decoded =>
          simp only [Option.elim_some, known_streamsAfter]
          by_cases hs : line.stream = s
          · rw [if_pos hs]
            exact ih.heed hs hline
          · rw [if_neg hs]
            exact ih.of_silent (Or.inl hs)

theorem contains_streams (settings : CollectorSettings Float) (lines : List StreamLine) (s : String) :
    ((new settings).consumeAll lines).run.streams.contains s = hasAnnounced s lines := by
  induction lines using List.reverseRecOn with
  | nil => rfl
  | append_singleton lines line ih =>
      rw [consumeAll_append_singleton, hasAnnounced_append_singleton, ← ih]
      simp only [after]
      cases line.decoded? with
      | none => simp
      | some decoded => simp [contains_streamsAfter]

theorem settings_consumeAll (c : Collector Float) (lines : List StreamLine) :
    (c.consumeAll lines).settings = c.settings := by
  induction lines using List.reverseRecOn with
  | nil => rfl
  | append_singleton lines line ih => rw [consumeAll_append_singleton, ← ih]; rfl

theorem address?_consumeAll (settings : CollectorSettings Float) (lines : List StreamLine) (stream : String) :
    ((new settings).consumeAll lines).address? stream = addressInForce stream lines := by
  rw [address?_eq_known]
  exact (lastAnnounced_known settings lines stream).address

/-- The three sets after a history are its measurements, filed one after another. -/
theorem sets_consumeAll (settings : CollectorSettings Float) (lines : List StreamLine) :
    let run := ((new settings).consumeAll lines).run
    run.twr = (MeasurementSet.empty settings.rangeUnit).pushAll (rangeEntries settings lines) ∧
    run.tdoa = (MeasurementSet.empty settings.rangeUnit).pushAll (tdoaEntries settings lines) ∧
    run.exchanges = (MeasurementSet.empty .ticks).pushAll (exchangeEntries settings lines) := by
  induction lines using List.reverseRecOn with
  | nil => exact ⟨rfl, rfl, rfl⟩
  | append_singleton lines line ih =>
      obtain ⟨htwr, htdoa, hexchanges⟩ := ih
      have hsettings : ((new settings).consumeAll lines).settings = settings := settings_consumeAll _ lines
      have haddress := address?_consumeAll settings lines line.stream
      rw [consumeAll_append_singleton]
      simp only [after, hsettings, haddress, htwr, htdoa, hexchanges, rangeEntries, tdoaEntries, exchangeEntries,
        replay_append_singleton, MeasurementSet.pushAll_append, and_self]

/-- The collector is an exact replay of its history. At every key of each of the three sets stands the list of the
measurements that arrived for it, in their order, and a key without measurements is absent. The streams are those
that announced something, each with what it announced last. -/
theorem consumeAll_replays_history (settings : CollectorSettings Float) (lines : List StreamLine) :
    let run := ((new settings).consumeAll lines).run
    (∀ k, run.twr.series? k = listed (seriesAt k (rangeEntries settings lines))) ∧
    (∀ k, run.tdoa.series? k = listed (seriesAt k (tdoaEntries settings lines))) ∧
    (∀ k, run.exchanges.series? k = listed (seriesAt k (exchangeEntries settings lines))) ∧
    (∀ stream, run.streams.contains stream = hasAnnounced stream lines) ∧
    (∀ stream info, run.streams.get? stream = some info → LastAnnounced lines stream info) := by
  obtain ⟨htwr, htdoa, hexchanges⟩ := sets_consumeAll settings lines
  refine ⟨fun k => ?_, fun k => ?_, fun k => ?_, contains_streams settings lines, fun stream info hinfo => ?_⟩
  · rw [htwr, series?_pushAll_empty]
  · rw [htdoa, series?_pushAll_empty]
  · rw [hexchanges, series?_pushAll_empty]
  · have hknown := lastAnnounced_known settings lines stream
    rwa [known, hinfo] at hknown

end Collector

end UwbRanging
