import UwbRanging.Proofs.Collection.Accounting
import UwbRanging.Proofs.Collection.Interleaving

/-!
The end of an experiment. A stream is done once it has said so. All is done once every stream that has announced
something about its node is done; a stream of which only measurements or the end have been heard does not count.
-/

namespace UwbRanging

/-- A stream sent a line that was understood and of which `p` holds. -/
def Sent (p : TelemetryLine Float → Bool) (stream : String) (lines : List StreamLine) : Prop :=
  ∃ line ∈ lines, line.stream = stream ∧ line.decoded?.any p = true

instance (p : TelemetryLine Float → Bool) (stream : String) (lines : List StreamLine) :
    Decidable (Sent p stream lines) :=
  inferInstanceAs (Decidable (∃ line ∈ lines, line.stream = stream ∧ line.decoded?.any p = true))

/-- Some stream sent a line that counts, and every stream that did so has come to its end. -/
def AllDone (counts : TelemetryLine Float → Bool) (lines : List StreamLine) : Prop :=
  (∃ stream, Sent counts stream lines) ∧ ∀ stream, Sent counts stream lines → Sent (·.isFinish) stream lines

theorem hasAnnounced_iff {stream : String} {lines : List StreamLine} :
    hasAnnounced stream lines = true ↔ Sent (·.isAnnouncement) stream lines := by
  simp only [hasAnnounced, Sent, List.any_eq_true, Bool.and_eq_true, decide_eq_true_eq]

namespace Collector

theorem isFinished_iff (settings : CollectorSettings Float) (lines : List StreamLine) (stream : String) :
    ((new settings).consumeAll lines).isFinished stream = true ↔ Sent (·.isFinish) stream lines := by
  rw [isFinished, contains_finished, any_linesOf]
  simp only [Sent, List.any_eq_true, Bool.and_eq_true, decide_eq_true_eq]

theorem allFinished_iff {α : Type} (c : Collector α) :
    c.allFinished = true ↔ (∃ stream, c.run.streams.contains stream = true) ∧
      ∀ stream, c.run.streams.contains stream = true → c.isFinished stream = true := by
  have hkeys : ∀ stream, stream ∈ c.run.streams.keys ↔ c.run.streams.contains stream = true := fun stream => by
    rw [SortedMap.mem_keys_iff, SortedMap.contains, Option.isSome_iff_exists]
  have hempty : c.run.streams.isEmpty = c.run.streams.keys.isEmpty := List.isEmpty_map.symm
  rw [allFinished, hempty, Bool.and_eq_true, Bool.not_eq_true', List.isEmpty_eq_false_iff_exists_mem, List.all_eq_true]
  simp only [hkeys]

/-- In every state that calls lead to, all is done if and only if some stream has announced something about its node and
every stream that has done so has come to its end. A stream is done if and only if it has sent its end. -/
theorem allFinished_iff_announced_finish (settings : CollectorSettings Float) (calls : List CollectorCall) :
    let c := calls.foldl CollectorCall.answer (new settings)
    let lines := calls.flatMap CollectorCall.lines
    (c.allFinished = true ↔ AllDone (·.isAnnouncement) lines) ∧
      ∀ stream, c.isFinished stream = true ↔ Sent (·.isFinish) stream lines := by
  intro c lines
  have hc : c = (new settings).consumeAll lines := CollectorCall.foldl_answer (new settings) calls
  rw [hc]
  refine ⟨?_, isFinished_iff settings lines⟩
  rw [allFinished_iff, AllDone]
  simp only [contains_streams, hasAnnounced_iff, isFinished_iff]

/-- The only stream says that it is done, and nothing else. -/
def bareFinish : List CollectorCall :=
  [.consume ⟨"s", "CSFDFF"⟩]

/-- Then another announces its address and is done as well, and of a third a range is heard before any address. -/
def unaddressedRange : List CollectorCall :=
  bareFinish ++ [.consume ⟨"a", "TA, 0, 1"⟩, .consume ⟨"a", "CSFDFF"⟩, .consume ⟨"b", "TW, 1, 0, 5"⟩]

/-- If every line that is understood counted, an end without announcements would be the end of all, and a range without
an address would put it off. Neither is so. -/
theorem allFinished_ignores_unannounced :
    ¬ ((bareFinish.foldl CollectorCall.answer (new .default)).allFinished = true ↔
        AllDone (fun _ => true) (bareFinish.flatMap CollectorCall.lines)) ∧
    ¬ ((unaddressedRange.foldl CollectorCall.answer (new .default)).allFinished = true ↔
        AllDone (fun _ => true) (unaddressedRange.flatMap CollectorCall.lines)) := by
  constructor
  · have hfinished : (bareFinish.foldl CollectorCall.answer (new .default)).allFinished = false := by decide +kernel
    have hend : Sent (·.isFinish) "s" (bareFinish.flatMap CollectorCall.lines) := by decide +kernel
    have hdone : AllDone (fun _ => true) (bareFinish.flatMap CollectorCall.lines) := by
      refine ⟨⟨"s", by decide +kernel⟩, ?_⟩
      rintro stream ⟨line, hline, rfl, -⟩
      obtain rfl := List.mem_singleton.1 hline
      exact hend
    rw [hfinished]
    exact fun h => Bool.false_ne_true (h.2 hdone)
  · have hfinished : (unaddressedRange.foldl CollectorCall.answer (new .default)).allFinished = true := by
      decide +kernel
    have hrange : Sent (fun _ => true) "b" (unaddressedRange.flatMap CollectorCall.lines) := by decide +kernel
    have hend : ¬ Sent (·.isFinish) "b" (unaddressedRange.flatMap CollectorCall.lines) := by decide +kernel
    exact fun h => hend ((h.1 hfinished).2 "b" hrange)

end Collector

end UwbRanging
