import UwbRanging.Proofs.SavedText.Numbers
import UwbRanging.Proofs.SavedText.Records
import UwbRanging.Proofs.SavedText.WholeFile

/-!
A saved run is read back as it was.
-/

namespace UwbRanging

namespace SavedText

open Telemetry (StartsNot)

theorem legibleField_required {depth : Nat} {name : String} {α : Type} [Saved α] (hname : PlainName name.toList)
    {depth' : Nat} (h : Legible α depth') (hle : depth' ≤ depth) : LegibleField depth (required name α) :=
  ⟨hname, h.mono hle⟩

theorem legibleField_optional {depth : Nat} {name : String} {α : Type} [Saved α] (hname : PlainName name.toList)
    {depth' : Nat} (h : Legible α depth') (hle : depth' + 1 ≤ depth) : LegibleField depth (optional name α) :=
  ⟨hname, (legible_option h).mono hle⟩

theorem legible_lengthUnit : Legible LengthUnit 1 := by
  refine legible_ofNames (fun u => ?_) (fun u => ?_)
  · cases u <;> decide
  · cases u <;> rfl

theorem legible_measurement : Legible (Measurement Float) 1 := by
  refine legible_record (List.forall_mem_cons.2 ⟨?_, List.forall_mem_cons.2 ⟨?_, List.forall_mem_nil _⟩⟩)
    (show ["parameter", "distance"].Nodup by decide) fun _ => rfl
  · exact legibleField_required (by decide) legible_word (Nat.le_refl 0)
  · exact legibleField_required (by decide) legible_float (Nat.le_refl 0)

theorem legible_rangeKey : Legible RangeKey 1 :=
  legible_tuple (legibleItems_cons legible_word (legibleItems_one legible_word))

theorem legible_tdoaKey : Legible TdoaKey 1 :=
  legible_tuple (legibleItems_cons legible_word (legibleItems_cons legible_word (legibleItems_one legible_word)))

theorem legible_measurementSet {κ : Type} [KeyOrder κ] [Saved κ] (h : Legible κ 1) :
    Legible (MeasurementSet κ Float) 4 := by
  have hseries := legible_list legible_measurement
  refine legible_record (List.forall_mem_cons.2 ⟨?_, List.forall_mem_cons.2 ⟨?_, List.forall_mem_nil _⟩⟩)
    (show ["unit", "series"].Nodup by decide) fun _ => rfl
  · exact legibleField_required (by decide) legible_lengthUnit (by decide)
  · exact legibleField_required (by decide) (legible_map (h.mono (by decide)) hseries) (by decide)

theorem legible_streamInfo : Legible StreamInfo 3 := by
  have hlink : Legible (UInt32 × UInt32) 1 := legible_rangeKey
  refine legible_record ?_ (show ["address", "link_address", "timeslot", "associated", "neighbors", "config"].Nodup by
    decide) fun _ => rfl
  simp only [List.forall_mem_cons]
  refine ⟨?_, ?_, ?_, ?_, ?_, ?_, List.forall_mem_nil _⟩
  · exact legibleField_optional (by decide) legible_word (by decide)
  · exact legibleField_optional (by decide) hlink (by decide)
  · exact legibleField_optional (by decide) legible_word (by decide)
  · exact legibleField_optional (by decide) legible_bool (by decide)
  · exact legibleField_required (by decide) (legible_list legible_word) (by decide)
  · exact legibleField_required (by decide) (legible_map legible_string legible_string) (by decide)

theorem legible_collectedRun : Legible (CollectedRun Float) 5 := by
  have hstreams := legible_map (legible_string.mono (Nat.zero_le 3)) legible_streamInfo
  refine legible_record ?_ (show ["twr", "tdoa", "exchanges", "streams"].Nodup by decide) fun _ => rfl
  simp only [List.forall_mem_cons]
  refine ⟨?_, ?_, ?_, ?_, List.forall_mem_nil _⟩
  · exact legibleField_required (by decide) (legible_measurementSet legible_rangeKey) (by decide)
  · exact legibleField_required (by decide) (legible_measurementSet legible_tdoaKey) (by decide)
  · exact legibleField_required (by decide) (legible_measurementSet legible_rangeKey) (by decide)
  · exact legibleField_required (by decide) hstreams (by decide)

end SavedText

/-- Saving a run and reading it again gives the run, whatever it holds. -/
theorem saved_run_reads_back (run : CollectedRun Float) : ofText (toText run) = .ok run := by
  rw [ofText, toText, String.toList_ofList, SavedText.parse_render SavedText.legible_collectedRun (by decide) run]

end UwbRanging
