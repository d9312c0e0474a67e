import UwbRanging.Proofs.Config
import UwbRanging.Proofs.SavedText.SavedRun

/-!
Files of settings. A file need only name the settings that it changes: whichever of them it gives, and in whichever
order, they have the values that it gives and the others their defaults. What is read in this way is valid, or the first
setting that is not is named.
-/

namespace UwbRanging

open SavedText
open Telemetry (StartsNot)

/-- The fields of a file of settings. -/
inductive Setting where
  | threshold
  | confidence
  | minCount
  | rangeUnit
  | rangeScale
  | estimator
  | groundTruth
  | positions
  | window
  | parameterStep
  deriving DecidableEq

namespace Setting

def name : Setting → String
  | threshold => "threshold"
  | confidence => "confidence"
  | minCount => "min_count"
  | rangeUnit => "range_unit"
  | rangeScale => "range_scale"
  | estimator => "estimator"
  | groundTruth => "ground_truth"
  | positions => "positions"
  | window => "window"
  | parameterStep => "parameter_step"

theorem name_injective : Function.Injective name := by
  intro s t h
  cases s <;> cases t <;> first | rfl | exact absurd h (by decide)

theorem plainName_name (s : Setting) : PlainName s.name.toList := by
  cases s <;> decide

/-- How deep the value of a setting may be nested. -/
def valueDepth : Nat :=
  depthLimit - 1

/-- A spelling of the value that `c` has of a setting. -/
def Denoted (c : EvaluationConfig Float) (implicitSome : Bool) : Setting → List Char → Prop
  | threshold, text => Denotes implicitSome valueDepth text c.threshold
  | confidence, text => Denotes implicitSome valueDepth text c.confidence
  | minCount, text => Denotes implicitSome valueDepth text c.minCount
  | rangeUnit, text => Denotes implicitSome valueDepth text c.rangeUnit
  | rangeScale, text => Denotes implicitSome valueDepth text c.rangeScale
  | estimator, text => Denotes implicitSome valueDepth text c.estimator
  | groundTruth, text => Denotes implicitSome valueDepth text c.groundTruth
  | positions, text => Denotes implicitSome valueDepth text c.positions
  | window, text => Denotes implicitSome valueDepth text c.window
  | parameterStep, text => Denotes implicitSome valueDepth text c.parameterStep

end Setting

namespace EvaluationConfig

/-- The settings of `c` that are given, and the defaults of the others. -/
def onDefaults (c : EvaluationConfig Float) (given : List Setting) : EvaluationConfig Float :=
  let d : EvaluationConfig Float := .default
  { threshold := if .threshold ∈ given then c.threshold else d.threshold
    confidence := if .confidence ∈ given then c.confidence else d.confidence
    minCount := if .minCount ∈ given then c.minCount else d.minCount
    rangeUnit := if .rangeUnit ∈ given then c.rangeUnit else d.rangeUnit
    rangeScale := if .rangeScale ∈ given then c.rangeScale else d.rangeScale
    estimator := if .estimator ∈ given then c.estimator else d.estimator
    groundTruth := if .groundTruth ∈ given then c.groundTruth else d.groundTruth
    positions := if .positions ∈ given then c.positions else d.positions
    window := if .window ∈ given then c.window else d.window
    parameterStep := if .parameterStep ∈ given then c.parameterStep else d.parameterStep }

/-- A text with the values that `c` has of these settings, in this order, and with nothing else but blanks and comments,
attributes, and the name of the record. -/
def GivenBy (c : EvaluationConfig Float) (given : List Setting) (text : String) : Prop :=
  FileText (fun implicitSome =>
    RecordText "EvaluationConfig" (FieldTexts Setting.name (Setting.Denoted c implicitSome) given)) text.toList

/-- The values of all fields, in the order of the record. -/
def row (c : EvaluationConfig Float) : Row configFields :=
  (c.threshold, c.confidence, c.minCount, c.rangeUnit, c.rangeScale, c.estimator, c.groundTruth, c.positions, c.window,
    c.parameterStep, ())

variable {c : EvaluationConfig Float} {implicitSome : Bool} {given : List Setting}

theorem denoted_row (s : Setting) {text : List Char} (h : s.Denoted c implicitSome text) :
    Row.Denoted implicitSome Setting.valueDepth s.name text configFields c.row := by
  cases s <;> simpa [Row.Denoted, configFields, defaulted, row, Setting.name, Setting.Denoted] using h

theorem complete_given : Slots.complete configFields (Slots.given configFields c.row (given.map Setting.name)) =
    some (c.onDefaults given).row := by
  have hmem (s : Setting) : s ∈ given ↔ s.name ∈ given.map Setting.name :=
    (List.mem_map_of_injective Setting.name_injective).symm
  rw [row, onDefaults]
  simp only [hmem]
  exact Slots.complete_given rfl <| Slots.complete_given rfl <| Slots.complete_given rfl <| Slots.complete_given rfl <|
    Slots.complete_given rfl <| Slots.complete_given rfl <| Slots.complete_given rfl <| Slots.complete_given rfl <|
    Slots.complete_given rfl <| Slots.complete_given rfl rfl

theorem ofText_of_givenBy (hgiven : given.Nodup) {text : String} (htext : c.GivenBy given text) :
    UwbRanging.ofText text = .ok (c.onDefaults given) := by
  have hparse : parse text.toList = some (c.onDefaults given) := by
    refine parse_of_fileText htext fun implicitSome text h => ?_
    have hnames : (configFields.map Field.name).Nodup := by decide
    exact h.denotes hnames (fun s _ => denoted_row s) (hgiven.map Setting.name_injective) complete_given rfl
  rw [UwbRanging.ofText, hparse]

section Written

theorem legible_estimator : Legible Estimator 1 := by
  refine legible_ofNames (fun e => ?_) (fun e => ?_)
  · cases e <;> decide
  · cases e <;> rfl

theorem legible_position : Legible (Position Float) 1 := by
  have hfield (name : String) (hname : PlainName name.toList) : LegibleField 0 (required name Float) :=
    legibleField_required hname legible_float (Nat.le_refl 0)
  refine legible_record ?_ (show ["x", "y", "z"].Nodup by decide) fun _ => rfl
  simp only [List.forall_mem_cons]
  exact ⟨hfield "x" (by decide), hfield "y" (by decide), hfield "z" (by decide), List.forall_mem_nil _⟩

theorem denotes_count {n : Nat} (h : n < UInt64.size) (depth : Nat) : Denotes implicitSome depth (writeCount n) n where
  opening := opening_of_digits Nat.toDigits_ne_nil fun _ => Decimal.isDigit_of_mem_toDigits
  reads context _ _ _ _ hended := count_toDigits h hended context

/-- The value that `c` has of a setting, as it is written in a file. -/
def written (c : EvaluationConfig Float) : Setting → List Char
  | .threshold => Saved.write 1 c.threshold
  | .confidence => Saved.write 1 c.confidence
  | .minCount => Saved.write 1 c.minCount
  | .rangeUnit => Saved.write 1 c.rangeUnit
  | .rangeScale => Saved.write 1 c.rangeScale
  | .estimator => Saved.write 1 c.estimator
  | .groundTruth => Saved.write 1 c.groundTruth
  | .positions => Saved.write 1 c.positions
  | .window => Saved.write 1 c.window
  | .parameterStep => Saved.write 1 c.parameterStep

/-- Some of the settings of `c` in any order, each on a line of its own. -/
def settingsText (c : EvaluationConfig Float) (given : List Setting) : String :=
  String.ofList (writeLines '(' ')' 0 (given.map fun s => s.name.toList ++ [':', ' '] ++ c.written s))

variable (hminCount : c.minCount < UInt64.size) (hwindow : c.window < UInt64.size)
include hminCount hwindow

theorem denoted_written (s : Setting) : s.Denoted c implicitSome (c.written s) := by
  cases s with
  | minCount => exact denotes_count hminCount _
  | window => exact denotes_count hwindow _
  | rangeUnit => exact legible_lengthUnit.denotes implicitSome (by decide) 1 _
  | estimator => exact legible_estimator.denotes implicitSome (by decide) 1 _
  | groundTruth | parameterStep => exact (legible_option legible_float).denotes implicitSome (by decide) 1 _
  | positions =>
      exact (legible_map (legible_word.mono (Nat.zero_le 1)) legible_position).denotes implicitSome (by decide) 1 _
  | threshold | confidence | rangeScale => exact legible_float.denotes implicitSome (by decide) 1 _

theorem givenBy_settingsText (given : List Setting) : c.GivenBy given (c.settingsText given) := by
  rw [GivenBy, settingsText, String.toList_ofList, ← List.append_nil (writeLines _ _ _ _)]
  refine .mk skipped_nil.attributes ?_ rfl
  refine recordText_writeLines (List.forall₂_map_right_iff.2 (List.forall₂_same.2 fun s _ => ?_)) "EvaluationConfig" 0
  exact s.plainName_name.fieldText (denoted_written hminCount hwindow s)

end Written

/-- Whichever settings a file gives and in whichever order, those have its values and the others their defaults. They
are valid if the threshold is above zero, the confidence strictly between zero and one, the scale finite and not zero,
the window at least one, and the step, if there is one, finite and above zero; else the first of these that is not is
named. -/
theorem given_settings_override_defaults (c : EvaluationConfig Float) {given : List Setting} (hgiven : given.Nodup) :
    (c.minCount < UInt64.size → c.window < UInt64.size → c.GivenBy given (c.settingsText given)) ∧
      ∀ text, c.GivenBy given text → ∀ (folder : Folder) path, folder.readText path = .ok text →
        folder.load path = .ok (c.onDefaults given) ∧
          (load folder path = .ok (c.onDefaults given) ↔ ∀ field, (c.onDefaults given).InDomain field) ∧
          ∀ field, load folder path = .error (.invalidValue field) ↔
            ∃ before after, checkedFields = before ++ field :: after ∧
              (∀ earlier ∈ before, (c.onDefaults given).InDomain earlier) ∧ ¬ (c.onDefaults given).InDomain field := by
  refine ⟨fun hminCount hwindow => givenBy_settingsText hminCount hwindow given, fun text htext folder path hfile => ?_⟩
  have hread := ofText_of_givenBy hgiven htext
  have hload : load folder path = validate (c.onDefaults given) := by
    simp only [load, hfile, ofText, hread]
  rw [hload]
  refine ⟨by rw [Folder.load, hfile]; exact hread, ?_, fun field => ?_⟩
  · rw [← firstInvalid?_eq_none_iff, validate]
    split <;> simp_all
  · rw [← firstInvalid?_eq_some_iff, validate]
    split <;> simp_all

/-- A file in a folder of its own. -/
theorem readText_insert (text : String) :
    Folder.readText (SortedMap.empty.insert "ron" (.text text)) "ron" = .ok text := by
  have hparts : "ron".splitOn "/" = ["ron"] := by
    rw [String.splitOn, if_neg (by decide)]
    iterate 3 rw [String.splitOnAux, if_neg (by decide), if_neg (by decide)]
    rw [String.splitOnAux, if_pos (by decide)]
    decide +kernel
  have hpath : Location.ofPath "ron" = .entry "ron" := by
    rw [Location.ofPath, hparts]
    decide +kernel
  rw [Folder.readText, Folder.lookUp, hpath]
  rfl

/-- A comment, an estimator, and a threshold that is not a number. -/
theorem given_settings_override_defaults_without_threshold :
    ∃ folder : Folder, folder.readText "ron" = .ok "// radios\n(estimator: DriftCompensated, threshold: NaN)" ∧
      folder.load "ron" = .ok
        { (default : EvaluationConfig Float) with threshold := Decimal.nan, estimator := .driftCompensated } ∧
      load folder "ron" = .error (.invalidValue .threshold) := by
  let c : EvaluationConfig Float :=
    { (default : EvaluationConfig Float) with threshold := Decimal.nan, estimator := .driftCompensated }
  have hestimator (implicitSome : Bool) :
      FieldText Setting.estimator.name (Setting.estimator.Denoted c implicitSome) _ :=
    .mk Setting.estimator.plainName_name.names skipped_nil (skipped_nil.space (rfl : isSpace ' ' = true))
      (legible_estimator.denotes implicitSome (by decide) 1 .driftCompensated)
  have hnan (implicitSome : Bool) : Denotes implicitSome Setting.valueDepth "NaN".toList c.threshold :=
    ⟨⟨'N', _, rfl, by decide⟩, fun _ _ _ _ _ hended =>
      number_word (specialNumbers.take 3) (specialNumbers.drop 4) rfl hended (by simp [specialNumbers, afterWord?])⟩
  have hthreshold (implicitSome : Bool) :
      FieldText Setting.threshold.name (Setting.threshold.Denoted c implicitSome) _ :=
    .mk Setting.threshold.plainName_name.names skipped_nil (skipped_nil.space (rfl : isSpace ' ' = true))
      (hnan implicitSome)
  have htop : Attributes [] _ := (skipped_nil.comment (show '\n' ∉ " radios".toList by decide)).attributes
  have hspelled : FileText (fun implicitSome => RecordText "EvaluationConfig"
      (FieldTexts Setting.name (Setting.Denoted c implicitSome) [.estimator, .threshold])) _ :=
    .mk htop (.unnamed (.more skipped_nil (hestimator _) skipped_nil
      (.last (skipped_nil.space (rfl : isSpace ' ' = true)) (hthreshold _) skipped_nil)))
      (rfl : skipGap .blank [] = some [])
  have htext : c.GivenBy [.estimator, .threshold] "// radios\n(estimator: DriftCompensated, threshold: NaN)" :=
    hspelled
  have hfile := readText_insert "// radios\n(estimator: DriftCompensated, threshold: NaN)"
  obtain ⟨hread, -, hinvalid⟩ := (given_settings_override_defaults c (by decide)).2 _ htext _ "ron" hfile
  refine ⟨_, hfile, hread, (hinvalid .threshold).2 ⟨[], _, rfl, List.forall_mem_nil _, ?_⟩⟩
  have hunpack : Decimal.nan.toModel.unpack = .notANumber := by rfl
  change ¬ ((∃ v, Represents Decimal.nan v ∧ 0 < v) ∨ Decimal.nan.toModel.unpack = .infinity .positive)
  rintro (⟨v, hv, -⟩ | hinfinite)
  · rw [Represents, hunpack] at hv
    exact hv
  · rw [hunpack] at hinfinite
    cases hinfinite

end EvaluationConfig

end UwbRanging
