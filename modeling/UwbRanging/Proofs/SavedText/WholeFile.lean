import UwbRanging.Proofs.SavedText.Records
import UwbRanging.SavedText.File

/-!
Whole files: attributes in front, one value, and blanks and comments around them.
-/

namespace UwbRanging.SavedText

open Telemetry (StartsNot)

/-- What stands before the value of a file: attributes with these names between them, and blanks and comments. -/
def Attributes (names : List String) (top : List Char) : Prop :=
  ∀ rest, Solid rest → rest.head? ≠ some '#' →
    (do gap; header ((top ++ rest).length + 1) : Reader (List String)) ⟨false, depthLimit, (top ++ rest).length + 1⟩
      (top ++ rest) = some (names, rest)

theorem header_of_ne {context : Context} {rest : List Char} (h : rest.head? ≠ some '#') (fuel : Nat) :
    header (fuel + 1) context rest = some ([], rest) := by
  change (if rest.head? = some '#' then _ else _ : Reader (List String)) context rest = _
  rw [if_neg h]
  rfl

theorem Skipped.attributes {blanks : List Char} (h : Skipped blanks) : Attributes [] blanks := by
  intro rest hsolid hrest
  rw [bind_of_read (h.gap hsolid), header_of_ne hrest]

/-- A file with a value of which `value` is the spelling, which depends on whether optional values may stand alone. -/
inductive FileText (value : Bool → List Char → Prop) : List Char → Prop where
  | mk {names : List String} {top text bottom : List Char} (htop : Attributes names top)
      (hvalue : value (names.contains "implicit_some") text) (hbottom : skipGap .blank bottom = some []) :
      FileText value (top ++ text ++ bottom)

theorem parse_of_fileText {α : Type} [Saved α] {value : Bool → List Char → Prop} {text : List Char} {a : α}
    (h : FileText value text)
    (hvalue : ∀ implicitSome text, value implicitSome text → Denotes implicitSome depthLimit text a) :
    parse text = some a := by
  obtain ⟨htop, hspelling, hbottom⟩ := h
  rename_i names top text bottom
  obtain ⟨hopening, hreads⟩ := hvalue _ _ hspelling
  have hended : Ended bottom := by
    cases hempty : bottom with
    | nil => exact StartsNot.nil _
    | cons c s => exact hempty ▸ ended_of_skipGap hbottom (hempty ▸ List.cons_ne_nil c s)
  have hhash : (text ++ bottom).head? ≠ some '#' := by
    obtain ⟨c, s, rfl, hc⟩ := hopening
    rintro ⟨⟩
    exact hc (by decide)
  have hbefore := htop (text ++ bottom) (hopening.solid bottom) hhash
  rw [← List.append_assoc] at hbefore
  have hread := hreads ⟨names.contains "implicit_some", depthLimit, (top ++ text ++ bottom).length + 1⟩ bottom rfl
    (Nat.le_refl _) (by simp only [List.length_append]; omega) hended
  have hgap : gap ⟨names.contains "implicit_some", depthLimit, (top ++ text ++ bottom).length + 1⟩ bottom =
      some ((), []) := by
    rw [gap, hbottom]
    rfl
  simp only [parse, hbefore, Option.bind_eq_bind, Option.bind_some]
  rw [bind_of_read hread, bind_of_read hgap]
  rfl

/-- A file holds a value and no attributes, and is read as that value. -/
theorem parse_render {α : Type} [Saved α] {depth : Nat} (h : Legible α depth) (hdepth : depth ≤ depthLimit) (a : α) :
    parse (render a) = some a := by
  have hfile : FileText (fun implicitSome text => Denotes implicitSome depthLimit text a) ([] ++ render a ++ []) :=
    .mk skipped_nil.attributes (h.denotes _ hdepth 0 a) rfl
  rw [List.nil_append, List.append_nil] at hfile
  exact parse_of_fileText hfile fun _ _ h => h

end UwbRanging.SavedText
