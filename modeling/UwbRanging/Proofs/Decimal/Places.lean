import UwbRanging.Decimal.Fixed
import UwbRanging.Proofs.Decimal.Digits
import UwbRanging.Proofs.Telemetry.Fields

/-!
The texts of decimals with a fixed count of places: which digits they consist of, and what these stand for.
-/

namespace UwbRanging.Decimal

open Telemetry (DigitText MagnitudeText SignText)

theorem digitText_toDigits (n : Nat) : DigitText (Nat.toDigits 10 n) :=
  fun _ => isDigit_of_mem_toDigits

theorem digitText_paddedDigits (width n : Nat) : DigitText (paddedDigits width n) := by
  intro c hc
  rcases List.mem_append.1 hc with hzero | hdigit
  · rw [List.eq_of_mem_replicate hzero]
    rfl
  · exact isDigit_of_mem_toDigits hdigit

theorem digitsValue_append (n : Nat) (ds ds' : List Char) :
    digitsValue n (ds ++ ds') = digitsValue (digitsValue n ds) ds' :=
  List.foldl_append

theorem digitsValue_paddedDigits (width n : Nat) : digitsValue 0 (paddedDigits width n) = n := by
  have hzeros : ∀ k, digitsValue 0 (List.replicate k '0') = 0 := by
    intro k
    induction k with
    | zero => rfl
    | succ k ih => exact ih
  rw [paddedDigits, digitsValue_append, hzeros, digitsValue_toDigits]

theorem le_length_paddedDigits (width n : Nat) : width ≤ (paddedDigits width n).length := by
  rw [paddedDigits, List.length_append, List.length_replicate]
  omega

/-- A count over a power of ten is written with a digit in front of the point at least, and with its places behind. -/
theorem withPlaces_text {places : Nat} (hplaces : 0 < places) (n : Nat) :
    ∃ whole fraction, MagnitudeText whole fraction (withPlaces places n).toList ∧ fraction.length = places ∧
      digitsValue (digitsValue 0 whole) fraction = n := by
  have hlength := le_length_paddedDigits (places + 1) n
  have hdigits := digitText_paddedDigits (places + 1) n
  have hvalue := digitsValue_paddedDigits (places + 1) n
  have htext : (withPlaces places n).toList =
      (paddedDigits (places + 1) n).take ((paddedDigits (places + 1) n).length - places) ++
        '.' :: (paddedDigits (places + 1) n).drop ((paddedDigits (places + 1) n).length - places) := by
    rw [withPlaces, String.toList_ofList, if_neg (Nat.ne_of_gt hplaces)]
  generalize paddedDigits (places + 1) n = ds at hlength hdigits hvalue htext
  refine ⟨ds.take (ds.length - places), ds.drop (ds.length - places), ?_, ?_, ?_⟩
  · rw [htext]
    refine .point ?_ (fun c hc => hdigits c (List.mem_of_mem_take hc)) fun c hc => hdigits c (List.mem_of_mem_drop hc)
    apply List.ne_nil_of_length_pos
    rw [List.length_take]
    omega
  · rw [List.length_drop]
    omega
  · rw [← digitsValue_append, List.take_append_drop, hvalue]

theorem signed_text (negative : Bool) (s : String) :
    ∃ sign, SignText negative sign ∧ (signed negative s).toList = sign ++ s.toList := by
  cases negative with
  | false => exact ⟨[], .none, rfl⟩
  | true => exact ⟨['-'], .minus, String.toList_append⟩

/-- A finite number is written with digits before and after the point. -/
theorem fixed_text {places : Nat} (hplaces : 0 < places) {x : Float} {negative : Bool} {m : Nat} {e : Int}
    (hx : Binary64.ofFloat x = .finite negative m e) : ∃ sign whole fraction magnitude, SignText negative sign ∧
      MagnitudeText whole fraction magnitude ∧ fraction.length = places ∧
        (fixed places x).toList = sign ++ magnitude := by
  obtain ⟨sign, hsign, htext⟩ :=
    signed_text negative (withPlaces places ((Quotient.ofBinary m e).scale places).roundHalfEven)
  obtain ⟨whole, fraction, hmagnitude, hlength, -⟩ :=
    withPlaces_text hplaces ((Quotient.ofBinary m e).scale places).roundHalfEven
  refine ⟨sign, whole, fraction, _, hsign, hmagnitude, hlength, ?_⟩
  rw [fixed, hx]
  exact htext

end UwbRanging.Decimal
