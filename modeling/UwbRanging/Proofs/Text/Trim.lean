import Mathlib.Data.List.DropRight
import UwbRanging.Text.Blank

/-!
Texts without blanks at their ends. Trimming makes such a text, leaves it as it is, and does not care whether some
of the blanks in front have been taken off before.
-/

namespace UwbRanging.Text

/-- The first and the last character, if there are any, are not blank. -/
def Bare (s : List Char) : Prop :=
  (∀ c ∈ s.head?, isBlank c = false) ∧ ∀ c ∈ s.getLast?, isBlank c = false

theorem trim_eq_self {s : List Char} (h : Bare s) : trim s = s := by
  have hfront : s.dropWhile isBlank = s := by
    cases s with
    | nil => rfl
    | cons c s =>
        have hc : ¬ isBlank c = true := by simpa using h.1 c rfl
        rw [List.dropWhile_cons_of_neg hc]
  have hback : s.rdropWhile isBlank = s := by
    rw [List.rdropWhile_eq_self_iff]
    intro hs
    simpa using h.2 (s.getLast hs) (List.getLast?_eq_getLast_of_ne_nil hs)
  rw [trim, hfront]
  exact hback

theorem getLast?_trim (s : List Char) : ∀ c ∈ (trim s).getLast?, isBlank c = false := by
  intro c hc
  obtain ⟨hne, rfl⟩ := List.mem_getLast?_eq_getLast hc
  have hlast := List.rdropWhile_last_not isBlank (s.dropWhile isBlank) hne
  exact Bool.eq_false_iff.2 hlast

/-- Blanks of a narrower kind may be taken off the front first. -/
theorem trim_dropWhile {p : Char → Bool} (hp : ∀ c, p c = true → isBlank c = true) (s : List Char) :
    trim (s.dropWhile p) = trim s := by
  have hdrop : (s.dropWhile p).dropWhile isBlank = s.dropWhile isBlank := by
    induction s with
    | nil => rfl
    | cons c s ih =>
        cases hc : p c with
        | true => rw [List.dropWhile_cons_of_pos hc, List.dropWhile_cons_of_pos (hp c hc), ih]
        | false => rw [List.dropWhile_cons_of_neg (by simp [hc])]
  rw [trim, hdrop, trim]

end UwbRanging.Text
