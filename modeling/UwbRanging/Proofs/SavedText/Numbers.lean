import UwbRanging.Proofs.Decimal.Shortest
import UwbRanging.Proofs.SavedText.Scalars

/-!
Every number is read back: finite ones from their shortest digits, the infinities and what is not a number from words.
-/

namespace UwbRanging.SavedText

open Telemetry (SignText MagnitudeText StartsNot takeWhile_run dropWhile_run)

section Words

variable {context : Context}

theorem takeIdentifier?_word (word : String) {rest : List Char} (hrest : Ended rest) :
    takeIdentifier? word context (word.toList ++ rest) = some (true, rest) := by
  have hend : beginsWithIdentifierChar rest = false := by
    cases rest with
    | nil => rfl
    | cons c rest => exact hrest.startsNot isRawIdentifierChar_of_isIdentifierChar c rfl
  rw [takeIdentifier?, afterWord?_append]
  simp only [hend, Bool.false_eq_true, if_false]

theorem takeIdentifier?_other {word : String} {text : List Char} (h : afterWord? word.toList text = none) :
    takeIdentifier? word context text = some (false, text) := by
  rw [takeIdentifier?, h]

theorem specialNumber?_skip {words : List (String × Float)} {text : List Char}
    (h : ∀ word ∈ words, afterWord? word.1.toList text = none) (more : List (String × Float)) :
    specialNumber? (words ++ more) context text = specialNumber? more context text := by
  induction words with
  | nil => rfl
  | cons word words ih =>
      rw [List.cons_append, specialNumber?, bind_of_read (takeIdentifier?_other (h word List.mem_cons_self))]
      exact ih fun word' hword' => h word' (List.mem_cons_of_mem word hword')

/-- A word is read as its number if none of the words before it is in front of the text. -/
theorem number_word (before after : List (String × Float)) {word : String} {x : Float}
    (hwords : specialNumbers = before ++ (word, x) :: after) {rest : List Char} (hrest : Ended rest)
    (hbefore : ∀ word' ∈ before, afterWord? word'.1.toList (word.toList ++ rest) = none) :
    number context (word.toList ++ rest) = some (x, rest) := by
  have hspecial : specialNumber? specialNumbers context (word.toList ++ rest) = some (some x, rest) := by
    rw [hwords, specialNumber?_skip hbefore, specialNumber?, bind_of_read (takeIdentifier?_word word hrest)]
    rfl
  rw [number, bind_of_read hspecial]
  rfl

end Words

section Decimals

variable {negative : Bool} {sign whole fraction magnitude : List Char}

theorem isRawIdentifierChar_of_isNumberChar (c : Char) (h : isNumberChar c = true) : isRawIdentifierChar c = true := by
  simp only [isNumberChar, Bool.or_eq_true, decide_eq_true_eq] at h
  rcases h with (((((hdigit | rfl) | rfl) | rfl) | rfl) | rfl) | rfl
  · exact isRawIdentifierChar_of_isCountChar c (isCountChar_of_isDigit hdigit)
  all_goals decide

theorem isNumberChar_of_isDigit {c : Char} (h : c.isDigit = true) : isNumberChar c = true := by
  simp only [isNumberChar, h, Bool.true_or]

theorem isNumberChar_of_decimal (hsign : SignText negative sign) (hmagnitude : MagnitudeText whole fraction magnitude) :
    ∀ c ∈ sign ++ magnitude, isNumberChar c = true := by
  have hsignChars : ∀ c ∈ sign, isNumberChar c = true := by
    cases hsign <;> simp [isNumberChar]
  have hmagnitudeChars : ∀ c ∈ magnitude, isNumberChar c = true := by
    cases hmagnitude with
    | whole _ hw => exact fun c hc => isNumberChar_of_isDigit (hw c hc)
    | point _ hw hf =>
        intro c hc
        rcases List.mem_append.1 hc with hc | hc
        · exact isNumberChar_of_isDigit (hw c hc)
        · rcases List.mem_cons.1 hc with rfl | hc
          · rfl
          · exact isNumberChar_of_isDigit (hf c hc)
    | fraction _ hf =>
        intro c hc
        rcases List.mem_cons.1 hc with rfl | hc
        · rfl
        · exact isNumberChar_of_isDigit (hf c hc)
  exact fun c hc => (List.mem_append.1 hc).elim (hsignChars c) (hmagnitudeChars c)

theorem magnitude_begins (h : MagnitudeText whole fraction magnitude) :
    ∃ c s, magnitude = c :: s ∧ (c.isDigit = true ∨ c = '.') := by
  have hdigits {ds : List Char} (hne : ds ≠ []) (hds : ∀ c ∈ ds, c.isDigit = true) (s : List Char) :
      ∃ c t, ds ++ s = c :: t ∧ (c.isDigit = true ∨ c = '.') := by
    cases ds with
    | nil => exact absurd rfl hne
    | cons c ds => exact ⟨c, ds ++ s, rfl, Or.inl (hds c List.mem_cons_self)⟩
  cases h with
  | whole hne hw => simpa using hdigits hne hw []
  | point hne hw _ => exact hdigits hne hw _
  | fraction _ _ => exact ⟨'.', _, rfl, Or.inr rfl⟩

/-- No decimal begins with a word, for every word has a letter behind its sign. -/
theorem afterWord?_decimal (hsign : SignText negative sign) (hmagnitude : MagnitudeText whole fraction magnitude)
    (rest : List Char) : ∀ word ∈ specialNumbers, afterWord? word.1.toList (sign ++ magnitude ++ rest) = none := by
  obtain ⟨c, s, rfl, hc⟩ := magnitude_begins hmagnitude
  have hne : c ≠ 'i' ∧ c ≠ 'N' ∧ c ≠ '+' ∧ c ≠ '-' := by
    rcases hc with hdigit | rfl
    · exact ⟨ne_of_isDigit hdigit rfl, ne_of_isDigit hdigit rfl, ne_of_isDigit hdigit rfl, ne_of_isDigit hdigit rfl⟩
    · decide
  cases hsign <;>
    simp [specialNumbers, afterWord?, Ne.symm hne.1, Ne.symm hne.2.1, Ne.symm hne.2.2.1, Ne.symm hne.2.2.2]

theorem ofChars?_decimal (hsign : SignText negative sign) (hmagnitude : MagnitudeText whole fraction magnitude) :
    Decimal.Written.ofChars? (sign ++ magnitude) = some ⟨negative, whole, fraction, false, []⟩ := by
  have hsplit := Telemetry.splitMagnitude_of_magnitudeText hmagnitude (StartsNot.nil _) (StartsNot.nil _)
  have hstart := hmagnitude.startsNot_sign []
  have hnonempty : ¬ (whole.isEmpty && fraction.isEmpty) = true := by
    simpa only [Bool.and_eq_true, List.isEmpty_iff, not_and_or] using hmagnitude.ne_nil
  rw [List.append_nil] at hsplit hstart
  simp only [Telemetry.splitMagnitude, Prod.mk.injEq] at hsplit
  obtain ⟨hwhole, hfraction, hrest⟩ := hsplit
  simp only [Decimal.Written.ofChars?, Telemetry.splitSign_of_signText hsign hstart, hwhole, hfraction, hrest]
  rw [if_neg hnonempty]

theorem number_decimal (hsign : SignText negative sign) (hmagnitude : MagnitudeText whole fraction magnitude)
    {rest : List Char} (hrest : Ended rest) (context : Context) :
    number context (sign ++ magnitude ++ rest) =
      some (Decimal.Written.toFloat ⟨negative, whole, fraction, false, []⟩, rest) := by
  have hchars := isNumberChar_of_decimal hsign hmagnitude
  have hend := hrest.startsNot isRawIdentifierChar_of_isNumberChar
  have hspecial : specialNumber? specialNumbers context (sign ++ magnitude ++ rest) =
      some (none, sign ++ magnitude ++ rest) := by
    rw [← List.append_nil specialNumbers]
    exact specialNumber?_skip (afterWord?_decimal hsign hmagnitude rest) []
  rw [number, bind_of_read hspecial]
  simp only [takeWhile_run hchars hend, dropWhile_run hchars hend, ofChars?_decimal hsign hmagnitude]
  rfl

end Decimals

theorem opening_decimal {negative : Bool} {sign whole fraction magnitude : List Char} (hsign : SignText negative sign)
    (hmagnitude : MagnitudeText whole fraction magnitude) : Opening (sign ++ magnitude) := by
  obtain ⟨c, s, rfl, hc⟩ := magnitude_begins hmagnitude
  have hopening : Opening (c :: s) := by
    rcases hc with hdigit | rfl
    · exact (opening_of_digits (List.cons_ne_nil c []) (List.forall_mem_singleton.2 hdigit)).append s
    · exact ⟨'.', s, rfl, by decide⟩
  cases hsign with
  | none => exact hopening
  | plus => exact ⟨'+', _, rfl, by decide⟩
  | minus => exact ⟨'-', _, rfl, by decide⟩

theorem opening_shortest (x : Float) : Opening (Decimal.shortest x).toList := by
  cases h : Binary64.ofFloat x with
  | nan =>
      rw [Decimal.shortest, h]
      exact ⟨'N', _, rfl, by decide⟩
  | infinite negative =>
      rw [Decimal.shortest, h]
      cases negative with
      | false => exact ⟨'i', _, rfl, by decide⟩
      | true => exact ⟨'-', _, rfl, by decide⟩
  | finite negative m e =>
      obtain ⟨sign, whole, fraction, magnitude, hsign, hmagnitude, htext, -⟩ := Decimal.shortest_text h
      rw [htext]
      exact opening_decimal hsign hmagnitude

theorem reads_shortest (x : Float) : Reads number 0 (Decimal.shortest x).toList x := by
  intro context rest _ _ hended
  cases h : Binary64.ofFloat x with
  | nan =>
      rw [Decimal.shortest, h, Binary64.eq_nan h]
      exact number_word (specialNumbers.take 3) (specialNumbers.drop 4) rfl hended
        (by simp [specialNumbers, afterWord?])
  | infinite negative =>
      rw [Decimal.shortest, h, Binary64.eq_infinite h]
      cases negative with
      | false => exact number_word [] (specialNumbers.drop 1) rfl hended (by simp)
      | true =>
          exact number_word (specialNumbers.take 2) (specialNumbers.drop 3) rfl hended
            (by simp [specialNumbers, afterWord?])
  | finite negative m e =>
      obtain ⟨sign, whole, fraction, magnitude, hsign, hmagnitude, htext, hvalue⟩ := Decimal.shortest_text h
      rw [htext, number_decimal hsign hmagnitude hended, hvalue]

theorem legible_float : Legible Float 0 where
  opening _ x := opening_shortest x
  reads _ x := reads_shortest x

end UwbRanging.SavedText
