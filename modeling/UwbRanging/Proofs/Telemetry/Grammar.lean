import UwbRanging.Telemetry.Decode

/-!
The texts that fields of a telemetry line are written as, said without any parser: blanks, separators, words,
integers and decimal numbers, each text with the value that it stands for.
-/

namespace UwbRanging.Telemetry

/-- Spaces and tabs, or nothing. -/
def BlankText (t : List Char) : Prop :=
  ∀ c ∈ t, isLineBlank c = true

instance (t : List Char) : Decidable (BlankText t) :=
  List.decidableBAll (isLineBlank · = true) t

/-- A comma, with blanks around it or not. -/
inductive SeparatorText : List Char → Prop where
  | mk {before after : List Char} (hbefore : BlankText before) (hafter : BlankText after) :
      SeparatorText (before ++ ',' :: after)

/-- Decimal digits, or nothing. -/
def DigitText (t : List Char) : Prop :=
  ∀ c ∈ t, c.isDigit = true

instance (t : List Char) : Decidable (DigitText t) :=
  List.decidableBAll (Char.isDigit · = true) t

/-- The digits of a count that fits a 32-bit word. -/
structure WordText (t : List Char) (w : UInt32) : Prop where
  nonempty : t ≠ []
  digits : DigitText t
  value : Decimal.digitsValue 0 t = w.toNat

/-- A sign in front of a number. Only a minus is negative. -/
inductive SignText : Bool → List Char → Prop where
  | none : SignText false []
  | plus : SignText false ['+']
  | minus : SignText true ['-']

/-- An integer with or without a sign that fits 64 bits. -/
inductive IntegerText : List Char → Int → Prop where
  | mk {negative : Bool} {sign digits : List Char} {i : Int} (hsign : SignText negative sign)
      (hnonempty : digits ≠ []) (hdigits : DigitText digits)
      (hvalue : i = if negative then -(Decimal.digitsValue 0 digits : Int) else Decimal.digitsValue 0 digits)
      (hlow : Int64.minValue.toInt ≤ i) (hhigh : i ≤ Int64.maxValue.toInt) : IntegerText (sign ++ digits) i

/-- The digits of a decimal number before and after its point, at least one of them. -/
inductive MagnitudeText : List Char → List Char → List Char → Prop where
  | whole {w : List Char} (hnonempty : w ≠ []) (hw : DigitText w) : MagnitudeText w [] w
  | point {w f : List Char} (hnonempty : w ≠ []) (hw : DigitText w) (hf : DigitText f) :
      MagnitudeText w f (w ++ '.' :: f)
  | fraction {f : List Char} (hnonempty : f ≠ []) (hf : DigitText f) : MagnitudeText [] f ('.' :: f)

/-- The exponent of a decimal number, if it has one. -/
inductive ExponentText : Bool → List Char → List Char → Prop where
  | none : ExponentText false [] []
  | some {mark : Char} {negative : Bool} {sign digits : List Char} (hmark : mark = 'e' ∨ mark = 'E')
      (hsign : SignText negative sign) (hnonempty : digits ≠ []) (hdigits : DigitText digits) :
      ExponentText negative digits (mark :: (sign ++ digits))

/-- A number: a decimal, or one of two words without a sign, in letters of either case. -/
inductive NumberText : List Char → Float → Prop where
  | decimal {negative exponentNegative : Bool} {sign whole fraction magnitude digits exponent : List Char}
      (hsign : SignText negative sign) (hmagnitude : MagnitudeText whole fraction magnitude)
      (hexponent : ExponentText exponentNegative digits exponent) :
      NumberText (sign ++ (magnitude ++ exponent))
        (Decimal.Written.toFloat ⟨negative, whole, fraction, exponentNegative, digits⟩)
  | nan {t : List Char} (h : t.map Char.toLower = ['n', 'a', 'n']) : NumberText t Decimal.nan
  | infinite {t : List Char} (h : t.map Char.toLower = ['i', 'n', 'f']) : NumberText t (Decimal.infinite false)

/-- A word with blanks in front of it or not, as the first field of a line. -/
inductive FirstWordText : List Char → UInt32 → Prop where
  | mk {blank t : List Char} {w : UInt32} (hblank : BlankText blank) (hword : WordText t w) :
      FirstWordText (blank ++ t) w

/-- A further field: a separator and what the field is written as. -/
inductive NextText {α : Type} (G : List Char → α → Prop) : List Char → α → Prop where
  | mk {sep t : List Char} {a : α} (hsep : SeparatorText sep) (ht : G t a) : NextText G (sep ++ t) a

/-- Any number of items, one after another. -/
inductive ListText {α : Type} (G : List Char → α → Prop) : List Char → List α → Prop where
  | nil : ListText G [] []
  | cons {t s : List Char} {a : α} {as : List α} (head : G t a) (tail : ListText G s as) :
      ListText G (t ++ s) (a :: as)

/-- What does not begin with a character that satisfies `p`. -/
def StartsNot (p : Char → Bool) (s : List Char) : Prop :=
  ∀ c ∈ s.head?, p c = false

/-- The end of a field: the line ends, or a separator begins. -/
def FieldEnd (s : List Char) : Prop :=
  ∀ c ∈ s.head?, c = ',' ∨ isLineBlank c = true

theorem StartsNot.nil (p : Char → Bool) : StartsNot p [] := by
  intro c hc
  cases hc

theorem StartsNot.cons {p : Char → Bool} {c : Char} (h : p c = false) (s : List Char) : StartsNot p (c :: s) := by
  intro d hd
  obtain rfl : c = d := by simpa using hd
  exact h

/-- A text that is not empty decides how it and all that follows it begin. -/
theorem StartsNot.append {p : Char → Bool} {t : List Char} (ht : t ≠ []) (h : ∀ c ∈ t, p c = false)
    (s : List Char) : StartsNot p (t ++ s) := by
  cases t with
  | nil => exact absurd rfl ht
  | cons c t => exact StartsNot.cons (h c List.mem_cons_self) _

/-- What is written in letters of either case begins with none of those that have no case. -/
theorem StartsNot.of_toLower {p : Char → Bool} {t w : List Char} (hp : ∀ c, p c = true → c.toLower = c)
    (h : t.map Char.toLower = w) (hw : w ≠ []) (hletters : w.any p = false) (s : List Char) :
    StartsNot p (t ++ s) := by
  have ht : t ≠ [] := by
    rintro rfl
    exact hw h.symm
  refine StartsNot.append ht (fun c hc => ?_) s
  have hlower : ¬ p c.toLower = true := List.any_eq_false.1 hletters _ (h ▸ List.mem_map_of_mem hc)
  cases hbegins : p c with
  | false => rfl
  | true =>
      rw [hp c hbegins] at hlower
      exact absurd hbegins hlower

section Runs

variable {p : Char → Bool} {t rest : List Char}

theorem takeWhile_run (h : ∀ c ∈ t, p c = true) (hrest : StartsNot p rest) : (t ++ rest).takeWhile p = t := by
  rw [List.takeWhile_append_of_pos h]
  cases rest with
  | nil => simp
  | cons c rest => simp [hrest c rfl]

theorem dropWhile_run (h : ∀ c ∈ t, p c = true) (hrest : StartsNot p rest) : (t ++ rest).dropWhile p = rest := by
  rw [List.dropWhile_append_of_pos h]
  cases rest with
  | nil => rfl
  | cons c rest => simp [hrest c rfl]

end Runs

section Characters

variable {c : Char}

theorem ne_comma_of_isDigit (h : c.isDigit = true) : c ≠ ',' := by
  rintro rfl
  cases h

theorem ne_comma_of_isLineBlank (h : isLineBlank c = true) : c ≠ ',' := by
  rintro rfl
  cases h

theorem not_isLineBlank_of_isDigit (h : c.isDigit = true) : isLineBlank c = false := by
  rcases hblank : isLineBlank c with _ | _
  · rfl
  · simp only [isLineBlank, Bool.or_eq_true, decide_eq_true_eq] at hblank
    rcases hblank with rfl | rfl <;> cases h

/-- What ends a field is no part of a number. -/
theorem FieldEnd.startsNot {p : Char → Bool} (hcomma : p ',' = false) (hspace : p ' ' = false)
    (htab : p '\t' = false) {s : List Char} (h : FieldEnd s) : StartsNot p s := by
  intro c hc
  rcases h c hc with rfl | hblank
  · exact hcomma
  · simp only [isLineBlank, Bool.or_eq_true, decide_eq_true_eq] at hblank
    rcases hblank with rfl | rfl
    · exact hspace
    · exact htab

theorem FieldEnd.startsNot_digit {s : List Char} (h : FieldEnd s) : StartsNot Char.isDigit s :=
  h.startsNot (by decide) (by decide) (by decide)

theorem FieldEnd.nil : FieldEnd [] := by
  intro c hc
  cases hc

end Characters

/-- What follows a field begins with a comma or a blank. -/
theorem SeparatorText.fieldEnd {t : List Char} (h : SeparatorText t) (s : List Char) : FieldEnd (t ++ s) := by
  obtain ⟨hbefore, -⟩ := h
  rename_i before after
  cases before with
  | nil =>
      intro c hc
      obtain rfl : ',' = c := by simpa using hc
      exact Or.inl rfl
  | cons b before =>
      intro c hc
      obtain rfl : b = c := by simpa using hc
      exact Or.inr (hbefore b List.mem_cons_self)

theorem NextText.fieldEnd {α : Type} {G : List Char → α → Prop} {t : List Char} {a : α} (h : NextText G t a)
    (s : List Char) : FieldEnd (t ++ s) := by
  obtain ⟨hsep, -⟩ := h
  rw [List.append_assoc]
  exact hsep.fieldEnd _

theorem NextText.fieldEnd_append {α : Type} {G : List Char → α → Prop} {t : List Char} {a : α}
    (h : NextText G t a) (s rest : List Char) : FieldEnd ((t ++ s) ++ rest) := by
  rw [List.append_assoc]
  exact h.fieldEnd _

section Commas

theorem BlankText.count_comma {t : List Char} (h : BlankText t) : t.count ',' = 0 :=
  List.count_eq_zero.2 fun hmem => ne_comma_of_isLineBlank (h _ hmem) rfl

theorem DigitText.count_comma {t : List Char} (h : DigitText t) : t.count ',' = 0 :=
  List.count_eq_zero.2 fun hmem => ne_comma_of_isDigit (h _ hmem) rfl

theorem SeparatorText.count_comma {t : List Char} (h : SeparatorText t) : t.count ',' = 1 := by
  obtain ⟨hbefore, hafter⟩ := h
  rw [List.count_append, List.count_cons_self, hbefore.count_comma, hafter.count_comma]

theorem WordText.count_comma {t : List Char} {w : UInt32} (h : WordText t w) : t.count ',' = 0 :=
  h.digits.count_comma

theorem SignText.count_comma {negative : Bool} {t : List Char} (h : SignText negative t) : t.count ',' = 0 := by
  cases h <;> rfl

theorem IntegerText.count_comma {t : List Char} {i : Int} (h : IntegerText t i) : t.count ',' = 0 := by
  obtain ⟨hsign, -, hdigits, -, -, -⟩ := h
  rw [List.count_append, hsign.count_comma, hdigits.count_comma]

theorem MagnitudeText.count_comma {w f t : List Char} (h : MagnitudeText w f t) : t.count ',' = 0 := by
  cases h with
  | whole _ hw => exact hw.count_comma
  | point _ hw hf =>
      rw [List.count_append, List.count_cons_of_ne (by decide), hw.count_comma, hf.count_comma]
  | fraction _ hf => rw [List.count_cons_of_ne (by decide), hf.count_comma]

theorem ExponentText.count_comma {negative : Bool} {digits t : List Char}
    (h : ExponentText negative digits t) : t.count ',' = 0 := by
  cases h with
  | none => rfl
  | some hmark hsign _ hdigits =>
      rw [List.count_cons_of_ne (by rcases hmark with rfl | rfl <;> decide), List.count_append,
        hsign.count_comma, hdigits.count_comma]

theorem NumberText.count_comma {t : List Char} {x : Float} (h : NumberText t x) : t.count ',' = 0 := by
  have hword : ∀ {w : List Char}, ',' ∉ w → t.map Char.toLower = w → t.count ',' = 0 := by
    intro w hw hmap
    refine List.count_eq_zero.2 fun hmem => hw ?_
    rw [← hmap]
    exact List.mem_map.2 ⟨',', hmem, rfl⟩
  cases h with
  | decimal hsign hmagnitude hexponent =>
      rw [List.count_append, List.count_append, hsign.count_comma, hmagnitude.count_comma,
        hexponent.count_comma]
  | nan h => exact hword (by decide) h
  | infinite h => exact hword (by decide) h

theorem FirstWordText.count_comma {t : List Char} {w : UInt32} (h : FirstWordText t w) : t.count ',' = 0 := by
  obtain ⟨hblank, hword⟩ := h
  rw [List.count_append, hblank.count_comma, hword.count_comma]

theorem NextText.count_comma {α : Type} {G : List Char → α → Prop}
    (hG : ∀ {t a}, G t a → t.count ',' = 0) {t : List Char} {a : α} (h : NextText G t a) : t.count ',' = 1 := by
  obtain ⟨hsep, ht⟩ := h
  rw [List.count_append, hsep.count_comma, hG ht]

end Commas

end UwbRanging.Telemetry
