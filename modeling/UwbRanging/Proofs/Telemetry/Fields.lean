import Mathlib.Data.List.TakeWhile
import UwbRanging.Proofs.Telemetry.Reads

/-!
The parsers of single fields read exactly the texts of those fields.
-/

namespace UwbRanging.Telemetry

open UwbRanging.Telemetry.Parser

theorem reads_blanks : Reads blanks (fun t _ => BlankText t) (StartsNot isLineBlank) where
  sound {s a rest} h := by
    cases h
    exact ⟨s.takeWhile isLineBlank, List.takeWhile_append_dropWhile.symm,
      fun c hc => List.mem_takeWhile_imp hc⟩
  whole h hrest := by
    show Outcome.found () _ = _
    rw [dropWhile_run h hrest]

theorem reads_character (c : Char) : Reads (character c) (fun t _ => t = [c]) (fun _ => True) where
  sound {s a rest} h := by
    cases s with
    | nil => cases h
    | cons d s =>
        unfold character at h
        split at h
        · rename_i heq
          cases heq
          split at h
          · rename_i hd
            cases h
            exact ⟨[c], by rw [hd]; rfl, rfl⟩
          · cases h
        · cases h
  whole h _ := by
    subst h
    simp [character]

theorem reads_someBlanks : Reads someBlanks (fun t _ => t ≠ [] ∧ BlankText t) (StartsNot isLineBlank) where
  sound {s a rest} h := by
    unfold someBlanks at h
    split at h
    · rename_i c s
      split at h
      · rename_i hc
        cases h
        refine ⟨(c :: s).takeWhile isLineBlank, List.takeWhile_append_dropWhile.symm, ?_,
          fun d hd => List.mem_takeWhile_imp hd⟩
        rw [List.takeWhile_cons_of_pos hc]
        exact List.cons_ne_nil _ _
      · cases h
    · cases h
  whole {t a rest} h hrest := by
    obtain ⟨hne, hblank⟩ := h
    cases t with
    | nil => exact absurd rfl hne
    | cons c t =>
        have hc : isLineBlank c = true := hblank c List.mem_cons_self
        show (if isLineBlank c then blanks (c :: t ++ rest) else _) = _
        rw [if_pos hc]
        exact reads_blanks.whole hblank hrest

theorem reads_oneOf (cs : List Char) : Reads (oneOf cs) (fun t c => t = [c] ∧ c ∈ cs) (fun _ => True) where
  sound {s a rest} h := by
    unfold oneOf at h
    split at h
    · rename_i d s
      split at h
      · rename_i hd
        cases h
        exact ⟨[a], rfl, rfl, hd⟩
      · cases h
    · cases h
  whole {t a rest} h _ := by
    obtain ⟨rfl, hmem⟩ := h
    simp [oneOf, hmem]

theorem reads_takeWhile1 (p : Char → Bool) :
    Reads (takeWhile1 p) (fun t a => a = t ∧ t ≠ [] ∧ ∀ c ∈ t, p c = true) (StartsNot p) where
  sound {s a rest} h := by
    unfold takeWhile1 at h
    split at h
    · cases h
    · rename_i hne
      cases h
      exact ⟨s.takeWhile p, List.takeWhile_append_dropWhile.symm, rfl, by simpa using hne,
        fun c hc => List.mem_takeWhile_imp hc⟩
  whole {t a rest} h hrest := by
    obtain ⟨rfl, hne, hall⟩ := h
    unfold takeWhile1
    rw [takeWhile_run hall hrest, dropWhile_run hall hrest, if_neg (by simpa using hne)]

theorem reads_separator : Reads separator (fun t _ => SeparatorText t) (StartsNot isLineBlank) := by
  have hcomma := (reads_character ',').bind (fun _ => reads_blanks) (fun _ _ _ _ _ _ => trivial)
  have hall := reads_blanks.bind (fun _ => hcomma) (by
    rintro - t - rest ⟨t₁, -, t₂, rfl, rfl, -⟩ -
    exact StartsNot.cons (by decide) _)
  refine hall.congr (fun t _ => ?_) (fun _ h => h)
  constructor
  · rintro ⟨before, -, -, rfl, hbefore, -, -, after, rfl, rfl, hafter⟩
    exact .mk hbefore hafter
  · rintro ⟨hbefore, hafter⟩
    exact ⟨_, (), _, rfl, hbefore, _, (), _, rfl, rfl, hafter⟩

theorem separator_misses {s : List Char} (h : ',' ∉ s) : separator.Misses s := by
  have hblanks : blanks s = .found () (s.dropWhile isLineBlank) := rfl
  have hmiss : (character ',').Misses (s.dropWhile isLineBlank) := by
    have hrest : ',' ∉ s.dropWhile isLineBlank := fun hmem => h (List.dropWhile_sublist _ |>.subset hmem)
    cases hs : s.dropWhile isLineBlank with
    | nil => exact ⟨_, rfl⟩
    | cons c rest =>
        rw [hs] at hrest
        have hc : c ≠ ',' := fun hc => hrest (hc ▸ List.mem_cons_self)
        exact ⟨⟨.char, c :: rest⟩, if_neg hc⟩
  obtain ⟨fault, hfault⟩ := bind_misses (fun _ => blanks) hmiss
  exact ⟨fault, (bind_of_found hblanks).trans hfault⟩

theorem reads_word : Reads word WordText (StartsNot Char.isDigit) where
  sound {s w rest} h := by
    simp only [word] at h
    split at h
    · cases h
    · rename_i hword
      cases h
      simp only [Bool.or_eq_true, List.isEmpty_iff, decide_eq_true_eq, not_or, Nat.not_le] at hword
      refine ⟨s.takeWhile Char.isDigit, List.takeWhile_append_dropWhile.symm, hword.1,
        fun c hc => List.mem_takeWhile_imp hc, ?_⟩
      rw [UInt32.toNat_ofNat_of_lt' hword.2]
  whole {t w rest} h hrest := by
    have hsmall : Decimal.digitsValue 0 t < UInt32.size := h.value ▸ w.toNat_lt_size
    simp only [word, takeWhile_run h.digits hrest, dropWhile_run h.digits hrest]
    rw [if_neg (by simpa using ⟨h.nonempty, hsmall⟩), h.value, UInt32.ofNat_toNat]

/-- A word is found or missed, and what is left of a text after it is a part of the text. -/
theorem word_found_or_misses (s : List Char) :
    (∃ w rest, word s = .found w rest ∧ rest ⊆ s) ∨ word.Misses s := by
  unfold word
  by_cases h : (s.takeWhile Char.isDigit).isEmpty ||
      UInt32.size ≤ Decimal.digitsValue 0 (s.takeWhile Char.isDigit)
  · exact Or.inr ⟨_, if_pos h⟩
  · exact Or.inl ⟨_, _, if_neg h, (List.dropWhile_sublist _).subset⟩

/-- A sign is taken off what cannot be taken for a sign itself. -/
theorem splitSign_of_signText {negative : Bool} {sign s : List Char} (h : SignText negative sign)
    (hs : StartsNot (fun c => c = '-' || c = '+') s) : Decimal.splitSign (sign ++ s) = (negative, s) := by
  cases h with
  | none =>
      cases s with
      | nil => rfl
      | cons c s =>
          have hc := hs c rfl
          simp only [Bool.or_eq_false_iff, decide_eq_false_iff_not] at hc
          unfold Decimal.splitSign
          split
          · rename_i heq
            exact absurd (List.cons.inj heq).1 hc.1
          · rename_i heq
            exact absurd (List.cons.inj heq).1 hc.2
          · rfl
  | plus => rfl
  | minus => rfl

theorem signText_of_splitSign (s : List Char) :
    ∃ sign, s = sign ++ (Decimal.splitSign s).2 ∧ SignText (Decimal.splitSign s).1 sign := by
  unfold Decimal.splitSign
  split
  · exact ⟨['-'], rfl, .minus⟩
  · exact ⟨['+'], rfl, .plus⟩
  · exact ⟨[], rfl, .none⟩

theorem DigitText.startsNot_sign {digits : List Char} (h : DigitText digits) (hnonempty : digits ≠ [])
    (s : List Char) : StartsNot (fun c => c = '-' || c = '+') (digits ++ s) := by
  refine StartsNot.append hnonempty (fun c hc => ?_) s
  have hdigit := h c hc
  simp only [Bool.or_eq_false_iff, decide_eq_false_iff_not]
  constructor <;> rintro rfl <;> cases hdigit

theorem reads_integer : Reads integer IntegerText (StartsNot Char.isDigit) where
  sound {s i rest} h := by
    obtain ⟨sign, hs, hsign⟩ := signText_of_splitSign s
    simp only [integer] at h
    generalize hi : (if (Decimal.splitSign s).1 = true then
      -(Decimal.digitsValue 0 ((Decimal.splitSign s).2.takeWhile Char.isDigit) : Int)
      else Decimal.digitsValue 0 ((Decimal.splitSign s).2.takeWhile Char.isDigit)) = n at h
    split at h
    · cases h
    · rename_i hinteger
      cases h
      simp only [Bool.or_eq_true, List.isEmpty_iff, decide_eq_true_eq, not_or, Int.not_lt] at hinteger
      refine ⟨sign ++ (Decimal.splitSign s).2.takeWhile Char.isDigit, ?_, .mk hsign hinteger.1.1
        (fun c hc => List.mem_takeWhile_imp hc) hi.symm hinteger.1.2 hinteger.2⟩
      rw [List.append_assoc, List.takeWhile_append_dropWhile, ← hs]
  whole {t i rest} h hrest := by
    obtain ⟨hsign, hnonempty, hdigits, hvalue, hlow, hhigh⟩ := h
    rename_i negative sign digits
    unfold integer
    rw [List.append_assoc, splitSign_of_signText hsign (hdigits.startsNot_sign hnonempty _)]
    simp only [takeWhile_run hdigits hrest, dropWhile_run hdigits hrest, ← hvalue]
    rw [if_neg]
    simp only [Bool.or_eq_true, List.isEmpty_iff, decide_eq_true_eq, not_or, Int.not_lt]
    exact ⟨⟨hnonempty, hlow⟩, hhigh⟩

/-- The digits in front of what is neither a digit nor a point are split off as they are written. -/
theorem splitMagnitude_of_magnitudeText {w f t tail : List Char} (h : MagnitudeText w f t)
    (hdigit : StartsNot Char.isDigit tail) (hpoint : StartsNot (· = '.') tail) :
    splitMagnitude (t ++ tail) = (w, f, tail) := by
  have hnone : Decimal.splitFraction tail = ([], tail) := by
    cases tail with
    | nil => rfl
    | cons c tail =>
        have hc : c ≠ '.' := by simpa using hpoint c rfl
        unfold Decimal.splitFraction
        split
        · rename_i heq
          exact absurd (List.cons.inj heq).1 hc
        · rfl
  cases h with
  | whole hnonempty hw =>
      simp only [splitMagnitude, Decimal.splitDigits, takeWhile_run hw hdigit, dropWhile_run hw hdigit, hnone]
  | point hnonempty hw hf =>
      have hdot : StartsNot Char.isDigit ('.' :: (f ++ tail)) := StartsNot.cons (by decide) _
      rw [List.append_assoc, List.cons_append]
      simp only [splitMagnitude, Decimal.splitDigits, takeWhile_run hw hdot, dropWhile_run hw hdot,
        Decimal.splitFraction, takeWhile_run hf hdigit, dropWhile_run hf hdigit]
  | fraction hnonempty hf =>
      have hdot : ('.' : Char).isDigit = false := by decide
      simp only [List.cons_append, splitMagnitude, Decimal.splitDigits, List.takeWhile_cons, List.dropWhile_cons,
        hdot, Bool.false_eq_true, if_false, Decimal.splitFraction, takeWhile_run hf hdigit,
        dropWhile_run hf hdigit]

theorem magnitudeText_of_splitMagnitude {s w f tail : List Char} (h : splitMagnitude s = (w, f, tail))
    (hnonempty : w ≠ [] ∨ f ≠ []) : ∃ t, s = t ++ tail ∧ MagnitudeText w f t := by
  have hs : s.takeWhile Char.isDigit ++ s.dropWhile Char.isDigit = s := List.takeWhile_append_dropWhile
  simp only [splitMagnitude, Decimal.splitDigits, Prod.mk.injEq] at h
  obtain ⟨hw, hf, htail⟩ := h
  have hwdigits : DigitText w := fun c hc => List.mem_takeWhile_imp (hw ▸ hc)
  rw [hw] at hs
  unfold Decimal.splitFraction at hf htail
  split at hf
  · rename_i u hu
    rw [hu] at htail
    simp only [Decimal.splitDigits] at hf htail
    have hfdigits : DigitText f := fun c hc => List.mem_takeWhile_imp (hf ▸ hc)
    have hu' : f ++ tail = u := by
      rw [← hf, ← htail]
      exact List.takeWhile_append_dropWhile
    rw [hu, ← hu'] at hs
    by_cases hempty : w = []
    · subst hempty
      exact ⟨'.' :: f, hs.symm, .fraction (hnonempty.resolve_left (by simp)) hfdigits⟩
    · exact ⟨w ++ '.' :: f, by rw [← hs, List.append_assoc, List.cons_append], .point hempty hwdigits hfdigits⟩
  · rename_i hdot
    have htail' : s.dropWhile Char.isDigit = tail := by
      rw [← htail]
      split
      · rename_i u hu
        exact absurd hu (hdot u)
      · rfl
    simp only at hf
    subst hf
    exact ⟨w, by rw [← hs, htail'], .whole (hnonempty.resolve_right (by simp)) hwdigits⟩

theorem MagnitudeText.ne_nil {w f t : List Char} (h : MagnitudeText w f t) : w ≠ [] ∨ f ≠ [] := by
  cases h with
  | whole hnonempty _ => exact Or.inl hnonempty
  | point hnonempty _ _ => exact Or.inl hnonempty
  | fraction hnonempty _ => exact Or.inr hnonempty

/-- A magnitude begins with a digit or with its point. -/
theorem MagnitudeText.startsNot_sign {w f t : List Char} (h : MagnitudeText w f t) (s : List Char) :
    StartsNot (fun c => c = '-' || c = '+') (t ++ s) := by
  cases h with
  | whole hnonempty hw => exact hw.startsNot_sign hnonempty s
  | point hnonempty hw _ =>
      rw [List.append_assoc]
      exact hw.startsNot_sign hnonempty _
  | fraction _ _ => exact StartsNot.cons (by decide) _

/-- After a magnitude comes the mark of an exponent or the end of the field. -/
theorem ExponentText.startsNot {negative : Bool} {digits t rest : List Char} {p : Char → Bool}
    (h : ExponentText negative digits t) (hend : StartsNot p rest) (hlower : p 'e' = false)
    (hupper : p 'E' = false) : StartsNot p (t ++ rest) := by
  cases h with
  | none => exact hend
  | some hmark _ _ _ =>
      rcases hmark with rfl | rfl
      · exact StartsNot.cons hlower _
      · exact StartsNot.cons hupper _

theorem number_of_decimal {negative exponentNegative : Bool}
    {sign whole fraction magnitude digits exponent rest : List Char} (hsign : SignText negative sign)
    (hmagnitude : MagnitudeText whole fraction magnitude)
    (hexponent : ExponentText exponentNegative digits exponent) (hrest : FieldEnd rest) :
    number (sign ++ (magnitude ++ (exponent ++ rest))) =
      .found (Decimal.Written.toFloat ⟨negative, whole, fraction, exponentNegative, digits⟩) rest := by
  have hsplit : splitMagnitude (magnitude ++ (exponent ++ rest)) = (whole, fraction, exponent ++ rest) :=
    splitMagnitude_of_magnitudeText hmagnitude
      (hexponent.startsNot hrest.startsNot_digit (by decide) (by decide))
      (hexponent.startsNot (hrest.startsNot (by decide) (by decide) (by decide)) (by decide) (by decide))
  have hnonempty : ¬ (whole.isEmpty && fraction.isEmpty) = true := by
    simpa only [Bool.and_eq_true, List.isEmpty_iff, not_and_or] using hmagnitude.ne_nil
  unfold number
  simp only [splitSign_of_signText hsign (hmagnitude.startsNot_sign _), hsplit]
  rw [if_neg hnonempty]
  cases hexponent with
  | none =>
      rw [List.nil_append]
      cases rest with
      | nil => rfl
      | cons c rest =>
          -- what ends the field is not taken for the mark of an exponent
          have hmark : StartsNot (fun c => c = 'e' ∨ c = 'E') (c :: rest) :=
            hrest.startsNot (by decide) (by decide) (by decide)
          have hc : ¬ (c = 'e' ∨ c = 'E') := by simpa using hmark c rfl
          simp only [if_neg hc]
  | some hmark hesign hdigits hdigit =>
      rename_i mark esign
      have hend : StartsNot Char.isDigit rest := hrest.startsNot_digit
      have hsome : ¬ digits.isEmpty = true := by simpa using hdigits
      simp only [List.cons_append, List.append_assoc, if_pos hmark,
        splitSign_of_signText hesign (hdigit.startsNot_sign hdigits _), Decimal.splitDigits,
        takeWhile_run hdigit hend, dropWhile_run hdigit hend, if_neg hsome]

/-- What a decimal number begins with. -/
def beginsDecimal (c : Char) : Bool :=
  c.isDigit || c = '.' || c = '-' || c = '+'

/-- What a decimal number begins with has no other case. -/
theorem toLower_of_beginsDecimal {c : Char} (h : beginsDecimal c = true) : c.toLower = c := by
  simp only [beginsDecimal, Bool.or_eq_true, decide_eq_true_eq] at h
  rcases h with ((hdigit | rfl) | rfl) | rfl
  · unfold Char.toLower
    rw [dif_neg]
    rintro ⟨hlow, -⟩
    simp only [Char.isDigit, Bool.and_eq_true, decide_eq_true_eq] at hdigit
    exact absurd (UInt32.le_trans hlow hdigit.2) (by decide)
  all_goals rfl

section NoDecimal

variable {s : List Char} (h : StartsNot beginsDecimal s)

include h

theorem splitSign_eq_self : Decimal.splitSign s = (false, s) := by
  refine splitSign_of_signText .none fun c hc => ?_
  have hno := h c hc
  simp only [beginsDecimal, Bool.or_eq_false_iff] at hno
  exact Bool.or_eq_false_iff.2 ⟨hno.1.2, hno.2⟩

theorem splitMagnitude_eq_self : splitMagnitude s = ([], [], s) := by
  cases s with
  | nil => rfl
  | cons c s =>
      have hno := h c rfl
      simp only [beginsDecimal, Bool.or_eq_false_iff, decide_eq_false_iff_not] at hno
      have hfraction : Decimal.splitFraction (c :: s) = ([], c :: s) := by
        unfold Decimal.splitFraction
        split
        · rename_i heq
          exact absurd (List.cons.inj heq).1 hno.1.1.2
        · rfl
      simp only [splitMagnitude, Decimal.splitDigits, List.takeWhile_cons, List.dropWhile_cons, hno.1.1.1,
        Bool.false_eq_true, if_false, hfraction]

/-- Where no decimal number begins, a word is looked for. -/
theorem number_eq_numberWord : number s = numberWord s := by
  unfold number
  simp only [splitSign_eq_self h, splitMagnitude_eq_self h, List.isEmpty_nil, Bool.and_self, if_true]

end NoDecimal

/-- What is written in letters that no decimal number begins with is a word. -/
theorem number_of_letters {t w : List Char} (h : t.map Char.toLower = w) (hw : w ≠ [])
    (hletters : w.any beginsDecimal = false) (rest : List Char) :
    number (t ++ rest) = numberWord (t ++ rest) :=
  number_eq_numberWord (StartsNot.of_toLower (fun _ => toLower_of_beginsDecimal) h hw hletters rest)

theorem numberWord_eq {t rest : List Char} (ht : t.length = 3) :
    numberWord (t ++ rest) =
      if t.map Char.toLower = ['n', 'a', 'n'] then .found Decimal.nan rest
      else if t.map Char.toLower = ['i', 'n', 'f'] then .found (Decimal.infinite false) rest
      else .missed ⟨.float, t ++ rest⟩ := by
  unfold numberWord
  rw [List.take_left' ht, List.drop_left' ht]

theorem number_whole {t rest : List Char} {x : Float} (h : NumberText t x) (hrest : FieldEnd rest) :
    number (t ++ rest) = .found x rest := by
  have hlength : ∀ {w : List Char}, t.map Char.toLower = w → t.length = w.length :=
    fun hw => by rw [← hw, List.length_map]
  cases h with
  | decimal hsign hmagnitude hexponent =>
      rw [List.append_assoc, List.append_assoc]
      exact number_of_decimal hsign hmagnitude hexponent hrest
  | nan h =>
      rw [number_of_letters h (by simp) rfl, numberWord_eq (hlength h), if_pos h]
  | infinite h =>
      rw [number_of_letters h (by simp) rfl, numberWord_eq (hlength h), if_neg (by rw [h]; decide), if_pos h]

theorem numberWord_sound {s rest : List Char} {x : Float} (h : numberWord s = .found x rest) :
    ∃ t, s = t ++ rest ∧ NumberText t x := by
  unfold numberWord at h
  simp only at h
  split at h
  · rename_i hword
    cases h
    exact ⟨s.take 3, (List.take_append_drop 3 s).symm, .nan hword⟩
  · split at h
    · rename_i hword
      cases h
      exact ⟨s.take 3, (List.take_append_drop 3 s).symm, .infinite hword⟩
    · cases h

theorem number_sound {s rest : List Char} {x : Float} (h : number s = .found x rest) :
    ∃ t, s = t ++ rest ∧ NumberText t x := by
  obtain ⟨sign, hs, hsign⟩ := signText_of_splitSign s
  generalize hsplit : splitMagnitude (Decimal.splitSign s).2 = split at h
  obtain ⟨whole, fraction, tail⟩ := split
  unfold number at h
  simp only [hsplit] at h
  split at h
  · exact numberWord_sound h
  · rename_i hnonempty
    simp only [Bool.and_eq_true, List.isEmpty_iff, not_and_or] at hnonempty
    obtain ⟨magnitude, htail, hmagnitude⟩ := magnitudeText_of_splitMagnitude hsplit hnonempty
    rw [htail] at hs
    have hplain : NumberText (sign ++ (magnitude ++ []))
        (Decimal.Written.toFloat ⟨(Decimal.splitSign s).1, whole, fraction, false, []⟩) :=
      .decimal hsign hmagnitude .none
    split at h
    · rename_i c afterMark
      split at h
      · rename_i hmark
        obtain ⟨esign, hafter, hesign⟩ := signText_of_splitSign afterMark
        split at h
        · cases h
        · rename_i hdigits
          cases h
          refine ⟨_, ?_, .decimal hsign hmagnitude (.some hmark hesign (by simpa using hdigits)
            fun d hd => List.mem_takeWhile_imp hd)⟩
          simp only [List.append_assoc, List.cons_append, Decimal.splitDigits, List.takeWhile_append_dropWhile]
          rw [← hafter]
          exact hs
      · cases h
        exact ⟨_, by simpa using hs, hplain⟩
    · cases h
      exact ⟨_, by simpa using hs, hplain⟩

theorem reads_number : Reads number NumberText FieldEnd :=
  ⟨number_sound, number_whole⟩

section Beginnings

theorem DigitText.startsNot_blank {t : List Char} (h : DigitText t) (hnonempty : t ≠ []) (s : List Char) :
    StartsNot isLineBlank (t ++ s) :=
  StartsNot.append hnonempty (fun _ hc => not_isLineBlank_of_isDigit (h _ hc)) s

theorem SignText.startsNot_blank {negative : Bool} {t s : List Char} (h : SignText negative t)
    (hs : StartsNot isLineBlank s) : StartsNot isLineBlank (t ++ s) := by
  cases h with
  | none => exact hs
  | plus => exact StartsNot.cons (by decide) s
  | minus => exact StartsNot.cons (by decide) s

theorem WordText.startsNot_blank {t : List Char} {w : UInt32} (h : WordText t w) (s : List Char) :
    StartsNot isLineBlank (t ++ s) :=
  h.digits.startsNot_blank h.nonempty s

theorem IntegerText.startsNot_blank {t : List Char} {i : Int} (h : IntegerText t i) (s : List Char) :
    StartsNot isLineBlank (t ++ s) := by
  obtain ⟨hsign, hnonempty, hdigits, -, -, -⟩ := h
  rw [List.append_assoc]
  exact hsign.startsNot_blank (hdigits.startsNot_blank hnonempty s)

theorem MagnitudeText.startsNot_blank {w f t : List Char} (h : MagnitudeText w f t) (s : List Char) :
    StartsNot isLineBlank (t ++ s) := by
  cases h with
  | whole hnonempty hw => exact hw.startsNot_blank hnonempty s
  | point hnonempty hw _ =>
      rw [List.append_assoc]
      exact hw.startsNot_blank hnonempty _
  | fraction _ _ => exact StartsNot.cons (by decide) _

theorem NumberText.startsNot_blank {t : List Char} {x : Float} (h : NumberText t x) (s : List Char) :
    StartsNot isLineBlank (t ++ s) := by
  have hblank : ∀ c, isLineBlank c = true → c.toLower = c := by
    intro c hc
    simp only [isLineBlank, Bool.or_eq_true, decide_eq_true_eq] at hc
    rcases hc with rfl | rfl
    · rfl
    · rfl
  cases h with
  | decimal hsign hmagnitude _ =>
      rw [List.append_assoc, List.append_assoc]
      exact hsign.startsNot_blank (hmagnitude.startsNot_blank _)
  | nan h => exact StartsNot.of_toLower hblank h (by simp) rfl s
  | infinite h => exact StartsNot.of_toLower hblank h (by simp) rfl s

end Beginnings

theorem reads_firstWord : Reads firstWord FirstWordText FieldEnd := by
  have hall := reads_blanks.bind (fun _ => reads_word) (fun _ _ _ rest h _ => h.startsNot_blank rest)
  refine hall.congr (fun t w => ?_) (fun _ h => h.startsNot_digit)
  constructor
  · rintro ⟨blank, -, word, rfl, hblank, hword⟩
    exact .mk hblank hword
  · rintro ⟨hblank, hword⟩
    exact ⟨_, (), _, rfl, hblank, hword⟩

/-- A field after its separator, if its texts do not begin with a blank. -/
theorem reads_next {α : Type} {p : Parser α} {G : List Char → α → Prop} {follow : List Char → Prop}
    (hp : Reads p G follow) (hfollow : ∀ s, FieldEnd s → follow s)
    (hbegin : ∀ {t a}, G t a → ∀ s, StartsNot isLineBlank (t ++ s)) :
    Reads (separator >>= fun _ => p) (NextText G) FieldEnd := by
  have hall := reads_separator.bind (fun _ => hp) (fun _ _ _ rest h _ => hbegin h rest)
  refine hall.congr (fun t a => ?_) hfollow
  constructor
  · rintro ⟨sep, -, field, rfl, hsep, hfield⟩
    exact .mk hsep hfield
  · rintro ⟨hsep, hfield⟩
    exact ⟨_, (), _, rfl, hsep, hfield⟩

theorem reads_nextWord : Reads nextWord (NextText WordText) FieldEnd :=
  reads_next reads_word (fun _ h => h.startsNot_digit) WordText.startsNot_blank

theorem reads_nextNumber : Reads nextNumber (NextText NumberText) FieldEnd :=
  reads_next reads_number (fun _ h => h) NumberText.startsNot_blank

theorem reads_nextInteger : Reads (separator >>= fun _ => integer) (NextText IntegerText) FieldEnd :=
  reads_next reads_integer (fun _ h => h.startsNot_digit) IntegerText.startsNot_blank

end UwbRanging.Telemetry
