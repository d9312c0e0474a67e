import UwbRanging.Proofs.Telemetry.Fields

/-!
The lines of ranges and of distance differences. Both have forms with different fields, which are tried one after
another. No line is written in two forms, and trying one form first never loses a line of the other.
-/

namespace UwbRanging.Telemetry

open UwbRanging.Telemetry.Parser

/-- The forms in which a node prints what it computed. -/
inductive RangeForm where
  | bare
  | withParameter
  | withOffset
  deriving DecidableEq, Repr

/-- How many fields a form adds to the bare one. -/
def RangeForm.added : RangeForm → Nat
  | bare => 0
  | withParameter => 1
  | withOffset => 2

/-- What is written after the mark of a range: the other node, the range, and between and after them what the form
adds. -/
inductive TwoWayRangeText : RangeForm → List Char → TelemetryLine Float → Prop where
  | bare {t₁ t₂ : List Char} {other : UInt32} {range : Float} (hother : FirstWordText t₁ other)
      (hrange : NextText NumberText t₂ range) :
      TwoWayRangeText .bare (t₁ ++ t₂) (.twoWayRange other 0 range none)
  | withParameter {t₁ t₂ t₃ : List Char} {other parameter : UInt32} {range : Float}
      (hother : FirstWordText t₁ other) (hparameter : NextText WordText t₂ parameter)
      (hrange : NextText NumberText t₃ range) :
      TwoWayRangeText .withParameter (t₁ ++ (t₂ ++ t₃)) (.twoWayRange other parameter range none)
  | withOffset {t₁ t₂ t₃ t₄ : List Char} {other parameter : UInt32} {range : Float} {offset : Int}
      (hother : FirstWordText t₁ other) (hparameter : NextText WordText t₂ parameter)
      (hrange : NextText NumberText t₃ range) (hoffset : NextText IntegerText t₄ offset) :
      TwoWayRangeText .withOffset (t₁ ++ (t₂ ++ (t₃ ++ t₄)))
        (.twoWayRange other parameter range (some offset))

/-- What is written after the mark of a distance difference. No offset is ever added to it. -/
inductive TdoaText : RangeForm → List Char → TelemetryLine Float → Prop where
  | bare {t₁ t₂ t₃ : List Char} {anchor1 anchor2 : UInt32} {range : Float} (hanchor1 : FirstWordText t₁ anchor1)
      (hanchor2 : NextText WordText t₂ anchor2) (hrange : NextText NumberText t₃ range) :
      TdoaText .bare (t₁ ++ (t₂ ++ t₃)) (.tdoa anchor1 anchor2 0 range)
  | withParameter {t₁ t₂ t₃ t₄ : List Char} {anchor1 anchor2 parameter : UInt32} {range : Float}
      (hanchor1 : FirstWordText t₁ anchor1) (hanchor2 : NextText WordText t₂ anchor2)
      (hparameter : NextText WordText t₃ parameter) (hrange : NextText NumberText t₄ range) :
      TdoaText .withParameter (t₁ ++ (t₂ ++ (t₃ ++ t₄))) (.tdoa anchor1 anchor2 parameter range)

section Commas

variable {form : RangeForm} {t : List Char} {line : TelemetryLine Float}

theorem TwoWayRangeText.count_comma (h : TwoWayRangeText form t line) : t.count ',' = 1 + form.added := by
  cases h with
  | bare hother hrange =>
      rw [List.count_append, hother.count_comma, hrange.count_comma NumberText.count_comma]
      rfl
  | withParameter hother hparameter hrange =>
      rw [List.count_append, List.count_append, hother.count_comma, hparameter.count_comma WordText.count_comma,
        hrange.count_comma NumberText.count_comma]
      rfl
  | withOffset hother hparameter hrange hoffset =>
      rw [List.count_append, List.count_append, List.count_append, hother.count_comma,
        hparameter.count_comma WordText.count_comma, hrange.count_comma NumberText.count_comma,
        hoffset.count_comma IntegerText.count_comma]
      rfl

theorem TdoaText.count_comma (h : TdoaText form t line) : t.count ',' = 2 + form.added := by
  cases h with
  | bare hanchor1 hanchor2 hrange =>
      rw [List.count_append, List.count_append, hanchor1.count_comma, hanchor2.count_comma WordText.count_comma,
        hrange.count_comma NumberText.count_comma]
      rfl
  | withParameter hanchor1 hanchor2 hparameter hrange =>
      rw [List.count_append, List.count_append, List.count_append, hanchor1.count_comma,
        hanchor2.count_comma WordText.count_comma, hparameter.count_comma WordText.count_comma,
        hrange.count_comma NumberText.count_comma]
      rfl

theorem RangeForm.added_injective {f g : RangeForm} (h : f.added = g.added) : f = g := by
  cases f <;> cases g <;> first | rfl | cases h

end Commas

/-- The first alternative for a range. -/
def rangeWithParameter : Parser (TelemetryLine Float) := do
  let other ← firstWord
  let parameter ← nextWord
  let range ← nextNumber
  return .twoWayRange other parameter range (← optional do separator; integer)

/-- The second alternative for a range. -/
def bareRange : Parser (TelemetryLine Float) := do
  let other ← firstWord
  return .twoWayRange other 0 (← nextNumber) none

theorem twoWayRangeBody_eq : twoWayRangeBody = (rangeWithParameter <|> bareRange) := rfl

/-- The first alternative for a distance difference. -/
def tdoaWithParameter : Parser (TelemetryLine Float) := do
  let anchor1 ← firstWord
  let anchor2 ← nextWord
  let parameter ← nextWord
  return .tdoa anchor1 anchor2 parameter (← nextNumber)

/-- The second alternative for a distance difference. -/
def bareTdoa : Parser (TelemetryLine Float) := do
  let anchor1 ← firstWord
  let anchor2 ← nextWord
  return .tdoa anchor1 anchor2 0 (← nextNumber)

theorem tdoaBody_eq : tdoaBody = (tdoaWithParameter <|> bareTdoa) := rfl

theorem reads_rangeWithParameter :
    Reads rangeWithParameter
      (fun t line => TwoWayRangeText .withParameter t line ∨ TwoWayRangeText .withOffset t line) (· = []) := by
  have hoffset (other parameter : UInt32) (range : Float) :=
    (reads_nextInteger.optional FieldEnd.nil (bind_misses _ (separator_misses List.not_mem_nil))).map
      (TelemetryLine.twoWayRange other parameter range)
  have hrange (other parameter : UInt32) := reads_nextNumber.bind (hoffset other parameter) (by
    rintro range t line rest ⟨offset, ⟨rfl, -⟩ | ⟨i, h, -⟩, -⟩ rfl
    · exact FieldEnd.nil
    · exact h.fieldEnd [])
  have hparameter (other : UInt32) := reads_nextWord.bind (hrange other) (by
    rintro parameter - line rest ⟨t₁, range, t₂, rfl, h, -⟩ -
    exact h.fieldEnd_append t₂ rest)
  have hall := reads_firstWord.bind hparameter (by
    rintro other - line rest ⟨t₁, parameter, t₂, rfl, h, -⟩ -
    exact h.fieldEnd_append t₂ rest)
  refine hall.congr (fun t line => ?_) (fun _ h => h)
  constructor
  · rintro ⟨t₁, other, -, rfl, ho, t₂, parameter, -, rfl, hp, t₃, range, t₄, rfl, hr, offset, hopt, rfl⟩
    rcases hopt with ⟨rfl, rfl⟩ | ⟨i, hi, rfl⟩
    · rw [List.append_nil]
      exact Or.inl (.withParameter ho hp hr)
    · exact Or.inr (.withOffset ho hp hr hi)
  · rintro (h | h)
    · cases h with
      | withParameter ho hp hr =>
          exact ⟨_, _, _, rfl, ho, _, _, _, rfl, hp, _, _, [], (List.append_nil _).symm, hr, none,
            Or.inl ⟨rfl, rfl⟩, rfl⟩
    · cases h with
      | withOffset ho hp hr hi =>
          exact ⟨_, _, _, rfl, ho, _, _, _, rfl, hp, _, _, _, rfl, hr, some _, Or.inr ⟨_, hi, rfl⟩, rfl⟩

theorem reads_bareRange : Reads bareRange (TwoWayRangeText .bare) (· = []) := by
  have hnumber (other : UInt32) :=
    reads_nextNumber.map fun range => TelemetryLine.twoWayRange other 0 range none
  have hall := reads_firstWord.bind hnumber (by
    rintro other t line rest ⟨range, h, -⟩ -
    exact h.fieldEnd rest)
  refine hall.congr (fun t line => ?_) (fun _ h => h ▸ FieldEnd.nil)
  constructor
  · rintro ⟨t₁, other, t₂, rfl, ho, range, hr, rfl⟩
    exact .bare ho hr
  · intro h
    cases h with
    | bare ho hr => exact ⟨_, _, _, rfl, ho, _, hr, rfl⟩

theorem reads_tdoaWithParameter : Reads tdoaWithParameter (TdoaText .withParameter) (· = []) := by
  have hrange (anchor1 anchor2 : UInt32) := reads_nextWord.bind
    (fun parameter => reads_nextNumber.map (TelemetryLine.tdoa anchor1 anchor2 parameter)) (by
      rintro parameter t line rest ⟨range, h, -⟩ -
      exact h.fieldEnd rest)
  have hparameter (anchor1 : UInt32) := reads_nextWord.bind (hrange anchor1) (by
    rintro anchor2 - line rest ⟨t₁, parameter, t₂, rfl, h, -⟩ -
    exact h.fieldEnd_append t₂ rest)
  have hall := reads_firstWord.bind hparameter (by
    rintro anchor1 - line rest ⟨t₁, anchor2, t₂, rfl, h, -⟩ -
    exact h.fieldEnd_append t₂ rest)
  refine hall.congr (fun t line => ?_) (fun _ h => h ▸ FieldEnd.nil)
  constructor
  · rintro ⟨t₁, anchor1, -, rfl, h₁, t₂, anchor2, -, rfl, h₂, t₃, parameter, t₄, rfl, hp, range, hr, rfl⟩
    exact .withParameter h₁ h₂ hp hr
  · intro h
    cases h with
    | withParameter h₁ h₂ hp hr => exact ⟨_, _, _, rfl, h₁, _, _, _, rfl, h₂, _, _, _, rfl, hp, _, hr, rfl⟩

theorem reads_bareTdoa : Reads bareTdoa (TdoaText .bare) (· = []) := by
  have hrange (anchor1 : UInt32) := reads_nextWord.bind
    (fun anchor2 => reads_nextNumber.map (TelemetryLine.tdoa anchor1 anchor2 0)) (by
      rintro anchor2 t line rest ⟨range, h, -⟩ -
      exact h.fieldEnd rest)
  have hall := reads_firstWord.bind hrange (by
    rintro anchor1 - line rest ⟨t₁, anchor2, t₂, rfl, h, -⟩ -
    exact h.fieldEnd_append t₂ rest)
  refine hall.congr (fun t line => ?_) (fun _ h => h ▸ FieldEnd.nil)
  constructor
  · rintro ⟨t₁, anchor1, -, rfl, h₁, t₂, anchor2, t₃, rfl, h₂, range, hr, rfl⟩
    exact .bare h₁ h₂ hr
  · intro h
    cases h with
    | bare h₁ h₂ hr => exact ⟨_, _, _, rfl, h₁, _, _, _, rfl, h₂, _, hr, rfl⟩

/-- A parameter and a range are missed where a number is the last field: no separator comes after its digits. -/
theorem parameter_and_range_miss {t : List Char} {x : Float} (h : NextText NumberText t x)
    (f : UInt32 → Float → Parser (TelemetryLine Float)) :
    (nextWord >>= fun parameter => nextNumber >>= f parameter).Misses t := by
  obtain ⟨hsep, hx⟩ := h
  rename_i sep field
  have hseparator : separator (sep ++ field) = .found () field :=
    reads_separator.whole (a := ()) hsep (by simpa using hx.startsNot_blank [])
  have hcomma : ',' ∉ field := List.count_eq_zero.1 hx.count_comma
  -- the digits at the front of the number may be taken for a parameter, but then no range follows
  rcases word_found_or_misses field with ⟨w, rest, hw, hrest⟩ | hmiss
  · have hword : nextWord (sep ++ field) = .found w rest := (bind_of_found hseparator).trans hw
    have hnumber : nextNumber.Misses rest := bind_misses _ (separator_misses fun hmem => hcomma (hrest hmem))
    obtain ⟨fault, hfault⟩ := bind_misses (f w) hnumber
    exact ⟨fault, (bind_of_found hword).trans hfault⟩
  · obtain ⟨fault, hfault⟩ := hmiss
    exact bind_misses _ ⟨fault, (bind_of_found hseparator).trans hfault⟩

/-- The first alternative leaves a bare range to the second one: it neither takes a part of it nor cuts it off. -/
theorem rangeWithParameter_misses {t : List Char} {line : TelemetryLine Float} (h : TwoWayRangeText .bare t line) :
    rangeWithParameter.Misses t := by
  cases h with
  | bare ho hr =>
      rename_i t₁ t₂ other range
      have hother : firstWord (t₁ ++ t₂) = .found other t₂ :=
        reads_firstWord.whole ho (by simpa using hr.fieldEnd [])
      obtain ⟨fault, hfault⟩ := parameter_and_range_miss hr fun parameter range =>
        (optional do separator; integer) >>= fun offset => pure (.twoWayRange other parameter range offset)
      exact ⟨fault, (bind_of_found hother).trans hfault⟩

theorem tdoaWithParameter_misses {t : List Char} {line : TelemetryLine Float} (h : TdoaText .bare t line) :
    tdoaWithParameter.Misses t := by
  cases h with
  | bare h₁ h₂ hr =>
      rename_i t₁ t₂ t₃ anchor1 anchor2 range
      have hanchor1 : firstWord (t₁ ++ (t₂ ++ t₃)) = .found anchor1 (t₂ ++ t₃) :=
        reads_firstWord.whole h₁ (h₂.fieldEnd t₃)
      have hanchor2 : nextWord (t₂ ++ t₃) = .found anchor2 t₃ :=
        reads_nextWord.whole h₂ (by simpa using hr.fieldEnd [])
      obtain ⟨fault, hfault⟩ := parameter_and_range_miss hr fun parameter range =>
        pure (.tdoa anchor1 anchor2 parameter range)
      exact ⟨fault, (bind_of_found hanchor1).trans ((bind_of_found hanchor2).trans hfault)⟩

/-- A range is read in the form that it is written in. -/
theorem reads_twoWayRangeBody :
    Reads twoWayRangeBody (fun t line => ∃ form, TwoWayRangeText form t line) (· = []) := by
  rw [twoWayRangeBody_eq]
  have hall := reads_rangeWithParameter.orElse reads_bareRange fun t line rest h hrest => by
    rw [hrest, List.append_nil]
    exact rangeWithParameter_misses h
  refine hall.congr (fun t line => ?_) (fun _ h => h)
  constructor
  · rintro ((h | h) | h) <;> exact ⟨_, h⟩
  · rintro ⟨form, h⟩
    cases form with
    | bare => exact Or.inr h
    | withParameter => exact Or.inl (Or.inl h)
    | withOffset => exact Or.inl (Or.inr h)

/-- A distance difference is read in the form that it is written in. -/
theorem reads_tdoaBody : Reads tdoaBody (fun t line => ∃ form, TdoaText form t line) (· = []) := by
  rw [tdoaBody_eq]
  have hall := reads_tdoaWithParameter.orElse reads_bareTdoa fun t line rest h hrest => by
    rw [hrest, List.append_nil]
    exact tdoaWithParameter_misses h
  refine hall.congr (fun t line => ?_) (fun _ h => h)
  constructor
  · rintro (h | h) <;> exact ⟨_, h⟩
  · rintro ⟨form, h⟩
    cases form with
    | bare => exact Or.inr h
    | withParameter => exact Or.inl h
    | withOffset => cases h

section Uniqueness

variable {f g : RangeForm} {t : List Char} {a b : TelemetryLine Float}

theorem TwoWayRangeText.unique (ha : TwoWayRangeText f t a) (hb : TwoWayRangeText g t b) : f = g ∧ a = b := by
  have hcommas := ha.count_comma.symm.trans hb.count_comma
  exact ⟨RangeForm.added_injective (by omega), reads_twoWayRangeBody.value_unique rfl ⟨f, ha⟩ ⟨g, hb⟩⟩

theorem TdoaText.unique (ha : TdoaText f t a) (hb : TdoaText g t b) : f = g ∧ a = b := by
  have hcommas := ha.count_comma.symm.trans hb.count_comma
  exact ⟨RangeForm.added_injective (by omega), reads_tdoaBody.value_unique rfl ⟨f, ha⟩ ⟨g, hb⟩⟩

end Uniqueness

section Decoding

variable {G : List Char → TelemetryLine Float → Prop} {s : String} {rest : List Char}

/-- No mark is the beginning of another one. -/
theorem splitKind_mark (kind : LineKind) (rest : List Char) :
    splitKind (kind.mark.toList ++ rest) = some (kind, rest) := by
  cases kind <;> rfl

/-- If the body of a kind reads exactly a grammar, a line of the kind is accepted if and only if all of it after the
mark is a text of the grammar. -/
theorem decode_eq_ok_iff (kind : LineKind) (hreads : Reads (body kind) G (· = []))
    (hmark : Text.trim s.toList = kind.mark.toList ++ rest) (line : TelemetryLine Float) :
    decode s = .ok line ↔ G rest line := by
  have hbody : decode s = .ok line ↔ (body kind).complete rest = .found line [] := by
    unfold decode decodeTrimmed
    rw [hmark, splitKind_mark]
    constructor
    · intro h
      simp only at h
      split at h
      · rename_i decoded left hfound
        cases h
        rw [hfound, ((hreads.complete_eq_found_iff rfl).1 hfound).2]
      · cases h
      · cases h
    · intro h
      simp only [h]
  rw [hbody, hreads.complete_eq_found_iff rfl]
  exact and_iff_left rfl

end Decoding

/-- Lines of ranges and of distance differences are accepted if and only if all of the text after the mark is written
in one of the forms, the value has what is written in that form, and no text is written in two forms or has two
values. -/
theorem range_lines_decode_exactly (s : String) (rest : List Char) :
    (Text.trim s.toList = "TW,".toList ++ rest →
      (∀ line, decode s = .ok line ↔ ∃ form, TwoWayRangeText form rest line) ∧
      ∀ f g a b, TwoWayRangeText f rest a → TwoWayRangeText g rest b → f = g ∧ a = b) ∧
    (Text.trim s.toList = "TD,".toList ++ rest →
      (∀ line, decode s = .ok line ↔ ∃ form, TdoaText form rest line) ∧
      ∀ f g a b, TdoaText f rest a → TdoaText g rest b → f = g ∧ a = b) := by
  constructor
  · intro hmark
    exact ⟨decode_eq_ok_iff .twoWayRange reads_twoWayRangeBody hmark, fun _ _ _ _ => TwoWayRangeText.unique⟩
  · intro hmark
    exact ⟨decode_eq_ok_iff .tdoa reads_tdoaBody hmark, fun _ _ _ _ => TdoaText.unique⟩

/-- A range with an offset, and a distance difference without a parameter in front of it. -/
theorem range_lines_decode_with_offset_and_bare :
    decode "TW, 206, 3, -17.5e1, -12" =
      .ok (.twoWayRange 206 3 (Decimal.Written.toFloat ⟨true, ['1', '7'], ['5'], false, ['1']⟩) (some (-12))) ∧
    decode "TD,69 ,70,nan" = .ok (.tdoa 69 70 0 Decimal.nan) := by
  have hblank : BlankText [' '] := by decide
  have hnone : BlankText [] := by decide
  have hcomma : SeparatorText [',', ' '] := .mk hnone hblank
  constructor
  · have hother : FirstWordText [' ', '2', '0', '6'] 206 := .mk hblank ⟨by simp, by decide, by decide⟩
    have hparameter : NextText WordText [',', ' ', '3'] 3 := .mk hcomma ⟨by simp, by decide, by decide⟩
    have hmagnitude : MagnitudeText ['1', '7'] ['5'] ['1', '7', '.', '5'] :=
      .point (w := ['1', '7']) (by simp) (by decide) (by decide)
    have hexponent : ExponentText false ['1'] ['e', '1'] := .some (Or.inl rfl) .none (by simp) (by decide)
    have hnumber := NumberText.decimal .minus hmagnitude hexponent
    have hoffset : IntegerText ['-', '1', '2'] (-12) :=
      .mk .minus (by simp) (by decide) (by decide) (by decide) (by decide)
    refine (((range_lines_decode_exactly _ _).1 ?_).1 _).2
      ⟨.withOffset, .withOffset hother hparameter (.mk hcomma hnumber) (.mk hcomma hoffset)⟩
    decide
  · have hanchor1 : FirstWordText ['6', '9'] 69 := .mk hnone ⟨by simp, by decide, by decide⟩
    have hanchor2 : NextText WordText [' ', ',', '7', '0'] 70 :=
      .mk (.mk hblank hnone) ⟨by simp, by decide, by decide⟩
    have hnumber : NumberText ['n', 'a', 'n'] Decimal.nan := .nan (by decide)
    refine (((range_lines_decode_exactly _ _).2 ?_).1 _).2
      ⟨.bare, .bare hanchor1 hanchor2 (.mk (.mk hnone hnone) hnumber)⟩
    decide

end UwbRanging.Telemetry
