import UwbRanging.Proofs.Telemetry.Lines

/-!
Where parsers go on and where they give up. What is left behind a value and what a fault points at are both an end of
the text that a parser was given, also where another parser was tried in vain before. So the reason why a line is
malformed quotes an end of that line.
-/

namespace UwbRanging.Telemetry

/-- The text behind what was found, or the text in which something was looked for in vain. -/
def Outcome.position {α : Type} : Outcome α → List Char
  | .found _ rest => rest
  | .missed fault => fault.text
  | .aborted fault => fault.text

namespace Parser

variable {α β : Type}

/-- Whatever comes of it, the parser goes on or gives up at an end of the text. -/
def KeepsToText (p : Parser α) : Prop :=
  ∀ s, (p s).position <:+ s

namespace KeepsToText

variable {p : Parser α}

theorem pure (a : α) : KeepsToText (Pure.pure a : Parser α) :=
  fun s => List.suffix_refl s

/-- The second parser goes on where the first one left off. -/
theorem bind {f : α → Parser β} (hp : p.KeepsToText) (hf : ∀ a, (f a).KeepsToText) : (p >>= f).KeepsToText := by
  intro s
  have h := hp s
  cases hs : p s with
  | found a rest =>
      rw [hs] at h
      rw [bind_of_found hs]
      exact (hf a rest).trans h
  | missed fault =>
      rw [hs] at h
      rw [bind_of_missed f hs]
      exact h
  | aborted fault =>
      rw [hs] at h
      rw [bind_of_aborted f hs]
      exact h

theorem map (hp : p.KeepsToText) (f : α → β) : (p >>= fun a => Pure.pure (f a)).KeepsToText :=
  hp.bind fun a => pure (f a)

/-- The second parser is given the whole text again. -/
theorem orElse {q : Parser α} (hp : p.KeepsToText) (hq : q.KeepsToText) : (p <|> q).KeepsToText := by
  intro s
  change (Parser.orElse p (fun _ => q) s).position <:+ s
  have h := hp s
  unfold Parser.orElse
  split
  · exact hq s
  · exact h

theorem optional (hp : p.KeepsToText) : p.optional.KeepsToText := by
  intro s
  have h := hp s
  unfold Parser.optional
  split <;> rename_i hs <;> rw [hs] at h
  · exact h
  · exact List.suffix_refl s
  · exact h

/-- An item that is missed is looked for at the end of the items before it, and that is where they end. -/
theorem manyWithin (hp : p.KeepsToText) (fuel : Nat) : (manyWithin p fuel).KeepsToText := by
  induction fuel with
  | zero => exact pure []
  | succ fuel ih =>
      intro s
      have h := hp s
      unfold Parser.manyWithin
      split <;> rename_i hs <;> rw [hs] at h
      · exact (ih.map _ _).trans h
      · exact List.suffix_refl s
      · exact h

theorem many1 (hp : p.KeepsToText) : p.many1.KeepsToText :=
  hp.bind fun a => bind (fun s => hp.manyWithin s.length s) fun as => pure (a :: as)

theorem times (hp : p.KeepsToText) (n : Nat) : (p.times n).KeepsToText := by
  induction n with
  | zero => exact pure []
  | succ n ih => exact hp.bind fun a => ih.map (a :: ·)

/-- A value that is refused is refused at the front of the text. -/
theorem filterMap (hp : p.KeepsToText) (f : α → Option β) : (p.filterMap f).KeepsToText := by
  intro s
  have h := hp s
  unfold Parser.filterMap
  split <;> rename_i hs <;> rw [hs] at h
  · split
    · exact h
    · exact List.suffix_refl s
  · exact h
  · exact h

theorem complete (hp : p.KeepsToText) : p.complete.KeepsToText := by
  refine hp.bind fun a s => ?_
  cases s with
  | nil => exact List.suffix_refl []
  | cons c s => exact List.suffix_refl (c :: s)

end KeepsToText

end Parser

section Fields

open Telemetry.Parser Telemetry.Parser.KeepsToText

theorem keepsToText_blanks : blanks.KeepsToText :=
  fun _ => List.dropWhile_suffix isLineBlank

theorem keepsToText_someBlanks : someBlanks.KeepsToText := by
  intro s
  unfold someBlanks
  split
  · split
    · exact keepsToText_blanks _
    · exact List.suffix_refl _
  · exact List.suffix_refl _

theorem keepsToText_character (c : Char) : (character c).KeepsToText := by
  intro s
  unfold character
  split
  · split
    · exact List.suffix_cons _ _
    · exact List.suffix_refl _
  · exact List.suffix_refl _

theorem keepsToText_oneOf (cs : List Char) : (oneOf cs).KeepsToText := by
  intro s
  unfold oneOf
  split
  · split
    · exact List.suffix_cons _ _
    · exact List.suffix_refl _
  · exact List.suffix_refl _

theorem keepsToText_takeWhile1 (p : Char → Bool) : (takeWhile1 p).KeepsToText := by
  intro s
  unfold takeWhile1
  split
  · exact List.suffix_refl s
  · exact List.dropWhile_suffix p

theorem keepsToText_restOfLine : restOfLine.KeepsToText :=
  fun _ => List.nil_suffix

theorem keepsToText_word : word.KeepsToText := by
  intro s
  unfold word
  dsimp only
  split
  · exact List.suffix_refl s
  · exact List.dropWhile_suffix Char.isDigit

theorem splitSign_suffix (s : List Char) : (Decimal.splitSign s).2 <:+ s := by
  unfold Decimal.splitSign
  split
  · exact List.suffix_cons _ _
  · exact List.suffix_cons _ _
  · exact List.suffix_refl _

theorem splitFraction_suffix (s : List Char) : (Decimal.splitFraction s).2 <:+ s := by
  unfold Decimal.splitFraction
  split
  · exact (List.dropWhile_suffix Char.isDigit).trans (List.suffix_cons _ _)
  · exact List.suffix_refl _

theorem splitMagnitude_suffix (s : List Char) : (splitMagnitude s).2.2 <:+ s :=
  (splitFraction_suffix _).trans (List.dropWhile_suffix Char.isDigit)

theorem keepsToText_integer : integer.KeepsToText := by
  intro s
  unfold integer
  dsimp only
  generalize (if (Decimal.splitSign s).1 then _ else _ : Int) = n
  split
  · exact List.suffix_refl s
  · exact (List.dropWhile_suffix Char.isDigit).trans (splitSign_suffix s)

theorem keepsToText_numberWord : numberWord.KeepsToText := by
  intro s
  unfold numberWord
  dsimp only
  split
  · exact List.drop_suffix 3 s
  · split
    · exact List.drop_suffix 3 s
    · exact List.suffix_refl s

/-- An exponent without digits is reported at the front of the number, and everything else is left behind it. -/
theorem keepsToText_number : number.KeepsToText := by
  intro s
  have hrest : (splitMagnitude (Decimal.splitSign s).2).2.2 <:+ s :=
    (splitMagnitude_suffix _).trans (splitSign_suffix s)
  unfold number
  dsimp only
  split
  · exact keepsToText_numberWord s
  · split
    · rename_i c afterMark hmark
      split
      · split
        · exact List.suffix_refl s
        · have hexponent : (Decimal.splitDigits (Decimal.splitSign afterMark).2).2 <:+ c :: afterMark :=
            ((List.dropWhile_suffix Char.isDigit).trans (splitSign_suffix afterMark)).trans
              (List.suffix_cons c afterMark)
          exact hexponent.trans (hmark ▸ hrest)
      · exact hrest
    · exact hrest

theorem keepsToText_separator : separator.KeepsToText :=
  keepsToText_blanks.bind fun _ => (keepsToText_character ',').bind fun _ => keepsToText_blanks

theorem keepsToText_firstWord : firstWord.KeepsToText :=
  keepsToText_blanks.bind fun _ => keepsToText_word

theorem keepsToText_nextWord : nextWord.KeepsToText :=
  keepsToText_separator.bind fun _ => keepsToText_word

theorem keepsToText_nextNumber : nextNumber.KeepsToText :=
  keepsToText_separator.bind fun _ => keepsToText_number

end Fields

section Bodies

open Telemetry.Parser Telemetry.Parser.KeepsToText

theorem keepsToText_addressBody : addressBody.KeepsToText :=
  keepsToText_firstWord.bind fun _ => keepsToText_nextWord.map _

theorem keepsToText_twoWayRangeBody : twoWayRangeBody.KeepsToText := by
  have hoffset := (keepsToText_separator.bind fun _ => keepsToText_integer).optional
  refine orElse ?_ ?_
  · exact keepsToText_firstWord.bind fun _ => keepsToText_nextWord.bind fun _ => keepsToText_nextNumber.bind fun _ =>
      hoffset.map _
  · exact keepsToText_firstWord.bind fun _ => keepsToText_nextNumber.map _

theorem keepsToText_tdoaBody : tdoaBody.KeepsToText := by
  refine orElse ?_ ?_
  · exact keepsToText_firstWord.bind fun _ => keepsToText_nextWord.bind fun _ => keepsToText_nextWord.bind fun _ =>
      keepsToText_nextNumber.map _
  · exact keepsToText_firstWord.bind fun _ => keepsToText_nextWord.bind fun _ => keepsToText_nextNumber.map _

theorem keepsToText_neighborListBody : neighborListBody.KeepsToText := by
  have hneighbor := (keepsToText_separator.orElse keepsToText_someBlanks).bind fun _ => keepsToText_word
  exact hneighbor.many1.map _

theorem keepsToText_splitReading : splitReading.KeepsToText :=
  keepsToText_word.bind fun _ => (keepsToText_character ':').bind fun _ => keepsToText_word.map _

theorem keepsToText_rawExchangeBody : rawExchangeBody.KeepsToText := by
  have hreading := keepsToText_separator.bind fun _ => keepsToText_splitReading
  exact filterMap (keepsToText_firstWord.bind fun _ => (hreading.times 6).map _) _

theorem keepsToText_configItemBody : configItemBody.KeepsToText :=
  keepsToText_blanks.bind fun _ => (keepsToText_takeWhile1 isNameChar).bind fun _ => keepsToText_blanks.bind fun _ =>
    (keepsToText_character '=').bind fun _ => keepsToText_blanks.bind fun _ => keepsToText_restOfLine.map _

theorem keepsToText_body (kind : LineKind) : (body kind).KeepsToText := by
  cases kind with
  | address => exact keepsToText_addressBody
  | twoWayRange => exact keepsToText_twoWayRangeBody
  | tdoa => exact keepsToText_tdoaBody
  | rawExchange => exact keepsToText_rawExchangeBody
  | associated => exact keepsToText_blanks.bind fun _ => (keepsToText_oneOf ['0', '1']).map _
  | timeslot => exact keepsToText_firstWord.map _
  | neighborList => exact keepsToText_neighborListBody
  | configItem => exact keepsToText_configItemBody
  | finished => exact keepsToText_blanks.map _

end Bodies

/-- A malformed line is handed back without the blanks around it, and its fault lies behind its mark. -/
theorem fault_suffix_of_decode {s line : String} {fault : Fault} (h : decode s = .error (.malformed line fault)) :
    line.toList = Text.trim s.toList ∧
      ∃ (kind : LineKind) (rest : List Char), line.toList = kind.mark.toList ++ rest ∧ fault.text <:+ rest := by
  unfold decode decodeTrimmed at h
  cases hsplit : splitKind (Text.trim s.toList) with
  | none =>
      rw [hsplit] at h
      cases h
  | some split =>
      obtain ⟨kind, rest⟩ := split
      have hend : ((body kind).complete rest).position <:+ rest := (keepsToText_body kind).complete rest
      rw [hsplit] at h
      dsimp only at h
      split at h
      case h_1 => cases h
      all_goals
        rename_i hfault
        cases h
        rw [hfault] at hend
        rw [String.toList_ofList]
        exact ⟨rfl, kind, rest, eq_of_splitKind hsplit, hend⟩

/-- What is read behind a mark leaves an end of the text over, and where it is not what the mark announces, the fault
lies at an end of the text, whether another form of the line may be tried or not. So the reason why a line is malformed
quotes an end of what stands behind its mark. -/
theorem bodies_keep_to_text :
    (∀ (kind : LineKind) (s : List Char),
      (∀ line rest, body kind s = .found line rest → rest <:+ s) ∧
      (∀ fault, body kind s = .missed fault → fault.text <:+ s) ∧
      ∀ fault, body kind s = .aborted fault → fault.text <:+ s) ∧
    ∀ (s line : String) (fault : Fault), decode s = .error (.malformed line fault) →
      line.toList = Text.trim s.toList ∧
      ∃ (kind : LineKind) (rest quoted : List Char), line.toList = kind.mark.toList ++ rest ∧ quoted <:+ rest ∧
        TelemetryError.reason fault = fault.expected.name ++ " at " ++ Text.quote (String.ofList quoted) := by
  refine ⟨fun kind s => ?_, fun s line fault h => ?_⟩
  · have hend : (body kind s).position <:+ s := keepsToText_body kind s
    refine ⟨fun line rest h => ?_, fun fault h => ?_, fun fault h => ?_⟩ <;> rwa [h] at hend
  · obtain ⟨htrim, kind, rest, hmark, hsuffix⟩ := fault_suffix_of_decode h
    exact ⟨htrim, kind, rest, fault.text, hmark, hsuffix, rfl⟩

/-- A text left over, a second form of a line that is missed as well, an exponent without digits that ends the attempt
for both, readings that do not fit the clock, and a neighbor that is none after a separator. -/
theorem bodies_keep_to_text_five_lines :
    " x".toList <:+ " 0, 215 x".toList ∧
    "x".toList <:+ " 1, 2x".toList ∧
    "2e".toList <:+ " 1, 2e".toList ∧
    (∃ (kind : LineKind) (rest quoted : List Char),
      "tstx1, 5, 256:0, 0:2, 0:3, 0:4, 0:5, 0:6".toList = kind.mark.toList ++ rest ∧ quoted <:+ rest ∧
        TelemetryError.reason ⟨.mapRes, " 5, 256:0, 0:2, 0:3, 0:4, 0:5, 0:6".toList⟩ =
          "MapRes at " ++ Text.quote (String.ofList quoted)) ∧
    ∃ (kind : LineKind) (rest quoted : List Char), "dpnl 205 10, x".toList = kind.mark.toList ++ rest ∧
      quoted <:+ rest ∧
        TelemetryError.reason ⟨.eof, ", x".toList⟩ = "Eof at " ++ Text.quote (String.ofList quoted) := by
  have hdecode {s : String} {error : TelemetryError}
      (h : (match decode s with | .error error => some error | .ok _ => none) = some error) :
      decode s = .error error := by
    split at h
    · cases h
      assumption
    · cases h
  have hreadings : decode " tstx1, 5, 256:0, 0:2, 0:3, 0:4, 0:5, 0:6\r\n" =
      .error (.malformed "tstx1, 5, 256:0, 0:2, 0:3, 0:4, 0:5, 0:6"
        ⟨.mapRes, " 5, 256:0, 0:2, 0:3, 0:4, 0:5, 0:6".toList⟩) := hdecode (by decide +kernel)
  have hneighbor : decode "dpnl 205 10, x" = .error (.malformed "dpnl 205 10, x" ⟨.eof, ", x".toList⟩) :=
    hdecode (by decide +kernel)
  refine ⟨?_, ?_, ?_, ?_, ?_⟩
  · exact (bodies_keep_to_text.1 .address " 0, 215 x".toList).1 (.address 0 215) " x".toList rfl
  · exact (bodies_keep_to_text.1 .tdoa " 1, 2x".toList).2.1 ⟨.char, "x".toList⟩ rfl
  · exact (bodies_keep_to_text.1 .twoWayRange " 1, 2e".toList).2.2 ⟨.float, "2e".toList⟩ rfl
  · exact (bodies_keep_to_text.2 _ _ _ hreadings).2
  · exact (bodies_keep_to_text.2 _ _ _ hneighbor).2

end UwbRanging.Telemetry
