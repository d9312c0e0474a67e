import UwbRanging.Proofs.Decimal.Digits
import UwbRanging.Proofs.Telemetry.Lines

/-!
Lines as they are printed: counts without leading zeros, and one space after each comma. What is printed in this way
is a text of the grammar, and a line that ends with a digit is decoded as it stands.
-/

namespace UwbRanging

namespace Telemetry

theorem wordText_toDigits (w : UInt32) : WordText (Nat.toDigits 10 w.toNat) w :=
  ⟨Nat.toDigits_ne_nil, fun _ => Decimal.isDigit_of_mem_toDigits, Decimal.digitsValue_toDigits _⟩

/-- A count that fits a word, as the text of that word. -/
theorem wordText_toDigits_of_lt {n : Nat} (h : n < UInt32.size) :
    WordText (Nat.toDigits 10 n) (UInt32.ofNatLT n h) := by
  have hword := wordText_toDigits (UInt32.ofNatLT n h)
  rwa [UInt32.toNat_ofNatLT] at hword

/-- The two halves of a reading, as they are dumped. -/
def readingChars (t : Timestamp) : List Char :=
  Nat.toDigits 10 (t.ticks / UInt32.size) ++ ':' :: Nat.toDigits 10 (t.ticks % UInt32.size)

/-- A reading after the separator that is printed in front of it. -/
def nextReadingChars (t : Timestamp) : List Char :=
  ',' :: ' ' :: readingChars t

theorem readingText_readingChars (t : Timestamp) : ReadingText (readingChars t) t := by
  have hlt : t.ticks < 2 ^ 40 := t.ticks_lt
  have hhigh : t.ticks / UInt32.size < UInt32.size := by
    unfold UInt32.size
    omega
  have hlow : t.ticks % UInt32.size < UInt32.size := Nat.mod_lt _ (by decide)
  refine .mk (wordText_toDigits_of_lt hhigh) (wordText_toDigits_of_lt hlow) ?_ ?_
  · rw [UInt32.toNat_ofNatLT]
    unfold UInt32.size
    omega
  · rw [UInt32.toNat_ofNatLT, UInt32.toNat_ofNatLT]
    unfold UInt32.size
    omega

theorem nextText_commaSpace {α : Type} {G : List Char → α → Prop} {t : List Char} {a : α} (h : G t a) :
    NextText G (',' :: ' ' :: t) a := by
  have hsep : SeparatorText [',', ' '] := .mk (show BlankText [] by decide) (show BlankText [' '] by decide)
  exact .mk hsep h

theorem firstWordText_space {t : List Char} {w : UInt32} (h : WordText t w) : FirstWordText (' ' :: t) w :=
  .mk (show BlankText [' '] by decide) h

theorem toList_dumpLine (neighbor : NodeId) (e : Exchange) :
    (e.dumpLine neighbor).toList = "tstx1,".toList ++ ((' ' :: Nat.toDigits 10 neighbor.toNat) ++
      [e.tA1, e.rB1, e.tB1, e.rA1, e.tA2, e.rB2].flatMap nextReadingChars) := by
  simp [Exchange.dumpLine, Exchange.toRaw, nextReadingChars, readingChars]

theorem listText_flatMap {α : Type} {G : List Char → α → Prop} {f : α → List Char} (h : ∀ a, G (f a) a)
    (as : List α) : ListText G (as.flatMap f) as := by
  induction as with
  | nil => exact .nil
  | cons a as ih => exact .cons (h a) ih

theorem not_isBlank_of_isDigit {c : Char} (h : c.isDigit = true) : Text.isBlank c = false := by
  have hc : 48 ≤ c.toNat ∧ c.toNat ≤ 57 := Char.isDigit_iff_toNat.1 h
  simp only [Text.isBlank, Bool.or_eq_false_iff, Bool.and_eq_false_iff, decide_eq_false_iff_not]
  omega

/-- A text whose last character is a digit. -/
def EndsWithDigit (s : List Char) : Prop :=
  ∃ front c, s = front ++ [c] ∧ c.isDigit = true

theorem EndsWithDigit.append {s : List Char} (h : EndsWithDigit s) (t : List Char) : EndsWithDigit (t ++ s) := by
  obtain ⟨front, c, rfl, hc⟩ := h
  exact ⟨t ++ front, c, (List.append_assoc t front [c]).symm, hc⟩

theorem DigitText.endsWithDigit {s : List Char} (h : DigitText s) (hnonempty : s ≠ []) : EndsWithDigit s :=
  ⟨s.dropLast, s.getLast hnonempty, (List.dropLast_append_getLast hnonempty).symm, h _ (List.getLast_mem hnonempty)⟩

theorem endsWithDigit_toDigits (n : Nat) : EndsWithDigit (Nat.toDigits 10 n) :=
  DigitText.endsWithDigit (fun _ => Decimal.isDigit_of_mem_toDigits) Nat.toDigits_ne_nil

/-- What begins with a mark and ends with a digit has no blanks around it. -/
theorem bare_of_endsWithDigit (kind : LineKind) {s : List Char} (h : EndsWithDigit s) :
    Text.Bare (kind.mark.toList ++ s) := by
  obtain ⟨front, d, rfl, hd⟩ := h
  constructor
  · intro c hc
    cases kind <;> (cases hc; decide)
  · intro c hc
    rw [← List.append_assoc, List.getLast?_concat] at hc
    cases hc
    exact not_isBlank_of_isDigit hd

/-- A line that ends with a digit needs no trimming. -/
theorem decode_of_bodyText {kind : LineKind} {s : String} {t : List Char} {line : TelemetryLine Float}
    (hs : s.toList = kind.mark.toList ++ t) (hend : EndsWithDigit t) (hbody : BodyText kind t line) :
    decode s = .ok line := by
  rw [decode_eq_ok_iff_lineText, hs, Text.trim_eq_self (bare_of_endsWithDigit kind hend)]
  exact .mk hbody

theorem decode_dumpLine (neighbor : NodeId) (e : Exchange) :
    decode (e.dumpLine neighbor) = .ok (.rawExchange neighbor e) := by
  have hneighbor := firstWordText_space (wordText_toDigits neighbor)
  have hreadings : ListText (NextText ReadingText) _ _ := listText_flatMap
    (fun t => nextText_commaSpace (readingText_readingChars t)) [e.tA1, e.rB1, e.tB1, e.rA1, e.tA2, e.rB2]
  have hlast : EndsWithDigit ([e.rB2].flatMap nextReadingChars) := by
    have hreading := (endsWithDigit_toDigits (e.rB2.ticks % UInt32.size)).append
      (',' :: ' ' :: (Nat.toDigits 10 (e.rB2.ticks / UInt32.size) ++ [':']))
    simpa [nextReadingChars, readingChars] using hreading
  have hend : EndsWithDigit (([e.tA1, e.rB1, e.tB1, e.rA1, e.tA2] ++ [e.rB2]).flatMap nextReadingChars) := by
    rw [List.flatMap_append]
    exact hlast.append _
  exact decode_of_bodyText (toList_dumpLine neighbor e) (hend.append _) (.rawExchange hneighbor hreadings)

end Telemetry

end UwbRanging
