import UwbRanging.Proofs.Decimal.Digits
import UwbRanging.Proofs.SavedText.Legible

/-!
Counts, truth values, strings and names are read back.
-/

namespace UwbRanging.SavedText

open Telemetry (StartsNot takeWhile_run dropWhile_run)

section Counts

theorem hexDigit?_of_isDigit {c : Char} (h : c.isDigit = true) : hexDigit? c = some (Decimal.digitValue c) := by
  rw [hexDigit?, if_pos h]
  rfl

theorem digitValue_lt {c : Char} (h : c.isDigit = true) : Decimal.digitValue c < 10 := by
  have hc : 48 ≤ c.toNat ∧ c.toNat ≤ 57 := Char.isDigit_iff_toNat.1 h
  have hzero : '0'.toNat = 48 := rfl
  rw [Decimal.digitValue, hzero]
  omega

theorem ne_of_isDigit {c d : Char} (h : c.isDigit = true) (hd : d.isDigit = false) : c ≠ d := by
  rintro rfl
  rw [h] at hd
  cases hd

theorem isCountChar_of_isDigit {c : Char} (h : c.isDigit = true) : isCountChar c = true := by
  rw [isCountChar, hexDigit?_of_isDigit h]
  rfl

theorem isRawIdentifierChar_of_isCountChar (c : Char) (h : isCountChar c = true) : isRawIdentifierChar c = true := by
  have hlower : 'a' ≤ c → c ≤ 'f' → c.isLower = true := by
    intro h₁ h₂
    have h₁' : 97 ≤ c.val := h₁
    have h₂' : c.val ≤ 102 := h₂
    change (decide (97 ≤ c.val) && decide (c.val ≤ 122)) = true
    simp only [Bool.and_eq_true, decide_eq_true_eq]
    exact ⟨h₁', UInt32.le_trans h₂' (by decide)⟩
  have hupper : 'A' ≤ c → c ≤ 'F' → c.isUpper = true := by
    intro h₁ h₂
    have h₁' : 65 ≤ c.val := h₁
    have h₂' : c.val ≤ 70 := h₂
    exact decide_eq_true ⟨h₁', UInt32.le_trans h₂' (by decide)⟩
  simp only [isCountChar, hexDigit?, Bool.or_eq_true, decide_eq_true_eq] at h
  have halpha : c.isAlpha = (c.isUpper || c.isLower) := rfl
  simp only [isRawIdentifierChar, isIdentifierChar, Char.isAlphanum, halpha]
  split at h
  case isTrue hdigit => simp [hdigit]
  case isFalse =>
    split at h
    case isTrue hrange => simp [hlower hrange.1 hrange.2]
    case isFalse =>
      split at h
      case isTrue hrange => simp [hupper hrange.1 hrange.2]
      case isFalse => simp_all

theorem countValue?_digits {ds : List Char} (h : ∀ c ∈ ds, c.isDigit = true) (n : Nat) :
    countValue? 10 n ds = some (Decimal.digitsValue n ds) := by
  induction ds generalizing n with
  | nil => rfl
  | cons c ds ih =>
      have hc := h c List.mem_cons_self
      rw [countValue?, if_neg (ne_of_isDigit hc rfl), hexDigit?_of_isDigit hc]
      simp only
      rw [if_pos (digitValue_lt hc), ih fun d hd => h d (List.mem_cons_of_mem c hd), Nat.mul_comm]
      rfl

/-- Digits of base ten announce no other base. -/
theorem splitBase_digits {ds rest : List Char} (hds : ∀ c ∈ ds, c.isDigit = true) (hrest : Ended rest) :
    splitBase (ds ++ rest) = (10, ds ++ rest) := by
  have hsecond : ∀ d s, ds ++ rest = '0' :: d :: s → d ≠ 'x' ∧ d ≠ 'b' ∧ d ≠ 'o' := by
    intro d s h
    match ds, h with
    | [], h =>
        have hraw : isRawIdentifierChar '0' = false := hrest '0' (by rw [List.nil_append] at h; rw [h]; rfl)
        cases hraw
    | [c], h =>
        obtain ⟨-, rfl⟩ := List.cons.inj h
        have hraw := hrest d rfl
        refine ⟨?_, ?_, ?_⟩ <;> (rintro rfl; cases hraw)
    | c :: c' :: ds, h =>
        obtain ⟨-, h⟩ := List.cons.inj h
        obtain ⟨rfl, -⟩ := List.cons.inj h
        have hdigit := hds c' (List.mem_cons_of_mem _ List.mem_cons_self)
        exact ⟨ne_of_isDigit hdigit rfl, ne_of_isDigit hdigit rfl, ne_of_isDigit hdigit rfl⟩
  unfold splitBase
  split
  case h_1 s h => exact absurd rfl (hsecond _ _ h).1
  case h_2 s h => exact absurd rfl (hsecond _ _ h).2.1
  case h_3 s h => exact absurd rfl (hsecond _ _ h).2.2
  case h_4 => rfl

theorem count_toDigits {n bound : Nat} (h : n < bound) {rest : List Char} (hrest : Ended rest) (context : Context) :
    count bound context (writeCount n ++ rest) = some (n, rest) := by
  have hdigits : ∀ c ∈ Nat.toDigits 10 n, c.isDigit = true := fun _ => Decimal.isDigit_of_mem_toDigits
  have hcount : ∀ c ∈ Nat.toDigits 10 n, isCountChar c = true := fun c hc => isCountChar_of_isDigit (hdigits c hc)
  have hend : StartsNot isCountChar rest := hrest.startsNot isRawIdentifierChar_of_isCountChar
  have hvalue : countValue? 10 0 (Nat.toDigits 10 n) = some n := by
    rw [countValue?_digits hdigits, Decimal.digitsValue_toDigits]
  rw [count, writeCount, splitBase_digits hdigits hrest]
  simp only [takeWhile_run hcount hend, dropWhile_run hcount hend]
  cases hchars : Nat.toDigits 10 n with
  | nil => exact absurd hchars Nat.toDigits_ne_nil
  | cons c ds =>
      rw [hchars] at hvalue hdigits
      simp only [if_neg (ne_of_isDigit (hdigits c List.mem_cons_self) (show '_'.isDigit = false from rfl)), hvalue,
        if_pos h]

theorem opening_of_digits {ds : List Char} (hne : ds ≠ []) (hds : ∀ c ∈ ds, c.isDigit = true) : Opening ds := by
  cases ds with
  | nil => exact absurd rfl hne
  | cons c ds => exact opening_of (by decide) (hds c List.mem_cons_self) ds

theorem legible_word : Legible UInt32 0 where
  opening _ w := opening_of_digits Nat.toDigits_ne_nil fun _ => Decimal.isDigit_of_mem_toDigits
  reads level w := by
    intro context rest _ _ hended
    have hcount : count UInt32.size context (Saved.write level w ++ rest) = some (w.toNat, rest) :=
      count_toDigits w.toNat_lt hended context
    change (count UInt32.size >>= fun n => pure (UInt32.ofNat n)) context _ = _
    rw [bind_of_read hcount, UInt32.ofNat_toNat]
    rfl

end Counts

theorem legible_bool : Legible Bool 0 where
  opening _ b := by
    cases b
    · exact ⟨'f', _, rfl, by decide⟩
    · exact ⟨'t', _, rfl, by decide⟩
  reads _ b := by
    intro context rest _ _ _
    cases b <;> rfl

section Strings

theorem hexDigit?_digitChar : ∀ d < 16, hexDigit? (Nat.digitChar d) = some d := by
  decide

theorem hexValue?_append (n : Nat) (ds : List Char) (c : Char) :
    hexValue? n (ds ++ [c]) = (hexValue? n ds).bind fun m => (hexDigit? c).map fun d => 16 * m + d := by
  induction ds generalizing n with
  | nil => cases h : hexDigit? c <;> simp [hexValue?, h]
  | cons d ds ih => cases h : hexDigit? d <;> simp [hexValue?, h, ih]

theorem hexValue?_toDigits (n : Nat) : hexValue? 0 (Nat.toDigits 16 n) = some n := by
  induction n using Nat.strongRecOn with
  | ind n ih =>
      rw [Nat.toDigits_eq_if (by decide)]
      split
      case isTrue hlt => simp [hexValue?, hexDigit?_digitChar n hlt]
      case isFalse hge =>
        have hmod := hexDigit?_digitChar (n % 16) (Nat.mod_lt n (by decide))
        have hsum : 16 * (n / 16) + n % 16 = n := Nat.div_add_mod n 16
        rw [hexValue?_append, ih (n / 16) (by omega), hmod]
        simp [hsum]

theorem hexDigit?_of_hexValue? {n m : Nat} {ds : List Char} (h : hexValue? n ds = some m) :
    ∀ c ∈ ds, hexDigit? c ≠ none := by
  induction ds generalizing n with
  | nil => exact fun _ hc => absurd hc List.not_mem_nil
  | cons d ds ih =>
      obtain ⟨v, hv, h⟩ := Option.bind_eq_some_iff.1 h
      intro c hc
      rcases List.mem_cons.1 hc with rfl | hc
      · exact Option.ne_none_iff_exists'.2 ⟨v, hv⟩
      · exact ih h c hc

theorem charOf?_toNat (c : Char) : charOf? c.toNat = some c := by
  have h : c.toNat.isValidChar := c.valid
  rw [charOf?, if_pos h, Char.ofNat_toNat]

theorem length_toDigits_codePoint (c : Char) : (Nat.toDigits 16 c.toNat).length ≤ 6 := by
  rw [Nat.length_toDigits_le_iff (by decide) (by decide)]
  have h : c.toNat < 0xd800 ∨ (0xdfff < c.toNat ∧ c.toNat < 0x110000) := c.valid
  omega

/-- An escape by code point is resolved. -/
theorem splitEscape?_codePoint (c : Char) (s : List Char) :
    splitEscape? ('u' :: '\x7b' :: (Nat.toDigits 16 c.toNat ++ '\x7d' :: s)) = some (c, s) := by
  have hvalue := hexValue?_toDigits c.toNat
  have hdigits : ∀ d ∈ Nat.toDigits 16 c.toNat, decide (d ≠ '\x7d') = true := by
    intro d hd
    refine decide_eq_true ?_
    rintro rfl
    exact hexDigit?_of_hexValue? hvalue _ hd rfl
  have hend : StartsNot (fun d => decide (d ≠ '\x7d')) ('\x7d' :: s) := StartsNot.cons (by decide) s
  unfold splitEscape?
  simp only [takeWhile_run hdigits hend, dropWhile_run hdigits hend]
  simp [hvalue, charOf?_toNat, Nat.not_lt.2 (length_toDigits_codePoint c), Nat.toDigits_ne_nil]

theorem splitQuoted?_escape {s t : List Char} {c : Char} (h : splitEscape? s = some (c, t)) :
    splitQuoted? ('\\' :: s) = (splitQuoted? t).map fun (cs, rest) => (c :: cs, rest) := by
  rw [splitQuoted?]
  split
  case h_1 hnone =>
    rw [h] at hnone
    cases hnone
  case h_2 c' t' hsome =>
    rw [h] at hsome
    cases hsome
    rfl

theorem splitQuoted?_plain {s : List Char} {c : Char} (hquote : c ≠ '"') (hescape : c ≠ '\\') :
    splitQuoted? (c :: s) = (splitQuoted? s).map fun (cs, rest) => (c :: cs, rest) := by
  rw [splitQuoted?]
  · exact hquote
  · exact hescape

/-- The written form of a character is read as that character, printable or not. -/
theorem splitQuoted?_escapeChar (c : Char) (s : List Char) :
    splitQuoted? ((Text.escapeChar true c).toList ++ s) = (splitQuoted? s).map fun (cs, rest) => (c :: cs, rest) := by
  unfold Text.escapeChar
  split
  case h_8 _ _ _ _ hquote hescape _ =>
    split
    case isTrue =>
      rw [String.toList_singleton]
      exact splitQuoted?_plain hquote hescape
    case isFalse =>
      have htext : (Text.codePointEscape c).toList ++ s =
          '\\' :: 'u' :: '\x7b' :: (Nat.toDigits 16 c.toNat ++ '\x7d' :: s) := by
        simp [Text.codePointEscape, hexDigits]
      rw [htext]
      exact splitQuoted?_escape (splitEscape?_codePoint c s)
  all_goals exact splitQuoted?_escape rfl

theorem splitQuoted?_escaped (cs rest : List Char) :
    splitQuoted? ((cs.flatMap fun c => (Text.escapeChar true c).toList) ++ '"' :: rest) = some (cs, rest) := by
  induction cs with
  | nil => rw [List.flatMap_nil, List.nil_append, splitQuoted?]
  | cons c cs ih =>
      rw [List.flatMap_cons, List.append_assoc, splitQuoted?_escapeChar, ih]
      rfl

theorem toList_quoteWith (s : List Char) :
    (Text.quoteWith true s).toList = '"' :: ((s.flatMap fun c => (Text.escapeChar true c).toList) ++ ['"']) := by
  simp [Text.quoteWith, List.flatMap_map]

theorem legible_string : Legible String 0 where
  opening _ s := by
    change Opening (Text.quoteWith true s.toList).toList
    rw [toList_quoteWith]
    exact ⟨'"', _, rfl, by decide⟩
  reads level s := by
    intro context rest _ _ _
    have htext : Saved.write level s ++ rest =
        '"' :: ((s.toList.flatMap fun c => (Text.escapeChar true c).toList) ++ '"' :: rest) := by
      change (Text.quoteWith true s.toList).toList ++ rest = _
      rw [toList_quoteWith]
      simp
    change (splitString? (Saved.write level s ++ rest)).map _ = _
    rw [htext, splitString?, splitQuoted?_escaped]
    exact congrArg (fun t => some (t, rest)) String.ofList_toList

end Strings

section Names

/-- A name that is written as it is. -/
structure PlainName (name : List Char) : Prop where
  first : ∃ c s, name = c :: s ∧ isIdentifierFirst c = true
  chars : ∀ c ∈ name, isIdentifierChar c = true
  /-- The letter that raw names and raw strings begin with is not the whole name. -/
  notRaw : name ≠ ['r']

instance (name : List Char) : Decidable (PlainName name) :=
  match name with
  | [] => isFalse fun h => by obtain ⟨_, _, h, _⟩ := h.first; cases h
  | c :: s =>
    decidable_of_iff
      (isIdentifierFirst c = true ∧ (c :: s).all isIdentifierChar = true ∧ c :: s ≠ ['r'])
      ⟨fun ⟨h₁, h₂, h₃⟩ => ⟨⟨c, s, rfl, h₁⟩, List.all_eq_true.1 h₂, h₃⟩,
        fun ⟨⟨_, _, h, h₁⟩, h₂, h₃⟩ => ⟨by cases h; exact h₁, List.all_eq_true.2 h₂, h₃⟩⟩

theorem isRawIdentifierChar_of_isIdentifierChar (c : Char) (h : isIdentifierChar c = true) :
    isRawIdentifierChar c = true := by
  rw [isRawIdentifierChar, h]
  rfl

theorem opening_of_plainName {name : List Char} (h : PlainName name) : Opening name := by
  obtain ⟨c, s, rfl, hc⟩ := h.first
  exact opening_of (by decide) hc s

theorem splitPlainIdentifier?_run {name rest : List Char} (hname : ∀ c ∈ name, isIdentifierChar c = true)
    (hrest : Ended rest) : splitPlainIdentifier? (name ++ rest) = some (name, rest) := by
  have hend := hrest.startsNot isRawIdentifierChar_of_isIdentifierChar
  rw [splitPlainIdentifier?]
  simp only [takeWhile_run hname hend, dropWhile_run hname hend]
  cases rest with
  | nil => rfl
  | cons c rest =>
      have hc : isRawIdentifierChar c = false := hrest c rfl
      simp only [hc, Bool.false_eq_true, if_false]

theorem splitIdentifier?_plainName {name rest : List Char} (h : PlainName name) (hrest : Ended rest) :
    splitIdentifier? (name ++ rest) = some (name, rest) := by
  obtain ⟨c, s, rfl, hfirst⟩ := h.first
  have hsecond : c = 'r' → ∀ d t, s ++ rest = d :: t → isIdentifierChar d = true := by
    rintro rfl d t ht
    cases s with
    | nil => exact absurd rfl h.notRaw
    | cons d' s =>
        obtain ⟨rfl, -⟩ := List.cons.inj ht
        exact h.chars d' (List.mem_cons_of_mem _ List.mem_cons_self)
  have hmore : c = 'r' → s ++ rest ≠ [] := by
    rintro rfl hnil
    rw [(List.append_eq_nil_iff.1 hnil).1] at h
    exact h.notRaw rfl
  have hplain : splitPlainIdentifier? (c :: (s ++ rest)) = some (c :: s, rest) :=
    splitPlainIdentifier?_run h.chars hrest
  rw [List.cons_append]
  unfold splitIdentifier?
  split
  case h_1 htext =>
    obtain ⟨hc, hnil⟩ := List.cons.inj htext
    exact absurd hnil (hmore hc)
  case h_2 htext =>
    obtain ⟨hc, htail⟩ := List.cons.inj htext
    cases hsecond hc _ _ htail
  case h_3 htext =>
    obtain ⟨hc, htail⟩ := List.cons.inj htext
    cases hsecond hc _ _ htail
  case h_4 htext =>
    obtain ⟨rfl, rfl⟩ := List.cons.inj htext
    rw [if_pos hfirst, hplain]
  case h_5 htext => cases htext

theorem reads_identifier {name : String} (h : PlainName name.toList) : Reads identifier 0 name.toList name := by
  intro context rest _ _ hended
  rw [identifier, splitIdentifier?_plainName h hended]
  exact congrArg (fun t => some (t, rest)) String.ofList_toList

/-- Values that are written as names of their own. -/
theorem legible_ofNames {α : Type} {name : α → String} {values : List α} (hnames : ∀ a, PlainName (name a).toList)
    (hfind : ∀ a, values.find? (name · = name a) = some a) : @Legible α (Saved.ofNames name values) 1 := by
  let := Saved.ofNames name values
  refine ⟨fun _ a => opening_of_plainName (hnames a), fun _ a => ?_⟩
  intro context rest hdepth hfuel hended
  have hgap : gap context ((name a).toList ++ rest) = some ((), (name a).toList ++ rest) :=
    gap_of_solid ((opening_of_plainName (hnames a)).solid rest)
  have hname : nested identifier context ((name a).toList ++ rest) = some (name a, rest) :=
    (reads_identifier (hnames a)).nested context rest hdepth hfuel hended
  change (gap >>= fun _ => nested identifier >>= fun found => _) context ((name a).toList ++ rest) = _
  rw [bind_of_read hgap, bind_of_read hname]
  simp only [hfind a]
  rfl

end Names

end UwbRanging.SavedText
