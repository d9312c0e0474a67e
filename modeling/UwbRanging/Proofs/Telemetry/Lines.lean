import Mathlib.Algebra.Ring.Nat
import UwbRanging.Proofs.Telemetry.RangeLines
import UwbRanging.Proofs.Text.Trim

/-!
Every kind of line has a grammar, and a line is accepted if and only if it is a text of it. What begins like no kind is
told from what begins like one and does not go on like it, and both are handed back without the blanks around them.
-/

namespace UwbRanging

theorem Timestamp.ofRaw_eq_ok_iff {raw : Nat} {t : Timestamp} : Timestamp.ofRaw raw = .ok t ↔ raw = t.ticks := by
  unfold Timestamp.ofRaw
  constructor
  · intro h
    split at h
    · cases h
      rfl
    · cases h
  · rintro rfl
    rw [dif_pos t.ticks_lt]

/-- The readings of an exchange are those it was made from. -/
theorem Exchange.ofRaw_eq_ok_iff {tA1 rB1 tB1 rA1 tA2 rB2 : Nat} {e : Exchange} :
    Exchange.ofRaw tA1 rB1 tB1 rA1 tA2 rB2 = .ok e ↔ [tA1, rB1, tB1, rA1, tA2, rB2] = e.toRaw := by
  have hbind : ∀ {raw : Nat} {f : Timestamp → Except RangingError Exchange} {e : Exchange},
      (Timestamp.ofRaw raw >>= f) = .ok e ↔ ∃ t : Timestamp, raw = t.ticks ∧ f t = .ok e := by
    intro raw f e
    constructor
    · intro h
      cases hraw : Timestamp.ofRaw raw with
      | error error =>
          rw [hraw] at h
          cases h
      | ok t =>
          rw [hraw] at h
          exact ⟨t, Timestamp.ofRaw_eq_ok_iff.1 hraw, h⟩
    · rintro ⟨t, hraw, h⟩
      rw [Timestamp.ofRaw_eq_ok_iff.2 hraw]
      exact h
  unfold Exchange.ofRaw
  simp only [hbind, Exchange.toRaw, List.map_cons, List.map_nil, List.cons.injEq, and_true]
  constructor
  · rintro ⟨_, h₁, _, h₂, _, h₃, _, h₄, _, h₅, _, h₆, h⟩
    cases h
    exact ⟨h₁, h₂, h₃, h₄, h₅, h₆⟩
  · rintro ⟨h₁, h₂, h₃, h₄, h₅, h₆⟩
    exact ⟨e.tA1, h₁, e.rB1, h₂, e.tB1, h₃, e.rA1, h₄, e.tA2, h₅, e.rB2, h₆, rfl⟩

namespace Telemetry

open UwbRanging.Telemetry.Parser

/-- A neighbor after a separator or after blanks. -/
inductive NeighborText : List Char → NodeId → Prop where
  | afterSeparator {t : List Char} {neighbor : NodeId} (h : NextText WordText t neighbor) : NeighborText t neighbor
  | afterBlanks {blank t : List Char} {neighbor : NodeId} (hnonempty : blank ≠ []) (hblank : BlankText blank)
      (hword : WordText t neighbor) : NeighborText (blank ++ t) neighbor

/-- The high and the low half of a count. -/
inductive HalvesText : List Char → Nat → Prop where
  | mk {t₁ t₂ : List Char} {high low : UInt32} (hhigh : WordText t₁ high) (hlow : WordText t₂ low) :
      HalvesText (t₁ ++ ':' :: t₂) (high.toNat * 2 ^ 32 + low.toNat)

/-- A clock reading in two halves, of which the high one has eight bits. -/
inductive ReadingText : List Char → Timestamp → Prop where
  | mk {t₁ t₂ : List Char} {high low : UInt32} {reading : Timestamp} (hhigh : WordText t₁ high)
      (hlow : WordText t₂ low) (hfits : high.toNat ≤ 255)
      (hticks : reading.ticks = high.toNat * 2 ^ 32 + low.toNat) : ReadingText (t₁ ++ ':' :: t₂) reading

/-- What is written after the mark of each kind. -/
inductive BodyText : LineKind → List Char → TelemetryLine Float → Prop where
  | address {t₁ t₂ : List Char} {high low : UInt32} (hhigh : FirstWordText t₁ high)
      (hlow : NextText WordText t₂ low) : BodyText .address (t₁ ++ t₂) (.address high low)
  | twoWayRange {form : RangeForm} {t : List Char} {line : TelemetryLine Float} (h : TwoWayRangeText form t line) :
      BodyText .twoWayRange t line
  | tdoa {form : RangeForm} {t : List Char} {line : TelemetryLine Float} (h : TdoaText form t line) :
      BodyText .tdoa t line
  | rawExchange {t₁ t₂ : List Char} {neighbor : NodeId} {e : Exchange} (hneighbor : FirstWordText t₁ neighbor)
      (hreadings : ListText (NextText ReadingText) t₂ [e.tA1, e.rB1, e.tB1, e.rA1, e.tA2, e.rB2]) :
      BodyText .rawExchange (t₁ ++ t₂) (.rawExchange neighbor e)
  | associated {blank : List Char} (hblank : BlankText blank) (joined : Bool) :
      BodyText .associated (blank ++ [if joined then '1' else '0']) (.associated joined)
  | timeslot {t : List Char} {slot : UInt32} (h : FirstWordText t slot) : BodyText .timeslot t (.timeslot slot)
  | neighborList {t : List Char} {neighbors : List NodeId} (hsome : neighbors ≠ [])
      (h : ListText NeighborText t neighbors) : BodyText .neighborList t (.neighborList neighbors)
  | configItem {blank name before value : List Char} (hblank : BlankText blank) (hname : name ≠ [])
      (hchars : ∀ c ∈ name, isNameChar c = true) (hbefore : BlankText before) :
      BodyText .configItem (blank ++ (name ++ (before ++ '=' :: value)))
        (.configItem (String.ofList name) (String.ofList (Text.trim value)))
  | finished : BodyText .finished [] .finished

/-- A line without the blanks around it: the mark of a kind, and what is written after it. -/
inductive LineText : List Char → TelemetryLine Float → Prop where
  | mk {kind : LineKind} {t : List Char} {line : TelemetryLine Float} (h : BodyText kind t line) :
      LineText (kind.mark.toList ++ t) line

section Fields

theorem HalvesText.startsNot_blank {t : List Char} {n : Nat} (h : HalvesText t n) (s : List Char) :
    StartsNot isLineBlank (t ++ s) := by
  obtain ⟨hhigh, -⟩ := h
  rw [List.append_assoc]
  exact hhigh.startsNot_blank _

theorem reads_splitReading : Reads splitReading HalvesText (StartsNot Char.isDigit) := by
  have hlow (high : UInt32) := reads_word.map fun low : UInt32 => high.toNat * UInt32.size + low.toNat
  have hcolon (high : UInt32) := (reads_character ':').bind (fun _ => hlow high) (fun _ _ _ _ _ _ => trivial)
  have hall := reads_word.bind hcolon (by
    rintro high - n rest ⟨-, -, t, rfl, rfl, -⟩ -
    exact StartsNot.cons (by decide) _)
  refine hall.congr (fun t n => ?_) (fun _ h => h)
  constructor
  · rintro ⟨t₁, high, -, rfl, hhigh, -, -, t₂, rfl, rfl, low, hlow, rfl⟩
    exact .mk hhigh hlow
  · rintro ⟨hhigh, hlow⟩
    exact ⟨_, _, _, rfl, hhigh, _, (), _, rfl, rfl, _, hlow, rfl⟩

theorem reads_nextReading : Reads (separator >>= fun _ => splitReading) (NextText HalvesText) FieldEnd :=
  reads_next reads_splitReading (fun _ h => h.startsNot_digit) HalvesText.startsNot_blank

/-- A count in two halves is a reading if and only if the clock is wide enough for it. -/
theorem readingText_iff {t : List Char} {reading : Timestamp} :
    ReadingText t reading ↔ HalvesText t reading.ticks := by
  constructor
  · rintro ⟨hhigh, hlow, -, hticks⟩
    rw [hticks]
    exact .mk hhigh hlow
  · intro h
    generalize hn : reading.ticks = n at h
    obtain ⟨hhigh, hlow⟩ := h
    rename_i high low
    have hfits : high.toNat * 2 ^ 32 + low.toNat < 2 ^ 40 := hn ▸ reading.ticks_lt
    exact .mk hhigh hlow (by omega) hn

theorem ListText.map_iff {α β : Type} {G : List Char → α → Prop} {H : List Char → β → Prop} {f : β → α}
    (hG : ∀ t b, G t (f b) ↔ H t b) {t : List Char} {bs : List β} :
    ListText G t (bs.map f) ↔ ListText H t bs := by
  induction bs generalizing t with
  | nil => constructor <;> (intro h; cases h; exact .nil)
  | cons b bs ih =>
      constructor
      · intro h
        cases h with
        | cons head tail => exact .cons ((hG _ _).1 head) (ih.1 tail)
      · intro h
        cases h with
        | cons head tail => exact .cons ((hG _ _).2 head) (ih.2 tail)

theorem NextText.congr {α β : Type} {G : List Char → α → Prop} {H : List Char → β → Prop} {a : α} {b : β}
    (h : ∀ t, G t a ↔ H t b) (t : List Char) : NextText G t a ↔ NextText H t b := by
  constructor
  · rintro ⟨hsep, ht⟩
    exact .mk hsep ((h _).1 ht)
  · rintro ⟨hsep, ht⟩
    exact .mk hsep ((h _).2 ht)

theorem exchangeOf?_eq_some_iff {readings : List Nat} {e : Exchange} :
    exchangeOf? readings = some e ↔ readings = e.toRaw := by
  have hoption : ∀ {x : Except RangingError Exchange}, x.toOption = some e ↔ x = .ok e := by
    intro x
    cases x <;> simp [Except.toOption]
  unfold exchangeOf?
  split
  · rw [hoption, Exchange.ofRaw_eq_ok_iff]
  · rename_i hsix
    constructor
    · intro h
      cases h
    · intro h
      exact absurd h (hsix _ _ _ _ _ _)

/-- Six counts in halves that make up an exchange are its readings. -/
theorem listText_toRaw_iff {t : List Char} {e : Exchange} :
    ListText (NextText HalvesText) t e.toRaw ↔
      ListText (NextText ReadingText) t [e.tA1, e.rB1, e.tB1, e.rA1, e.tA2, e.rB2] :=
  ListText.map_iff fun t _ => NextText.congr (fun _ => readingText_iff.symm) t

theorem NeighborText.ne_nil {t : List Char} {neighbor : NodeId} (h : NeighborText t neighbor) : t ≠ [] := by
  cases h with
  | afterSeparator h =>
      obtain ⟨⟨_, _⟩, _⟩ := h
      simp
  | afterBlanks hnonempty _ _ => simp [hnonempty]

theorem NeighborText.fieldEnd {t : List Char} {neighbor : NodeId} (h : NeighborText t neighbor) (s : List Char) :
    FieldEnd (t ++ s) := by
  cases h with
  | afterSeparator h => exact h.fieldEnd s
  | @afterBlanks blank t _ hnonempty hblank _ =>
      cases blank with
      | nil => exact absurd rfl hnonempty
      | cons c blank =>
          intro d hd
          obtain rfl : c = d := by simpa using hd
          exact Or.inr (hblank c List.mem_cons_self)

/-- Blanks without a comma are left to the second alternative. -/
theorem reads_separatorOrBlanks :
    Reads (separator <|> someBlanks) (fun t _ => SeparatorText t ∨ (t ≠ [] ∧ BlankText t))
      (StartsNot fun c => isLineBlank c || c = ',') := by
  have hblank : ∀ s, StartsNot (fun c => isLineBlank c || c = ',') s → StartsNot isLineBlank s := by
    intro s h c hc
    exact (Bool.or_eq_false_iff.1 (h c hc)).1
  refine (reads_separator.congr (fun _ _ => Iff.rfl) hblank).orElse
    (reads_someBlanks.congr (fun _ _ => Iff.rfl) hblank) ?_
  rintro t - rest ⟨-, ht⟩ hrest
  have hblanks : blanks (t ++ rest) = .found () rest := reads_blanks.whole (a := ()) ht (hblank rest hrest)
  have hmiss : (character ',').Misses rest := by
    cases rest with
    | nil => exact ⟨_, rfl⟩
    | cons c rest =>
        have hc : c ≠ ',' := by simpa using (Bool.or_eq_false_iff.1 (hrest c rfl)).2
        exact ⟨⟨.char, c :: rest⟩, if_neg hc⟩
  obtain ⟨fault, hfault⟩ := bind_misses (fun _ => blanks) hmiss
  exact ⟨fault, (bind_of_found hblanks).trans hfault⟩

theorem reads_neighbor :
    Reads ((separator <|> someBlanks) >>= fun _ => word) NeighborText FieldEnd := by
  have hall := reads_separatorOrBlanks.bind (fun _ => reads_word) (by
    rintro - t w rest hword -
    refine StartsNot.append hword.nonempty (fun c hc => ?_) rest
    have hdigit := hword.digits c hc
    simp [not_isLineBlank_of_isDigit hdigit, ne_comma_of_isDigit hdigit])
  refine hall.congr (fun t w => ?_) (fun _ h => h.startsNot_digit)
  constructor
  · rintro ⟨gap, -, t, rfl, hgap | ⟨hnonempty, hblank⟩, hword⟩
    · exact .afterSeparator (.mk hgap hword)
    · exact .afterBlanks hnonempty hblank hword
  · intro h
    cases h with
    | afterSeparator h =>
        obtain ⟨hsep, hword⟩ := h
        exact ⟨_, (), _, rfl, Or.inl hsep, hword⟩
    | afterBlanks hnonempty hblank hword => exact ⟨_, (), _, rfl, Or.inr ⟨hnonempty, hblank⟩, hword⟩

end Fields

section Bodies

theorem reads_addressBody : Reads addressBody (BodyText .address) (· = []) := by
  have hlow (high : UInt32) := reads_nextWord.map fun low => (TelemetryLine.address high low : TelemetryLine Float)
  have hall := reads_firstWord.bind hlow (by
    rintro high t line rest ⟨low, h, -⟩ -
    exact h.fieldEnd rest)
  refine hall.congr (fun t line => ?_) (fun _ h => h ▸ FieldEnd.nil)
  constructor
  · rintro ⟨t₁, high, t₂, rfl, hhigh, low, hlow, rfl⟩
    exact .address hhigh hlow
  · intro h
    cases h with
    | address hhigh hlow => exact ⟨_, _, _, rfl, hhigh, _, hlow, rfl⟩

theorem reads_timeslotBody : Reads timeslotBody (BodyText .timeslot) (· = []) := by
  refine (reads_firstWord.map TelemetryLine.timeslot).congr (fun t line => ?_) (fun _ h => h ▸ FieldEnd.nil)
  constructor
  · rintro ⟨slot, h, rfl⟩
    exact .timeslot h
  · intro h
    cases h with
    | timeslot h => exact ⟨_, h, rfl⟩

theorem reads_associatedBody : Reads associatedBody (BodyText .associated) (· = []) := by
  have hchoice := (reads_oneOf ['0', '1']).map fun c => (TelemetryLine.associated (c = '1') : TelemetryLine Float)
  have hall := reads_blanks.bind (fun _ => hchoice) (by
    rintro - t line rest ⟨c, ⟨rfl, hc⟩, -⟩ -
    rcases List.mem_pair.1 hc with rfl | rfl <;> exact StartsNot.cons (by decide) rest)
  refine hall.congr (fun t line => ?_) (fun _ _ => trivial)
  constructor
  · rintro ⟨blank, -, t, rfl, hblank, c, ⟨rfl, hc⟩, rfl⟩
    rcases List.mem_pair.1 hc with rfl | rfl
    · exact .associated hblank false
    · exact .associated hblank true
  · intro h
    cases h with
    | @associated blank hblank joined =>
        refine ⟨blank, (), _, rfl, hblank, if joined then '1' else '0', ⟨rfl, ?_⟩, ?_⟩ <;>
          cases joined <;> simp

theorem reads_neighborListBody : Reads neighborListBody (BodyText .neighborList) (· = []) := by
  have hmiss : ((separator <|> someBlanks) >>= fun _ => word).Misses [] := ⟨_, rfl⟩
  have hall := (reads_neighbor.many1 NeighborText.fieldEnd FieldEnd.nil hmiss NeighborText.ne_nil).map
    fun neighbors => (TelemetryLine.neighborList neighbors : TelemetryLine Float)
  refine hall.congr (fun t line => ?_) (fun _ h => h)
  constructor
  · rintro ⟨neighbors, ⟨hsome, h⟩, rfl⟩
    exact .neighborList hsome h
  · intro h
    cases h with
    | neighborList hsome h => exact ⟨_, ⟨hsome, h⟩, rfl⟩

theorem reads_rawExchangeBody : Reads rawExchangeBody (BodyText .rawExchange) (· = []) := by
  have hreadings (neighbor : NodeId) := (reads_nextReading.times NextText.fieldEnd 6).map (neighbor, ·)
  have hfields := reads_firstWord.bind hreadings (by
    rintro neighbor t - rest ⟨readings, ⟨hlist, -⟩, -⟩ hrest
    cases hlist with
    | nil => exact hrest
    | cons head tail => exact head.fieldEnd_append _ _)
  have hall := hfields.filterMap fun (neighbor, readings) =>
    (exchangeOf? readings).map (TelemetryLine.rawExchange (α := Float) neighbor)
  refine hall.congr (fun t line => ?_) (fun _ h => h ▸ FieldEnd.nil)
  constructor
  · rintro ⟨-, ⟨t₁, neighbor, t₂, rfl, hneighbor, readings, ⟨hlist, -⟩, rfl⟩, hvalue⟩
    obtain ⟨e, he, rfl⟩ := Option.map_eq_some_iff.1 hvalue
    rw [exchangeOf?_eq_some_iff.1 he] at hlist
    exact .rawExchange hneighbor (listText_toRaw_iff.1 hlist)
  · intro h
    cases h with
    | rawExchange hneighbor h =>
        rename_i e
        refine ⟨(_, e.toRaw), ⟨_, _, _, rfl, hneighbor, _, ⟨listText_toRaw_iff.2 h, rfl⟩, rfl⟩, ?_⟩
        simp only [exchangeOf?_eq_some_iff.2 rfl, Option.map_some]

theorem not_isNameChar_of_isLineBlank {c : Char} (h : isLineBlank c = true) : isNameChar c = false := by
  simp only [isLineBlank, Bool.or_eq_true, decide_eq_true_eq] at h
  rcases h with rfl | rfl <;> decide

theorem not_isLineBlank_of_isNameChar {c : Char} (h : isNameChar c = true) : isLineBlank c = false := by
  rcases hblank : isLineBlank c with _ | _
  · rfl
  · rw [not_isNameChar_of_isLineBlank hblank] at h
    cases h

theorem isBlank_of_isLineBlank {c : Char} (h : isLineBlank c = true) : Text.isBlank c = true := by
  simp only [isLineBlank, Bool.or_eq_true, decide_eq_true_eq] at h
  rcases h with rfl | rfl <;> decide

/-- The value is all the rest without blanks around it. -/
theorem reads_configValue (name : List Char) :
    Reads (blanks >>= fun _ => restOfLine >>= fun value => pure
      (TelemetryLine.configItem (String.ofList name) (String.ofList (Text.trim value)) : TelemetryLine Float))
      (fun t line => line = .configItem (String.ofList name) (String.ofList (Text.trim t))) (· = []) := by
  constructor
  · intro s line rest h
    cases h
    exact ⟨s, (List.append_nil s).symm, by rw [Text.trim_dropWhile fun _ => isBlank_of_isLineBlank]⟩
  · rintro t line rest rfl rfl
    rw [List.append_nil]
    show Outcome.found (TelemetryLine.configItem _ (String.ofList (Text.trim (t.dropWhile isLineBlank)))) [] = _
    rw [Text.trim_dropWhile fun _ => isBlank_of_isLineBlank]

theorem reads_configItemBody : Reads configItemBody (BodyText .configItem) (· = []) := by
  have hequals (name : List Char) :=
    (reads_character '=').bind (fun _ => reads_configValue name) (fun _ _ _ _ _ _ => trivial)
  have hbefore (name : List Char) := reads_blanks.bind (fun _ => hequals name) (by
    rintro - - line rest ⟨-, -, t, rfl, rfl, -⟩ -
    exact StartsNot.cons (by decide) _)
  have hname := (reads_takeWhile1 isNameChar).bind hbefore (by
    rintro name - line rest ⟨before, -, -, rfl, hblank, -, -, t, rfl, rfl, -⟩ -
    cases before with
    | nil => exact StartsNot.cons (by decide) _
    | cons c before =>
        exact StartsNot.cons (not_isNameChar_of_isLineBlank (hblank c List.mem_cons_self)) _)
  have hall := reads_blanks.bind (fun _ => hname) (by
    rintro - - line rest ⟨name, _, t, rfl, ⟨rfl, hnonempty, hchars⟩, -⟩ -
    rw [List.append_assoc]
    exact StartsNot.append hnonempty (fun c hc => not_isLineBlank_of_isNameChar (hchars c hc)) _)
  refine hall.congr (fun t line => ?_) (fun _ h => h)
  constructor
  · rintro ⟨blank, -, -, rfl, hblank, name, _, -, rfl, ⟨rfl, hnonempty, hchars⟩, before, -, -, rfl, hbefore, -, -,
      value, rfl, rfl, rfl⟩
    exact .configItem hblank hnonempty hchars hbefore
  · intro h
    cases h with
    | configItem hblank hnonempty hchars hbefore =>
        exact ⟨_, (), _, rfl, hblank, _, _, _, rfl, ⟨rfl, hnonempty, hchars⟩, _, (), _, rfl, hbefore, _, (), _, rfl,
          rfl, rfl⟩

theorem reads_finishedBody :
    Reads finishedBody (fun t line => BlankText t ∧ line = .finished) (StartsNot isLineBlank) := by
  refine (reads_blanks.map fun _ => (TelemetryLine.finished : TelemetryLine Float)).congr (fun t line => ?_)
    (fun _ h => h)
  constructor
  · rintro ⟨-, hblank, rfl⟩
    exact ⟨hblank, rfl⟩
  · rintro ⟨hblank, rfl⟩
    exact ⟨(), hblank, rfl⟩

end Bodies

section Marks

theorem afterMark?_eq_some_iff {mark s rest : List Char} : afterMark? mark s = some rest ↔ s = mark ++ rest := by
  induction mark generalizing s with
  | nil => simp [afterMark?]
  | cons m mark ih =>
      cases s with
      | nil => simp [afterMark?]
      | cons c s =>
          unfold afterMark?
          by_cases hm : m = c
          · rw [if_pos hm, ih, hm]
            simp
          · rw [if_neg hm]
            simp [Ne.symm hm]

theorem mem_all (kind : LineKind) : kind ∈ LineKind.all := by
  cases kind <;> decide

theorem splitKind_eq_none_iff {t : List Char} :
    splitKind t = none ↔ ∀ kind : LineKind, ¬ kind.mark.toList <+: t := by
  unfold splitKind
  rw [List.findSome?_eq_none_iff]
  constructor
  · rintro h kind ⟨rest, hrest⟩
    have hnone := h kind (mem_all kind)
    rw [afterMark?_eq_some_iff.2 hrest.symm] at hnone
    cases hnone
  · intro h kind _
    rw [Option.map_eq_none_iff, Option.eq_none_iff_forall_ne_some]
    intro rest hrest
    exact h kind ⟨rest, (afterMark?_eq_some_iff.1 hrest).symm⟩

theorem eq_of_splitKind {t rest : List Char} {kind : LineKind} (h : splitKind t = some (kind, rest)) :
    t = kind.mark.toList ++ rest := by
  obtain ⟨other, -, hother⟩ := List.exists_of_findSome?_eq_some h
  obtain ⟨rest, hrest, hpair⟩ := Option.map_eq_some_iff.1 hother
  cases hpair
  exact afterMark?_eq_some_iff.1 hrest

/-- The mark decides which grammar the rest of a line is held against. -/
theorem lineText_mark_iff {kind : LineKind} {rest : List Char} {line : TelemetryLine Float} :
    LineText (kind.mark.toList ++ rest) line ↔ BodyText kind rest line := by
  constructor
  · intro h
    generalize ht : kind.mark.toList ++ rest = t at h
    obtain ⟨h⟩ := h
    rename_i other t
    have hsplit := splitKind_mark kind rest
    rw [ht, splitKind_mark] at hsplit
    cases hsplit
    exact h
  · intro h
    exact .mk h

/-- Nothing but the mark is left of a trimmed line whose mark is followed by blanks alone. -/
theorem eq_nil_of_blankText {s : List Char} {mark rest : List Char} (h : Text.trim s = mark ++ rest)
    (hblank : BlankText rest) : rest = [] := by
  by_contra hne
  have hlast : rest.getLast hne ∈ (Text.trim s).getLast? := by
    rw [h, List.getLast?_append_of_ne_nil _ hne]
    exact List.getLast?_eq_getLast_of_ne_nil hne
  have hbare := Text.getLast?_trim s _ hlast
  rw [isBlank_of_isLineBlank (hblank _ (List.getLast_mem hne))] at hbare
  cases hbare

theorem decode_eq_ok_iff_bodyText {s : String} {kind : LineKind} {rest : List Char}
    (hmark : Text.trim s.toList = kind.mark.toList ++ rest) {line : TelemetryLine Float} :
    decode s = .ok line ↔ BodyText kind rest line := by
  cases kind with
  | address => exact decode_eq_ok_iff .address reads_addressBody hmark line
  | twoWayRange =>
      rw [decode_eq_ok_iff .twoWayRange reads_twoWayRangeBody hmark line]
      exact ⟨fun ⟨_, h⟩ => .twoWayRange h, fun h => by cases h with | twoWayRange h => exact ⟨_, h⟩⟩
  | tdoa =>
      rw [decode_eq_ok_iff .tdoa reads_tdoaBody hmark line]
      exact ⟨fun ⟨_, h⟩ => .tdoa h, fun h => by cases h with | tdoa h => exact ⟨_, h⟩⟩
  | rawExchange => exact decode_eq_ok_iff .rawExchange reads_rawExchangeBody hmark line
  | associated => exact decode_eq_ok_iff .associated reads_associatedBody hmark line
  | timeslot => exact decode_eq_ok_iff .timeslot reads_timeslotBody hmark line
  | neighborList => exact decode_eq_ok_iff .neighborList reads_neighborListBody hmark line
  | configItem => exact decode_eq_ok_iff .configItem reads_configItemBody hmark line
  | finished =>
      have hreads : Reads finishedBody (fun t line => BlankText t ∧ line = .finished) (· = []) :=
        reads_finishedBody.congr (fun _ _ => Iff.rfl) (fun _ h => h ▸ StartsNot.nil _)
      rw [decode_eq_ok_iff .finished hreads hmark line]
      constructor
      · rintro ⟨hblank, rfl⟩
        rw [eq_nil_of_blankText hmark hblank]
        exact .finished
      · intro h
        cases h with
        | finished => exact ⟨fun _ hc => absurd hc List.not_mem_nil, rfl⟩

end Marks

section Outcomes

variable (s : String)

theorem decode_eq_unrecognized_iff :
    decode s = .error (.unrecognized (String.ofList (Text.trim s.toList))) ↔
      ∀ kind : LineKind, ¬ kind.mark.toList <+: Text.trim s.toList := by
  rw [← splitKind_eq_none_iff]
  unfold decode decodeTrimmed
  cases hsplit : splitKind (Text.trim s.toList) with
  | none => simp
  | some split =>
      simp only [reduceCtorEq, iff_false]
      split <;> simp

theorem decode_eq_ok_iff_lineText (line : TelemetryLine Float) :
    decode s = .ok line ↔ LineText (Text.trim s.toList) line := by
  cases hsplit : splitKind (Text.trim s.toList) with
  | none =>
      rw [(decode_eq_unrecognized_iff s).2 (splitKind_eq_none_iff.1 hsplit)]
      constructor
      · intro h
        cases h
      · intro h
        generalize Text.trim s.toList = t at h hsplit
        obtain ⟨h⟩ := h
        rw [splitKind_mark] at hsplit
        cases hsplit
  | some split =>
      obtain ⟨kind, rest⟩ := split
      have hmark := eq_of_splitKind hsplit
      rw [decode_eq_ok_iff_bodyText hmark, hmark, lineText_mark_iff]

/-- What begins like a line of some kind is either understood or handed back as malformed. -/
theorem decode_of_mark {kind : LineKind} (h : kind.mark.toList <+: Text.trim s.toList) :
    (∃ line, decode s = .ok line) ∨
      ∃ fault, decode s = .error (.malformed (String.ofList (Text.trim s.toList)) fault) := by
  obtain ⟨rest, hrest⟩ := h
  unfold decode decodeTrimmed
  rw [← hrest, splitKind_mark]
  simp only
  split
  · exact Or.inl ⟨_, rfl⟩
  · exact Or.inr ⟨_, rfl⟩
  · exact Or.inr ⟨_, rfl⟩

end Outcomes

/-- A setting is kept as it is written, if no blanks stand around it. -/
theorem decode_configItem {name value : List Char} (hname : name ≠ []) (hchars : ∀ c ∈ name, isNameChar c = true)
    (hvalue : Text.trim value = value) :
    decode (String.ofList (";;".toList ++ (name ++ '=' :: value))) =
      .ok (.configItem (String.ofList name) (String.ofList value)) := by
  have hbare : Text.Bare (";;".toList ++ (name ++ '=' :: value)) := by
    constructor
    · intro c hc
      obtain rfl : ';' = c := by simpa using hc
      decide
    · intro c hc
      rw [← List.append_assoc, List.getLast?_append_of_ne_nil _ (List.cons_ne_nil _ _)] at hc
      cases value with
      | nil =>
          obtain rfl : '=' = c := by simpa using hc
          decide
      | cons d value =>
          rw [List.getLast?_cons_cons, ← hvalue] at hc
          exact Text.getLast?_trim _ c hc
  rw [decode_eq_ok_iff_lineText, String.toList_ofList, Text.trim_eq_self hbare]
  have hnone : BlankText [] := fun _ hc => absurd hc List.not_mem_nil
  have hbody : BodyText .configItem (name ++ '=' :: value) (.configItem (String.ofList name)
      (String.ofList (Text.trim value))) := .configItem hnone hname hchars hnone
  rw [hvalue] at hbody
  exact .mk hbody

/-- A line without the blanks around it is unrecognized if and only if it begins with none of the marks. It is
understood if and only if it is a text of the grammar, as what the grammar says. Whatever else begins with a mark is
malformed. The value of a setting is kept as it is written. -/
theorem lines_decode_exactly (s : String) :
    (decode s = .error (.unrecognized (String.ofList (Text.trim s.toList))) ↔
      ∀ kind : LineKind, ¬ kind.mark.toList <+: Text.trim s.toList) ∧
    (∀ line, decode s = .ok line ↔ LineText (Text.trim s.toList) line) ∧
    ((∃ kind : LineKind, kind.mark.toList <+: Text.trim s.toList) →
      (∀ line, ¬ LineText (Text.trim s.toList) line) →
      ∃ fault, decode s = .error (.malformed (String.ofList (Text.trim s.toList)) fault)) ∧
    ∀ name value : List Char, name ≠ [] → (∀ c ∈ name, isNameChar c = true) → Text.trim value = value →
      decode (String.ofList (";;".toList ++ (name ++ '=' :: value))) =
        .ok (.configItem (String.ofList name) (String.ofList value)) := by
  refine ⟨decode_eq_unrecognized_iff s, decode_eq_ok_iff_lineText s, ?_, fun _ _ => decode_configItem⟩
  rintro ⟨kind, hmark⟩ hnone
  rcases decode_of_mark s hmark with ⟨line, hline⟩ | hmalformed
  · exact absurd ((decode_eq_ok_iff_lineText s line).1 hline) (hnone line)
  · exact hmalformed

/-- Neighbors after blanks and after a comma, a state that is neither of the two, and a value with blanks inside. -/
theorem lines_decode_exactly_three_lines :
    decode " dpnl 205 , 10\r\n" = .ok (.neighborList [205, 10]) ∧
    (∃ fault, decode "tschass, 2" = .error (.malformed "tschass, 2" fault)) ∧
    decode ";;EB_PERIOD=4 00" = .ok (.configItem "EB_PERIOD" "4 00") := by
  have hblank : BlankText [' '] := by decide
  have hword₁ : WordText ['2', '0', '5'] 205 := ⟨by simp, by decide, by decide⟩
  have hword₂ : WordText ['1', '0'] 10 := ⟨by simp, by decide, by decide⟩
  refine ⟨?_, ?_, ?_⟩
  · have hfirst : NeighborText [' ', '2', '0', '5'] 205 := .afterBlanks (by simp) hblank hword₁
    have hsecond : NeighborText [' ', ',', ' ', '1', '0'] 10 := .afterSeparator (.mk (.mk hblank hblank) hword₂)
    have hneighbors : ListText NeighborText [' ', '2', '0', '5', ' ', ',', ' ', '1', '0'] [205, 10] :=
      .cons hfirst (.cons hsecond .nil)
    have htrim : Text.trim " dpnl 205 , 10\r\n".toList =
        LineKind.neighborList.mark.toList ++ [' ', '2', '0', '5', ' ', ',', ' ', '1', '0'] := by decide
    refine ((lines_decode_exactly _).2.1 _).2 ?_
    rw [htrim]
    exact .mk (.neighborList (by simp) hneighbors)
  · have hfault : decode "tschass, 2" = .error (.malformed "tschass, 2" ⟨.oneOf, ['2']⟩) := rfl
    refine (lines_decode_exactly _).2.2.1 ⟨.associated, by decide⟩ fun line hline => ?_
    rw [← (lines_decode_exactly _).2.1, hfault] at hline
    cases hline
  · exact (lines_decode_exactly "").2.2.2 "EB_PERIOD".toList "4 00".toList (by decide)
      (List.all_eq_true.1 (by decide)) (by decide)

end Telemetry

end UwbRanging
