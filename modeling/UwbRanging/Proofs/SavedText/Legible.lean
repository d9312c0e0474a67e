import Mathlib.Data.Option.Basic
import UwbRanging.Proofs.Telemetry.Grammar
import UwbRanging.SavedText.Record

/-!
What is written is read back. Reading is stated for a text with more text behind it: a value is followed by a comma or
a bracket, never by a character that could be a part of it.
-/

namespace UwbRanging.SavedText

open Telemetry (StartsNot)

/-- No value goes on into such a text. -/
def Ended (rest : List Char) : Prop :=
  StartsNot isRawIdentifierChar rest

/-- A text with no blanks and no comments in front of it. -/
def Solid (text : List Char) : Prop :=
  ∀ c ∈ text.head?, isSpace c = false ∧ c ≠ '/'

/-- The brackets that close lists, maps, tuples and records. -/
def closers : List Char :=
  [')', ']', '\x7d']

/-- What no value and no name begins with: a blank, a comment, an attribute, a closing bracket. -/
def nonOpening : List Char :=
  [' ', '\t', '\r', '\n', '/', '#'] ++ closers

/-- The text of a value or of a name. -/
def Opening (text : List Char) : Prop :=
  ∃ c s, text = c :: s ∧ c ∉ nonOpening

/-- A reader takes a text for a value, whatever stands behind it. It may nest so deep, and the text is no longer than
its fuel. -/
def Reads {α : Type} (r : Reader α) (depth : Nat) (text : List Char) (a : α) : Prop :=
  ∀ (context : Context) (rest : List Char), depth ≤ context.depth → (text ++ rest).length < context.fuel →
    Ended rest → r context (text ++ rest) = some (a, rest)

/-- A reader takes a text for a value in a file in which optional values may stand alone, or in one in which they may
not. -/
def ReadsIn {α : Type} (implicitSome : Bool) (r : Reader α) (depth : Nat) (text : List Char) (a : α) : Prop :=
  ∀ (context : Context) (rest : List Char), context.implicitSome = implicitSome → depth ≤ context.depth →
    (text ++ rest).length < context.fuel → Ended rest → r context (text ++ rest) = some (a, rest)

/-- Every value is read back from its written form. -/
structure Legible (α : Type) [Saved α] (depth : Nat) : Prop where
  opening (level : Nat) (a : α) : Opening (Saved.write level a)
  reads (level : Nat) (a : α) : Reads Saved.read depth (Saved.write level a) a

section Texts

theorem solid_of_not_mem {c : Char} (h : c ∉ nonOpening) : isSpace c = false ∧ c ≠ '/' := by
  have hne : ∀ d ∈ nonOpening, c ≠ d := fun d hd hcd => h (hcd ▸ hd)
  simp only [isSpace, Bool.or_eq_false_iff, decide_eq_false_iff_not]
  exact ⟨⟨⟨⟨hne ' ' (by decide), hne '\t' (by decide)⟩, hne '\r' (by decide)⟩, hne '\n' (by decide)⟩,
    hne '/' (by decide)⟩

theorem Opening.solid {text : List Char} (h : Opening text) (rest : List Char) : Solid (text ++ rest) := by
  obtain ⟨c, s, rfl, hc⟩ := h
  rintro d ⟨⟩
  exact solid_of_not_mem hc

theorem opening_of {p : Char → Bool} (hp : nonOpening.any p = false) {c : Char} (hc : p c = true)
    (s : List Char) : Opening (c :: s) :=
  ⟨c, s, rfl, fun hmem => List.any_eq_false.1 hp c hmem hc⟩

theorem Opening.append {text : List Char} (h : Opening text) (rest : List Char) : Opening (text ++ rest) := by
  obtain ⟨c, s, rfl, hc⟩ := h
  exact ⟨c, s ++ rest, rfl, hc⟩

theorem solid_of_closers : ∀ c ∈ closers, isSpace c = false ∧ c ≠ '/' ∧ c ≠ ',' := by
  simp only [closers, List.forall_mem_cons]
  exact ⟨by decide, by decide, by decide, List.forall_mem_nil _⟩

theorem Solid.cons {c : Char} (hspace : isSpace c = false) (hslash : c ≠ '/') (s : List Char) : Solid (c :: s) := by
  rintro d ⟨⟩
  exact ⟨hspace, hslash⟩

/-- What ends a name ends every run of fewer characters. -/
theorem Ended.startsNot {p : Char → Bool} (hp : ∀ c, p c = true → isRawIdentifierChar c = true) {rest : List Char}
    (h : Ended rest) : StartsNot p rest := by
  intro c hc
  have hraw := h c hc
  cases hpc : p c with
  | false => rfl
  | true => rw [hp c hpc] at hraw; cases hraw

end Texts

section Readers

variable {α β : Type} {context : Context} {text rest : List Char}

/-- What is read first is what the rest of a reader goes on from. -/
theorem bind_of_read {r : Reader α} {f : α → Reader β} {a : α} (h : r context text = some (a, rest)) :
    (r >>= f) context text = f a context rest := by
  change (r context text).bind (fun p => f p.1 context p.2) = f a context rest
  rw [h]
  rfl

theorem skipGap_of_solid (h : Solid text) : skipGap .blank text = some text := by
  cases text with
  | nil => rfl
  | cons c s =>
      obtain ⟨hspace, hslash⟩ := h c rfl
      unfold skipGap
      split <;> simp_all

theorem gap_of_solid (h : Solid text) : gap context text = some ((), text) := by
  rw [gap, skipGap_of_solid h]
  rfl

theorem afterWord?_append (word s : List Char) : afterWord? word (word ++ s) = some s := by
  induction word with
  | nil => rfl
  | cons w word ih => rw [List.cons_append, afterWord?, if_pos rfl, ih]

theorem take?_word (word : String) (s : List Char) :
    take? word context (word.toList ++ s) = some (true, s) := by
  rw [take?, afterWord?_append]

theorem take?_other {word : String} (h : afterWord? word.toList text = none) :
    take? word context text = some (false, text) := by
  rw [take?, h]

theorem expect_word (word : String) (s : List Char) : expect word context (word.toList ++ s) = some ((), s) := by
  rw [expect, bind_of_read (take?_word word s)]
  rfl

theorem expect_singleton (c : Char) (s : List Char) :
    expect (String.singleton c) context (c :: s) = some ((), s) := by
  have h : expect (String.singleton c) context ((String.singleton c).toList ++ s) = some ((), s) := expect_word _ s
  rwa [String.toList_singleton] at h

theorem comma_found (h : gap context text = some ((), rest)) : comma context (',' :: text) = some (true, rest) := by
  have hcomma : take? "," context (',' :: text) = some (true, text) := take?_word "," text
  rw [comma, bind_of_read (gap_of_solid (Solid.cons (by decide) (by decide) _)), bind_of_read hcomma]
  change (gap >>= fun _ => pure true) context text = some (true, rest)
  rw [bind_of_read h]
  rfl

theorem comma_absent (h : Solid text) (hcomma : ∀ c ∈ text.head?, c ≠ ',') :
    comma context text = some (false, text) := by
  have hnone : afterWord? ",".toList text = none := by
    cases text with
    | nil => rfl
    | cons c s => exact if_neg (Ne.symm (hcomma c rfl))
  rw [comma, bind_of_read (gap_of_solid h), bind_of_read (take?_other hnone)]
  rfl

end Readers

section Gaps

variable {blanks rest : List Char} {context : Context}

/-- Blanks and comments: what is skipped in front of anything that is neither. -/
def Skipped (blanks : List Char) : Prop :=
  ∀ rest, Solid rest → skipGap .blank (blanks ++ rest) = some rest

theorem skipped_nil : Skipped [] :=
  fun _ => skipGap_of_solid

theorem Skipped.space {c : Char} (hc : isSpace c = true) (h : Skipped blanks) : Skipped (c :: blanks) := by
  intro rest hrest
  have hslash : c ≠ '/' := by
    rintro rfl
    cases hc
  have hskip : skipGap .blank (c :: (blanks ++ rest)) = skipGap .blank (blanks ++ rest) := by
    rw [skipGap.eq_def]
    split <;> simp_all
  rw [List.cons_append, hskip, h rest hrest]

theorem skipped_of_spaces (h : ∀ c ∈ blanks, isSpace c = true) : Skipped blanks := by
  induction blanks with
  | nil => exact skipped_nil
  | cons c blanks ih => exact (ih fun d hd => h d (List.mem_cons_of_mem c hd)).space (h c List.mem_cons_self)

theorem skipGap_line {comment : List Char} (hcomment : '\n' ∉ comment) (rest : List Char) :
    skipGap .line (comment ++ '\n' :: rest) = skipGap .blank rest := by
  induction comment with
  | nil => rw [List.nil_append, skipGap, if_pos rfl]
  | cons c comment ih =>
      have hc : c ≠ '\n' := fun heq => hcomment (heq ▸ List.mem_cons_self)
      rw [List.cons_append, skipGap, if_neg hc, ih fun hmem => hcomment (List.mem_cons_of_mem c hmem)]

theorem Skipped.comment {comment : List Char} (hcomment : '\n' ∉ comment) (h : Skipped blanks) :
    Skipped ('/' :: '/' :: (comment ++ '\n' :: blanks)) := by
  intro rest hrest
  rw [List.cons_append, List.cons_append, List.append_assoc, List.cons_append, skipGap, skipGap_line hcomment]
  exact h rest hrest

theorem Skipped.gap (h : Skipped blanks) (hrest : Solid rest) : gap context (blanks ++ rest) = some ((), rest) := by
  rw [SavedText.gap, h rest hrest]
  rfl

theorem comma_of_gap {text text' : List Char} (h : gap context text = gap context text') :
    comma context text = comma context text' := by
  change (gap context text).bind _ = (gap context text').bind _
  rw [h]

theorem ended_closing {closing : Char} (h : closing ∈ closers) (rest : List Char) : Ended (closing :: rest) := by
  have hnone : closers.any isRawIdentifierChar = false := by decide
  exact StartsNot.cons (Bool.eq_false_iff.2 (List.any_eq_false.1 hnone closing h)) rest

/-- What a gap begins with is no part of a value. -/
theorem ended_of_skipGap {text : List Char} (h : skipGap .blank text = some rest) (hne : text ≠ rest) : Ended text := by
  cases text with
  | nil => exact StartsNot.nil _
  | cons c s =>
      cases hc : isRawIdentifierChar c with
      | false => exact StartsNot.cons hc s
      | true =>
          have hopening : Opening (c :: s) := opening_of (by decide) hc s
          have hsolid : Solid (c :: s) := by simpa using hopening.solid []
          exact absurd (Option.some.inj ((skipGap_of_solid hsolid).symm.trans h)) hne

theorem Skipped.ended (h : Skipped blanks) (hrest : Ended rest) : Ended (blanks ++ rest) := by
  cases blanks with
  | nil => exact hrest
  | cons c s =>
      have hskip := h [] (by rintro c ⟨⟩)
      rw [List.append_nil] at hskip
      exact StartsNot.cons (ended_of_skipGap hskip (List.cons_ne_nil c s) c rfl) _

end Gaps

section Values

variable {α : Type} {r : Reader α} {depth : Nat} {text : List Char} {a : α}

theorem Reads.mono (h : Reads r depth text a) {depth' : Nat} (hle : depth ≤ depth') : Reads r depth' text a :=
  fun context rest hdepth => h context rest (Nat.le_trans hle hdepth)

theorem Legible.mono [Saved α] (h : Legible α depth) {depth' : Nat} (hle : depth ≤ depth') : Legible α depth' :=
  ⟨h.opening, fun level a => (h.reads level a).mono hle⟩

/-- In any file is in a file of either kind. -/
theorem Reads.of_readsIn (h : ∀ implicitSome, ReadsIn implicitSome r depth text a) : Reads r depth text a :=
  fun context rest => h context.implicitSome context rest rfl

theorem Reads.readsIn (h : Reads r depth text a) (implicitSome : Bool) : ReadsIn implicitSome r depth text a :=
  fun context rest _ => h context rest

theorem ReadsIn.nested {implicitSome : Bool} (h : ReadsIn implicitSome r depth text a) :
    ReadsIn implicitSome (nested r) (depth + 1) text a := by
  intro context rest himplicit hdepth hfuel hended
  obtain ⟨inside, houtside⟩ := Nat.exists_eq_add_of_le' hdepth
  have hle : depth ≤ inside + depth := Nat.le_add_left depth inside
  rw [SavedText.nested, houtside]
  exact h { context with depth := inside + depth } rest himplicit hle hfuel hended

theorem Reads.nested (h : Reads r depth text a) : Reads (nested r) (depth + 1) text a :=
  .of_readsIn fun implicitSome => (h.readsIn implicitSome).nested

end Values

section Items

variable {σ : Type} {item : σ → Reader σ} {implicitSome : Bool} {depth : Nat}

theorem foldItems_of_gap {closing : Char} {context : Context} {text text' : List Char}
    (h : gap context text = gap context text') (fuel : Nat) (hadComma : Bool) (state : σ) :
    foldItems closing item fuel hadComma state context text =
      foldItems closing item fuel hadComma state context text' := by
  cases fuel with
  | zero => rfl
  | succ fuel =>
      change (gap context text).bind _ = (gap context text').bind _
      rw [h]

theorem foldItems_close {closing : Char} {context : Context} {text rest : List Char}
    (hgap : gap context text = some ((), closing :: rest)) (fuel : Nat) (hadComma : Bool) (state : σ) :
    foldItems closing item (fuel + 1) hadComma state context text = some (state, closing :: rest) := by
  rw [foldItems, bind_of_read hgap]
  change (if closing = closing then _ else _ : Reader σ) context (closing :: rest) = _
  rw [if_pos rfl]
  rfl

theorem foldItems_item {closing c : Char} {context : Context} {text s rest rest' : List Char} {state next : σ}
    {found : Bool} (hgap : gap context text = some ((), c :: s)) (hc : c ≠ closing)
    (hitem : item state context (c :: s) = some (next, rest)) (hcomma : comma context rest = some (found, rest'))
    (fuel : Nat) :
    foldItems closing item (fuel + 1) true state context text =
      foldItems closing item fuel found next context rest' := by
  rw [foldItems, bind_of_read hgap]
  change (if c = closing then _ else _ : Reader σ) context (c :: s) = _
  rw [if_neg hc]
  change (item state >>= fun next => comma >>= fun found => foldItems closing item fuel found next) context (c :: s) = _
  rw [bind_of_read hitem, bind_of_read hcomma]

/-- Items with commas between them and perhaps one after the last, blanks and comments around them, and what they make
of a state one after the other. -/
inductive Spread (item : σ → Reader σ) (implicitSome : Bool) (depth : Nat) : σ → List Char → σ → Prop where
  | done {state : σ} {blanks : List Char} (hblanks : Skipped blanks) :
      Spread item implicitSome depth state blanks state
  | last {before after : σ} {blanks text blanks' : List Char} (hblanks : Skipped blanks) (hopening : Opening text)
      (hreads : ReadsIn implicitSome (item before) depth text after) (hblanks' : Skipped blanks') :
      Spread item implicitSome depth before (blanks ++ (text ++ blanks')) after
  | more {before after final : σ} {blanks text blanks' texts : List Char} (hblanks : Skipped blanks)
      (hopening : Opening text) (hreads : ReadsIn implicitSome (item before) depth text after)
      (hblanks' : Skipped blanks') (h : Spread item implicitSome depth after texts final) :
      Spread item implicitSome depth before (blanks ++ (text ++ (blanks' ++ ',' :: texts))) final

variable {start final : σ} {texts : List Char} {closing : Char}

/-- Behind the gap at the front of items stands what no gap goes on into. -/
theorem Spread.exists_gap (h : Spread item implicitSome depth start texts final) (hclosing : closing ∈ closers)
    (rest : List Char) (context : Context) :
    ∃ text, Solid text ∧ gap context (texts ++ closing :: rest) = some ((), text) := by
  obtain ⟨hspace, hslash, -⟩ := solid_of_closers closing hclosing
  cases h with
  | done hblanks => exact ⟨_, Solid.cons hspace hslash rest, hblanks.gap (Solid.cons hspace hslash rest)⟩
  | last hblanks hopening | more hblanks hopening =>
      rw [List.append_assoc, List.append_assoc]
      exact ⟨_, hopening.solid _, hblanks.gap (hopening.solid _)⟩

/-- All items are read, and nothing but the closing bracket and what is behind it is left. -/
theorem Spread.foldItems_eq (h : Spread item implicitSome depth start texts final) (hclosing : closing ∈ closers)
    (rest : List Char) {context : Context} (himplicit : context.implicitSome = implicitSome)
    (hdepth : depth ≤ context.depth) {fuel : Nat} (hitems : texts.length < fuel)
    (hfuel : (texts ++ closing :: rest).length < context.fuel) :
    foldItems closing item fuel true start context (texts ++ closing :: rest) = some (final, closing :: rest) := by
  obtain ⟨hspace, hslash, hcomma⟩ := solid_of_closers closing hclosing
  have hclose : Solid (closing :: rest) := Solid.cons hspace hslash rest
  have hne {c : Char} (hc : c ∉ nonOpening) : c ≠ closing := fun heq => hc (List.mem_append_right _ (heq ▸ hclosing))
  -- each item takes at least one character of the text, so the fuel lasts
  induction h generalizing fuel with
  | done hblanks =>
      obtain ⟨fuel, rfl⟩ := Nat.exists_eq_add_one_of_ne_zero (Nat.ne_of_gt (Nat.zero_lt_of_lt hitems))
      exact foldItems_close (hblanks.gap hclose) _ _ _
  | @last before after blanks text blanks' hblanks hopening hreads hblanks' =>
      have htext : blanks ++ (text ++ blanks') ++ closing :: rest =
          blanks ++ (text ++ (blanks' ++ closing :: rest)) := by
        simp
      rw [htext] at hfuel ⊢
      simp only [List.length_append] at hitems hfuel
      have hgap : gap context (blanks ++ (text ++ (blanks' ++ closing :: rest))) = some ((), _) :=
        hblanks.gap (hopening.solid _)
      have hitem := hreads context (blanks' ++ closing :: rest) himplicit hdepth
        (by simp only [List.length_append]; omega) (hblanks'.ended (ended_closing hclosing rest))
      have hend : comma context (blanks' ++ closing :: rest) = some (false, closing :: rest) := by
        rw [comma_of_gap ((hblanks'.gap hclose).trans (gap_of_solid hclose).symm)]
        exact comma_absent hclose (by rintro d ⟨⟩; exact hcomma)
      obtain ⟨c, s, rfl, hc⟩ := hopening
      obtain ⟨fuel, rfl⟩ : ∃ n, fuel = n + 1 + 1 := ⟨fuel - 2, by simp only [List.length_cons] at hitems; omega⟩
      rw [foldItems_item hgap (hne hc) hitem hend]
      exact foldItems_close (gap_of_solid hclose) _ _ _
  | @more before after final blanks text blanks' texts hblanks hopening hreads hblanks' h ih =>
      have htext : blanks ++ (text ++ (blanks' ++ ',' :: texts)) ++ closing :: rest =
          blanks ++ (text ++ (blanks' ++ ',' :: (texts ++ closing :: rest))) := by simp
      rw [htext] at hfuel ⊢
      simp only [List.length_append, List.length_cons] at hitems hfuel
      have hgap : gap context (blanks ++ (text ++ (blanks' ++ ',' :: (texts ++ closing :: rest)))) = some ((), _) :=
        hblanks.gap (hopening.solid _)
      have hitem := hreads context (blanks' ++ ',' :: (texts ++ closing :: rest)) himplicit hdepth
        (by simp only [List.length_append, List.length_cons]; omega) (hblanks'.ended (StartsNot.cons (by decide) _))
      have hsolid : Solid (',' :: (texts ++ closing :: rest)) := Solid.cons (by decide) (by decide) _
      obtain ⟨next, hnext, hgapNext⟩ := h.exists_gap hclosing rest context
      -- the comma takes the blanks before the next item with it
      have hcomma : comma context (blanks' ++ ',' :: (texts ++ closing :: rest)) = some (true, next) := by
        rw [comma_of_gap ((hblanks'.gap hsolid).trans (gap_of_solid hsolid).symm)]
        exact comma_found hgapNext
      obtain ⟨c, s, rfl, hc⟩ := hopening
      obtain ⟨fuel, rfl⟩ := Nat.exists_eq_add_one_of_ne_zero (Nat.ne_of_gt (Nat.zero_lt_of_lt hitems))
      rw [foldItems_item hgap (hne hc) hitem hcomma, foldItems_of_gap ((gap_of_solid hnext).trans hgapNext.symm)]
      exact ih (by simp only [List.length_cons] at hitems; omega)
        (by simp only [List.length_append, List.length_cons]; omega)

theorem Spread.readsIn_enclosed (h : Spread item implicitSome depth start texts final) (opening : Char)
    (hclosing : closing ∈ closers) :
    ReadsIn implicitSome (enclosed opening closing item start) depth (opening :: (texts ++ [closing])) final := by
  intro context rest himplicit hdepth hfuel _
  obtain ⟨hspace, hslash, hcomma⟩ := solid_of_closers closing hclosing
  have htext : opening :: (texts ++ [closing]) ++ rest = opening :: (texts ++ closing :: rest) := by simp
  rw [htext] at hfuel ⊢
  have hcontext : (read : Reader Context) context (texts ++ closing :: rest) = some (context, _) := rfl
  simp only [List.length_append, List.length_cons] at hfuel
  have hitems : texts.length < context.fuel := by omega
  have hfold := h.foldItems_eq hclosing rest himplicit hdepth hitems
    (by simp only [List.length_append, List.length_cons]; omega)
  have hend : comma context (closing :: rest) = some (false, closing :: rest) :=
    comma_absent (Solid.cons hspace hslash rest) (by rintro d ⟨⟩; exact hcomma)
  rw [enclosed, bind_of_read (expect_singleton opening _), bind_of_read hcontext, bind_of_read hfold,
    bind_of_read hend, bind_of_read (expect_singleton closing rest)]
  rfl

/-- One item after another is read, and each takes the state further. -/
inductive Steps (item : σ → Reader σ) (depth : Nat) : σ → List (List Char) → σ → Prop where
  | nil (state : σ) : Steps item depth state [] state
  | cons {before after last : σ} {text : List Char} {texts : List (List Char)} (hopening : Opening text)
      (hreads : Reads (item before) depth text after) (h : Steps item depth after texts last) :
      Steps item depth before (text :: texts) last

theorem isSpace_of_mem_indent {level : Nat} {c : Char} (h : c ∈ indent level) : isSpace c = true := by
  rw [List.eq_of_mem_replicate h]
  rfl

theorem skipped_indent (level : Nat) : Skipped ('\n' :: indent level) :=
  (skipped_of_spaces fun _ => isSpace_of_mem_indent).space rfl

/-- Items on lines of their own, and the front of the line with the bracket that closes them. -/
def brokenLines (level : Nat) (texts : List (List Char)) : List Char :=
  '\n' :: ((texts.flatMap fun text => indent (level + 1) ++ text ++ [',', '\n']) ++ indent level)

theorem brokenLines_cons (level : Nat) (text : List Char) (texts : List (List Char)) :
    brokenLines level (text :: texts) =
      ('\n' :: indent (level + 1)) ++ (text ++ ([] ++ ',' :: brokenLines level texts)) := by
  simp [brokenLines]

theorem writeLines_cons (opening closing : Char) (level : Nat) (text : List Char) (texts : List (List Char)) :
    writeLines opening closing level (text :: texts) = opening :: (brokenLines level (text :: texts) ++ [closing]) := by
  simp [writeLines, brokenLines]

theorem Steps.spread {texts : List (List Char)} (h : Steps item depth start texts final) (implicitSome : Bool)
    (level : Nat) : Spread item implicitSome depth start (brokenLines level texts) final := by
  induction h with
  | nil => exact .done (skipped_indent level)
  | @cons before after last text texts hopening hreads h ih =>
      rw [brokenLines_cons]
      exact .more (skipped_indent (level + 1)) hopening (hreads.readsIn implicitSome) skipped_nil ih

theorem Steps.reads_enclosed {texts : List (List Char)} (h : Steps item depth start texts final) (opening : Char)
    (hclosing : closing ∈ closers) (level : Nat) :
    Reads (enclosed opening closing item start) depth (writeLines opening closing level texts) final := by
  refine .of_readsIn fun implicitSome => ?_
  have hlines := h.spread implicitSome level
  cases h with
  | nil => exact (Spread.done skipped_nil).readsIn_enclosed opening hclosing
  | cons =>
      rw [writeLines_cons]
      exact hlines.readsIn_enclosed opening hclosing

end Items

end UwbRanging.SavedText
