import UwbRanging.Proofs.SavedText.Composite

/-!
Records as people write them: blanks and comments wherever they may stand, some of the fields in any order, a comma
after the last of them or none, the name of the record before them or not. From each such text a record is read with
the values that are given and the defaults of the fields that are left out. The written form of a record, with all its
fields in order, is one of these texts.
-/

namespace UwbRanging.SavedText

open Telemetry (StartsNot)

section Spellings

variable {α β κ : Type} {implicitSome : Bool} {depth : Nat} {text : List Char} {a : α}

/-- A spelling of a value. -/
structure Denotes [Saved α] (implicitSome : Bool) (depth : Nat) (text : List Char) (a : α) : Prop where
  opening : Opening text
  reads : ReadsIn implicitSome Saved.read depth text a

theorem Legible.denotes [Saved α] (h : Legible α depth) (implicitSome : Bool) {depth' : Nat} (hle : depth ≤ depth')
    (level : Nat) (a : α) : Denotes implicitSome depth' (Saved.write level a) a :=
  ⟨h.opening level a, ((h.reads level a).mono hle).readsIn implicitSome⟩

/-- A spelling of a name. -/
structure Names (text : List Char) (name : String) : Prop where
  first : beginsWithIdentifierChar text = true
  reads : Reads identifier 0 text name

theorem PlainName.names {name : String} (h : PlainName name.toList) : Names name.toList name := by
  refine ⟨?_, reads_identifier h⟩
  obtain ⟨c, s, hname, hc⟩ := h.first
  have hchar := h.chars c (by rw [hname]; exact List.mem_cons_self)
  rw [hname]
  exact hchar

theorem Names.opening {name : String} (h : Names text name) : Opening text := by
  have hfirst := h.first
  cases text with
  | nil => cases hfirst
  | cons c s => exact opening_of (p := isIdentifierChar) (by decide) hfirst s

theorem Names.recordName {name : String} (h : Names text name) {context : Context} {rest : List Char}
    (hfuel : (text ++ rest).length < context.fuel) (hended : Ended rest) :
    recordName name context (text ++ rest) = some ((), rest) := by
  have hfirst : beginsWithIdentifierChar (text ++ rest) = true := by
    obtain ⟨c, s, rfl, -⟩ := h.opening
    exact h.first
  rw [SavedText.recordName, if_pos hfirst, bind_of_read (h.reads context rest (Nat.zero_le _) hfuel hended)]
  rw [guard, if_pos rfl]
  rfl

end Spellings

section Fields

variable {ι : Type} {implicitSome : Bool} {depth : Nat}

/-- The name of a field and a spelling of its value. -/
inductive FieldText (name : String) (denoted : List Char → Prop) : List Char → Prop where
  | mk {nameText before after value : List Char} (hname : Names nameText name) (hbefore : Skipped before)
      (hafter : Skipped after) (hvalue : denoted value) :
      FieldText name denoted (nameText ++ before ++ ':' :: (after ++ value))

/-- Some fields in this order and no others, with commas between them and perhaps one after the last. -/
inductive FieldTexts (name : ι → String) (denoted : ι → List Char → Prop) : List ι → List Char → Prop where
  | none {blanks : List Char} (hblanks : Skipped blanks) : FieldTexts name denoted [] blanks
  | last {i : ι} {blanks text blanks' : List Char} (hblanks : Skipped blanks)
      (htext : FieldText (name i) (denoted i) text) (hblanks' : Skipped blanks') :
      FieldTexts name denoted [i] (blanks ++ (text ++ blanks'))
  | more {i : ι} {given : List ι} {blanks text blanks' texts : List Char} (hblanks : Skipped blanks)
      (htext : FieldText (name i) (denoted i) text) (hblanks' : Skipped blanks')
      (h : FieldTexts name denoted given texts) :
      FieldTexts name denoted (i :: given) (blanks ++ (text ++ (blanks' ++ ',' :: texts)))

/-- The slots of the fields with the names `names` filled. -/
def Slots.given : (fs : List Field) → Row fs → List String → Slots fs
  | [], _, _ => ()
  | f :: fs, (a, row), names => (if f.name ∈ names then some a else none, Slots.given fs row names)

/-- A spelling of the value that a row has for the field with the name `name`. -/
def Row.Denoted (implicitSome : Bool) (depth : Nat) (name : String) (text : List Char) :
    (fs : List Field) → Row fs → Prop
  | [], _ => False
  | f :: fs, (a, row) =>
    if name = f.name then @Denotes f.type f.codec implicitSome depth text a
    else Row.Denoted implicitSome depth name text fs row

theorem Slots.given_nil (fs : List Field) (row : Row fs) : Slots.given fs row [] = Slots.empty fs := by
  induction fs with
  | nil => rfl
  | cons f fs ih =>
      obtain ⟨a, row⟩ := row
      rw [Slots.given, Slots.empty, ih, if_neg List.not_mem_nil]

theorem Slots.given_concat {fs : List Field} {name : String} (h : name ∉ fs.map Field.name) (row : Row fs)
    (names : List String) : Slots.given fs row (names ++ [name]) = Slots.given fs row names := by
  induction fs with
  | nil => rfl
  | cons f fs ih =>
      obtain ⟨a, row⟩ := row
      have hne : f.name ≠ name := fun heq => h (heq ▸ List.mem_cons_self)
      have hsame : f.name ∈ names ++ [name] ↔ f.name ∈ names := by simp [hne]
      rw [Slots.given, Slots.given, ih fun hmem => h (List.mem_cons_of_mem _ hmem)]
      simp only [hsame]
      rfl

/-- What is left out has its default. -/
theorem Slots.complete_given {f : Field} {fs : List Field} {a d : f.type} {row row' : Row fs} {names : List String}
    (hdefault : f.default? = some d) (h : Slots.complete fs (Slots.given fs row names) = some row') :
    Slots.complete (f :: fs) (Slots.given (f :: fs) (a, row) names) = some (if f.name ∈ names then a else d, row') := by
  rw [Slots.given, Slots.complete, h, hdefault]
  split <;> rfl

theorem Slots.readField_of_ne {f : Field} {fs : List Field} {name : String} (hne : name ≠ f.name)
    (slot : Option f.type) {slots slots' : Slots fs} {context : Context} {text rest : List Char}
    (h : Slots.readField name fs slots context text = some (slots', rest)) :
    Slots.readField name (f :: fs) (slot, slots) context text = some ((slot, slots'), rest) := by
  have hcase : Slots.readField name (f :: fs) (slot, slots) =
      (do return (slot, ← Slots.readField name fs slots) : Reader (Option f.type × Slots fs)) := if_neg hne
  rw [hcase, bind_of_read h]
  rfl

theorem Row.Denoted.reads {fs : List Field} (hnames : (fs.map Field.name).Nodup) {row : Row fs} {name : String}
    {text : List Char} (h : Row.Denoted implicitSome depth name text fs row) {names : List String}
    (hfresh : name ∉ names) :
    Opening text ∧ ReadsIn implicitSome (Slots.readField name fs (Slots.given fs row names)) depth text
      (Slots.given fs row (names ++ [name])) := by
  induction fs with
  | nil => exact False.elim h
  | cons f fs ih =>
      obtain ⟨a, row⟩ := row
      obtain ⟨hother, hnames⟩ := List.nodup_cons.1 hnames
      rw [Row.Denoted] at h
      split at h
      case isTrue hname =>
        -- the slot is still empty, and no field further down has this name
        subst hname
        let _ := f.codec
        refine ⟨h.opening, fun context rest himplicit hdepth hfuel hended => ?_⟩
        have hslot : f.name ∈ names ++ [f.name] := List.mem_append_right names (List.mem_singleton_self _)
        have hcase : Slots.readField f.name (f :: fs) (none, Slots.given fs row names) =
            (do return (some (← f.codec.read), Slots.given fs row names) : Reader (Slots (f :: fs))) := if_pos rfl
        rw [Slots.given, Slots.given, if_neg hfresh, if_pos hslot, Slots.given_concat hother, hcase,
          bind_of_read (h.reads context rest himplicit hdepth hfuel hended)]
        rfl
      case isFalse hne =>
        obtain ⟨hopening, hreads⟩ := ih hnames h
        refine ⟨hopening, fun context rest himplicit hdepth hfuel hended => ?_⟩
        have hsame : f.name ∈ names ++ [name] ↔ f.name ∈ names := by simp [Ne.symm hne]
        rw [Slots.given, Slots.given]
        simp only [hsame]
        exact Slots.readField_of_ne hne _ (hreads context rest himplicit hdepth hfuel hended)

variable {name : ι → String} {denoted : ι → List Char → Prop} {given : List ι} {texts : List Char} {fs : List Field}
  {row : Row fs}

/-- Fields fill their slots one after the other, whatever their order. -/
theorem FieldTexts.spread (h : FieldTexts name denoted given texts) (hnames : (fs.map Field.name).Nodup)
    (hdenoted : ∀ i text, denoted i text → Row.Denoted implicitSome depth (name i) text fs row) {names : List String}
    (hfresh : (names ++ given.map name).Nodup) :
    Spread (fun slots => colonPair identifier (Slots.readField · fs slots)) implicitSome (depth + 1)
      (Slots.given fs row names) texts (Slots.given fs row (names ++ given.map name)) := by
  have hitem {i : ι} {text : List Char} (htext : FieldText (name i) (denoted i) text) {names : List String}
      (hnew : name i ∉ names) :
      Opening text ∧ ReadsIn implicitSome (colonPair identifier (Slots.readField · fs (Slots.given fs row names)))
        (depth + 1) text (Slots.given fs row (names ++ [name i])) := by
    obtain ⟨hname, hbefore, hafter, hvalue⟩ := htext
    obtain ⟨hopening, hreads⟩ := (hdenoted i _ hvalue).reads hnames hnew
    refine ⟨(hname.opening.append _).append _, ?_⟩
    exact readsIn_colonPair ((hname.reads.mono (Nat.zero_le depth)).readsIn implicitSome) hbefore hafter hopening hreads
  -- over the text, for any names that are filled before it
  induction h generalizing names with
  | none hblanks =>
      rw [List.map_nil, List.append_nil]
      exact .done hblanks
  | @last i blanks text blanks' hblanks htext hblanks' =>
      have hnew : name i ∉ names := fun hmem => (List.disjoint_of_nodup_append hfresh) hmem List.mem_cons_self
      obtain ⟨hopening, hreads⟩ := hitem htext hnew
      exact .last hblanks hopening hreads hblanks'
  | @more i given blanks text blanks' texts hblanks htext hblanks' h ih =>
      have hnew : name i ∉ names := fun hmem => (List.disjoint_of_nodup_append hfresh) hmem List.mem_cons_self
      obtain ⟨hopening, hreads⟩ := hitem htext hnew
      have hassoc : names ++ (i :: given).map name = names ++ [name i] ++ given.map name := by simp
      rw [hassoc] at hfresh ⊢
      exact .more hblanks hopening hreads hblanks' (ih hfresh)

/-- A record, its name before it or not. -/
inductive RecordText (record : String) (fields : List Char → Prop) : List Char → Prop where
  | unnamed {texts : List Char} (h : fields texts) : RecordText record fields ('(' :: (texts ++ [')']))
  | named {nameText blanks texts : List Char} (hname : Names nameText record) (hblanks : Skipped blanks)
      (h : fields texts) : RecordText record fields (nameText ++ blanks ++ '(' :: (texts ++ [')']))

/-- A record is read from the fields that are given and the defaults of the others. -/
theorem RecordText.denotes {α : Type} {record : String} {toRow : α → Row fs} {ofRow : Row fs → α} {text : List Char}
    (h : RecordText record (FieldTexts name denoted given) text) (hnames : (fs.map Field.name).Nodup)
    (hdenoted : ∀ i text, denoted i text → Row.Denoted implicitSome depth (name i) text fs row)
    (hgiven : (given.map name).Nodup) {row' : Row fs}
    (hcomplete : Slots.complete fs (Slots.given fs row (given.map name)) = some row') {a : α} (ha : ofRow row' = a) :
    @Denotes α (Saved.record record fs toRow ofRow) implicitSome (depth + 1) text a := by
  subst ha
  let _ := Saved.record record fs toRow ofRow
  have hrow {texts : List Char} (htexts : FieldTexts name denoted given texts) :
      ReadsIn implicitSome (readRow fs) (depth + 1) ('(' :: (texts ++ [')'])) row' := by
    intro context rest himplicit hdepth hfuel hended
    have hspread := htexts.spread hnames hdenoted (show ([] ++ given.map name).Nodup from hgiven)
    rw [Slots.given_nil, List.nil_append] at hspread
    rw [readRow, bind_of_read (hspread.readsIn_enclosed '(' (by decide) context rest himplicit hdepth hfuel hended)]
    simp only [hcomplete]
    rfl
  have hbehind {texts : List Char} (htexts : FieldTexts name denoted given texts) {blanks : List Char}
      (hblanks : Skipped blanks) (context : Context) (rest : List Char)
      (himplicit : context.implicitSome = implicitSome) (hdepth : depth + 1 ≤ context.depth)
      (hfuel : ('(' :: (texts ++ [')']) ++ rest).length < context.fuel)
      (hended : Ended rest) :
      (do gap; return ofRow (← readRow fs) : Reader α) context (blanks ++ ('(' :: (texts ++ [')']) ++ rest)) =
        some (ofRow row', rest) := by
    have hbracket : Solid ('(' :: (texts ++ [')']) ++ rest) := Solid.cons (by decide) (by decide) _
    rw [bind_of_read (hblanks.gap hbracket), bind_of_read (hrow htexts context rest himplicit hdepth hfuel hended)]
    rfl
  cases h with
  | @unnamed texts htexts =>
      refine ⟨⟨'(', _, rfl, by decide⟩, fun context rest himplicit hdepth hfuel hended => ?_⟩
      have hname : recordName record context ('(' :: (texts ++ [')']) ++ rest) = some ((), _) := rfl
      simp only [Saved.read]
      rw [bind_of_read hname]
      exact hbehind htexts skipped_nil context rest himplicit hdepth hfuel hended
  | @named nameText blanks texts hname hblanks htexts =>
      refine ⟨(hname.opening.append _).append _, fun context rest himplicit hdepth hfuel hended => ?_⟩
      have htext : nameText ++ blanks ++ '(' :: (texts ++ [')']) ++ rest =
          nameText ++ (blanks ++ ('(' :: (texts ++ [')']) ++ rest)) := by simp
      rw [htext] at hfuel ⊢
      have hlength : ('(' :: (texts ++ [')']) ++ rest).length < context.fuel := by
        simp only [List.length_append] at hfuel ⊢
        omega
      simp only [Saved.read]
      rw [bind_of_read (hname.recordName hfuel (hblanks.ended (StartsNot.cons (by decide) _)))]
      exact hbehind htexts hblanks context rest himplicit hdepth hlength hended

theorem fieldTexts_brokenLines {texts : List (List Char)}
    (h : List.Forall₂ (fun i text => FieldText (name i) (denoted i) text) given texts) (level : Nat) :
    FieldTexts name denoted given (brokenLines level texts) := by
  induction h with
  | nil => exact .none (skipped_indent level)
  | cons htext _ ih =>
      rw [brokenLines_cons]
      exact .more (skipped_indent (level + 1)) htext skipped_nil ih

/-- Some of the fields in any order, each on a line of its own. -/
theorem recordText_writeLines {texts : List (List Char)}
    (h : List.Forall₂ (fun i text => FieldText (name i) (denoted i) text) given texts) (record : String) (level : Nat) :
    RecordText record (FieldTexts name denoted given) (writeLines '(' ')' level texts) := by
  have hlines := fieldTexts_brokenLines h level
  cases h with
  | nil => exact RecordText.unnamed (FieldTexts.none skipped_nil)
  | cons =>
      rw [writeLines_cons]
      exact .unnamed hlines

end Fields

section Complete

variable {depth : Nat}

/-- A field that a record can have: its name can be read back, and so can its values. -/
structure LegibleField (depth : Nat) (f : Field) : Prop where
  name : PlainName f.name.toList
  value : @Legible f.type f.codec depth

theorem PlainName.fieldText {name : String} (h : PlainName name.toList) {denoted : List Char → Prop} {value : List Char}
    (hvalue : denoted value) : FieldText name denoted (name.toList ++ [':', ' '] ++ value) := by
  have htext : name.toList ++ [':', ' '] ++ value = name.toList ++ [] ++ ':' :: ([' '] ++ value) := by simp
  rw [htext]
  exact .mk h.names skipped_nil (skipped_nil.space rfl) hvalue

/-- The fields as they are written. They are spelled in a longer record if each is spelled in it that is spelled
here. -/
theorem forall₂_write {fs : List Field} (hfields : ∀ f ∈ fs, LegibleField depth f) (hnames : (fs.map Field.name).Nodup)
    (implicitSome : Bool) (level : Nat) (row : Row fs) {denoted : String → List Char → Prop}
    (hdenoted : ∀ f ∈ fs, ∀ text, Row.Denoted implicitSome depth f.name text fs row → denoted f.name text) :
    List.Forall₂ (fun name text => FieldText name (denoted name) text) (fs.map Field.name)
      (Row.write level fs row) := by
  induction fs with
  | nil => exact .nil
  | cons f fs ih =>
      obtain ⟨a, row⟩ := row
      obtain ⟨hfresh, hnames⟩ := List.nodup_cons.1 hnames
      obtain ⟨hname, hvalue⟩ := hfields f List.mem_cons_self
      let _ := f.codec
      have hself : Row.Denoted implicitSome depth f.name (f.codec.write (level + 1) a) (f :: fs) (a, row) := by
        rw [Row.Denoted, if_pos rfl]
        exact hvalue.denotes implicitSome (Nat.le_refl depth) (level + 1) a
      refine .cons (hname.fieldText (hdenoted f List.mem_cons_self _ hself))
        (ih (fun g hg => hfields g (List.mem_cons_of_mem f hg)) hnames row fun g hg text htext => ?_)
      have hne : g.name ≠ f.name := fun heq => hfresh (heq ▸ List.mem_map_of_mem hg)
      refine hdenoted g (List.mem_cons_of_mem f hg) text ?_
      rw [Row.Denoted, if_neg hne]
      exact htext

theorem Slots.complete_given_all {fs : List Field} (row : Row fs) {names : List String}
    (h : ∀ f ∈ fs, f.name ∈ names) : Slots.complete fs (Slots.given fs row names) = some row := by
  induction fs with
  | nil => rfl
  | cons f fs ih =>
      obtain ⟨a, row⟩ := row
      rw [Slots.given, if_pos (h f List.mem_cons_self), Slots.complete,
        ih row fun g hg => h g (List.mem_cons_of_mem f hg)]
      rfl

/-- A record is read back if its fields are, and if it is made again from the values of its fields. -/
theorem legible_record {α : Type} {name : String} {fs : List Field} {toRow : α → Row fs} {ofRow : Row fs → α}
    (hfields : ∀ f ∈ fs, LegibleField depth f) (hnames : (fs.map Field.name).Nodup) (hrow : ∀ a, ofRow (toRow a) = a) :
    @Legible α (Saved.record name fs toRow ofRow) (depth + 1) := by
  let _ := Saved.record name fs toRow ofRow
  refine ⟨fun level a => opening_writeLines (by decide) ')' level _, fun level a => .of_readsIn fun implicitSome => ?_⟩
  let denoted : String → List Char → Prop := fun name text => Row.Denoted implicitSome depth name text fs (toRow a)
  have hwritten : List.Forall₂ (fun name text => FieldText name (denoted name) text) _ _ :=
    forall₂_write hfields hnames implicitSome level (toRow a) fun _ _ _ h => h
  have hall : ∀ f ∈ fs, f.name ∈ (fs.map Field.name).map id := fun f hf => by
    rw [List.map_id]
    exact List.mem_map_of_mem hf
  have htext : RecordText name (FieldTexts id denoted (fs.map Field.name))
      (writeLines '(' ')' level (Row.write level fs (toRow a))) :=
    recordText_writeLines hwritten name level
  exact (htext.denotes hnames (fun _ _ h => h) (by rwa [List.map_id]) (Slots.complete_given_all (toRow a) hall)
    (hrow a)).reads

end Complete

end UwbRanging.SavedText
