import UwbRanging.Proofs.SavedText.Scalars
import UwbRanging.Proofs.SortedMap

/-!
Optional values, tuples, lists and maps are read back if their parts are. Each is one level deeper than its parts.
-/

namespace UwbRanging.SavedText

open Telemetry (StartsNot)

section Parts

variable {α β κ : Type} {implicitSome : Bool} {depth : Nat}

theorem Reads.map {r : Reader α} {text : List Char} {a : α} (h : Reads r depth text a) (f : α → β) :
    Reads (do return f (← r)) depth text (f a) := by
  intro context rest hdepth hfuel hended
  rw [bind_of_read (h context rest hdepth hfuel hended)]
  rfl

/-- The two sides of a colon, with blanks and comments around it. -/
theorem readsIn_colonPair {key : Reader κ} {value : κ → Reader β} {keyText before after valueText : List Char} {k : κ}
    {b : β} (hkey : ReadsIn implicitSome key depth keyText k) (hbefore : Skipped before) (hafter : Skipped after)
    (hopening : Opening valueText) (hvalue : ReadsIn implicitSome (value k) depth valueText b) :
    ReadsIn implicitSome (colonPair key value) (depth + 1) (keyText ++ before ++ ':' :: (after ++ valueText)) b := by
  intro context rest himplicit hdepth hfuel hended
  have htext : keyText ++ before ++ ':' :: (after ++ valueText) ++ rest =
      keyText ++ (before ++ ':' :: (after ++ (valueText ++ rest))) := by simp
  rw [htext] at hfuel ⊢
  have hlength : (valueText ++ rest).length < context.fuel := by
    simp only [List.length_append, List.length_cons] at hfuel ⊢
    omega
  have hcolon : Solid (':' :: (after ++ (valueText ++ rest))) := Solid.cons (by decide) (by decide) _
  have hk := hkey.nested context _ himplicit hdepth hfuel (hbefore.ended (StartsNot.cons (by decide) _))
  have hexpect : expect ":" context (':' :: (after ++ (valueText ++ rest))) = some ((), after ++ (valueText ++ rest)) :=
    expect_word ":" _
  rw [colonPair, bind_of_read hk, bind_of_read (hbefore.gap hcolon), bind_of_read hexpect,
    bind_of_read (hafter.gap (hopening.solid rest))]
  exact hvalue.nested context rest himplicit hdepth hlength hended

theorem reads_colonPair {key : Reader κ} {value : κ → Reader β} {keyText valueText : List Char} {k : κ} {b : β}
    (hkey : Reads key depth keyText k) (hopening : Opening valueText) (hvalue : Reads (value k) depth valueText b) :
    Reads (colonPair key value) (depth + 1) (keyText ++ [':', ' '] ++ valueText) b := by
  have hblank : Skipped [' '] := skipped_nil.space rfl
  refine .of_readsIn fun implicitSome => ?_
  have hpair := readsIn_colonPair (hkey.readsIn implicitSome) skipped_nil hblank hopening (hvalue.readsIn implicitSome)
  simpa using hpair

end Parts

section Options

variable {α : Type} [Saved α] {depth : Nat}

theorem reads_some (h : Legible α depth) (level : Nat) (a : α) :
    Reads (Saved.read : Reader (Option α)) (depth + 1) (Saved.write level (some a)) (some a) := by
  intro context rest hdepth hfuel hended
  have htext : Saved.write level (some a) ++ rest =
      "Some".toList ++ '(' :: (Saved.write level a ++ ')' :: rest) := by
    change "Some(".toList ++ Saved.write level a ++ [')'] ++ rest = _
    simp
  have hlength : (Saved.write level a ++ ')' :: rest).length < context.fuel := by
    rw [htext] at hfuel
    simp only [List.length_append, List.length_cons] at hfuel ⊢
    omega
  have hvalue := (h.reads level a).nested context (')' :: rest) hdepth hlength (StartsNot.cons (by decide) _)
  have hinner : gap context (Saved.write level a ++ ')' :: rest) = some ((), _) :=
    gap_of_solid ((h.opening level a).solid _)
  rw [htext]
  generalize Saved.write level a ++ ')' :: rest = inner at hvalue hinner
  have hnone : take? "None" context ("Some".toList ++ '(' :: inner) = some (false, _) := take?_other rfl
  have hsome : take? "Some" context ("Some".toList ++ '(' :: inner) = some (true, '(' :: inner) :=
    take?_word "Some" _
  have hgap : gap context ('(' :: inner) = some ((), _) := gap_of_solid (Solid.cons (by decide) (by decide) _)
  have hopen : take? "(" context ('(' :: inner) = some (true, inner) := take?_word "(" inner
  have hcomma : comma context (')' :: rest) = some (false, ')' :: rest) :=
    comma_absent (Solid.cons (by decide) (by decide) _) (by rintro d ⟨⟩; decide)
  have hclose : expect ")" context (')' :: rest) = some ((), rest) := expect_word ")" rest
  simp only [Saved.read]
  rw [bind_of_read hnone]
  simp only [Bool.false_eq_true, if_false]
  rw [bind_of_read hsome]
  simp only [if_true]
  rw [bind_of_read hgap, bind_of_read hopen]
  simp only [if_true]
  rw [bind_of_read hinner, bind_of_read hvalue, bind_of_read hcomma, bind_of_read hclose]
  rfl

theorem legible_option (h : Legible α depth) : Legible (Option α) (depth + 1) where
  opening level a := by
    cases a with
    | none => exact ⟨'N', _, rfl, by decide⟩
    | some a => exact ⟨'S', _, rfl, by decide⟩
  reads level a := by
    cases a with
    | none => exact fun _ _ _ _ _ => rfl
    | some a => exact reads_some h level a

end Options

theorem writeLines_eq_cons (opening closing : Char) (level : Nat) (texts : List (List Char)) :
    ∃ s, writeLines opening closing level texts = opening :: s := by
  unfold writeLines
  split
  · exact ⟨_, rfl⟩
  · exact ⟨_, rfl⟩

theorem opening_writeLines {opening : Char} (h : opening ∈ ['(', '[', '\x7b']) (closing : Char) (level : Nat)
    (texts : List (List Char)) : Opening (writeLines opening closing level texts) := by
  obtain ⟨s, hs⟩ := writeLines_eq_cons opening closing level texts
  have hnone : (nonOpening.any fun d => decide (d ∈ ['(', '[', '\x7b'])) = false := by decide
  rw [hs]
  exact opening_of hnone (decide_eq_true h) s

section Lists

variable {α : Type} [Saved α] {depth : Nat}

/-- Items are put in front of those read before. -/
theorem steps_list (h : Legible α depth) (level : Nat) (as before : List α) :
    Steps (fun before => do return (← nested Saved.read) :: before) (depth + 1) before
      (as.map (Saved.write (level + 1))) (as.reverse ++ before) := by
  induction as generalizing before with
  | nil => exact .nil before
  | cons a as ih =>
      have hread := (h.reads (level + 1) a).nested.map fun a => a :: before
      rw [List.map_cons, List.reverse_cons, List.append_assoc, List.singleton_append]
      exact .cons (h.opening (level + 1) a) hread (ih (a :: before))

theorem legible_list (h : Legible α depth) : Legible (List α) (depth + 1) where
  opening level as := opening_writeLines (by decide) ']' level _
  reads level as := by
    have hitems := (steps_list h level as []).reads_enclosed '[' (by decide : ']' ∈ closers) level
    have hread := hitems.map List.reverse
    rwa [List.append_nil, List.reverse_reverse] at hread

end Lists

section Maps

variable {κ ν : Type} [KeyOrder κ] [Saved κ] [Saved ν] {depth : Nat}

theorem steps_map (hkey : Legible κ depth) (hvalue : Legible ν depth) (level : Nat) (before : SortedMap κ ν)
    (entries : List (κ × ν)) :
    Steps (fun m : SortedMap κ ν => colonPair Saved.read fun k => do return m.insert k (← Saved.read)) (depth + 1)
      before (entries.map fun e => Saved.write (level + 1) e.1 ++ [':', ' '] ++ Saved.write (level + 1) e.2)
      (entries.foldl (fun m e => m.insert e.1 e.2) before) := by
  induction entries generalizing before with
  | nil => exact .nil before
  | cons e entries ih =>
      have hopening := ((hkey.opening (level + 1) e.1).append [':', ' ']).append (Saved.write (level + 1) e.2)
      have hinsert := (hvalue.reads (level + 1) e.2).map fun v => before.insert e.1 v
      have hkeyReads := hkey.reads (level + 1) e.1
      exact .cons hopening (reads_colonPair hkeyReads (hvalue.opening (level + 1) e.2) hinsert) (ih _)

theorem legible_map (hkey : Legible κ depth) (hvalue : Legible ν depth) : Legible (SortedMap κ ν) (depth + 1) where
  opening level m := opening_writeLines (by decide) '\x7d' level _
  reads level m := by
    have hitems := (steps_map hkey hvalue level .empty m.entries).reads_enclosed '\x7b' (by decide : '\x7d' ∈ closers)
      level
    have hentries : m.entries.foldl (fun m e => m.insert e.1 e.2) .empty = m := m.ofList_entries
    rwa [hentries] at hitems

end Maps

section Tuples

/-- Every value is read back as an item of a tuple, or as several of them. -/
structure LegibleItems (α : Type) [SavedTuple α] (depth : Nat) : Prop where
  opening (level : Nat) (a : α) : Opening (SavedTuple.writeItems level a)
  reads (level : Nat) (a : α) : Reads SavedTuple.readItems depth (SavedTuple.writeItems level a) a

variable {α β : Type} [Saved α] {depth : Nat}

theorem legibleItems_one (h : Legible α depth) : LegibleItems α (depth + 1) where
  opening level a := h.opening level a
  reads level a := by
    intro context rest hdepth hfuel hended
    have hgap : gap context (Saved.write level a ++ rest) = some ((), Saved.write level a ++ rest) :=
      gap_of_solid ((h.opening level a).solid rest)
    change (gap >>= fun _ => nested Saved.read) context (Saved.write level a ++ rest) = _
    rw [bind_of_read hgap]
    exact (h.reads level a).nested context rest hdepth hfuel hended

variable [SavedTuple β]

theorem legibleItems_cons (hfirst : Legible α depth) (hrest : LegibleItems β (depth + 1)) :
    LegibleItems (α × β) (depth + 1) where
  opening level p := ((hfirst.opening level p.1).append [',', ' ']).append (SavedTuple.writeItems level p.2)
  reads level p := by
    obtain ⟨a, b⟩ := p
    intro context rest hdepth hfuel hended
    have htext : SavedTuple.writeItems level (a, b) ++ rest =
        Saved.write level a ++ ',' :: ' ' :: (SavedTuple.writeItems level b ++ rest) := by
      change Saved.write level a ++ [',', ' '] ++ SavedTuple.writeItems level b ++ rest = _
      simp
    rw [htext] at hfuel ⊢
    have hlength : (SavedTuple.writeItems level b ++ rest).length < context.fuel := by
      simp only [List.length_append, List.length_cons] at hfuel ⊢
      omega
    have hvalue := (hfirst.reads level a).nested context _ hdepth hfuel (StartsNot.cons (by decide) _)
    have hgap : gap context (Saved.write level a ++ ',' :: ' ' :: (SavedTuple.writeItems level b ++ rest)) =
        some ((), _) :=
      gap_of_solid ((hfirst.opening level a).solid _)
    have hblank : gap context ([' '] ++ (SavedTuple.writeItems level b ++ rest)) = some ((), _) :=
      (skipped_nil.space rfl).gap ((hrest.opening level b).solid rest)
    have hcomma : comma context (',' :: ' ' :: (SavedTuple.writeItems level b ++ rest)) = some (true, _) :=
      comma_found hblank
    have hitems := hrest.reads level b context rest hdepth hlength hended
    simp only [SavedTuple.readItems]
    rw [bind_of_read hgap, bind_of_read hvalue, bind_of_read hcomma]
    change (SavedTuple.readItems >>= fun b => pure (a, b)) context (SavedTuple.writeItems level b ++ rest) = _
    rw [bind_of_read hitems]
    rfl

theorem legible_tuple (h : LegibleItems (α × β) depth) : Legible (α × β) depth where
  opening level p := ⟨'(', _, rfl, by decide⟩
  reads level p := by
    intro context rest hdepth hfuel _
    have htext : Saved.write level p ++ rest = '(' :: (SavedTuple.writeItems level p ++ ')' :: rest) := by
      change '(' :: SavedTuple.writeItems level p ++ [')'] ++ rest = _
      simp
    rw [htext] at hfuel ⊢
    have hopen : expect "(" context ('(' :: (SavedTuple.writeItems level p ++ ')' :: rest)) =
        some ((), SavedTuple.writeItems level p ++ ')' :: rest) := expect_word "(" _
    have hitems := h.reads level p context (')' :: rest) hdepth (Nat.lt_of_succ_lt hfuel) (StartsNot.cons (by decide) _)
    have hcomma : comma context (')' :: rest) = some (false, ')' :: rest) :=
      comma_absent (Solid.cons (by decide) (by decide) _) (by rintro d ⟨⟩; decide)
    have hclose : expect ")" context (')' :: rest) = some ((), rest) := expect_word ")" rest
    simp only [Saved.read]
    rw [bind_of_read hopen, bind_of_read hitems, bind_of_read hcomma, bind_of_read hcomma, bind_of_read hclose]
    rfl

end Tuples

end UwbRanging.SavedText
