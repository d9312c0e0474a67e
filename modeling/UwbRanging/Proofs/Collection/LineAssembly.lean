import Mathlib.Data.List.DropRight
import Mathlib.Data.List.Forall2
import UwbRanging.Collection.StreamLine

/-!
The lines that are assembled from bytes are those between the line breaks. Bytes between two breaks that are no text are
left out, and nothing else is. The lines do not depend on how the bytes are cut when they arrive.
-/

namespace UwbRanging

/-- The UTF-8 of some characters, one after another. -/
def utf8Bytes (cs : List Char) : List UInt8 :=
  cs.flatMap String.utf8EncodeChar

namespace LineAssembler

/-- Bytes that arrive in two parts complete the same lines, and leave the same bytes, as they do in one. -/
theorem push_append (a : LineAssembler) (xs ys : List UInt8) :
    a.push (xs ++ ys) =
      ((a.push xs).1 ++ ((a.push xs).2.push ys).1, ((a.push xs).2.push ys).2) := by
  induction xs generalizing a with
  | nil => rfl
  | cons b xs ih =>
      simp only [List.cons_append, push]
      split
      · simp only [ih, List.append_assoc]
      · exact ih _

/-- The bytes of one read after another: the lines that each read completes, and the assembler after the last. -/
def pushEach (a : LineAssembler) : List (List UInt8) → List (List String) × LineAssembler
  | [] => ([], a)
  | bytes :: reads =>
    let (lines, a) := a.push bytes
    let (more, a) := a.pushEach reads
    (lines :: more, a)

/-- Reads one after another complete what all their bytes complete at once. -/
theorem pushEach_eq (a : LineAssembler) (reads : List (List UInt8)) :
    (a.pushEach reads).1.flatten = (a.push reads.flatten).1 ∧ (a.pushEach reads).2 = (a.push reads.flatten).2 := by
  induction reads generalizing a with
  | nil => exact ⟨rfl, rfl⟩
  | cons bytes reads ih =>
      obtain ⟨hlines, hlast⟩ := ih (a.push bytes).2
      rw [List.flatten_cons, push_append]
      exact ⟨congrArg ((a.push bytes).1 ++ ·) hlines, hlast⟩

/-- Bytes that are the UTF-8 of some text. -/
def IsText (bytes : List UInt8) : Prop :=
  ∃ cs, utf8Bytes cs = bytes

/-- The bytes of a line, and behind it carriage returns. The line itself does not end in one. -/
def IsLine (bytes : List UInt8) (line : String) : Prop :=
  line.toList.getLast? ≠ some '\r' ∧ ∃ n, utf8Bytes (line.toList ++ List.replicate n '\r') = bytes

theorem fromUTF8?_eq_some_iff {bytes : List UInt8} {s : String} :
    String.fromUTF8? ⟨bytes.toArray⟩ = some s ↔ utf8Bytes s.toList = bytes := by
  have hbytes : utf8Bytes s.toList = bytes ↔ s.toByteArray = ⟨bytes.toArray⟩ := by
    rw [← String.utf8Encode_toList, List.utf8Encode, ByteArray.ext_iff, List.data_toByteArray, Array.mk.injEq]
    rfl
  rw [hbytes, String.fromUTF8?]
  split
  · rw [Option.some.injEq, ← String.toByteArray_inj]
    exact eq_comm
  · rename_i hinvalid
    refine iff_of_false nofun fun h => hinvalid (h ▸ s.isValidUTF8)

theorem rdropWhile_return_eq_iff {cs line : List Char} :
    cs.rdropWhile (· = '\r') = line ↔ line.getLast? ≠ some '\r' ∧ ∃ n, line ++ List.replicate n '\r' = cs := by
  constructor
  · rintro rfl
    refine ⟨fun hlast => ?_, (cs.rtakeWhile (· = '\r')).length, ?_⟩
    · obtain ⟨hne, hlast⟩ := List.mem_getLast?_eq_getLast hlast
      exact List.rdropWhile_last_not _ cs hne (decide_eq_true hlast.symm)
    · have hreturns : cs.rtakeWhile (· = '\r') = List.replicate (cs.rtakeWhile (· = '\r')).length '\r' :=
        List.eq_replicate_of_mem fun c hc => by simpa using List.mem_rtakeWhile_imp hc
      rw [← hreturns, List.rdropWhile_append_rtakeWhile]
  · rintro ⟨hlast, n, rfl⟩
    induction n with
    | zero =>
        rw [List.replicate_zero, List.append_nil, List.rdropWhile_eq_self_iff]
        intro hne hreturn
        exact hlast (List.getLast?_eq_some_getLast hne ▸ congrArg some (of_decide_eq_true hreturn))
    | succ n ih => rw [List.replicate_succ', ← List.append_assoc, List.rdropWhile_concat_pos _ _ _ (by simp), ih]

theorem lineOf?_eq_some_iff {bytes : List UInt8} {line : String} : lineOf? bytes = some line ↔ IsLine bytes line := by
  have hstrip : ∀ s : String, String.ofList (s.toList.rdropWhile (· = '\r')) = line ↔
      s.toList.rdropWhile (· = '\r') = line.toList := fun s => by
    rw [← String.toList_inj, String.toList_ofList]
  rw [lineOf?, Option.map_eq_some_iff]
  change (∃ s : String, _ ∧ String.ofList (s.toList.rdropWhile (· = '\r')) = line) ↔ _
  simp only [fromUTF8?_eq_some_iff, hstrip, rdropWhile_return_eq_iff]
  constructor
  · rintro ⟨s, rfl, hlast, n, hs⟩
    exact ⟨hlast, n, hs ▸ rfl⟩
  · rintro ⟨hlast, n, rfl⟩
    exact ⟨.ofList (line.toList ++ List.replicate n '\r'), by rw [String.toList_ofList], hlast, n,
      String.toList_ofList.symm⟩

theorem isText_iff {bytes : List UInt8} : IsText bytes ↔ ∃ line, lineOf? bytes = some line := by
  simp only [lineOf?, Option.map_eq_some_iff, fromUTF8?_eq_some_iff]
  constructor
  · rintro ⟨cs, rfl⟩
    exact ⟨_, .ofList cs, by rw [String.toList_ofList], rfl⟩
  · rintro ⟨_, s, rfl, -⟩
    exact ⟨s.toList, rfl⟩

instance (bytes : List UInt8) : Decidable (IsText bytes) :=
  decidable_of_iff ((lineOf? bytes).isSome = true) (by rw [isText_iff, Option.isSome_iff_exists])

/-- What is between the breaks is a line if it is a text, and else nothing. -/
theorem forall₂_filterMap_lineOf? (ended : List (List UInt8)) :
    List.Forall₂ IsLine (ended.filter (IsText ·)) (ended.filterMap lineOf?) := by
  induction ended with
  | nil => exact .nil
  | cons bytes ended ih =>
      cases hline : lineOf? bytes with
      | none =>
          have htext : ¬ IsText bytes := by rw [isText_iff, hline]; nofun
          rwa [List.filter_cons_of_neg (by simpa using htext), List.filterMap_cons_none hline]
      | some line =>
          have htext : IsText bytes := isText_iff.2 ⟨line, hline⟩
          rw [List.filter_cons_of_pos (by simpa using htext), List.filterMap_cons_some hline]
          exact .cons (lineOf?_eq_some_iff.1 hline) ih

theorem pending_empty : empty.pending = [] :=
  rfl

theorem pending_cons (b : UInt8) (bs : List UInt8) : pending ⟨b :: bs⟩ = pending ⟨bs⟩ ++ [b] :=
  List.reverse_cons

/-- The bytes that are pending hold no break, and the first break that arrives ends them. -/
theorem push_eq (a : LineAssembler) (hpending : lineBreak ∉ a.pending) (bytes : List UInt8) :
    ∃ ended, (a.pending ++ bytes).splitOn lineBreak = ended ++ [(a.push bytes).2.pending] ∧
      (a.push bytes).1 = ended.filterMap lineOf? := by
  induction bytes generalizing a with
  | nil => exact ⟨[], by rw [List.append_nil, List.splitOn_eq_singleton hpending]; rfl, rfl⟩
  | cons b bytes ih =>
      rw [push]
      split
      · rename_i hb
        obtain ⟨ended, hsplit, hlines⟩ := ih empty nofun
        refine ⟨a.pending :: ended, ?_, ?_⟩
        · rw [hb, List.splitOn_append_cons_self_of_not_mem hpending, List.cons_append, ← hsplit]
          rfl
        · rw [List.filterMap_cons]
          cases lineOf? a.pending <;> simp [hlines]
      · rename_i hb
        have hnext := ih ⟨b :: a.latestFirst⟩ (by
          rw [pending_cons, List.mem_append, List.mem_singleton]
          exact not_or.2 ⟨hpending, Ne.symm hb⟩)
        rwa [pending_cons, List.append_assoc] at hnext

theorem lines_push_empty (bytes : List UInt8) :
    (empty.push bytes).1 = (bytes.splitOn lineBreak).dropLast.filterMap lineOf? := by
  obtain ⟨ended, hsplit, hlines⟩ := push_eq empty nofun bytes
  rw [pending_empty, List.nil_append] at hsplit
  rw [hsplit, List.dropLast_concat, hlines]

/-- What comes before a break and what comes after it make up lines of their own. -/
theorem lines_push_break (xs ys : List UInt8) :
    (empty.push (xs ++ lineBreak :: ys)).1 = (xs.splitOn lineBreak).filterMap lineOf? ++ (empty.push ys).1 := by
  rw [lines_push_empty, lines_push_empty, List.splitOn_append_cons_self,
    List.dropLast_append_of_ne_nil (List.splitOn_ne_nil _ _), List.filterMap_append]

theorem lines_push_garbage {garbage : List UInt8} (hbreak : lineBreak ∉ garbage) (htext : ¬ IsText garbage)
    (before later : List UInt8) :
    (empty.push (before ++ lineBreak :: (garbage ++ lineBreak :: later))).1 =
      (empty.push (before ++ [lineBreak])).1 ++ (empty.push later).1 := by
  have hnone : lineOf? garbage = none := by
    rw [isText_iff] at htext
    exact Option.eq_none_iff_forall_ne_some.2 fun line hline => htext ⟨line, hline⟩
  rw [lines_push_break, lines_push_break garbage, lines_push_break before, List.splitOn_eq_singleton hbreak,
    List.filterMap_cons_none hnone]
  simp [push]

/-- Whatever is read, the lines are the texts between the line breaks in the bytes of all reads together, each without
its carriage returns, and the bytes behind the last break are pending. So neither the cuts between the reads nor bytes
that are no text make a difference to the other lines. -/
theorem lines_between_breaks (reads : List (List UInt8)) :
    let lines := (empty.pushEach reads).1.flatten
    let last := (empty.pushEach reads).2
    (∃ ended, reads.flatten.splitOn lineBreak = ended ++ [last.pending] ∧
      List.Forall₂ IsLine (ended.filter (IsText ·)) lines) ∧
    (∀ reads', reads'.flatten = reads.flatten →
      (empty.pushEach reads').1.flatten = lines ∧ (empty.pushEach reads').2 = last) ∧
    ∀ before garbage later, reads.flatten = before ++ lineBreak :: (garbage ++ lineBreak :: later) →
      lineBreak ∉ garbage → ¬ IsText garbage →
      lines = (empty.push (before ++ [lineBreak])).1 ++ (empty.push later).1 := by
  intro lines last
  obtain ⟨hlines, hlast⟩ := pushEach_eq empty reads
  refine ⟨?_, fun reads' hbytes => ?_, fun before garbage later hbytes hbreak htext => ?_⟩
  · obtain ⟨ended, hsplit, hended⟩ := push_eq empty nofun reads.flatten
    refine ⟨ended, ?_, ?_⟩
    · rwa [← hlast] at hsplit
    · have htexts : lines = ended.filterMap lineOf? := hlines.trans hended
      rw [htexts]
      exact forall₂_filterMap_lineOf? ended
  · obtain ⟨hlines', hlast'⟩ := pushEach_eq empty reads'
    rw [hbytes] at hlines' hlast'
    exact ⟨hlines'.trans hlines.symm, hlast'.trans hlast.symm⟩
  · exact hlines.trans (hbytes ▸ lines_push_garbage hbreak htext before later)

/-- A cut within a character, one between a carriage return and the break behind it, garbage, an empty line, and the
beginning of another. -/
def cutReads : List (List UInt8) :=
  [[99, 0xC3], [0xA9, 13], [lineBreak, 0xFF, 0xFE, lineBreak], [lineBreak, 116]]

theorem lines_between_breaks_cut_within_character :
    (empty.pushEach cutReads).1.flatten = ["cé", ""] ∧ (empty.pushEach cutReads).2.pending = [116] ∧
      (empty.pushEach [cutReads.flatten]).1.flatten = ["cé", ""] ∧
      (empty.push [99, 0xC3, 0xA9, 13, lineBreak]).1 ++ (empty.push [lineBreak, 116]).1 = ["cé", ""] := by
  obtain ⟨-, huncut, haround⟩ := lines_between_breaks cutReads
  have hlines : (empty.pushEach cutReads).1.flatten = ["cé", ""] := by decide +kernel
  have hgarbage : ¬ IsText [0xFF, 0xFE] := by decide +kernel
  refine ⟨hlines, by decide +kernel, ?_, ?_⟩
  · rw [(huncut [cutReads.flatten] (by decide)).1, hlines]
  · rw [← hlines, haround [99, 0xC3, 0xA9, 13] [0xFF, 0xFE] [lineBreak, 116] (by decide) (by decide) hgarbage]
    rfl

end LineAssembler

/-- The lines that all the bytes of a port make up, one after another. -/
def portLines (port : String) (bytes : List UInt8) : List StreamLine :=
  (LineAssembler.empty.push bytes).1.map (StreamLine.mk port)

theorem stream_of_mem_portLines {port : String} {bytes : List UInt8} {line : StreamLine}
    (h : line ∈ portLines port bytes) : line.stream = port := by
  obtain ⟨text, -, rfl⟩ := List.mem_map.1 h
  rfl

end UwbRanging
