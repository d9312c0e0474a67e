/-!
Maps whose entries stand in ascending order of their keys, each key once. The order is part of the type, so
two maps are equal as soon as they hold the same entries.
-/

namespace UwbRanging

/-- A strict linear order on keys. -/
class KeyOrder (κ : Type) where
  lt : κ → κ → Bool
  irrefl (a : κ) : lt a a = false
  trans {a b c : κ} : lt a b = true → lt b c = true → lt a c = true
  eq_of_not_lt {a b : κ} : lt a b = false → lt b a = false → a = b

instance : KeyOrder UInt32 where
  lt a b := decide (a < b)
  irrefl a := by simp
  trans h h' := by simp_all only [decide_eq_true_eq]; exact UInt32.lt_trans h h'
  eq_of_not_lt h h' := by
    simp_all only [decide_eq_false_iff_not, UInt32.not_lt]
    exact UInt32.le_antisymm h' h

/-- Texts by their code points, which is also the order of their UTF-8 bytes. -/
instance : KeyOrder String where
  lt a b := decide (a < b)
  irrefl a := by simp
  trans h h' := by simp_all only [decide_eq_true_eq]; exact String.lt_trans h h'
  eq_of_not_lt h h' := by
    simp_all only [decide_eq_false_iff_not, String.not_lt]
    exact String.le_antisymm h' h

/-- Pairs by the first component, then by the second. -/
instance {κ μ : Type} [KeyOrder κ] [KeyOrder μ] : KeyOrder (κ × μ) where
  lt a b := KeyOrder.lt a.1 b.1 || (!KeyOrder.lt b.1 a.1 && KeyOrder.lt a.2 b.2)
  irrefl a := by simp [KeyOrder.irrefl]
  trans {a b c} h h' := by
    simp only [Bool.or_eq_true, Bool.and_eq_true, Bool.not_eq_true'] at *
    rcases h with h | ⟨h, k⟩
    · rcases h' with h' | ⟨h', _⟩
      · exact .inl (KeyOrder.trans h h')
      · rcases hbc : KeyOrder.lt b.1 c.1 with _ | _
        · exact .inl (KeyOrder.eq_of_not_lt hbc h' ▸ h)
        · exact .inl (KeyOrder.trans h hbc)
    · rcases hab : KeyOrder.lt a.1 b.1 with _ | _
      · have e := KeyOrder.eq_of_not_lt hab h
        rcases h' with h' | ⟨h', k'⟩
        · exact .inl (e ▸ h')
        · exact .inr ⟨e ▸ h', KeyOrder.trans k k'⟩
      · rcases h' with h' | ⟨h', _⟩
        · exact .inl (KeyOrder.trans hab h')
        · rcases hbc : KeyOrder.lt b.1 c.1 with _ | _
          · exact .inl (KeyOrder.eq_of_not_lt hbc h' ▸ hab)
          · exact .inl (KeyOrder.trans hab hbc)
  eq_of_not_lt {a b} h h' := by
    simp only [Bool.or_eq_false_iff, Bool.and_eq_false_iff, Bool.not_eq_false'] at *
    have e := KeyOrder.eq_of_not_lt h.1 h'.1
    rcases h.2 with k | k
    · exact absurd (h'.1 ▸ k) (by simp)
    · rcases h'.2 with k' | k'
      · exact absurd (h.1 ▸ k') (by simp)
      · exact Prod.ext e (KeyOrder.eq_of_not_lt k k')

structure SortedMap (κ ν : Type) [KeyOrder κ] where
  entries : List (κ × ν)
  sorted : entries.Pairwise fun a b => KeyOrder.lt a.1 b.1 = true

namespace SortedMap

variable {κ ν μ : Type} [KeyOrder κ]

theorem ext {m n : SortedMap κ ν} (h : m.entries = n.entries) : m = n := by
  cases m; cases n; cases h; rfl

instance [DecidableEq κ] [DecidableEq ν] : DecidableEq (SortedMap κ ν) := fun m n =>
  decidable_of_iff (m.entries = n.entries) ⟨ext, fun h => h ▸ rfl⟩

instance [BEq κ] [BEq ν] : BEq (SortedMap κ ν) where
  beq m n := m.entries == n.entries

def empty : SortedMap κ ν :=
  ⟨[], .nil⟩

instance : Inhabited (SortedMap κ ν) := ⟨empty⟩

def size (m : SortedMap κ ν) : Nat :=
  m.entries.length

def isEmpty (m : SortedMap κ ν) : Bool :=
  m.entries.isEmpty

def keys (m : SortedMap κ ν) : List κ :=
  m.entries.map Prod.fst

def values (m : SortedMap κ ν) : List ν :=
  m.entries.map Prod.snd

/-- The value at a key. The search ends at the first key that is not below the one it looks for. -/
def find? (k : κ) : List (κ × ν) → Option ν
  | [] => none
  | (l, v) :: rest =>
    if KeyOrder.lt l k then find? k rest
    else if KeyOrder.lt k l then none
    else some v

def get? (m : SortedMap κ ν) (k : κ) : Option ν :=
  find? k m.entries

def contains (m : SortedMap κ ν) (k : κ) : Bool :=
  (m.get? k).isSome

/-- Replaces the value at `k` by what `f` makes of it, or adds what `f` makes of nothing. -/
def upsertEntries (k : κ) (f : Option ν → ν) : List (κ × ν) → List (κ × ν)
  | [] => [(k, f none)]
  | (l, v) :: rest =>
    if KeyOrder.lt l k then (l, v) :: upsertEntries k f rest
    else if KeyOrder.lt k l then (k, f none) :: (l, v) :: rest
    else (l, f (some v)) :: rest

theorem mem_upsertEntries {k : κ} {f : Option ν → ν} {es : List (κ × ν)} {e : κ × ν}
    (h : e ∈ upsertEntries k f es) : e.1 = k ∨ ∃ v, (e.1, v) ∈ es := by
  induction es with
  | nil => simp_all [upsertEntries]
  | cons d rest ih =>
    obtain ⟨l, v⟩ := d
    simp only [upsertEntries] at h
    split at h
    · rcases List.mem_cons.1 h with rfl | h
      · exact .inr ⟨v, by simp⟩
      · exact (ih h).imp_right fun ⟨w, hw⟩ => ⟨w, List.mem_cons_of_mem _ hw⟩
    · split at h
      · rcases List.mem_cons.1 h with rfl | h
        · exact .inl rfl
        · exact .inr ⟨e.2, h⟩
      · rcases List.mem_cons.1 h with rfl | h
        · exact .inr ⟨v, by simp⟩
        · exact .inr ⟨e.2, List.mem_cons_of_mem _ h⟩

theorem upsertEntries_sorted (k : κ) (f : Option ν → ν) {es : List (κ × ν)}
    (h : es.Pairwise fun a b => KeyOrder.lt a.1 b.1 = true) :
    (upsertEntries k f es).Pairwise fun a b => KeyOrder.lt a.1 b.1 = true := by
  induction es with
  | nil => simp [upsertEntries]
  | cons d rest ih =>
    obtain ⟨l, v⟩ := d
    obtain ⟨hl, hrest⟩ := List.pairwise_cons.1 h
    simp only [upsertEntries]
    split
    · rename_i hlk
      refine List.pairwise_cons.2 ⟨fun e he => ?_, ih hrest⟩
      rcases mem_upsertEntries he with he | ⟨w, hw⟩
      · exact he ▸ hlk
      · exact hl (e.1, w) hw
    · split
      · rename_i hkl
        refine List.pairwise_cons.2 ⟨fun e he => ?_, h⟩
        rcases List.mem_cons.1 he with rfl | he
        · exact hkl
        · exact KeyOrder.trans hkl (hl _ he)
      · exact List.pairwise_cons.2 ⟨hl, hrest⟩

def upsert (m : SortedMap κ ν) (k : κ) (f : Option ν → ν) : SortedMap κ ν :=
  ⟨upsertEntries k f m.entries, upsertEntries_sorted k f m.sorted⟩

def insert (m : SortedMap κ ν) (k : κ) (v : ν) : SortedMap κ ν :=
  m.upsert k fun _ => v

/-- Of two entries with one key the later wins. -/
def ofList (es : List (κ × ν)) : SortedMap κ ν :=
  es.foldl (fun m e => m.insert e.1 e.2) empty

/-- Applies `f` to every value, with its key at hand. -/
def map (m : SortedMap κ ν) (f : κ → ν → μ) : SortedMap κ μ :=
  ⟨m.entries.map fun e => (e.1, f e.1 e.2), List.pairwise_map.2 m.sorted⟩

def filter (m : SortedMap κ ν) (p : κ → ν → Bool) : SortedMap κ ν :=
  ⟨m.entries.filter fun e => p e.1 e.2, m.sorted.filter _⟩

/-- The entries to which `f` gives a value, with that value. -/
def filterMap (m : SortedMap κ ν) (f : κ → ν → Option μ) : SortedMap κ μ :=
  ⟨m.entries.filterMap fun e => (f e.1 e.2).map (e.1, ·), by
    rw [List.pairwise_filterMap]
    refine m.sorted.imp fun {a b} h c hc d hd => ?_
    obtain ⟨_, _, rfl⟩ := Option.map_eq_some_iff.1 hc
    obtain ⟨_, _, rfl⟩ := Option.map_eq_some_iff.1 hd
    exact h⟩

/-- Applies `f` to every value, if it has a result for each of them. -/
def mapIfAll (m : SortedMap κ ν) (f : κ → ν → Option μ) : Option (SortedMap κ μ) :=
  let results := m.filterMap f
  if results.size = m.size then some results else none

end SortedMap

end UwbRanging
