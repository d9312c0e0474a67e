import Mathlib.Algebra.GroupWithZero.Nat
import Mathlib.Data.List.Forall2
import Mathlib.Data.List.Induction
import Mathlib.Data.List.Perm.Lattice
import Mathlib.Data.List.Nodup
import UwbRanging.SortedMap

/-!
Sorted maps seen through their look-ups. Writing at a key changes the value at that key and at no other, and the
values at all keys determine the map.
-/

namespace UwbRanging

theorem KeyOrder.lt_asymm {κ : Type} [KeyOrder κ] {a b : κ} (h : KeyOrder.lt a b = true) :
    KeyOrder.lt b a = false := by
  rcases hba : KeyOrder.lt b a with _ | _
  · rfl
  · have hself := KeyOrder.trans h hba
    rw [KeyOrder.irrefl] at hself
    cases hself

theorem KeyOrder.ne_of_lt {κ : Type} [KeyOrder κ] {a b : κ} (h : KeyOrder.lt a b = true) : a ≠ b := by
  rintro rfl
  rw [KeyOrder.irrefl] at h
  cases h

namespace SortedMap

variable {κ ν : Type} [KeyOrder κ]

/-- The search of an ascending list finds the entries of the list and nothing else. -/
theorem find?_eq_some_iff {k : κ} {v : ν} {es : List (κ × ν)}
    (hsorted : es.Pairwise fun a b => KeyOrder.lt a.1 b.1 = true) :
    find? k es = some v ↔ (k, v) ∈ es := by
  induction es with
  | nil => simp [find?]
  | cons e rest ih =>
      obtain ⟨l, w⟩ := e
      obtain ⟨habove, hrest⟩ := List.pairwise_cons.1 hsorted
      have hhead : (k, v) = (l, w) ∨ (k, v) ∈ rest ↔ (k, v) ∈ (l, w) :: rest := List.mem_cons.symm
      rw [← hhead, find?]
      split
      · rename_i hlk
        rw [ih hrest]
        have hne : (k, v) ≠ (l, w) := fun h => KeyOrder.ne_of_lt hlk (Prod.ext_iff.1 h).1.symm
        simp only [hne, false_or]
      · rename_i hlk
        have hnot : (k, v) ∉ rest := fun h => hlk (habove _ h)
        split
        · rename_i hkl
          have hne : (k, v) ≠ (l, w) := fun h => KeyOrder.ne_of_lt hkl (Prod.ext_iff.1 h).1
          simp only [hne, hnot, or_self, reduceCtorEq]
        · rename_i hkl
          obtain rfl : k = l := KeyOrder.eq_of_not_lt (by simpa using hkl) (by simpa using hlk)
          simp only [hnot, or_false, Prod.mk.injEq, true_and, Option.some.injEq, eq_comm]

theorem get?_eq_some_iff {m : SortedMap κ ν} {k : κ} {v : ν} : m.get? k = some v ↔ (k, v) ∈ m.entries :=
  find?_eq_some_iff m.sorted

theorem entries_nodup (m : SortedMap κ ν) : m.entries.Nodup :=
  m.sorted.imp fun h hab => KeyOrder.ne_of_lt h (congrArg Prod.fst hab)

theorem keys_nodup (m : SortedMap κ ν) : m.keys.Nodup :=
  List.pairwise_map.2 (m.sorted.imp KeyOrder.ne_of_lt)

/-- Maps with the same value at every key are the same map. -/
theorem ext_get? {m n : SortedMap κ ν} (h : ∀ k, m.get? k = n.get? k) : m = n := by
  apply SortedMap.ext
  have hmem : ∀ e, e ∈ m.entries ↔ e ∈ n.entries := by
    rintro ⟨k, v⟩
    rw [← get?_eq_some_iff, ← get?_eq_some_iff, h]
  have hperm : m.entries.Perm n.entries :=
    (List.perm_ext_iff_of_nodup m.entries_nodup n.entries_nodup).2 hmem
  refine hperm.eq_of_pairwise (fun a b _ _ hab hba => ?_) m.sorted n.sorted
  rw [KeyOrder.lt_asymm hab] at hba
  cases hba

@[simp] theorem get?_empty (k : κ) : (empty : SortedMap κ ν).get? k = none :=
  rfl

theorem find?_upsertEntries_self (k : κ) (f : Option ν → ν) (es : List (κ × ν)) :
    find? k (upsertEntries k f es) = some (f (find? k es)) := by
  induction es with
  | nil => simp [upsertEntries, find?, KeyOrder.irrefl]
  | cons e rest ih =>
      obtain ⟨l, v⟩ := e
      rw [upsertEntries]
      split
      · rename_i hlk
        simp only [find?, hlk, if_true, ih]
      · rename_i hlk
        split
        · rename_i hkl
          simp [find?, KeyOrder.irrefl, hlk, hkl]
        · rename_i hkl
          simp [find?, hlk, hkl]

theorem find?_upsertEntries_of_ne {j k : κ} (hne : j ≠ k) (f : Option ν → ν) (es : List (κ × ν)) :
    find? j (upsertEntries k f es) = find? j es := by
  -- a key below the head is missing from the tail too, so an entry put in front of the head hides nothing
  have hmiss : KeyOrder.lt k j = false → KeyOrder.lt j k = true := by
    intro hkj
    rcases hjk : KeyOrder.lt j k with _ | _
    · exact absurd (KeyOrder.eq_of_not_lt hjk hkj) hne
    · rfl
  induction es with
  | nil =>
      rcases hkj : KeyOrder.lt k j with _ | _
      · simp [upsertEntries, find?, hkj, hmiss hkj]
      · simp [upsertEntries, find?, hkj]
  | cons e rest ih =>
      obtain ⟨l, v⟩ := e
      rw [upsertEntries]
      split
      · simp only [find?, ih]
      · split
        · rename_i hkl
          rcases hkj : KeyOrder.lt k j with _ | _
          · have hjl := KeyOrder.trans (hmiss hkj) hkl
            simp [find?, hkj, hmiss hkj, hjl, KeyOrder.lt_asymm hjl]
          · rw [find?, if_pos hkj]
        · rename_i hlk hkl
          have hkey : k = l := KeyOrder.eq_of_not_lt (by simpa using hkl) (by simpa using hlk)
          rcases hlj : KeyOrder.lt l j with _ | _
          · have hjl := hkey ▸ hmiss (hkey ▸ hlj)
            simp [find?, hlj, hjl]
          · simp [find?, hlj]

@[simp] theorem get?_upsert_self (m : SortedMap κ ν) (k : κ) (f : Option ν → ν) :
    (m.upsert k f).get? k = some (f (m.get? k)) :=
  find?_upsertEntries_self k f m.entries

theorem get?_upsert_of_ne (m : SortedMap κ ν) {j k : κ} (hne : j ≠ k) (f : Option ν → ν) :
    (m.upsert k f).get? j = m.get? j :=
  find?_upsertEntries_of_ne hne f m.entries

/-- Writing at one key. -/
theorem get?_upsert [DecidableEq κ] (m : SortedMap κ ν) (j k : κ) (f : Option ν → ν) :
    (m.upsert k f).get? j = if j = k then some (f (m.get? k)) else m.get? j := by
  by_cases h : j = k
  · rw [h, get?_upsert_self, if_pos rfl]
  · rw [get?_upsert_of_ne m h, if_neg h]

theorem get?_insert [DecidableEq κ] (m : SortedMap κ ν) (j k : κ) (v : ν) :
    (m.insert k v).get? j = if j = k then some v else m.get? j :=
  m.get?_upsert j k fun _ => v

/-- What is appended at a key is added to all that is listed. -/
theorem flatten_values_upsert_perm (m : SortedMap κ (List ν)) (k : κ) (v : ν) :
    (m.upsert k fun vs => vs.getD [] ++ [v]).values.flatten.Perm (v :: m.values.flatten) := by
  obtain ⟨entries, hsorted⟩ := m
  simp only [values, upsert]
  clear hsorted
  induction entries with
  | nil => exact .refl _
  | cons e rest ih =>
      obtain ⟨l, vs⟩ := e
      rw [upsertEntries]
      split
      · exact (ih.append_left vs).trans List.perm_middle
      · split
        · exact .refl _
        · rw [Option.getD_some, List.map_cons, List.flatten_cons, List.append_assoc]
          exact List.perm_middle

/-- What is counted at a key is added to all that is counted. -/
theorem sum_values_upsert (m : SortedMap κ Nat) (k : κ) (n : Nat) :
    (m.upsert k fun count => count.getD 0 + n).values.sum = m.values.sum + n := by
  obtain ⟨entries, hsorted⟩ := m
  simp only [values, upsert]
  clear hsorted
  induction entries with
  | nil => simp [upsertEntries]
  | cons e rest ih =>
      obtain ⟨l, count⟩ := e
      rw [upsertEntries]
      split
      · rw [List.map_cons, List.sum_cons, ih, List.map_cons, List.sum_cons, Nat.add_assoc]
      · split
        · simp only [List.map_cons, List.sum_cons, Option.getD_none]
          omega
        · simp only [List.map_cons, List.sum_cons, Option.getD_some]
          omega

/-- A key above all others is added at the end. -/
theorem upsertEntries_of_above {k : κ} {es : List (κ × ν)} (h : ∀ e ∈ es, KeyOrder.lt e.1 k = true)
    (f : Option ν → ν) : upsertEntries k f es = es ++ [(k, f none)] := by
  induction es with
  | nil => rfl
  | cons e rest ih =>
      rw [upsertEntries, if_pos (h e List.mem_cons_self), ih fun d hd => h d (List.mem_cons_of_mem e hd)]
      rfl

theorem foldl_insert_entries {es : List (κ × ν)} {m : SortedMap κ ν}
    (h : (m.entries ++ es).Pairwise fun a b => KeyOrder.lt a.1 b.1 = true) :
    (es.foldl (fun m e => m.insert e.1 e.2) m).entries = m.entries ++ es := by
  induction es generalizing m with
  | nil => exact (List.append_nil _).symm
  | cons e es ih =>
      have habove : ∀ d ∈ m.entries, KeyOrder.lt d.1 e.1 = true := fun d hd =>
        (List.pairwise_append.1 h).2.2 d hd e List.mem_cons_self
      have hinsert : (m.insert e.1 e.2).entries = m.entries ++ [e] := upsertEntries_of_above habove fun _ => e.2
      rw [List.foldl_cons, ih (by rwa [hinsert, List.append_assoc]), hinsert, List.append_assoc]
      rfl

/-- A map is built again from its entries. -/
theorem ofList_entries (m : SortedMap κ ν) : ofList m.entries = m :=
  SortedMap.ext (foldl_insert_entries m.sorted)

section Values

variable {μ : Type}

theorem get?_map (m : SortedMap κ ν) (f : κ → ν → μ) (k : κ) : (m.map f).get? k = (m.get? k).map (f k) := by
  refine Option.ext fun w => ?_
  simp only [get?_eq_some_iff, Option.map_eq_some_iff, map, List.mem_map, Prod.mk.injEq]
  constructor
  · rintro ⟨⟨_, v⟩, hmem, rfl, rfl⟩
    exact ⟨v, hmem, rfl⟩
  · rintro ⟨v, hmem, rfl⟩
    exact ⟨(k, v), hmem, rfl, rfl⟩

theorem get?_filter (m : SortedMap κ ν) (p : κ → ν → Bool) (k : κ) :
    (m.filter p).get? k = (m.get? k).filter (p k) := by
  refine Option.ext fun v => ?_
  simp only [get?_eq_some_iff, Option.filter_eq_some_iff, filter, List.mem_filter]

theorem filterMap_eq_map {m : SortedMap κ ν} {f : κ → ν → Option μ} {g : κ → ν → μ}
    (h : ∀ e ∈ m.entries, f e.1 e.2 = some (g e.1 e.2)) : m.filterMap f = m.map g := by
  apply SortedMap.ext
  rw [filterMap, map, List.filterMap_eq_map_iff_forall_eq_some]
  intro e he
  rw [h e he, Option.map_some]

theorem mapIfAll_eq_some {m : SortedMap κ ν} {f : κ → ν → Option μ} {g : κ → ν → μ}
    (h : ∀ e ∈ m.entries, f e.1 e.2 = some (g e.1 e.2)) : m.mapIfAll f = some (m.map g) := by
  have hsize : (m.map g).size = m.size := List.length_map _
  rw [mapIfAll, filterMap_eq_map h]
  exact if_pos hsize

theorem mapIfAll_eq_none_iff {m : SortedMap κ ν} {f : κ → ν → Option μ} :
    m.mapIfAll f = none ↔ ∃ e ∈ m.entries, f e.1 e.2 = none := by
  have hsize : (m.filterMap f).size = m.size ↔ ∀ e ∈ m.entries, (f e.1 e.2).isSome = true := by
    rw [size, filterMap, List.length_filterMap_eq_countP, size, List.countP_eq_length]
    simp only [Option.isSome_map]
  simp only [mapIfAll, ite_eq_right_iff, reduceCtorEq, imp_false, hsize, not_forall, Option.not_isSome_iff_eq_none,
    exists_prop]

theorem mem_keys_iff {m : SortedMap κ ν} {k : κ} : k ∈ m.keys ↔ ∃ v, m.get? k = some v := by
  simp only [keys, get?_eq_some_iff, List.mem_map, Prod.exists, exists_and_right, exists_eq_right]

theorem map_map {ξ : Type} (m : SortedMap κ ν) (f : κ → ν → μ) (g : κ → μ → ξ) :
    (m.map f).map g = m.map fun k v => g k (f k v) := by
  apply SortedMap.ext
  simp only [map, List.map_map, Function.comp_def]

@[simp] theorem values_map (m : SortedMap κ ν) (f : κ → ν → μ) :
    (m.map f).values = m.entries.map fun e => f e.1 e.2 := by
  simp only [values, map, List.map_map, Function.comp_def]

@[simp] theorem keys_map (m : SortedMap κ ν) (f : κ → ν → μ) : (m.map f).keys = m.keys := by
  simp only [keys, map, List.map_map, Function.comp_def]

@[simp] theorem length_map (m : SortedMap κ ν) (f : κ → ν → μ) : (m.map f).entries.length = m.entries.length :=
  List.length_map _

@[simp] theorem length_keys (m : SortedMap κ ν) : m.keys.length = m.entries.length :=
  List.length_map Prod.fst

/-- Maps that have the same keys list them in the same order. -/
theorem keys_eq_of_contains {m : SortedMap κ ν} {n : SortedMap κ μ} (h : ∀ k, m.contains k = n.contains k) :
    m.keys = n.keys := by
  have hmap : m.map (fun _ _ => ()) = n.map fun _ _ => () := by
    refine ext_get? fun k => ?_
    have hk := h k
    rw [get?_map, get?_map]
    unfold contains at hk
    cases hm : m.get? k <;> cases hn : n.get? k <;> simp_all
  simpa using congrArg keys hmap

/-- Maps whose values correspond at every key have corresponding entries. -/
theorem forall₂_entries {R : ν → μ → Prop} {m : SortedMap κ ν} {n : SortedMap κ μ}
    (h : ∀ k, Option.Rel R (m.get? k) (n.get? k)) :
    List.Forall₂ (fun d e => d.1 = e.1 ∧ R d.2 e.2) m.entries n.entries := by
  have hkeys : m.keys = n.keys := by
    refine keys_eq_of_contains fun k => ?_
    have hk := h k
    unfold contains
    generalize m.get? k = v, n.get? k = w at hk
    cases hk <;> rfl
  have hlength : m.entries.length = n.entries.length := by simpa using congrArg List.length hkeys
  refine List.forall₂_iff_get.2 ⟨hlength, fun i hm hn => ?_⟩
  simp only [List.get_eq_getElem]
  have hkey : m.entries[i].1 = n.entries[i].1 := by
    have hi := List.getElem_of_eq hkeys (i := i) (by simpa using hm)
    simpa only [keys, List.getElem_map] using hi
  have hleft : m.get? m.entries[i].1 = some m.entries[i].2 := get?_eq_some_iff.2 (List.getElem_mem hm)
  have hright : n.get? n.entries[i].1 = some n.entries[i].2 := get?_eq_some_iff.2 (List.getElem_mem hn)
  have hvalues := h m.entries[i].1
  rw [hleft, hkey, hright] at hvalues
  cases hvalues with
  | some hvalue => exact ⟨hkey, hvalue⟩

end Values

theorem ofList_concat (es : List (κ × ν)) (e : κ × ν) : ofList (es ++ [e]) = (ofList es).insert e.1 e.2 := by
  rw [ofList, ofList, List.foldl_append]
  rfl

/-- Where no key is listed with two values, a map holds what is listed. -/
theorem get?_ofList_eq_some_iff [DecidableEq κ] {es : List (κ × ν)} {k : κ}
    (h : ∀ v w, (k, v) ∈ es → (k, w) ∈ es → v = w) {v : ν} : (ofList es).get? k = some v ↔ (k, v) ∈ es := by
  induction es using List.reverseRecOn with
  | nil => simp [ofList]
  | append_singleton es e ih =>
      rw [ofList_concat, get?_insert]
      by_cases hk : k = e.1
      · have hlast : (k, e.2) ∈ es ++ [e] := by simp [hk]
        rw [if_pos hk]
        constructor
        · rintro ⟨⟩
          exact hlast
        · exact fun hv => congrArg some (h _ _ hlast hv)
      · have hne : (k, v) ≠ e := fun heq => hk (congrArg Prod.fst heq)
        rw [if_neg hk, ih fun v w hv hw => h v w (List.mem_append_left _ hv) (List.mem_append_left _ hw)]
        simp [hne]

/-- Two maps agree at a key as soon as they both have it or both lack it, and give the same value for a default. -/
theorem get?_eq_of_contains_eq {m n : SortedMap κ ν} {k : κ} {d : ν} (hcontains : m.contains k = n.contains k)
    (hvalue : (m.get? k).getD d = (n.get? k).getD d) : m.get? k = n.get? k := by
  unfold contains at hcontains
  cases hm : m.get? k <;> cases hn : n.get? k <;> simp_all

end SortedMap

end UwbRanging
