import Mathlib.Algebra.Ring.Parity
import Mathlib.Data.List.Induction
import UwbRanging.Terminal.DeviceSelector

/-!
What a user selects, told from the keys alone. The steps up and down say where the cursor is, how often a device was
pressed on says whether it is ticked, and the key that ends the selection takes the ticked devices.
-/

namespace UwbRanging.Terminal

/-- The keys that end a selection. -/
def Key.Ends (key : Key) : Prop :=
  key = .enter ∨ key = .char 'q'

instance (key : Key) : Decidable key.Ends :=
  inferInstanceAs (Decidable (_ ∨ _))

/-- How far a key moves the cursor down the list. -/
def Key.shift : Key → Int
  | .down => 1
  | .up => -1
  | _ => 0

theorem Key.shift_eq_zero {key : Key} (hdown : key ≠ .down) (hup : key ≠ .up) : key.shift = 0 := by
  cases key <;> first | rfl | contradiction

namespace DeviceSelector

/-- The index under the cursor in a list of `n` devices: one further for each step down and one back for each step up,
around the ends of the list. -/
def cursorAfter (n : Nat) (keys : List Key) : Int :=
  ((keys.count .down : Int) - keys.count .up) % n

/-- How often the key that ticks was pressed while the cursor was on the device at an index. -/
def ticksOn (n i : Nat) (keys : List Key) : Nat :=
  (List.range keys.length).countP fun t => keys[t]? = some (.char ' ') ∧ cursorAfter n (keys.take t) = i

/-- The devices that were ticked and not cleared again, in the order of the list. -/
def tickedAfter (devices : List String) (keys : List Key) : List String :=
  (devices.zipIdx.filter fun d => Odd (ticksOn devices.length d.2 keys)).map Prod.fst

/-- The ticked devices, or the one under the cursor if there are none. -/
def selectionAfter (devices : List String) (keys : List Key) : List String :=
  if tickedAfter devices keys = [] then (devices[(cursorAfter devices.length keys).toNat]?).toList
  else tickedAfter devices keys

section Steps

variable (n i : Nat) (keys : List Key) (key : Key)

theorem cursorAfter_concat : cursorAfter n (keys ++ [key]) = (cursorAfter n keys + key.shift) % n := by
  rw [cursorAfter, cursorAfter, Int.emod_add_emod]
  congr 1
  cases key <;> simp [Key.shift] <;> omega

theorem cursorAfter_nonneg {n : Nat} (hn : 0 < n) : 0 ≤ cursorAfter n keys :=
  Int.emod_nonneg _ (by omega)

theorem cursorAfter_lt {n : Nat} (hn : 0 < n) : cursorAfter n keys < n :=
  Int.emod_lt_of_pos _ (by omega)

/-- A key counts for the device that is under the cursor when it is pressed. -/
theorem ticksOn_concat :
    ticksOn n i (keys ++ [key]) = ticksOn n i keys + if key = .char ' ' ∧ cursorAfter n keys = i then 1 else 0 := by
  have hbefore : (List.range keys.length).countP
        (fun t => (keys ++ [key])[t]? = some (.char ' ') ∧ cursorAfter n ((keys ++ [key]).take t) = i) =
      ticksOn n i keys := by
    refine List.countP_congr fun t ht => ?_
    have hlt : t < keys.length := List.mem_range.1 ht
    rw [List.getElem?_append_left hlt, List.take_append_of_le_length (Nat.le_of_lt hlt)]
  rw [ticksOn, List.length_append, List.length_singleton, List.range_succ, List.countP_append, hbefore]
  simp [List.countP_cons]

theorem devices_press (s : DeviceSelector) : (s.press key).devices = s.devices := by
  unfold press
  split <;> rfl

theorem press_eq_self (s : DeviceSelector) {key : Key} (hdown : key ≠ .down) (hup : key ≠ .up)
    (htick : key ≠ .char ' ') : s.press key = s := by
  unfold press
  split <;> first | rfl | contradiction

theorem cursor_press_eq_self (s : DeviceSelector) {key : Key} (hdown : key ≠ .down) (hup : key ≠ .up) :
    (s.press key).cursor = s.cursor := by
  unfold press
  split <;> first | rfl | contradiction

theorem marks_press_eq_self (s : DeviceSelector) {key : Key} (htick : key ≠ .char ' ') :
    (s.press key).marks = s.marks := by
  unfold press
  split <;> first | rfl | contradiction

theorem outcome?_eq_none_iff (s : DeviceSelector) (key : Key) : s.outcome? key = none ↔ ¬ key.Ends := by
  unfold outcome?
  split
  · simp [Key.Ends]
  · simp [Key.Ends]
  · rename_i henter hquit
    simp only [true_iff]
    rintro (rfl | rfl)
    · exact henter rfl
    · exact hquit rfl

end Steps

/-- The selector stands where the keys have led it, and exactly the devices are ticked that they ticked. -/
structure Shows (devices : List String) (keys : List Key) (s : DeviceSelector) : Prop where
  devices_eq : s.devices = devices
  cursor_eq : (s.cursor : Int) = cursorAfter devices.length keys
  marks_eq : s.marks = (List.range devices.length).map fun i => decide (Odd (ticksOn devices.length i keys))

theorem shows_new (devices : List String) : Shows devices [] (new devices) where
  devices_eq := rfl
  cursor_eq := by simp [new, cursorAfter]
  marks_eq := by simp [new, ticksOn, List.map_const']

section Runs

variable {devices : List String} {keys : List Key} {s : DeviceSelector}

theorem Shows.cursor_lt (h : Shows devices keys s) (hdevices : devices ≠ []) : s.cursor < devices.length := by
  have hlt := cursorAfter_lt keys (List.length_pos_iff.2 hdevices)
  rw [← h.cursor_eq] at hlt
  exact_mod_cast hlt

theorem Shows.cursor_press (h : Shows devices keys s) (hdevices : devices ≠ []) (key : Key) :
    ((s.press key).cursor : Int) = cursorAfter devices.length (keys ++ [key]) := by
  have hlt := h.cursor_lt hdevices
  rw [cursorAfter_concat, ← h.cursor_eq]
  by_cases hdown : key = .down
  · subst hdown
    change (((s.cursor + 1) % s.devices.length : Nat) : Int) = (s.cursor + 1) % devices.length
    rw [h.devices_eq]
    push_cast
    rfl
  by_cases hup : key = .up
  · subst hup
    change (((s.cursor + s.devices.length - 1) % s.devices.length : Nat) : Int) = (s.cursor + -1) % devices.length
    -- a whole turn is added before the step back, so that no index is below zero
    have hturn : ((s.cursor + devices.length - 1 : Nat) : Int) = s.cursor + -1 + devices.length := by omega
    rw [h.devices_eq, Int.natCast_emod, hturn, Int.add_emod_right]
  · rw [cursor_press_eq_self s hdown hup, Key.shift_eq_zero hdown hup, Int.add_zero]
    exact (Int.emod_eq_of_lt (by omega) (by omega)).symm

/-- The key that ticks turns the mark under the cursor around, and with it the parity of its count. -/
theorem Shows.marks_press (h : Shows devices keys s) (key : Key) :
    (s.press key).marks =
      (List.range devices.length).map fun i => decide (Odd (ticksOn devices.length i (keys ++ [key]))) := by
  by_cases htick : key = .char ' '
  · subst htick
    change s.marks.modify s.cursor not = _
    rw [h.marks_eq]
    refine List.ext_getElem (by simp) fun i _ hi => ?_
    have hcursor : cursorAfter devices.length keys = i ↔ s.cursor = i := by
      rw [← h.cursor_eq]
      exact Int.ofNat_inj
    simp only [List.getElem_modify, List.getElem_map, List.getElem_range, ticksOn_concat, hcursor, true_and]
    split
    · rw [← decide_not, decide_eq_decide, Nat.odd_add_one]
    · rfl
  · rw [marks_press_eq_self s htick, h.marks_eq]
    refine List.map_congr_left fun i _ => ?_
    rw [ticksOn_concat, if_neg fun hkey => htick hkey.1, Nat.add_zero]

theorem Shows.press (h : Shows devices keys s) (hdevices : devices ≠ []) (key : Key) :
    Shows devices (keys ++ [key]) (s.press key) where
  devices_eq := (devices_press key s).trans h.devices_eq
  cursor_eq := h.cursor_press hdevices key
  marks_eq := h.marks_press key

/-- Whatever keys are pressed, the selector shows what they say. -/
theorem shows_foldl_press (hdevices : devices ≠ []) (keys : List Key) :
    Shows devices keys (keys.foldl DeviceSelector.press (new devices)) := by
  induction keys using List.reverseRecOn with
  | nil => exact shows_new devices
  | append_singleton keys key ih =>
      rw [List.foldl_append]
      exact ih.press hdevices key

end Runs

section Selections

variable {devices : List String} {keys : List Key} {s : DeviceSelector}

theorem tickedAfter_ne_nil_iff (devices : List String) (keys : List Key) :
    tickedAfter devices keys ≠ [] ↔ ∃ i < devices.length, Odd (ticksOn devices.length i keys) := by
  simp only [tickedAfter, ne_eq, List.map_eq_nil_iff, List.filter_eq_nil_iff, Prod.forall,
    List.mem_zipIdx_iff_getElem?, decide_eq_true_eq, not_forall, not_not]
  constructor
  · rintro ⟨device, i, hdevice, hodd⟩
    exact ⟨i, (List.getElem?_eq_some_iff.1 hdevice).1, hodd⟩
  · rintro ⟨i, hi, hodd⟩
    exact ⟨devices[i], i, List.getElem?_eq_getElem hi, hodd⟩

theorem tickedAfter_sublist (devices : List String) (keys : List Key) :
    (tickedAfter devices keys).Sublist devices := by
  have h := (List.filter_sublist (l := devices.zipIdx)
    (p := fun d => decide (Odd (ticksOn devices.length d.2 keys)))).map Prod.fst
  rwa [List.zipIdx_map_fst] at h

theorem Shows.ticked_eq (h : Shows devices keys s) : s.ticked = tickedAfter devices keys := by
  rw [ticked, tickedAfter, h.devices_eq, h.marks_eq, List.zip_map_right, List.filter_map, List.map_map,
    List.zipIdx_eq_zip_range', List.range_eq_range']
  rfl

theorem Shows.any_marks_iff (h : Shows devices keys s) : s.marks.any id = true ↔ tickedAfter devices keys ≠ [] := by
  rw [tickedAfter_ne_nil_iff, h.marks_eq]
  simp

theorem Shows.chosen_eq (h : Shows devices keys s) : s.chosen = selectionAfter devices keys := by
  unfold chosen selectionAfter
  rw [h.ticked_eq, h.devices_eq, ← h.cursor_eq, Int.toNat_natCast]
  by_cases hnone : tickedAfter devices keys = []
  · rw [if_pos hnone, if_neg fun hany => h.any_marks_iff.1 hany hnone]
  · rw [if_neg hnone, if_pos (h.any_marks_iff.2 hnone)]

/-- Without a ticked device there is always one under the cursor. -/
theorem selectionAfter_of_none (hdevices : devices ≠ []) (hnone : tickedAfter devices keys = []) :
    ∃ device, devices[(cursorAfter devices.length keys).toNat]? = some device ∧
      selectionAfter devices keys = [device] := by
  have hpos := List.length_pos_iff.2 hdevices
  have hlt : (cursorAfter devices.length keys).toNat < devices.length := by
    have := cursorAfter_nonneg keys hpos
    have := cursorAfter_lt keys hpos
    omega
  refine ⟨_, List.getElem?_eq_getElem hlt, ?_⟩
  rw [selectionAfter, if_pos hnone, List.getElem?_eq_getElem hlt]
  rfl

theorem selectionAfter_ne_nil (hdevices : devices ≠ []) : selectionAfter devices keys ≠ [] := by
  by_cases hnone : tickedAfter devices keys = []
  · obtain ⟨device, -, hdevice⟩ := selectionAfter_of_none hdevices hnone
    rw [hdevice]
    exact List.cons_ne_nil device []
  · rwa [selectionAfter, if_neg hnone]

end Selections

section Endings

variable {size : Size} {keys : List Key}

/-- Keys that do not end the selection are handled one after the other. -/
theorem run_append (hkeys : ∀ key ∈ keys, ¬ key.Ends) (s : DeviceSelector) (offset : Nat)
    (later : List Key) :
    ∃ offset', s.run size offset (keys ++ later) = (keys.foldl press s).run size offset' later := by
  induction keys generalizing s offset with
  | nil => exact ⟨offset, rfl⟩
  | cons key keys ih =>
      have hnone : s.outcome? key = none := (outcome?_eq_none_iff s key).2 (hkeys key List.mem_cons_self)
      obtain ⟨offset', hrun⟩ := ih (fun key hkey => hkeys key (List.mem_cons_of_mem _ hkey)) (s.press key)
        (s.scroll size.innerRows offset)
      refine ⟨offset', ?_⟩
      rw [List.cons_append, run, hnone]
      exact hrun

theorem run_eq_none (hkeys : ∀ key ∈ keys, ¬ key.Ends) (s : DeviceSelector) (offset : Nat) :
    s.run size offset keys = none := by
  obtain ⟨offset', hrun⟩ := run_append hkeys s offset []
  rw [List.append_nil] at hrun
  rw [hrun, run]

/-- The first key that ends the selection decides what it is. -/
theorem run_of_outcome (hkeys : ∀ key ∈ keys, ¬ key.Ends) {s : DeviceSelector} {key : Key} {selection : List String}
    (h : (keys.foldl press s).outcome? key = some selection) (offset : Nat) (later : List Key) :
    ∃ screen, s.run size offset (keys ++ key :: later) = some (selection, screen) := by
  obtain ⟨offset', hrun⟩ := run_append hkeys s offset (key :: later)
  rw [hrun, run, h]
  exact ⟨_, rfl⟩

end Endings

/-- The cursor of a selector over some devices stands where the steps up and down lead around the list, and a device is
ticked if and only if it was pressed on an odd number of times. Nothing ends the selection but two keys: the one ends it
with the ticked devices in their order, or with the device under the cursor if there are none, the other with no device.
All further keys change nothing. -/
theorem selects_what_was_ticked (devices : List String) (hdevices : devices ≠ []) (keys : List Key) :
    let s := keys.foldl press (new devices)
    ((s.cursor : Int) = ((keys.count .down : Int) - keys.count .up) % devices.length ∧
      s.cursor < devices.length ∧
      s.marks.length = devices.length ∧
      ∀ i < devices.length, s.marks[i]? = some (decide (Odd (ticksOn devices.length i keys)))) ∧
    ((∀ key ∈ keys, ¬ key.Ends) → ∀ (size : Size) (later : List Key),
      (new devices).run size 0 keys = none ∧
      (∃ screen, (new devices).run size 0 (keys ++ .enter :: later) = some (selectionAfter devices keys, screen)) ∧
      ∃ screen, (new devices).run size 0 (keys ++ .char 'q' :: later) = some ([], screen)) ∧
    ((tickedAfter devices keys).Sublist devices ∧
      (devices.Nodup → (tickedAfter devices keys).Nodup) ∧
      (tickedAfter devices keys ≠ [] → selectionAfter devices keys = tickedAfter devices keys) ∧
      (tickedAfter devices keys = [] →
        ∃ device, devices[s.cursor]? = some device ∧ selectionAfter devices keys = [device]) ∧
      selectionAfter devices keys ≠ []) ∧
    ∀ key, key ∉ [.down, .up, .char ' ', .enter, .char 'q'] → s.press key = s ∧ s.outcome? key = none := by
  intro s
  have hshows : Shows devices keys s := shows_foldl_press hdevices keys
  have hnone (h : tickedAfter devices keys = []) :
      ∃ device, devices[s.cursor]? = some device ∧ selectionAfter devices keys = [device] := by
    have hcursor : (cursorAfter devices.length keys).toNat = s.cursor := by
      rw [← hshows.cursor_eq, Int.toNat_natCast]
    rw [← hcursor]
    exact selectionAfter_of_none hdevices h
  have henter : s.outcome? .enter = some (selectionAfter devices keys) := congrArg some hshows.chosen_eq
  refine ⟨⟨hshows.cursor_eq, hshows.cursor_lt hdevices, ?_, fun i hi => ?_⟩, fun hkeys size later => ?_,
    ⟨tickedAfter_sublist devices keys, fun h => h.sublist (tickedAfter_sublist devices keys), fun h => if_neg h, hnone,
      selectionAfter_ne_nil hdevices⟩, fun key hkey => ?_⟩
  · rw [hshows.marks_eq, List.length_map, List.length_range]
  · rw [hshows.marks_eq, List.getElem?_map, List.getElem?_range hi]
    rfl
  · exact ⟨run_eq_none hkeys (new devices) 0, run_of_outcome hkeys henter 0 later, run_of_outcome hkeys rfl 0 later⟩
  · simp only [List.mem_cons, List.not_mem_nil, or_false, not_or] at hkey
    obtain ⟨hdown, hup, htick, henter, hquit⟩ := hkey
    exact ⟨press_eq_self s hdown hup htick, (outcome?_eq_none_iff s key).2 fun h => h.elim henter hquit⟩

/-- A step up from the first of three devices leads to the last; what is ticked twice is not ticked. On a single device
the steps lead nowhere, and it is selected without being ticked. -/
theorem selects_what_was_ticked_around_the_ends :
    (∃ screen, (new ["tty0", "tty1", "tty2"]).run ⟨64, 10⟩ 0
      ([.up, .char ' ', .down, .char ' ', .other, .char ' '] ++ .enter :: [.char 'q']) = some (["tty2"], screen)) ∧
    (∃ screen, (new ["tty0"]).run ⟨64, 10⟩ 0 ([.up, .down, .up] ++ .enter :: []) = some (["tty0"], screen)) ∧
    ([.up, .down, .up].foldl press (new ["tty0"])).cursor < 1 := by
  have hthree := (selects_what_was_ticked ["tty0", "tty1", "tty2"] (by decide)
    [.up, .char ' ', .down, .char ' ', .other, .char ' ']).2.1 (by decide) ⟨64, 10⟩ [.char 'q']
  have hone := selects_what_was_ticked ["tty0"] (by decide) [.up, .down, .up]
  have hselected : selectionAfter ["tty0", "tty1", "tty2"] [.up, .char ' ', .down, .char ' ', .other, .char ' '] =
      ["tty2"] := by decide
  rw [hselected] at hthree
  exact ⟨hthree.2.1, (hone.2.1 (by decide) ⟨64, 10⟩ []).2.1, hone.1.2.1⟩

end DeviceSelector

end UwbRanging.Terminal
