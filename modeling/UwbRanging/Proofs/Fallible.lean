import Mathlib.Data.List.Forall2

/-!
Computations that may fail: where they succeed, each of their steps does.
-/

namespace UwbRanging

variable {ε β γ δ : Type}

theorem bind_eq_ok_iff {x : Except ε β} {f : β → Except ε γ} {c : γ} :
    x >>= f = .ok c ↔ ∃ b, x = .ok b ∧ f b = .ok c := by
  cases x with
  | error e => simp [bind, Except.bind]
  | ok b => simp [bind, Except.bind]

theorem bind_eq_error_iff {x : Except ε β} {f : β → Except ε γ} {e : ε} :
    x >>= f = .error e ↔ x = .error e ∨ ∃ b, x = .ok b ∧ f b = .error e := by
  cases x with
  | error e' => simp [bind, Except.bind]
  | ok b => simp [bind, Except.bind]

theorem map_eq_ok_iff {x : Except ε β} {f : β → γ} {c : γ} : x.map f = .ok c ↔ ∃ b, x = .ok b ∧ f b = c := by
  cases x with
  | error e => simp [Except.map]
  | ok b => simp [Except.map]

theorem mapError_eq_ok_iff {ε' : Type} {x : Except ε β} {f : ε → ε'} {b : β} : x.mapError f = .ok b ↔ x = .ok b := by
  cases x with
  | error e => simp [Except.mapError]
  | ok b' => simp [Except.mapError]

theorem map_mapError {ε' : Type} (x : Except ε β) (f : β → γ) (g : ε → ε') :
    (x.map f).mapError g = (x.mapError g).map f := by
  cases x <;> rfl

theorem exists_eq_ok {x : Except ε β} (h : x.isOk = true) : ∃ b, x = .ok b := by
  cases x with
  | error e => cases h
  | ok b => exact ⟨b, rfl⟩

theorem toOption_eq_some_iff {x : Except ε β} {b : β} : x.toOption = some b ↔ x = .ok b := by
  cases x with
  | error e => simp [Except.toOption]
  | ok b' => simp [Except.toOption]

/-- Where the next step turns a changed result into a changed result, it may be taken on the unchanged one. -/
theorem map_bind_eq {β' γ' : Type} {x : Except ε β} {f : β → β'} {next : β → Except ε γ} {next' : β' → Except ε γ'}
    {g : γ → γ'} (h : ∀ b, next' (f b) = (next b).map g) : x.map f >>= next' = (x >>= next).map g := by
  cases x with
  | error e => rfl
  | ok b => exact h b

/-- A row of computations succeeds with the results of each of them. -/
theorem mapM_eq_ok_iff {f : β → Except ε γ} {xs : List β} {ys : List γ} :
    xs.mapM f = .ok ys ↔ List.Forall₂ (fun x y => f x = .ok y) xs ys := by
  induction xs generalizing ys with
  | nil =>
      cases ys with
      | nil => exact iff_of_true rfl .nil
      | cons y ys => exact iff_of_false nofun nofun
  | cons x xs ih =>
      simp only [List.mapM_cons, bind_eq_ok_iff, ih, List.forall₂_cons_left_iff]
      constructor
      · rintro ⟨y, hy, ys', hys, ⟨⟩⟩
        exact ⟨y, ys', hy, hys, rfl⟩
      · rintro ⟨y, ys', hy, hys, rfl⟩
        exact ⟨y, hy, ys', hys, rfl⟩

/-- A row of computations succeeds if each of them does. -/
theorem exists_mapM_eq_ok {f : β → Except ε γ} {xs : List β} (h : ∀ x ∈ xs, ∃ y, f x = .ok y) :
    ∃ ys, xs.mapM f = .ok ys := by
  induction xs with
  | nil => exact ⟨[], rfl⟩
  | cons x xs ih =>
      obtain ⟨y, hy⟩ := h x List.mem_cons_self
      obtain ⟨ys, hys⟩ := ih fun x' hx' => h x' (List.mem_cons_of_mem _ hx')
      exact ⟨y :: ys, mapM_eq_ok_iff.2 (.cons hy (mapM_eq_ok_iff.1 hys))⟩

/-- A row of computations that all fail in one way fails in this way, unless there is none to fail. -/
theorem mapM_eq_error {f : β → Except ε γ} {xs : List β} {e : ε} (h : ∀ x ∈ xs, f x = .error e) (hxs : xs ≠ []) :
    xs.mapM f = .error e := by
  cases xs with
  | nil => exact absurd rfl hxs
  | cons x xs =>
      rw [List.mapM_cons, h x List.mem_cons_self]
      rfl

theorem exists_mem_of_mapM_eq_ok {f : β → Except ε γ} {xs : List β} {ys : List γ} (h : xs.mapM f = .ok ys) {x : β}
    (hx : x ∈ xs) : ∃ y ∈ ys, f x = .ok y := by
  obtain ⟨i, hi, rfl⟩ := List.getElem_of_mem hx
  have hrow := mapM_eq_ok_iff.1 h
  exact ⟨_, List.getElem_mem (hrow.length_eq ▸ hi), hrow.get hi (hrow.length_eq ▸ hi)⟩

/-- What a row of computations gives is what they give one by one. -/
theorem mem_iff_of_forall₂_ok {f : β → Except ε γ} {xs : List β} {ys : List γ}
    (h : List.Forall₂ (fun x y => f x = .ok y) xs ys) {y : γ} : y ∈ ys ↔ ∃ x ∈ xs, f x = .ok y := by
  induction h with
  | nil => simp
  | cons hxy _ ih => simp [hxy, ih, eq_comm]

theorem map_eq_map_of_forall₂ {R : β → γ → Prop} {f : β → δ} {g : γ → δ} {xs : List β} {ys : List γ}
    (h : List.Forall₂ R xs ys) (hR : ∀ x y, R x y → f x = g y) : xs.map f = ys.map g := by
  induction h with
  | nil => rfl
  | cons hxy _ ih => rw [List.map_cons, List.map_cons, hR _ _ hxy, ih]

theorem mapM_eq_mapM_of_forall₂ {R : β → γ → Prop} {f : β → Except ε δ} {g : γ → Except ε δ} {xs : List β}
    {ys : List γ} (h : List.Forall₂ R xs ys) (hR : ∀ x y, R x y → f x = g y) : xs.mapM f = ys.mapM g := by
  have hmap : (xs.map f).mapM id = (ys.map g).mapM id := by rw [map_eq_map_of_forall₂ h hR]
  rwa [List.mapM_map, List.mapM_map] at hmap

/-- What is done to all results of a row of computations may be done to each as it comes. -/
theorem map_mapM (f : β → Except ε γ) (g : γ → δ) (xs : List β) :
    (xs.mapM f).map (List.map g) = xs.mapM fun x => (f x).map g := by
  induction xs with
  | nil => rfl
  | cons x xs ih =>
      rw [List.mapM_cons, List.mapM_cons, ← ih]
      cases f x with
      | error e => rfl
      | ok y => cases xs.mapM f <;> rfl

/-- A row of computations on changed inputs, where each changes its result accordingly. -/
theorem mapM_map_eq {β' γ' : Type} {f : β → Except ε γ} {f' : β' → Except ε γ'} {g : β → β'} {h : γ → γ'} {xs : List β}
    (hxs : ∀ x ∈ xs, f' (g x) = (f x).map h) : (xs.map g).mapM f' = (xs.mapM f).map (List.map h) := by
  induction xs with
  | nil => rfl
  | cons x xs ih =>
      rw [List.map_cons, List.mapM_cons, List.mapM_cons, hxs x List.mem_cons_self]
      refine map_bind_eq fun y => ?_
      rw [ih fun x hx => hxs x (List.mem_cons_of_mem _ hx)]
      exact map_bind_eq fun ys => rfl

end UwbRanging
