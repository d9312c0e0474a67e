import Mathlib.Data.List.Forall2
import UwbRanging.Proofs.Exact.Extended
import UwbRanging.Proofs.Float.Order
import UwbRanging.Simulation.RandomSource

/-!
What holds whatever chance decides, and between which bounds a number is drawn. A random computation may be refused, and
it may go on for ever. To draw a number from a range is not refused if the width of the range is finite, and it comes to
an end with the first word that fits.
-/

namespace UwbRanging.Random

variable {α β : Type} {endless : (Nat → UInt64) → Prop}

/-- What a random computation comes to: a result and the words that are left, or a refusal. It is nothing if the
computation goes on for ever. -/
def outcome (r : Random α) (source : RandomSource) : Option (Except DrawError (α × RandomSource)) :=
  r.run source

/-- A random computation is never refused. It comes to a result that has a property, or it goes on for ever, which only
some sequences of words bring about. -/
def Gives (endless : (Nat → UInt64) → Prop) (r : Random α) (p : α → Prop) : Prop :=
  ∀ source, (outcome r source = none ∧ endless source.word) ∨
    ∃ a rest, outcome r source = some (.ok (a, rest)) ∧ rest.word = source.word ∧ p a

/-- A random computation is refused for a reason, or it goes on for ever, which only some sequences of words bring
about. -/
def Refused (endless : (Nat → UInt64) → Prop) (error : DrawError) (r : Random α) : Prop :=
  ∀ source, (outcome r source = none ∧ endless source.word) ∨ outcome r source = some (.error error)

/-- A random computation comes to a result that has a property, whatever the random words are. -/
def Always (r : Random α) (p : α → Prop) : Prop :=
  ∀ source, ∃ a rest, outcome r source = some (.ok (a, rest)) ∧ p a

/-- A random computation has the result for some random words. -/
def CanGive (r : Random α) (a : α) : Prop :=
  ∃ source rest, outcome r source = some (.ok (a, rest))

section Computations

variable {r : Random α} {f : α → Random β} {p : α → Prop} {q : β → Prop}

theorem outcome_bind (r : Random α) (f : α → Random β) (source : RandomSource) :
    outcome (r >>= f) source = match outcome r source with
      | none => none
      | some (.error e) => some (.error e)
      | some (.ok (a, rest)) => outcome (f a) rest := by
  change (r source >>= fun next => f next.1 next.2 : ExceptT DrawError Option _) = _
  unfold outcome StateT.run
  cases r source with
  | none => rfl
  | some result => cases result <;> rfl

theorem outcome_bind_eq_ok_iff {source rest : RandomSource} {b : β} :
    outcome (r >>= f) source = some (.ok (b, rest)) ↔
      ∃ a mid, outcome r source = some (.ok (a, mid)) ∧ outcome (f a) mid = some (.ok (b, rest)) := by
  rw [outcome_bind]
  cases outcome r source with
  | none => simp
  | some result =>
      cases result with
      | error e => simp
      | ok next =>
          obtain ⟨a, mid⟩ := next
          refine ⟨fun h => ⟨a, mid, rfl, h⟩, ?_⟩
          rintro ⟨_, _, ⟨⟩, h⟩
          exact h

theorem gives_pure {a : α} (h : p a) : Gives endless (pure a) p :=
  fun source => .inr ⟨a, source, rfl, rfl, h⟩

theorem Gives.mono {q : α → Prop} (h : Gives endless r p) (hpq : ∀ a, p a → q a) : Gives endless r q :=
  fun source => (h source).imp_right fun ⟨a, rest, hrun, hword, ha⟩ => ⟨a, rest, hrun, hword, hpq a ha⟩

theorem Gives.bind (h : Gives endless r p) (hf : ∀ a, p a → Gives endless (f a) q) : Gives endless (r >>= f) q := by
  intro source
  rw [outcome_bind]
  rcases h source with ⟨hnone, hendless⟩ | ⟨a, rest, hrun, hword, ha⟩
  · rw [hnone]
    exact .inl ⟨rfl, hendless⟩
  · rw [hrun, ← hword]
    exact hf a ha rest

/-- What it gives, it can give. -/
theorem Gives.canGive (h : Gives endless r p) : Gives endless r fun a => p a ∧ CanGive r a :=
  fun source => (h source).imp_right fun ⟨a, rest, hrun, hword, ha⟩ => ⟨a, rest, hrun, hword, ha, source, rest, hrun⟩

theorem Gives.of_outcome (h : Gives endless r p) {source rest : RandomSource} {a : α}
    (hrun : outcome r source = some (.ok (a, rest))) : p a := by
  obtain ⟨hnone, -⟩ | ⟨a', rest', hrun', -, ha⟩ := h source
  · rw [hrun] at hnone
    cases hnone
  · rw [hrun] at hrun'
    cases hrun'
    exact ha

theorem Gives.always (h : Gives (fun _ => False) r p) : Always r p := by
  intro source
  obtain ⟨-, hendless⟩ | ⟨a, rest, hrun, -, ha⟩ := h source
  · exact hendless.elim
  · exact ⟨a, rest, hrun, ha⟩

theorem Always.mono {q : α → Prop} (h : Always r p) (hpq : ∀ a, p a → q a) : Always r q := by
  intro source
  obtain ⟨a, rest, hrun, ha⟩ := h source
  exact ⟨a, rest, hrun, hpq a ha⟩

theorem gives_ofWords {g : StateM RandomSource α} (hword : ∀ source, (g.run source).2.word = source.word)
    (h : ∀ source, p (g.run source).1) : Gives endless (ofWords g) p :=
  fun source => .inr ⟨(g.run source).1, (g.run source).2, rfl, hword source, h source⟩

/-- Each computation of a row has its own result. -/
theorem gives_mapM {as : List α} {s : α → β → Prop} (h : ∀ a ∈ as, Gives endless (f a) (s a)) :
    Gives endless (as.mapM f) (List.Forall₂ s as) := by
  induction as with
  | nil => exact gives_pure .nil
  | cons a as ih =>
      rw [List.mapM_cons]
      refine (h a List.mem_cons_self).bind fun b hb => ?_
      refine (ih fun a' ha' => h a' (List.mem_cons_of_mem a ha')).bind fun bs hbs => ?_
      exact gives_pure (.cons hb hbs)

theorem Refused.bind {error : DrawError} (h : Refused endless error r) (f : α → Random β) :
    Refused endless error (r >>= f) := by
  intro source
  rw [outcome_bind]
  rcases h source with ⟨hnone, hendless⟩ | hrefused
  · exact .inl ⟨by rw [hnone], hendless⟩
  · exact .inr (by rw [hrefused])

/-- What is refused after something else has come to a result. -/
theorem Gives.refused {error : DrawError} (h : Gives endless r p) (hf : ∀ a, p a → Refused endless error (f a)) :
    Refused endless error (r >>= f) := by
  intro source
  rw [outcome_bind]
  rcases h source with ⟨hnone, hendless⟩ | ⟨a, rest, hrun, hword, ha⟩
  · exact .inl ⟨by rw [hnone], hendless⟩
  · rw [hrun, ← hword]
    exact hf a ha rest

theorem refused_mapM_cons {error : DrawError} (f : α → Random β) {a : α} (h : Refused endless error (f a))
    (as : List α) : Refused endless error ((a :: as).mapM f) := by
  rw [List.mapM_cons]
  exact h.bind _

theorem gives_happens {share : Float} (h : share == 1 ∨ 0 ≤ share ∧ share < 1) :
    Gives endless (happens share) fun _ => True := by
  rw [happens]
  split
  · exact gives_pure trivial
  · rename_i hcertain
    have hbetween : (0 ≤ share && share < 1) = true := by simpa using h.resolve_left hcertain
    rw [hbetween]
    have hword : Gives endless (ofWords RandomSource.next) fun _ => True :=
      gives_ofWords (fun _ => rfl) fun _ => trivial
    exact hword.bind fun _ _ => gives_pure trivial

end Computations

section Ranges

variable [Arith α] {low high : α} {source : RandomSource}

theorem outcome_between (hrange : Arith.lt low high = true) (hwidth : Arith.isFinite (high - low) = true)
    (source : RandomSource) : outcome (between low high) source = (source.firstBelow low high).map .ok := by
  unfold outcome between
  rw [hrange, hwidth]
  rfl

/-- A range that is too wide is refused. -/
theorem refused_between (hrange : Arith.lt low high = true) (hwidth : Arith.isFinite (high - low) = false) :
    Refused endless .rangeOverflow (between low high) := by
  intro source
  unfold outcome between
  rw [hrange, hwidth]
  exact .inr rfl

/-- What is drawn is a point below the upper end. -/
theorem of_firstBelow {x : α} {rest : RandomSource} (h : source.firstBelow low high = some (x, rest)) :
    (∃ w, point low high w = x) ∧ Arith.lt x high = true ∧ rest.word = source.word := by
  refine RandomSource.firstBelow.partial_correctness low high
    (fun source next => (∃ w, point low high w = next.1) ∧ Arith.lt next.1 high = true ∧ next.2.word = source.word)
    (fun recurse ih source next hnext => ?_) source (x, rest) h
  change (if Arith.lt (point low high (source.word source.used)) high = true then some (_, _) else recurse _) = _
    at hnext
  split at hnext
  · rename_i hfits
    obtain rfl := Option.some.inj hnext
    exact ⟨⟨_, rfl⟩, hfits, rfl⟩
  · exact ih ⟨source.word, source.used + 1⟩ next hnext

/-- The drawing ends if one of the words to come fits. -/
theorem exists_firstBelow {m : ℕ} (hle : source.used ≤ m)
    (hfits : Arith.lt (point low high (source.word m)) high = true) :
    ∃ x rest, source.firstBelow low high = some (x, rest) := by
  obtain ⟨k, rfl⟩ := Nat.exists_eq_add_of_le hle
  induction k generalizing source with
  | zero =>
      rw [RandomSource.firstBelow]
      exact ⟨_, _, if_pos hfits⟩
  | succ k ih =>
      rw [RandomSource.firstBelow]
      change ∃ x rest, (if Arith.lt (point low high (source.word source.used)) high = true then some (_, _)
        else RandomSource.firstBelow ⟨source.word, source.used + 1⟩ low high) = some (x, rest)
      split
      · exact ⟨_, _, rfl⟩
      · refine ih (Nat.le_add_right _ _) ?_
        rwa [show source.used + 1 + k = source.used + (k + 1) by omega]

theorem gives_between (hrange : Arith.lt low high = true) (hwidth : Arith.isFinite (high - low) = true)
    (hends : ∀ word, ¬ endless word → ∀ n, ∃ m, n ≤ m ∧ Arith.lt (point low high (word m)) high = true) :
    Gives endless (between low high) fun x => (∃ w, point low high w = x) ∧ Arith.lt x high = true := by
  intro source
  rw [outcome_between hrange hwidth]
  cases hdrawn : source.firstBelow low high with
  | some next =>
      obtain ⟨hpoint, hless, hword⟩ := of_firstBelow hdrawn
      exact .inr ⟨next.1, next.2, rfl, hword, hpoint, hless⟩
  | none =>
      refine .inl ⟨rfl, ?_⟩
      by_contra hends'
      obtain ⟨m, hle, hfits⟩ := hends source.word hends' source.used
      obtain ⟨x, rest, hsome⟩ := exists_firstBelow hle hfits
      rw [hdrawn] at hsome
      cases hsome

end Ranges

section Numbers

/-- From some point on there is no word whose upper 52 bits are all zero, which among random words almost surely does
not happen. -/
def Barren (word : Nat → UInt64) : Prop :=
  ∃ n, ∀ m, n ≤ m → word m >>> 12 ≠ 0

/-- Of a word 52 bits are used. -/
theorem shiftRight_lt (w : UInt64) : (w >>> 12).toNat < 2 ^ 52 := by
  have hw : w.toNat < 2 ^ 64 := w.toNat_lt
  have hamount : (12 : UInt64).toNat % 64 = 12 := rfl
  rw [UInt64.toNat_shiftRight, Nat.shiftRight_eq_div_pow, hamount]
  omega

theorem below_fraction (w : UInt64) : Below 56 (fraction w : Float) := by
  have hshift : (w >>> 12).toNat < 2 ^ 53 := (shiftRight_lt w).trans (by decide)
  have hunit : Positive 55 (Arith.ofNat (1 <<< 52) : Float) := positive_ofNat (by decide) (by decide)
  exact (count_ofNat hshift).below.div hunit (by decide) (by decide)

variable {low high : Float}

/-- The lower end of a range is one of its points. -/
theorem lt_point_of_shiftRight_eq_zero {w : UInt64} (hw : w >>> 12 = 0) (hrange : Arith.lt low high = true)
    (hwidth : Arith.isFinite (high - low) = true) : Arith.lt (point low high w) high = true := by
  have hzero : (fraction w : Float).toModel.unpack = .zero .positive := by
    rw [fraction, hw]
    rfl
  exact decide_eq_true (zero_mul_add_lt hzero hwidth (isFinite_subtrahend hwidth) (of_decide_eq_true hrange))

/-- From every range of finite width a number is drawn. -/
theorem gives_between_float (hrange : Arith.lt low high = true) (hwidth : Arith.isFinite (high - low) = true) :
    Gives Barren (between low high) fun x => ∃ w, point low high w = x := by
  refine (gives_between hrange hwidth fun word hfertile n => ?_).mono fun x => And.left
  by_contra hnone
  refine hfertile ⟨n, fun m hle hzero => hnone ?_⟩
  exact ⟨m, hle, lt_point_of_shiftRight_eq_zero hzero hrange hwidth⟩

/-- What is drawn is not much greater than the ends of the range. -/
theorem below_point {k l : ℤ} (hlow : Below k low) (hwidth : Below l (high - low)) (hl : 0 ≤ l) (hle : l + 57 ≤ k)
    (hk : k ≤ 970) (w : UInt64) : Below (k + 2) (point low high w) := by
  have hscaled := (below_fraction w).mul hwidth (by omega) (by omega)
  exact (hscaled.mono (by omega)).add hlow (by omega) hk

end Numbers

section Exact

open Extended

variable {K : Type} [Field K] [LinearOrder K] [IsStrictOrderedRing K] [FloorSemiring K] [SquareRoot K]

theorem fraction_finite (w : UInt64) : ∃ x : K, (fraction w : Extended K) = finite x ∧ 0 ≤ x ∧ x < 1 := by
  have hone : ((1 <<< 52 : ℕ) : K) = (2 ^ 52 : ℕ) := rfl
  have hpos : (0 : K) < (2 ^ 52 : ℕ) := Nat.cast_pos.2 (by decide)
  refine ⟨(w >>> 12).toNat / (2 ^ 52 : ℕ), ?_, div_nonneg (Nat.cast_nonneg _) hpos.le, ?_⟩
  · rw [fraction, ofNat_eq, ofNat_eq, hone, finite_div_finite _ hpos.ne']
  · rw [div_lt_one hpos]
    exact Nat.cast_lt.2 (shiftRight_lt w)

theorem point_finite {low high : K} (h : low < high) (w : UInt64) :
    ∃ v, point (finite low) (finite high) w = finite v ∧ low ≤ v ∧ v < high := by
  obtain ⟨share, hshare, hnonneg, hless⟩ := fraction_finite (K := K) w
  have hwidth : 0 < high - low := sub_pos.2 h
  refine ⟨share * (high - low) + low, ?_, le_add_of_nonneg_left (mul_nonneg hnonneg hwidth.le), ?_⟩
  · rw [point, hshare, finite_sub_finite, finite_mul_finite, finite_add_finite]
  · linarith [mul_lt_mul_of_pos_right hless hwidth]

/-- In exact arithmetic every word fits, and what is drawn lies in the range, without its upper end. -/
theorem gives_between_finite {low high : K} (h : low < high) :
    Gives endless (between (finite low) (finite high)) fun x => ∃ v, x = finite v ∧ low ≤ v ∧ v < high := by
  have hfits (w : UInt64) : Arith.lt (point (finite low) (finite high) w) (finite high) = true := by
    obtain ⟨v, hv, -, hless⟩ := point_finite h w
    rw [hv, lt_finite, decide_eq_true hless]
  have hrange : Arith.lt (finite low) (finite high) = true := by rw [lt_finite, decide_eq_true h]
  have hwidth : Arith.isFinite (finite high - finite low) = true := by
    rw [finite_sub_finite]
    exact isFinite_iff.2 ⟨_, rfl⟩
  refine (gives_between hrange hwidth fun word _ n => ⟨n, le_rfl, hfits _⟩).mono ?_
  rintro _ ⟨⟨w, rfl⟩, -⟩
  exact point_finite h w

end Exact

end UwbRanging.Random
