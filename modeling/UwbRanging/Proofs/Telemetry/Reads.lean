import UwbRanging.Proofs.Telemetry.Grammar

/-!
When a parser reads exactly a grammar. What it finds is always a text of the grammar with its value; and a text of the
grammar is found whole, wherever what follows cannot be taken for more of it. Sequence, alternative, option and the
end of the line keep this.
-/

namespace UwbRanging.Telemetry

namespace Parser

variable {α β : Type}

/-- A parser misses, so that another one may be tried. -/
def Misses (p : Parser α) (s : List Char) : Prop :=
  ∃ fault, p s = .missed fault

/-- A parser reads exactly the texts of a grammar, where what follows satisfies `follow`. -/
structure Reads (p : Parser α) (G : List Char → α → Prop) (follow : List Char → Prop) : Prop where
  sound {s : List Char} {a : α} {rest : List Char} (h : p s = .found a rest) : ∃ t, s = t ++ rest ∧ G t a
  whole {t : List Char} {a : α} {rest : List Char} (h : G t a) (hrest : follow rest) :
    p (t ++ rest) = .found a rest

theorem bind_of_found {p : Parser α} {f : α → Parser β} {s mid : List Char} {a : α} (h : p s = .found a mid) :
    (p >>= f) s = f a mid := by
  simp only [Bind.bind, h]

theorem bind_of_missed {p : Parser α} (f : α → Parser β) {s : List Char} {fault : Fault}
    (h : p s = .missed fault) : (p >>= f) s = .missed fault := by
  simp only [Bind.bind, h]

theorem bind_of_aborted {p : Parser α} (f : α → Parser β) {s : List Char} {fault : Fault}
    (h : p s = .aborted fault) : (p >>= f) s = .aborted fault := by
  simp only [Bind.bind, h]

theorem bind_misses {p : Parser α} (f : α → Parser β) {s : List Char} (h : p.Misses s) : (p >>= f).Misses s := by
  obtain ⟨fault, hfault⟩ := h
  exact ⟨fault, bind_of_missed f hfault⟩

theorem bind_eq_found {p : Parser α} {f : α → Parser β} {s rest : List Char} {b : β}
    (h : (p >>= f) s = .found b rest) : ∃ a mid, p s = .found a mid ∧ f a mid = .found b rest := by
  cases hp : p s with
  | found a mid =>
      rw [bind_of_found hp] at h
      exact ⟨a, mid, rfl, h⟩
  | missed fault =>
      rw [bind_of_missed f hp] at h
      cases h
  | aborted fault =>
      rw [bind_of_aborted f hp] at h
      cases h

namespace Reads

variable {p : Parser α} {G : List Char → α → Prop} {follow : List Char → Prop}

/-- The grammar may be said in other words, and less may be allowed to follow. -/
theorem congr (hp : Reads p G follow) {G' : List Char → α → Prop} {follow' : List Char → Prop}
    (hG : ∀ t a, G t a ↔ G' t a) (hfollow : ∀ s, follow' s → follow s) : Reads p G' follow' where
  sound h := by
    obtain ⟨t, hs, ht⟩ := hp.sound h
    exact ⟨t, hs, (hG _ _).1 ht⟩
  whole h hrest := hp.whole ((hG _ _).2 h) (hfollow _ hrest)

/-- A value made of what is read. -/
theorem map (hp : Reads p G follow) (f : α → β) :
    Reads (p >>= fun a => Pure.pure (f a)) (fun t b => ∃ a, G t a ∧ b = f a) follow where
  sound h := by
    obtain ⟨a, mid, hfound, hvalue⟩ := bind_eq_found h
    cases hvalue
    obtain ⟨t, hs, ht⟩ := hp.sound hfound
    exact ⟨t, hs, a, ht, rfl⟩
  whole h hrest := by
    obtain ⟨a, ht, rfl⟩ := h
    exact bind_of_found (hp.whole ht hrest)

/-- One parser after another, if what the second one reads can follow what the first one reads. -/
theorem bind {f : α → Parser β} {H : α → List Char → β → Prop} {follow' : List Char → Prop}
    (hp : Reads p G follow) (hf : ∀ a, Reads (f a) (H a) follow')
    (hnext : ∀ a t b rest, H a t b → follow' rest → follow (t ++ rest)) :
    Reads (p >>= f) (fun t b => ∃ t₁ a t₂, t = t₁ ++ t₂ ∧ G t₁ a ∧ H a t₂ b) follow' where
  sound h := by
    obtain ⟨a, mid, hfirst, hsecond⟩ := bind_eq_found h
    obtain ⟨t₁, rfl, ht₁⟩ := hp.sound hfirst
    obtain ⟨t₂, rfl, ht₂⟩ := (hf a).sound hsecond
    exact ⟨t₁ ++ t₂, (List.append_assoc t₁ t₂ _).symm, t₁, a, t₂, rfl, ht₁, ht₂⟩
  whole h hrest := by
    obtain ⟨t₁, a, t₂, rfl, ht₁, ht₂⟩ := h
    rw [List.append_assoc, bind_of_found (hp.whole ht₁ (hnext a t₂ _ _ ht₂ hrest))]
    exact (hf a).whole ht₂ hrest

/-- A first alternative and a second one whose texts the first one misses. -/
theorem orElse {q : Parser α} {H : List Char → α → Prop} (hp : Reads p G follow) (hq : Reads q H follow)
    (hmiss : ∀ t a rest, H t a → follow rest → p.Misses (t ++ rest)) :
    Reads (p <|> q) (fun t a => G t a ∨ H t a) follow where
  sound {s a rest} h := by
    have hor : (p <|> q) s = p.orElse (fun _ => q) s := rfl
    rw [hor, Parser.orElse] at h
    split at h
    · obtain ⟨t, hs, ht⟩ := hq.sound h
      exact ⟨t, hs, Or.inr ht⟩
    · obtain ⟨t, hs, ht⟩ := hp.sound h
      exact ⟨t, hs, Or.inl ht⟩
  whole {t a rest} h hrest := by
    have hor : (p <|> q) (t ++ rest) = p.orElse (fun _ => q) (t ++ rest) := rfl
    rw [hor, Parser.orElse]
    rcases h with h | h
    · rw [hp.whole h hrest]
    · obtain ⟨fault, hfault⟩ := hmiss t a rest h hrest
      rw [hfault]
      exact hq.whole h hrest

/-- What need not be there, at the end of a line. -/
theorem optional (hp : Reads p G follow) (hnil : follow []) (hmiss : p.Misses []) :
    Reads p.optional (fun t a? => (t = [] ∧ a? = none) ∨ ∃ a, G t a ∧ a? = some a) (· = []) where
  sound {s a? rest} h := by
    unfold Parser.optional at h
    split at h
    · rename_i a mid hfound
      cases h
      obtain ⟨t, hs, ht⟩ := hp.sound hfound
      exact ⟨t, hs, Or.inr ⟨a, ht, rfl⟩⟩
    · cases h
      exact ⟨[], rfl, Or.inl ⟨rfl, rfl⟩⟩
    · cases h
  whole {t a? rest} h hrest := by
    subst hrest
    unfold Parser.optional
    rcases h with ⟨rfl, rfl⟩ | ⟨a, ht, rfl⟩
    · obtain ⟨fault, hfault⟩ := hmiss
      rw [List.append_nil, hfault]
    · rw [hp.whole ht hnil]

/-- A value that `f` has to accept. -/
theorem filterMap (hp : Reads p G follow) (f : α → Option β) :
    Reads (p.filterMap f) (fun t b => ∃ a, G t a ∧ f a = some b) follow where
  sound {s b rest} h := by
    unfold Parser.filterMap at h
    split at h
    · rename_i a mid hfound
      split at h
      · rename_i hvalue
        cases h
        obtain ⟨t, hs, ht⟩ := hp.sound hfound
        exact ⟨t, hs, a, ht, hvalue⟩
      · cases h
    · cases h
    · cases h
  whole h hrest := by
    obtain ⟨a, ht, hvalue⟩ := h
    unfold Parser.filterMap
    rw [hp.whole ht hrest]
    simp only [hvalue]

section Lists

variable (hp : Reads p G follow) (hbegin : ∀ {t a}, G t a → ∀ s, follow (t ++ s))

include hp hbegin

/-- A fixed number of items, each of which can follow another one. -/
theorem times (n : Nat) : Reads (p.times n) (fun t as => ListText G t as ∧ as.length = n) follow := by
  induction n with
  | zero =>
      constructor
      · intro s as rest h
        cases h
        exact ⟨[], rfl, .nil, rfl⟩
      · rintro t as rest ⟨hlist, hlength⟩ -
        obtain rfl := List.length_eq_zero_iff.1 hlength
        cases hlist
        rfl
  | succ n ih =>
      have hall := hp.bind (fun a => ih.map (a :: ·)) (by
        rintro a t - rest ⟨as, ⟨hlist, -⟩, -⟩ hrest
        cases hlist with
        | nil => exact hrest
        | cons head tail =>
            rw [List.append_assoc]
            exact hbegin head _)
      refine hall.congr (fun t as => ?_) (fun _ h => h)
      constructor
      · rintro ⟨t₁, a, t₂, rfl, ha, as, ⟨has, rfl⟩, rfl⟩
        exact ⟨.cons ha has, rfl⟩
      · rintro ⟨hlist, hlength⟩
        cases hlist with
        | nil => cases hlength
        | cons head tail => exact ⟨_, _, _, rfl, head, _, ⟨tail, Nat.succ.inj hlength⟩, rfl⟩

omit hbegin in
theorem manyWithin_sound {fuel : Nat} {s rest : List Char} {as : List α}
    (h : manyWithin p fuel s = .found as rest) : ∃ t, s = t ++ rest ∧ ListText G t as := by
  induction fuel generalizing s as with
  | zero =>
      cases h
      exact ⟨[], rfl, .nil⟩
  | succ fuel ih =>
      unfold manyWithin at h
      split at h
      · rename_i a mid hfound
        obtain ⟨as, end_, htail, hvalue⟩ := bind_eq_found h
        cases hvalue
        obtain ⟨t, rfl, ht⟩ := hp.sound hfound
        obtain ⟨u, rfl, hu⟩ := ih htail
        exact ⟨t ++ u, (List.append_assoc t u _).symm, .cons ht hu⟩
      · cases h
        exact ⟨[], rfl, .nil⟩
      · cases h

/-- Items up to the end of the line are all found, since each of them takes a character. -/
theorem manyWithin_whole (hnil : follow []) (hmiss : p.Misses []) (hnonempty : ∀ {t a}, G t a → t ≠ [])
    {t : List Char} {as : List α} (h : ListText G t as) {fuel : Nat} (hfuel : t.length ≤ fuel) :
    manyWithin p fuel t = .found as [] := by
  induction h generalizing fuel with
  | nil =>
      cases fuel with
      | zero => rfl
      | succ fuel =>
          obtain ⟨fault, hfault⟩ := hmiss
          unfold manyWithin
          rw [hfault]
  | @cons t s a as head tail ih =>
      have ht : 0 < t.length := List.length_pos_iff.2 (hnonempty head)
      rw [List.length_append] at hfuel
      have hnext : follow s := by
        cases tail with
        | nil => exact hnil
        | cons head _ => exact hbegin head _
      cases fuel with
      | zero => omega
      | succ fuel =>
          unfold manyWithin
          rw [hp.whole head hnext]
          exact (bind_of_found (ih (by omega))).trans rfl

/-- One item or more, up to the end of the line. -/
theorem many1 (hnil : follow []) (hmiss : p.Misses []) (hnonempty : ∀ {t a}, G t a → t ≠ []) :
    Reads p.many1 (fun t as => as ≠ [] ∧ ListText G t as) (· = []) where
  sound {s as rest} h := by
    obtain ⟨a, mid, hfirst, hmore⟩ := bind_eq_found h
    obtain ⟨as, end_, hmany, hvalue⟩ := bind_eq_found hmore
    cases hvalue
    obtain ⟨t, rfl, ht⟩ := hp.sound hfirst
    obtain ⟨u, rfl, hu⟩ := hp.manyWithin_sound hmany
    exact ⟨t ++ u, (List.append_assoc t u _).symm, List.cons_ne_nil _ _, .cons ht hu⟩
  whole {t as rest} h hrest := by
    subst hrest
    obtain ⟨hsome, hlist⟩ := h
    cases hlist with
    | nil => exact absurd rfl hsome
    | @cons t s a as head tail =>
        have hnext : follow s := by
          cases tail with
          | nil => exact hnil
          | cons head _ => exact hbegin head _
        rw [List.append_nil]
        refine (bind_of_found (hp.whole head hnext)).trans ?_
        exact (bind_of_found (hp.manyWithin_whole hbegin hnil hmiss hnonempty tail (Nat.le_refl _))).trans rfl

end Lists

/-- What a parser reads has one value. -/
theorem value_unique (hp : Reads p G follow) (hnil : follow []) {t : List Char} {a b : α} (ha : G t a) (hb : G t b) :
    a = b := by
  have hfound := (hp.whole ha hnil).symm.trans (hp.whole hb hnil)
  injection hfound

/-- A parser that has to reach the end of the line accepts the texts of its grammar and no others. -/
theorem complete_eq_found_iff (hp : Reads p G follow) (hnil : follow []) {s rest : List Char} {a : α} :
    p.complete s = .found a rest ↔ G s a ∧ rest = [] := by
  constructor
  · intro h
    obtain ⟨b, mid, hfound, hend⟩ := bind_eq_found h
    obtain ⟨t, rfl, ht⟩ := hp.sound hfound
    cases mid with
    | nil =>
        cases hend
        rw [List.append_nil]
        exact ⟨ht, rfl⟩
    | cons c mid => cases hend
  · rintro ⟨h, rfl⟩
    have hfound := hp.whole h hnil
    rw [List.append_nil] at hfound
    exact (bind_of_found hfound).trans rfl

end Reads

end Parser

end UwbRanging.Telemetry
