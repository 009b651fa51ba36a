import PxAccounts.Lib.Effect

/-!
# Two programs in step

Rules for showing that two stateful programs, started in related states, give related results in
related states or raise the same exception.  The comparison may be given up once the two states
count as lost, which nothing that follows changes.
-/

namespace Effect

variable {ε σ τ α β γ δ : Type}

/-- Which states are compared, and when nothing more is said about the two programs. -/
structure Coupling (σ τ : Type) where
  rel : σ → τ → Prop
  lost : σ → τ → Prop

/-- The two results agree. -/
inductive Matches (C : Coupling σ τ) (A : α → β → Prop) :
    EStateM.Result ε σ α → EStateM.Result ε τ β → Prop
  | ok {a : α} {b : β} {s : σ} {t : τ} : A a b → C.rel s t → Matches C A (.ok a s) (.ok b t)
  | error {e : ε} {s : σ} {t : τ} : C.rel s t → Matches C A (.error e s) (.error e t)
  | lost {r : EStateM.Result ε σ α} {r' : EStateM.Result ε τ β} :
    C.lost (final r) (final r') → Matches C A r r'

/-- From related states the two programs give results that agree, and lost states stay lost when
either of the two is run. -/
structure Couples (C : Coupling σ τ) (A : α → β → Prop) (m : EStateM ε σ α) (m' : EStateM ε τ β) :
    Prop where
  run : ∀ s t, C.rel s t → Matches C A (m.run s) (m'.run t)
  left : ∀ s t, C.lost s t → C.lost (final (m.run s)) t
  right : ∀ s t, C.lost s t → C.lost s (final (m'.run t))

variable {C : Coupling σ τ} {A : α → β → Prop} {B : γ → δ → Prop}

theorem couples_pure {a : α} {b : β} (h : A a b) :
    Couples C A (pure a : EStateM ε σ α) (pure b : EStateM ε τ β) where
  run _ _ hst := .ok h hst
  left _ _ hst := hst
  right _ _ hst := hst

theorem couples_throw (e : ε) :
    Couples C A (throw e : EStateM ε σ α) (throw e : EStateM ε τ β) where
  run _ _ hst := .error hst
  left _ _ hst := hst
  right _ _ hst := hst

theorem couples_get : Couples C C.rel (get : EStateM ε σ σ) (get : EStateM ε τ τ) where
  run _ _ hst := .ok hst hst
  left _ _ hst := hst
  right _ _ hst := hst

theorem couples_modifyGet {f : σ → α × σ} {g : τ → β × τ}
    (h : ∀ s t, C.rel s t → A (f s).1 (g t).1 ∧ C.rel (f s).2 (g t).2 ∨ C.lost (f s).2 (g t).2)
    (hleft : ∀ s t, C.lost s t → C.lost (f s).2 t)
    (hright : ∀ s t, C.lost s t → C.lost s (g t).2) :
    Couples C A (modifyGet f : EStateM ε σ α) (modifyGet g : EStateM ε τ β) where
  run s t hst := by
    rcases h s t hst with ⟨hab, hrel⟩ | hlost
    · exact .ok hab hrel
    · exact .lost hlost
  left := hleft
  right := hright

theorem Matches.mono {A' : α → β → Prop} (hA : ∀ a b, A a b → A' a b)
    {r : EStateM.Result ε σ α} {r' : EStateM.Result ε τ β} (h : Matches C A r r') :
    Matches C A' r r' := by
  cases h with
  | ok hab hst => exact .ok (hA _ _ hab) hst
  | error hst => exact .error hst
  | lost hst => exact .lost hst

theorem Couples.mono {A' : α → β → Prop} (hA : ∀ a b, A a b → A' a b) {m : EStateM ε σ α}
    {m' : EStateM ε τ β} (h : Couples C A m m') : Couples C A' m m' where
  run s t hst := (h.run s t hst).mono hA
  left := h.left
  right := h.right

section Bind

variable {x : EStateM ε σ α} {x' : EStateM ε τ β} {f : α → EStateM ε σ γ} {f' : β → EStateM ε τ δ}

theorem lost_bind_left (hf : ∀ a s t, C.lost s t → C.lost (final ((f a).run s)) t) {s : σ} {t : τ}
    (h : C.lost (final (x.run s)) t) : C.lost (final ((x >>= f).run s)) t := by
  rw [EStateM.run_bind]
  generalize x.run s = r at h ⊢
  cases r with
  | ok a s₁ => exact hf a s₁ t h
  | error e s₁ => exact h

theorem lost_bind_right (hf : ∀ b s t, C.lost s t → C.lost s (final ((f' b).run t))) {s : σ} {t : τ}
    (h : C.lost s (final (x'.run t))) : C.lost s (final ((x' >>= f').run t)) := by
  rw [EStateM.run_bind]
  generalize x'.run t = r at h ⊢
  cases r with
  | ok b t₁ => exact hf b s t₁ h
  | error e t₁ => exact h

/-- What follows two results that agree has to give results that agree. -/
theorem Matches.bind {s : σ} {t : τ} (hx : Matches C A (x.run s) (x'.run t))
    (hf : ∀ a b, A a b → ∀ s t, C.rel s t → Matches C B ((f a).run s) ((f' b).run t))
    (hleft : ∀ a s t, C.lost s t → C.lost (final ((f a).run s)) t)
    (hright : ∀ b s t, C.lost s t → C.lost s (final ((f' b).run t))) :
    Matches C B ((x >>= f).run s) ((x' >>= f').run t) := by
  have hlost : C.lost (final (x.run s)) (final (x'.run t)) →
      C.lost (final ((x >>= f).run s)) (final ((x' >>= f').run t)) :=
    fun h => lost_bind_right hright (lost_bind_left hleft h)
  rw [EStateM.run_bind, EStateM.run_bind] at hlost ⊢
  generalize x.run s = r at hx hlost ⊢
  generalize x'.run t = r' at hx hlost ⊢
  cases hx with
  | ok hab hst => exact hf _ _ hab _ _ hst
  | error hst => exact .error hst
  | lost hst => exact .lost (hlost hst)

/-- The rule for results that agree without being the same. -/
theorem Couples.bind_of (hx : Couples C A x x')
    (hf : ∀ a b, A a b → ∀ s t, C.rel s t → Matches C B ((f a).run s) ((f' b).run t))
    (hleft : ∀ a s t, C.lost s t → C.lost (final ((f a).run s)) t)
    (hright : ∀ b s t, C.lost s t → C.lost s (final ((f' b).run t))) :
    Couples C B (x >>= f) (x' >>= f') where
  run s t hst := (hx.run s t hst).bind hf hleft hright
  left s t hst := lost_bind_left hleft (hx.left s t hst)
  right s t hst := lost_bind_right hright (hx.right s t hst)

end Bind

/-- Every result agrees with itself, so that the second programs are in step whatever comes first.
-/
theorem Couples.bind_rel {R : α → α → Prop} (hR : ∀ a, R a a) {x : EStateM ε σ α}
    {x' : EStateM ε τ α} {f : α → EStateM ε σ γ} {f' : α → EStateM ε τ δ} (hx : Couples C R x x')
    (hf : ∀ a b, R a b → Couples C B (f a) (f' b)) : Couples C B (x >>= f) (x' >>= f') :=
  hx.bind_of (fun a b hab => (hf a b hab).run) (fun a => (hf a a (hR a)).left)
    fun b => (hf b b (hR b)).right

/-- The rule for programs that give the same result. -/
theorem Couples.bind {x : EStateM ε σ α} {x' : EStateM ε τ α} {f : α → EStateM ε σ γ}
    {f' : α → EStateM ε τ δ} (hx : Couples C Eq x x') (hf : ∀ a, Couples C B (f a) (f' a)) :
    Couples C B (x >>= f) (x' >>= f') :=
  hx.bind_rel (fun _ => rfl) fun a _ hab => hab ▸ hf a

/-- The results of the first programs may differ when what comes next does not use them. -/
theorem couples_seq {x : EStateM ε σ α} {x' : EStateM ε τ β} {m : EStateM ε σ γ}
    {m' : EStateM ε τ δ} (hx : Couples C (fun _ _ => True) x x') (hm : Couples C B m m') :
    Couples C B (x >>= fun _ => m) (x' >>= fun _ => m') :=
  hx.bind_of (fun _ _ _ => hm.run) (fun _ => hm.left) fun _ => hm.right

theorem couples_ite {c : Prop} [Decidable c] {x y : EStateM ε σ α} {x' y' : EStateM ε τ β}
    (hx : c → Couples C A x x') (hy : ¬c → Couples C A y y') :
    Couples C A (if c then x else y) (if c then x' else y') := by
  split
  · exact hx ‹_›
  · exact hy ‹_›

/-! ## Loops -/

section Loops

variable {R : α → β → Prop} {V : γ → γ → Prop} {l : List α} {l' : List β}

/-- Two loops whose turns keep the accumulators in agreement. -/
theorem couples_foldlM_rel (hV : ∀ c, V c c) {f : γ → α → EStateM ε σ γ} {g : γ → β → EStateM ε τ γ}
    (hl : List.Forall₂ R l l')
    (h : ∀ c d a b, V c d → R a b → Couples C V (f c a) (g d b)) {c d : γ} (hcd : V c d) :
    Couples C V (l.foldlM f c) (l'.foldlM g d) := by
  induction hl generalizing c d with
  | nil => exact couples_pure hcd
  | cons hab _ ih =>
    rw [List.foldlM_cons, List.foldlM_cons]
    exact (h c d _ _ hcd hab).bind_rel hV fun c' d' hcd' => ih hcd'

theorem couples_forM_rel {f : α → EStateM ε σ PUnit} {g : β → EStateM ε τ PUnit}
    (hl : List.Forall₂ R l l') (h : ∀ a b, R a b → Couples C Eq (f a) (g b)) :
    Couples C Eq (forM l f) (forM l' g) := by
  induction hl with
  | nil => exact couples_pure rfl
  | cons hab _ ih =>
    rw [List.forM_cons, List.forM_cons]
    exact (h _ _ hab).bind fun _ => ih

end Loops

/-- Two loops over the same list, whose turns give the same accumulators. -/
theorem couples_foldlM {f : β → α → EStateM ε σ β} {g : β → α → EStateM ε τ β} {l : List α}
    (h : ∀ b, ∀ a ∈ l, Couples C Eq (f b a) (g b a)) (b : β) :
    Couples C Eq (l.foldlM f b) (l.foldlM g b) := by
  have hl : List.Forall₂ (fun a a' => a = a' ∧ a ∈ l) l l :=
    List.forall₂_same.2 fun a ha => ⟨rfl, ha⟩
  refine couples_foldlM_rel (fun _ => rfl) hl ?_ rfl
  rintro c _ a _ rfl ⟨rfl, ha⟩
  exact h c a ha

theorem couples_forM {f : α → EStateM ε σ PUnit} {g : α → EStateM ε τ PUnit} {l : List α}
    (h : ∀ a ∈ l, Couples C Eq (f a) (g a)) : Couples C Eq (forM l f) (forM l g) := by
  have hl : List.Forall₂ (fun a a' => a = a' ∧ a ∈ l) l l :=
    List.forall₂_same.2 fun a ha => ⟨rfl, ha⟩
  refine couples_forM_rel hl ?_
  rintro a _ ⟨rfl, ha⟩
  exact h a ha

theorem couples_mapM {f : α → EStateM ε σ β} {g : α → EStateM ε τ β} {l : List α}
    (h : ∀ a ∈ l, Couples C Eq (f a) (g a)) : Couples C Eq (l.mapM f) (l.mapM g) := by
  induction l with
  | nil => simpa using couples_pure rfl
  | cons a l ih =>
    rw [List.mapM_cons, List.mapM_cons]
    refine (h a (by simp)).bind fun b => Couples.bind ?_ fun bs => couples_pure rfl
    exact ih fun a' ha' => h a' (by simp [ha'])

end Effect
