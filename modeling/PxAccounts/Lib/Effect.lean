import Mathlib

/-!
# Programs with a state and exceptions

`EStateM ε σ α` is the type of programs that read and change a state `σ`, return an `α` or raise
an `ε`, and keep the changes they made when they raise.  This file gives the two kinds of facts
that proofs about such programs are built from:

* inversion of a run that returned (`run_bind_ok` and the rules for loops), to follow a program
  step by step;
* frames: `Within F m` says that every run of `m`, however it ends, relates its first state to its
  last one by the preorder `F`;
* exceptions: `Raises E m` says that `m` raises nothing but `E`, and `FailsWithin E F m` that a run
  which raises anything else changed at most what `F` allows;
* endings: `Ends V m` says both at once, with a condition `V` on exceptions that also speaks about
  what happened before them.
-/

namespace Effect

variable {ε σ α β γ : Type}

/-- The state a run ends in, whether it returned or raised. -/
def final : EStateM.Result ε σ α → σ
  | .ok _ s => s
  | .error _ s => s

@[simp] theorem final_ok (a : α) (s : σ) : final (.ok a s : EStateM.Result ε σ α) = s := rfl

@[simp] theorem final_error (e : ε) (s : σ) : final (.error e s : EStateM.Result ε σ α) = s := rfl

/-- The result of a run that returned. -/
def result? : EStateM.Result ε σ α → Option α
  | .ok a _ => some a
  | .error _ _ => none

theorem eq_ok_of_result? {r : EStateM.Result ε σ α} {a : α} (h : result? r = some a) :
    r = .ok a (final r) := by
  cases r with
  | ok b s =>
    cases h
    rfl
  | error e s => cases h

/-- The exception of a run that raised. -/
def exception? : EStateM.Result ε σ α → Option ε
  | .ok _ _ => none
  | .error e _ => some e

theorem eq_error_of_exception? {r : EStateM.Result ε σ α} {e : ε} (h : exception? r = some e) :
    r = .error e (final r) := by
  cases r with
  | ok b s => cases h
  | error e' s =>
    cases h
    rfl

/-! ## Runs that return -/

theorem run_bind_ok {x : EStateM ε σ α} {f : α → EStateM ε σ β} {s s' : σ} {b : β} :
    (x >>= f).run s = .ok b s' ↔ ∃ a s₁, x.run s = .ok a s₁ ∧ (f a).run s₁ = .ok b s' := by
  rw [EStateM.run_bind]
  cases hx : x.run s with
  | ok a s₁ =>
    constructor
    · exact fun h => ⟨a, s₁, rfl, h⟩
    · rintro ⟨a', s₁', h₁, h₂⟩
      cases h₁
      exact h₂
  | error e s₁ =>
    constructor
    · intro h
      cases h
    · rintro ⟨a', s₁', h₁, -⟩
      cases h₁

theorem run_pure_ok {a b : α} {s s' : σ} :
    (pure a : EStateM ε σ α).run s = .ok b s' ↔ a = b ∧ s = s' := by
  rw [EStateM.run_pure]
  constructor
  · intro h
    cases h
    exact ⟨rfl, rfl⟩
  · rintro ⟨rfl, rfl⟩
    rfl

theorem run_modifyGet_ok {f : σ → α × σ} {s s' : σ} {b : α} :
    (modifyGet f : EStateM ε σ α).run s = .ok b s' ↔ (f s).1 = b ∧ (f s).2 = s' := by
  constructor
  · intro h
    cases h
    exact ⟨rfl, rfl⟩
  · rintro ⟨rfl, rfl⟩
    rfl

theorem run_throw_ne_ok {e : ε} {s s' : σ} {b : α} :
    (throw e : EStateM ε σ α).run s ≠ .ok b s' := by
  intro h
  cases h

/-- A property of the remaining list, the accumulator and the state that every iteration passes
on holds at the end of a loop that returned. -/
theorem foldlM_ok_induction {f : β → α → EStateM ε σ β} (I : List α → β → σ → Prop)
    (step : ∀ a l b s b' s', I (a :: l) b s → (f b a).run s = .ok b' s' → I l b' s') :
    ∀ (l : List α) {b : β} {s : σ} {b' : β} {s' : σ}, I l b s →
      (l.foldlM f b).run s = .ok b' s' → I [] b' s'
  | [], b, s, b', s', h, hr => by
    rw [List.foldlM_nil, run_pure_ok] at hr
    obtain ⟨rfl, rfl⟩ := hr
    exact h
  | a :: l, b, s, b', s', h, hr => by
    rw [List.foldlM_cons, run_bind_ok] at hr
    obtain ⟨b₁, s₁, h₁, h₂⟩ := hr
    exact foldlM_ok_induction I step l (step a l b s b₁ s₁ h h₁) h₂

theorem except_bind_ok {x : Except ε α} {f : α → Except ε β} {b : β} :
    x >>= f = .ok b ↔ ∃ a, x = .ok a ∧ f a = .ok b := by
  cases x with
  | error e =>
    constructor
    · intro h
      cases h
    · rintro ⟨a, ha, -⟩
      cases ha
  | ok a =>
    constructor
    · exact fun h => ⟨a, rfl, h⟩
    · rintro ⟨a', ha, h⟩
      cases ha
      exact h

theorem except_bind_error {x : Except ε α} {f : α → Except ε β} {e : ε} :
    x >>= f = .error e ↔ x = .error e ∨ ∃ a, x = .ok a ∧ f a = .error e := by
  cases x with
  | error e' =>
    constructor
    · intro h
      cases h
      exact .inl rfl
    · rintro (h | ⟨a, ha, -⟩)
      · cases h
        rfl
      · cases ha
  | ok a =>
    constructor
    · exact fun h => .inr ⟨a, rfl, h⟩
    · rintro (h | ⟨a', ha, h⟩)
      · cases h
      · cases ha
        exact h

/-- What every iteration keeps holds at the end of a loop over `Except` that succeeded. -/
theorem except_foldlM_induction {f : β → α → Except ε β} (P : β → Prop)
    (step : ∀ b a b', P b → f b a = .ok b' → P b') :
    ∀ (l : List α) {b b' : β}, P b → l.foldlM f b = .ok b' → P b'
  | [], b, b', h, hr => by
    cases hr
    exact h
  | a :: l, b, b', h, hr => by
    rw [List.foldlM_cons, except_bind_ok] at hr
    obtain ⟨b₁, hf, hr⟩ := hr
    exact except_foldlM_induction P step l (step b a b₁ h hf) hr

/-- The same over `Option`. -/
theorem option_foldlM_induction {f : β → α → Option β} (P : β → Prop)
    (step : ∀ b a b', P b → f b a = some b' → P b') :
    ∀ (l : List α) {b b' : β}, P b → l.foldlM f b = some b' → P b'
  | [], b, b', h, hr => by
    cases hr
    exact h
  | a :: l, b, b', h, hr => by
    rw [List.foldlM_cons] at hr
    obtain ⟨b₁, hf, hr⟩ := Option.bind_eq_some_iff.1 hr
    exact option_foldlM_induction P step l (step b a b₁ h hf) hr

/-- A loop over `Except` fails with an error of one of its turns. -/
theorem except_foldlM_error {f : β → α → Except ε β} {E : ε → Prop} :
    ∀ (l : List α) {b : β} {e : ε}, (∀ b, ∀ a ∈ l, ∀ e, f b a = .error e → E e) →
      l.foldlM f b = .error e → E e
  | [], b, e, _, h => by cases h
  | a :: l, b, e, step, h => by
    rw [List.foldlM_cons, except_bind_error] at h
    rcases h with h | ⟨b', -, h⟩
    · exact step b a (by simp) e h
    · exact except_foldlM_error l (fun b a' h' => step b a' (by simp [h'])) h

/-- A loop over `Except` succeeds if all its turns do, where what a turn starts from does not decide
whether it succeeds. -/
theorem except_foldlM_returns_iff {f : β → α → Except ε β} {P : α → Prop} :
    ∀ (l : List α) (b : β), (∀ b, ∀ a ∈ l, (∃ b', f b a = .ok b') ↔ P a) →
      ((∃ b', l.foldlM f b = .ok b') ↔ ∀ a ∈ l, P a)
  | [], b, _ => ⟨fun _ _ h => by simp at h, fun _ => ⟨b, rfl⟩⟩
  | a :: l, b, step => by
    have ih := fun b₁ => except_foldlM_returns_iff l b₁ fun b a' h' => step b a' (by simp [h'])
    simp only [List.foldlM_cons, except_bind_ok, List.forall_mem_cons]
    constructor
    · rintro ⟨b', b₁, hfirst, hrest⟩
      exact ⟨(step b a (by simp)).1 ⟨b₁, hfirst⟩, (ih b₁).1 ⟨b', hrest⟩⟩
    · rintro ⟨ha, hl⟩
      obtain ⟨b₁, hfirst⟩ := (step b a (by simp)).2 ha
      obtain ⟨b', hrest⟩ := (ih b₁).2 hl
      exact ⟨b', b₁, hfirst, hrest⟩

/-- A map over `Except` succeeds with the results of its turns. -/
theorem except_mapM_ok_iff {f : α → Except ε β} {l : List α} {l' : List β} :
    l.mapM f = .ok l' ↔ List.Forall₂ (fun a b => f a = .ok b) l l' := by
  induction l generalizing l' with
  | nil =>
    rw [List.forall₂_nil_left_iff]
    exact ⟨fun h => by cases h; rfl, fun h => by rw [h]; rfl⟩
  | cons a l ih =>
    simp only [List.mapM_cons, except_bind_ok]
    constructor
    · rintro ⟨b, hb, bs, hbs, h⟩
      cases h
      exact .cons hb (ih.1 hbs)
    · rintro (_ | ⟨hb, hbs⟩)
      exact ⟨_, hb, _, ih.2 hbs, rfl⟩

/-! ## Frames -/

/-- A preorder on states, read as "at most this changed". -/
structure Frame (σ : Type) where
  rel : σ → σ → Prop
  refl : ∀ s, rel s s
  trans : ∀ {s t u}, rel s t → rel t u → rel s u

/-- The part of the state that `f` reads does not change. -/
def Frame.eqOn (f : σ → γ) : Frame σ where
  rel s t := f t = f s
  refl _ := rfl
  trans h₁ h₂ := h₂.trans h₁

/-- Every run of `m`, also one that raises, changes at most what `F` allows. -/
def Within (F : Frame σ) (m : EStateM ε σ α) : Prop := ∀ s, F.rel s (final (m.run s))

variable {F : Frame σ}

theorem Within.rel_of_ok {m : EStateM ε σ α} (h : Within F m) {s s' : σ} {a : α}
    (hr : m.run s = .ok a s') : F.rel s s' := by
  have := h s
  rwa [hr] at this

theorem Within.rel_of_error {m : EStateM ε σ α} (h : Within F m) {s s' : σ} {e : ε}
    (hr : m.run s = .error e s') : F.rel s s' := by
  have := h s
  rwa [hr] at this

theorem within_pure (a : α) : Within F (pure a : EStateM ε σ α) := fun s => F.refl s

theorem within_throw (e : ε) : Within F (throw e : EStateM ε σ α) := fun s => F.refl s

theorem within_get : Within F (get : EStateM ε σ σ) := fun s => F.refl s

theorem within_modifyGet {f : σ → α × σ} (h : ∀ s, F.rel s (f s).2) :
    Within F (modifyGet f : EStateM ε σ α) := h

theorem within_modify {f : σ → σ} (h : ∀ s, F.rel s (f s)) :
    Within F (modify f : EStateM ε σ PUnit) := h

/-- The second program only has to respect the frame for the results the first one can give. -/
theorem Within.bind_ok {x : EStateM ε σ α} {f : α → EStateM ε σ β} (hx : Within F x)
    (hf : ∀ a s s', x.run s = .ok a s' → Within F (f a)) : Within F (x >>= f) := by
  intro s
  have h := hx s
  rw [EStateM.run_bind]
  cases hr : x.run s with
  | ok a s₁ =>
    rw [hr] at h
    exact F.trans h (hf a s s₁ hr s₁)
  | error e s₁ =>
    rw [hr] at h
    exact h

theorem Within.bind {x : EStateM ε σ α} {f : α → EStateM ε σ β} (hx : Within F x)
    (hf : ∀ a, Within F (f a)) : Within F (x >>= f) := hx.bind_ok fun a _ _ _ => hf a

/-- The rule for one run, where what is known of the first program may serve for the second. -/
theorem rel_bind {x : EStateM ε σ α} {f : α → EStateM ε σ β} {s : σ}
    (hx : ∀ e s', x.run s = .error e s' → F.rel s s')
    (hf : ∀ a s', x.run s = .ok a s' → F.rel s (final ((f a).run s'))) :
    F.rel s (final ((x >>= f).run s)) := by
  rw [EStateM.run_bind]
  cases hr : x.run s with
  | ok a s₁ => exact hf a s₁ hr
  | error e s₁ => exact hx e s₁ hr

/-- One run of the first program, followed by any run of the second. -/
theorem rel_bind_within {x : EStateM ε σ α} {f : α → EStateM ε σ β} {s : σ}
    (hx : F.rel s (final (x.run s))) (hf : ∀ a, Within F (f a)) :
    F.rel s (final ((x >>= f).run s)) := by
  refine rel_bind (fun e s' h => ?_) fun a s' h => ?_
  · rwa [h] at hx
  · rw [h] at hx
    exact F.trans hx (hf a s')

theorem within_ite {c : Prop} [Decidable c] {x y : EStateM ε σ α} (hx : c → Within F x)
    (hy : ¬c → Within F y) : Within F (if c then x else y) := by
  split
  · exact hx ‹_›
  · exact hy ‹_›

/-- A loop respects the frame if each turn does, for the accumulators that can occur in it. -/
theorem within_foldlM_of {f : β → α → EStateM ε σ β} (P : β → Prop) {l : List α}
    (h : ∀ b, P b → ∀ a ∈ l, Within F (f b a))
    (step : ∀ b, P b → ∀ a ∈ l, ∀ s b' s', (f b a).run s = .ok b' s' → P b') {b : β} (hb : P b) :
    Within F (l.foldlM f b) := by
  induction l generalizing b with
  | nil => exact within_pure b
  | cons a l ih =>
    rw [List.foldlM_cons]
    refine (h b hb a (by simp)).bind_ok fun b' s s' hr => ?_
    exact ih (fun c hc a' ha' => h c hc a' (by simp [ha']))
      (fun c hc a' ha' => step c hc a' (by simp [ha'])) (step b hb a (by simp) s b' s' hr)

/-- The turn for one element of a list, in a loop that returned. -/
theorem foldlM_ok_mem {f : β → α → EStateM ε σ β} (P : β → Prop) {l : List α}
    (h : ∀ b, P b → ∀ a ∈ l, Within F (f b a))
    (step : ∀ b, P b → ∀ a ∈ l, ∀ s b' s', (f b a).run s = .ok b' s' → P b') {a : α} (ha : a ∈ l)
    {b b' : β} {s s' : σ} (hb : P b) (hr : (l.foldlM f b).run s = .ok b' s') :
    ∃ b₁ s₁ b₂ s₂, P b₁ ∧ F.rel s s₁ ∧ (f b₁ a).run s₁ = .ok b₂ s₂ ∧ F.rel s₂ s' := by
  induction l generalizing b s with
  | nil => cases ha
  | cons a₀ l ih =>
    have hl : ∀ c, P c → ∀ a' ∈ l, Within F (f c a') := fun c hc a' ha' => h c hc a' (by simp [ha'])
    have hstep : ∀ c, P c → ∀ a' ∈ l, ∀ s b' s', (f c a').run s = .ok b' s' → P b' :=
      fun c hc a' ha' => step c hc a' (by simp [ha'])
    rw [List.foldlM_cons, run_bind_ok] at hr
    obtain ⟨b₀, s₀, hturn, hrest⟩ := hr
    have hb₀ : P b₀ := step b hb a₀ (by simp) s b₀ s₀ hturn
    have hfirst : F.rel s s₀ := (h b hb a₀ (by simp)).rel_of_ok hturn
    rcases List.mem_cons.1 ha with rfl | ha
    · exact ⟨b, s, b₀, s₀, hb, F.refl s, hturn, (within_foldlM_of P hl hstep hb₀).rel_of_ok hrest⟩
    · obtain ⟨b₁, s₁, b₂, s₂, hb₁, hbefore, hmem, hafter⟩ := ih hl hstep ha hb₀ hrest
      exact ⟨b₁, s₁, b₂, s₂, hb₁, F.trans hfirst hbefore, hmem, hafter⟩

theorem within_foldlM {f : β → α → EStateM ε σ β} {l : List α}
    (h : ∀ b, ∀ a ∈ l, Within F (f b a)) (b : β) : Within F (l.foldlM f b) :=
  within_foldlM_of (fun _ => True) (fun b _ => h b) (fun _ _ _ _ _ _ _ _ => trivial) trivial

theorem within_forM {f : α → EStateM ε σ PUnit} {l : List α} (h : ∀ a ∈ l, Within F (f a)) :
    Within F (forM l f) := by
  induction l with
  | nil => exact within_pure _
  | cons a l ih =>
    rw [List.forM_cons]
    exact (h a (by simp)).bind fun _ => ih fun a' ha' => h a' (by simp [ha'])

theorem within_mapM {f : α → EStateM ε σ β} {l : List α} (h : ∀ a ∈ l, Within F (f a)) :
    Within F (l.mapM f) := by
  induction l with
  | nil => simpa using within_pure []
  | cons a l ih =>
    rw [List.mapM_cons]
    refine (h a (by simp)).bind fun b => Within.bind ?_ fun bs => within_pure (b :: bs)
    exact ih fun a' ha' => h a' (by simp [ha'])

/-! ## Exceptions -/

/-- Every exception that `m` raises satisfies `E`. -/
def Raises (E : ε → Prop) (m : EStateM ε σ α) : Prop := ∀ s e s', m.run s = .error e s' → E e

/-- A run of `m` that raises an exception changed at most what `F` allows. -/
def FailsWithin (F : Frame σ) (m : EStateM ε σ α) : Prop :=
  ∀ s e s', m.run s = .error e s' → F.rel s s'

theorem run_bind_error {x : EStateM ε σ α} {f : α → EStateM ε σ β} {s s' : σ} {e : ε} :
    (x >>= f).run s = .error e s' ↔
      x.run s = .error e s' ∨ ∃ a s₁, x.run s = .ok a s₁ ∧ (f a).run s₁ = .error e s' := by
  rw [EStateM.run_bind]
  cases hx : x.run s with
  | ok a s₁ =>
    constructor
    · exact fun h => .inr ⟨a, s₁, rfl, h⟩
    · rintro (h | ⟨a', s₁', h₁, h₂⟩)
      · cases h
      · cases h₁
        exact h₂
  | error e' s₁ =>
    constructor
    · intro h
      cases h
      exact .inl rfl
    · rintro (h | ⟨a', s₁', h₁, -⟩)
      · cases h
        rfl
      · cases h₁

variable {E : ε → Prop}

theorem raises_pure (a : α) : Raises E (pure a : EStateM ε σ α) := by
  intro s e s' h
  cases h

theorem raises_get : Raises E (get : EStateM ε σ σ) := by
  intro s e s' h
  cases h

theorem raises_modifyGet (f : σ → α × σ) : Raises E (modifyGet f : EStateM ε σ α) := by
  intro s e s' h
  cases h

theorem raises_modify (f : σ → σ) : Raises E (modify f : EStateM ε σ PUnit) := by
  intro s e s' h
  cases h

theorem Raises.bind {x : EStateM ε σ α} {f : α → EStateM ε σ β} (hx : Raises E x)
    (hf : ∀ a, Raises E (f a)) : Raises E (x >>= f) := by
  intro s e s' h
  rcases run_bind_error.1 h with h | ⟨a, s₁, -, h⟩
  · exact hx s e s' h
  · exact hf a s₁ e s' h

theorem raises_ite {c : Prop} [Decidable c] {x y : EStateM ε σ α} (hx : c → Raises E x)
    (hy : ¬c → Raises E y) : Raises E (if c then x else y) := by
  split
  · exact hx ‹_›
  · exact hy ‹_›

theorem raises_foldlM {f : β → α → EStateM ε σ β} {l : List α} (h : ∀ b, ∀ a ∈ l, Raises E (f b a))
    (b : β) : Raises E (l.foldlM f b) := by
  induction l generalizing b with
  | nil => exact raises_pure b
  | cons a l ih =>
    rw [List.foldlM_cons]
    exact (h b a (by simp)).bind fun b' => ih (fun c a' ha' => h c a' (by simp [ha'])) b'

theorem raises_forM {f : α → EStateM ε σ PUnit} {l : List α} (h : ∀ a ∈ l, Raises E (f a)) :
    Raises E (forM l f) := by
  induction l with
  | nil => exact raises_pure _
  | cons a l ih =>
    rw [List.forM_cons]
    exact (h a (by simp)).bind fun _ => ih fun a' ha' => h a' (by simp [ha'])

/-- A program that raises nothing returns. -/
theorem Raises.returns {m : EStateM ε σ α} (h : Raises (fun _ => False) m) (s : σ) :
    ∃ a s', m.run s = .ok a s' := by
  cases hr : m.run s with
  | ok a s' => exact ⟨a, s', rfl⟩
  | error e s' => exact absurd hr (h s e s')

theorem Raises.failsWithin {m : EStateM ε σ α} (h : Raises (fun _ => False) m) : FailsWithin F m :=
  fun s e s' hr => absurd hr (h s e s')

/-- A program fails within a frame if what runs before the failing part respects the frame. -/
theorem Within.failsWithin_bind_ok {x : EStateM ε σ α} {f : α → EStateM ε σ β} (hx : Within F x)
    (hf : ∀ a s s', x.run s = .ok a s' → FailsWithin F (f a)) : FailsWithin F (x >>= f) := by
  intro s e s' h
  have hrel := hx s
  rcases run_bind_error.1 h with h | ⟨a, s₁, h₁, h₂⟩
  · rwa [h] at hrel
  · rw [h₁] at hrel
    exact F.trans hrel (hf a s s₁ h₁ s₁ e s' h₂)

theorem Within.failsWithin_bind {x : EStateM ε σ α} {f : α → EStateM ε σ β} (hx : Within F x)
    (hf : ∀ a, FailsWithin F (f a)) : FailsWithin F (x >>= f) :=
  hx.failsWithin_bind_ok fun a _ _ _ => hf a

theorem failsWithin_ite {c : Prop} [Decidable c] {x y : EStateM ε σ α}
    (hx : c → FailsWithin F x) (hy : ¬c → FailsWithin F y) : FailsWithin F (if c then x else y) := by
  split
  · exact hx ‹_›
  · exact hy ‹_›

/-! ## Endings -/

/-- What may be said about an exception `e` of a run from `s` to `s'`: more has happened in a run
that starts earlier, so it still holds there. -/
structure Ending (ε : Type) {σ : Type} (F : Frame σ) where
  raised : σ → ε → σ → Prop
  extend : ∀ {s t e u}, F.rel s t → raised t e u → raised s e u

/-- Every run of `m` that returns respects the frame, and if it raises an exception, `V` holds of
it. -/
structure Ends (V : Ending ε F) (m : EStateM ε σ α) : Prop where
  returned : ∀ s a s', m.run s = .ok a s' → F.rel s s'
  raised : ∀ s e s', m.run s = .error e s' → V.raised s e s'

variable {V : Ending ε F}

theorem Raises.ends {m : EStateM ε σ α} (h : Raises (fun _ => False) m) (hF : Within F m) :
    Ends V m where
  returned _ _ _ hr := hF.rel_of_ok hr
  raised s e s' hr := absurd hr (h s e s')

theorem ends_pure (a : α) : Ends V (pure a : EStateM ε σ α) := (raises_pure a).ends (within_pure a)

theorem ends_throw {e : ε} (h : ∀ s, V.raised s e s) : Ends V (throw e : EStateM ε σ α) where
  returned s a s' hr := by cases hr
  raised s e' s' hr := by
    cases hr
    exact h s

theorem ends_get : Ends V (get : EStateM ε σ σ) := raises_get.ends within_get

theorem ends_modifyGet {f : σ → α × σ} (h : ∀ s, F.rel s (f s).2) :
    Ends V (modifyGet f : EStateM ε σ α) := (raises_modifyGet f).ends (within_modifyGet h)

theorem ends_modify {f : σ → σ} (h : ∀ s, F.rel s (f s)) :
    Ends V (modify f : EStateM ε σ PUnit) := (raises_modify f).ends (within_modify h)

theorem Ends.bind_ok {x : EStateM ε σ α} {f : α → EStateM ε σ β} (hx : Ends V x)
    (hf : ∀ a s s', x.run s = .ok a s' → Ends V (f a)) : Ends V (x >>= f) where
  returned s b s' h := by
    obtain ⟨a, s₁, h₁, h⟩ := run_bind_ok.1 h
    exact F.trans (hx.returned s a s₁ h₁) ((hf a s s₁ h₁).returned s₁ b s' h)
  raised s e s' h := by
    rcases run_bind_error.1 h with h | ⟨a, s₁, h₁, h⟩
    · exact hx.raised s e s' h
    · exact V.extend (hx.returned s a s₁ h₁) ((hf a s s₁ h₁).raised s₁ e s' h)

theorem Ends.bind {x : EStateM ε σ α} {f : α → EStateM ε σ β} (hx : Ends V x)
    (hf : ∀ a, Ends V (f a)) : Ends V (x >>= f) := hx.bind_ok fun a _ _ _ => hf a

theorem ends_ite {c : Prop} [Decidable c] {x y : EStateM ε σ α} (hx : c → Ends V x)
    (hy : ¬c → Ends V y) : Ends V (if c then x else y) := by
  split
  · exact hx ‹_›
  · exact hy ‹_›

theorem ends_foldlM_of {f : β → α → EStateM ε σ β} (P : β → Prop) {l : List α}
    (h : ∀ b, P b → ∀ a ∈ l, Ends V (f b a))
    (step : ∀ b, P b → ∀ a ∈ l, ∀ s b' s', (f b a).run s = .ok b' s' → P b') {b : β} (hb : P b) :
    Ends V (l.foldlM f b) := by
  induction l generalizing b with
  | nil => exact ends_pure b
  | cons a l ih =>
    rw [List.foldlM_cons]
    refine (h b hb a (by simp)).bind_ok fun b' s s' hr => ?_
    exact ih (fun c hc a' ha' => h c hc a' (by simp [ha']))
      (fun c hc a' ha' => step c hc a' (by simp [ha'])) (step b hb a (by simp) s b' s' hr)

theorem ends_foldlM {f : β → α → EStateM ε σ β} {l : List α} (h : ∀ b, ∀ a ∈ l, Ends V (f b a))
    (b : β) : Ends V (l.foldlM f b) :=
  ends_foldlM_of (fun _ => True) (fun b _ => h b) (fun _ _ _ _ _ _ _ _ => trivial) trivial

theorem ends_forM {f : α → EStateM ε σ PUnit} {l : List α} (h : ∀ a ∈ l, Ends V (f a)) :
    Ends V (forM l f) := by
  induction l with
  | nil => exact ends_pure _
  | cons a l ih =>
    rw [List.forM_cons]
    exact (h a (by simp)).bind fun _ => ih fun a' ha' => h a' (by simp [ha'])

theorem ends_mapM {f : α → EStateM ε σ β} {l : List α} (h : ∀ a ∈ l, Ends V (f a)) :
    Ends V (l.mapM f) := by
  induction l with
  | nil => simpa using ends_pure []
  | cons a l ih =>
    rw [List.mapM_cons]
    refine (h a (by simp)).bind fun b => Ends.bind ?_ fun bs => ends_pure (b :: bs)
    exact ih fun a' ha' => h a' (by simp [ha'])

/-! ## Results that tell what happened -/

/-- `R` goes on to hold of two states when steps that `F` allows are taken before and after. -/
structure Absorbs (F : Frame σ) (R : σ → σ → Prop) : Prop where
  before : ∀ {s t u}, F.rel s t → R t u → R s u
  after : ∀ {s t u}, R s t → F.rel t u → R s u

/-- A run that returns a result in `B` relates its first state to its last one by `R`. -/
def Tells (B : α → Prop) (R : σ → σ → Prop) (m : EStateM ε σ α) : Prop :=
  ∀ s a s', m.run s = .ok a s' → B a → R s s'

section

variable {B : α → Prop} {C : β → Prop} {R : σ → σ → Prop} {x : EStateM ε σ α} {f : α → EStateM ε σ β}

theorem tells_pure {a : α} (h : ¬B a) : Tells B R (pure a : EStateM ε σ α) := by
  intro s a' s' hr hB
  obtain ⟨rfl, -⟩ := run_pure_ok.1 hr
  exact absurd hB h

/-- Either the first program tells, or the second one does. -/
theorem Tells.bind (hR : Absorbs F R) (hx : Within F x) (htells : Tells B R x)
    (hf : ∀ a, B a → Within F (f a)) (hrest : ∀ a, ¬B a → Tells C R (f a)) :
    Tells C R (x >>= f) := by
  intro s c s' hr hC
  obtain ⟨a, s₁, hfirst, hsecond⟩ := run_bind_ok.1 hr
  by_cases hB : B a
  · exact hR.after (htells s a s₁ hfirst hB) ((hf a hB).rel_of_ok hsecond)
  · exact hR.before (hx.rel_of_ok hfirst) (hrest a hB s₁ c s' hsecond hC)

theorem tells_bind_right (hR : Absorbs F R) (hx : Within F x) (hrest : ∀ a, Tells C R (f a)) :
    Tells C R (x >>= f) := fun s _ s' hr hC => by
  obtain ⟨a, s₁, hfirst, hsecond⟩ := run_bind_ok.1 hr
  exact hR.before (hx.rel_of_ok hfirst) (hrest a s₁ _ s' hsecond hC)

end

/-! ## Loops to the end or to the first exception -/

/-- The turns of a loop over `l₀`, each of which returns or raises: the invariant `I` holds of what
is done, and `J` where a turn raised. -/
theorem forM_cases {f : α → EStateM ε σ PUnit} {s₀ : σ} {l₀ : List α} (I : List α → σ → Prop)
    (J : List α → α → σ → Prop)
    (step : ∀ done a rest s, l₀ = done ++ a :: rest → (forM done f).run s₀ = .ok ⟨⟩ s → I done s →
      (∃ s', (f a).run s = .ok ⟨⟩ s' ∧ I (done ++ [a]) s') ∨
        ∃ e s', (f a).run s = .error e s' ∧ J done a s')
    (h₀ : I [] s₀) :
    (∃ s, (forM l₀ f).run s₀ = .ok ⟨⟩ s ∧ I l₀ s) ∨
      ∃ done a rest e s, l₀ = done ++ a :: rest ∧ (forM l₀ f).run s₀ = .error e s ∧ J done a s := by
  have hrest : ∀ rest done s, l₀ = done ++ rest → (forM done f).run s₀ = .ok ⟨⟩ s → I done s →
      (∃ s', (forM l₀ f).run s₀ = .ok ⟨⟩ s' ∧ I l₀ s') ∨
        ∃ done a rest e s', l₀ = done ++ a :: rest ∧ (forM l₀ f).run s₀ = .error e s' ∧
          J done a s' := by
    intro rest
    induction rest with
    | nil =>
      rintro done s hl hr hI
      obtain rfl : l₀ = done := hl.trans (List.append_nil done)
      exact .inl ⟨s, hr, hI⟩
    | cons a rest ih =>
      intro done s hl hr hI
      rcases step done a rest s hl hr hI with ⟨s', ha, hI'⟩ | ⟨e, s', ha, hJ⟩
      · refine ih (done ++ [a]) s' (by rw [hl, List.append_assoc, List.singleton_append]) ?_ hI'
        rw [List.forM_append, List.forM_cons]
        exact run_bind_ok.2 ⟨⟨⟩, s, hr, run_bind_ok.2 ⟨⟨⟩, s', ha, rfl⟩⟩
      · refine .inr ⟨done, a, rest, e, s', hl, ?_, hJ⟩
        rw [hl, List.forM_append, List.forM_cons]
        exact run_bind_error.2 (.inr ⟨⟨⟩, s, hr, run_bind_error.2 (.inl ha)⟩)
  exact hrest l₀ [] s₀ rfl rfl h₀

end Effect
