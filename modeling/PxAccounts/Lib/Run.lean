import Mathlib

/-!
# Runs

A system takes labelled steps one after the other.  What every step keeps holds at the end of every
run, and what two steps with related labels keep of two systems holds at the end of two runs.
-/

namespace Run

variable {σ τ α β : Type}

/-- `Runs step s l t`: the steps with the labels `l` lead from `s` to `t`. -/
inductive Runs (step : σ → α → σ → Prop) : σ → List α → σ → Prop
  | nil (s : σ) : Runs step s [] s
  | snoc {s t u : σ} {l : List α} {a : α} : Runs step s l t → step t a u →
      Runs step s (l ++ [a]) u

variable {step : σ → α → σ → Prop}

theorem Runs.invariant {P : σ → Prop} (hstep : ∀ s a t, P s → step s a t → P t) {s t : σ}
    {l : List α} (h : Runs step s l t) (hs : P s) : P t := by
  induction h with
  | nil => exact hs
  | snoc _ hst ih => exact hstep _ _ _ ih hst

theorem Runs.single {s t : σ} {a : α} (h : step s a t) : Runs step s [a] t := .snoc (.nil s) h

theorem Runs.of_snoc {s t : σ} {l : List α} {a : α} (h : Runs step s (l ++ [a]) t) :
    ∃ u, Runs step s l u ∧ step u a t := by
  generalize hl : l ++ [a] = whole at h
  cases h with
  | nil => simp at hl
  | snoc hruns hstep =>
    obtain ⟨rfl, hlast⟩ := List.append_inj' hl rfl
    cases hlast
    exact ⟨_, hruns, hstep⟩

/-- A run passes through a state between any two parts of it. -/
theorem Runs.split {s t : σ} {l l' : List α} (h : Runs step s (l ++ l') t) :
    ∃ u, Runs step s l u ∧ Runs step u l' t := by
  induction l' using List.reverseRecOn generalizing t with
  | nil =>
    rw [List.append_nil] at h
    exact ⟨t, h, .nil t⟩
  | append_singleton l' a ih =>
    rw [← List.append_assoc] at h
    obtain ⟨v, hruns, hstep⟩ := h.of_snoc
    obtain ⟨u, hleft, hright⟩ := ih hruns
    exact ⟨u, hleft, hright.snoc hstep⟩

theorem Runs.split_cons {s t : σ} {l l' : List α} {a : α} (h : Runs step s (l ++ a :: l') t) :
    ∃ u v, Runs step s l u ∧ step u a v ∧ Runs step v l' t := by
  rw [List.append_cons] at h
  obtain ⟨v, hleft, hright⟩ := h.split
  obtain ⟨u, hruns, hstep⟩ := hleft.of_snoc
  exact ⟨u, v, hruns, hstep, hright⟩

/-- What steps with labels in `Q` keep holds at the end of a run of them, and so does, of each label,
what it shows as long as that is kept. -/
theorem Runs.labels {P : σ → Prop} {Q R : α → Prop}
    (hkeep : ∀ s a t, Q a → P s → step s a t → P t) (hshow : ∀ s a t, P s → step s a t → R a)
    {s t : σ} {l : List α} (h : Runs step s l t) (hl : ∀ a ∈ l, Q a) (hs : P s) :
    P t ∧ ∀ a ∈ l, R a := by
  induction h with
  | nil => exact ⟨hs, nofun⟩
  | snoc _ hst ih =>
    obtain ⟨hP, hR⟩ := ih fun a ha => hl a (List.mem_append_left _ ha)
    refine ⟨hkeep _ _ _ (hl _ (by simp)) hP hst, fun a ha => ?_⟩
    rcases List.mem_append.1 ha with hmem | hmem
    · exact hR a hmem
    · rw [List.mem_singleton.1 hmem]
      exact hshow _ _ _ hP hst

/-- A run of a system whose steps can be computed. -/
theorem Runs.of_foldlM {f : σ → α → Option σ} (hstep : ∀ s a t, f s a = some t → step s a t) {s t : σ}
    {l : List α} (h : l.foldlM f s = some t) : Runs step s l t := by
  induction l using List.reverseRecOn generalizing t with
  | nil =>
    cases h
    exact .nil s
  | append_singleton l a ih =>
    rw [List.foldlM_append] at h
    obtain ⟨u, hu, ha⟩ := Option.bind_eq_some_iff.1 h
    rw [List.foldlM_cons] at ha
    obtain ⟨v, hv, hnil⟩ := Option.bind_eq_some_iff.1 ha
    cases hnil
    exact .snoc (ih hu) (hstep u a t hv)

/-- A system whose every step is one of a second system refines it over whole runs. -/
theorem Runs.refines {step' : τ → α → τ → Prop} {R : σ → τ → Prop}
    (hstep : ∀ s m a t, R s m → step s a t → ∃ m', step' m a m' ∧ R t m') {s t : σ} {l : List α}
    (hr : Runs step s l t) {m : τ} (hm : R s m) : ∃ m', Runs step' m l m' ∧ R t m' := by
  induction hr with
  | nil => exact ⟨m, .nil m, hm⟩
  | snoc _ hst ih =>
    obtain ⟨m₁, hruns, hm₁⟩ := ih
    obtain ⟨m₂, hst', hm₂⟩ := hstep _ _ _ _ hm₁ hst
    exact ⟨m₂, .snoc hruns hst', hm₂⟩

/-! ## Logs -/

/-- Every entry of a log satisfies `P` in the state that the entries before it lead to. -/
def Checked (apply : σ → α → σ) (P : σ → α → Prop) : σ → List α → Prop
  | _, [] => True
  | s, a :: l => P s a ∧ Checked apply P (apply s a) l

instance decidableChecked {apply : σ → α → σ} {P : σ → α → Prop} [∀ s a, Decidable (P s a)] :
    ∀ (s : σ) (l : List α), Decidable (Checked apply P s l)
  | _, [] => inferInstanceAs (Decidable True)
  | s, a :: l =>
    letI : Decidable (Checked apply P (apply s a) l) := decidableChecked (apply s a) l
    inferInstanceAs (Decidable (P s a ∧ Checked apply P (apply s a) l))

theorem checked_append {apply : σ → α → σ} {P : σ → α → Prop} {s : σ} {l l' : List α} :
    Checked apply P s (l ++ l') ↔ Checked apply P s l ∧ Checked apply P (l.foldl apply s) l' := by
  induction l generalizing s with
  | nil => simp [Checked]
  | cons a l ih => rw [List.cons_append, Checked, ih, Checked, List.foldl_cons, and_assoc]

/-- What a machine puts out: `step s a` is the output for `a` in the state `s`, and the next state. -/
def outputs (step : σ → α → β × σ) : σ → List α → List β
  | _, [] => []
  | s, a :: l => (step s a).1 :: outputs step (step s a).2 l

/-- A machine puts out a checked log if its steps keep a relation to the states of the log, and each
puts out what may come next. -/
theorem checked_outputs {step : σ → α → β × σ} {ok : σ → α → Prop} {apply : τ → β → τ}
    {P : τ → β → Prop} {R : σ → τ → Prop}
    (hstep : ∀ s a t, R s t → ok s a → P t (step s a).1 ∧ R (step s a).2 (apply t (step s a).1))
    {s : σ} {t : τ} {l : List α} (hst : R s t) (hl : Checked (fun s a => (step s a).2) ok s l) :
    Checked apply P t (outputs step s l) := by
  induction l generalizing s t with
  | nil => trivial
  | cons a l ih =>
    obtain ⟨hout, hnext⟩ := hstep s a t hst hl.1
    exact ⟨hout, ih hnext hl.2⟩

end Run
