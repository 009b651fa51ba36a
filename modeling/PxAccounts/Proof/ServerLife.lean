import PxAccounts.Model.RPCServer

/-!
# The life cycle of the RPC server

The flag that guards `start` and `stop` is set by the started thread.  As long as the owner reads it
only when no thread is about to set it, a server thread runs exactly while `tServer` can join it.
-/

namespace PxAccounts

namespace RPCServer

open Run

variable {s t : RPCServer} {i : ℕ}

/-- `tServer` is neither assigned nor destroyed while joinable, and no thread runs after `stop` has
returned. -/
structure Safe (s : RPCServer) : Prop where
  alive : s.owner ≠ .terminated
  stopped : s.stopped = true → ∀ t ∈ s.threads, t = .ended

/-- The thread has yet to set `isRunning`. -/
def Thread.Pending (t : Thread) : Prop := t = .settingUp ∨ t = .ready

instance (t : Thread) : Decidable t.Pending := inferInstanceAs (Decidable (_ ∨ _))

/-- The owner is about to read `isRunning`. -/
def Owner.Reads : Owner → Prop
  | .starting | .stopping _ => True
  | _ => False

instance (owner : Owner) : Decidable owner.Reads :=
  match owner with
  | .starting | .stopping _ => .isTrue trivial
  | .idle | .assigning | .clearing _ | .joining _ | .destroying | .destroyed | .terminated | .threw =>
    .isFalse id

/-- If the step is a read of `isRunning` by the owner, every started thread has set it. -/
def Awaits (s : RPCServer) (act : Act) : Prop :=
  act = .owner → s.owner.Reads → ∀ t ∈ s.threads, ¬t.Pending

instance (s : RPCServer) (act : Act) : Decidable (s.Awaits act) :=
  inferInstanceAs (Decidable (act = .owner → s.owner.Reads → ∀ t ∈ s.threads, ¬t.Pending))

/-- The steps of the server. -/
def Steps (s : RPCServer) (act : Act) (t : RPCServer) : Prop := s.step act = some t

/-- The steps at which the owner awaits the threads. -/
def AwaitingSteps (s : RPCServer) (act : Act) (t : RPCServer) : Prop :=
  s.Steps act t ∧ s.Awaits act

/-! ## Invariant -/

/-- The thread that `tServer` can join. -/
def joinable (s : RPCServer) : Option Thread := s.tServer.bind fun i => s.threads[i]?

/-- Where the owner and the flag can be while the joinable thread stands at `t`. -/
def Fits (owner : Owner) (isRunning : Bool) : Option Thread → Prop
  | none => isRunning = false ∧ owner ≠ .terminated ∧ owner ≠ .threw ∧
      (∀ after, owner ≠ .clearing after) ∧ ∀ after, owner ≠ .joining after
  | some .settingUp | some .ready => isRunning = false ∧ (owner = .idle ∨ owner.Reads)
  | some .checking | some .polling =>
      isRunning = true ∧ (owner = .idle ∨ owner.Reads ∨ ∃ after, owner = .clearing after) ∨
        isRunning = false ∧ ∃ after, owner = .joining after
  | some .leaving | some .ended => isRunning = false ∧ ∃ after, owner = .joining after

/-- A thread that has not ended is the one that `tServer` can join. -/
structure Inv (s : RPCServer) : Prop where
  held : ∀ i t, s.threads[i]? = some t → t ≠ .ended → s.tServer = some i
  valid : ∀ i, s.tServer = some i → ∃ t, s.threads[i]? = some t
  fits : Fits s.owner s.isRunning s.joinable
  stopped : s.stopped = true → s.tServer = none

theorem Inv.safe (h : s.Inv) : s.Safe where
  alive hterm := by
    have hfits := h.fits
    rw [hterm] at hfits
    unfold Fits at hfits
    split at hfits <;> simp [Owner.Reads] at hfits
  stopped hs t ht := by
    by_contra hne
    obtain ⟨i, hi⟩ := List.getElem?_of_mem ht
    have hheld := h.held i t hi hne
    rw [h.stopped hs] at hheld
    exact absurd hheld (by simp)

theorem joinable_eq_none (h : s.Inv) (hnone : s.joinable = none) : s.tServer = none := by
  cases htServer : s.tServer with
  | none => rfl
  | some i =>
    obtain ⟨t, ht⟩ := h.valid i htServer
    rw [joinable, htServer, Option.bind_some, ht] at hnone
    exact absurd hnone (by simp)

/-- With nothing to join, every thread has ended. -/
theorem ended_of_tServer_eq_none (h : s.Inv) (hnone : s.tServer = none) {t : Thread}
    (ht : s.threads[i]? = some t) : t = .ended := by
  by_contra hne
  rw [h.held i t ht hne] at hnone
  exact absurd hnone (by simp)

/-! ## Steps of the threads -/

theorem Inv.fits_running (h : s.Inv) {t : Thread} (ht : s.threads[i]? = some t) (hne : t ≠ .ended) :
    Fits s.owner s.isRunning (some t) := by
  have hfits := h.fits
  rwa [joinable, h.held i t ht hne, Option.bind_some, ht] at hfits

theorem Inv.setThread (h : s.Inv) {t t' : Thread} (ht : s.threads[i]? = some t) (hne : t ≠ .ended)
    {b : Bool} (hfits : Fits s.owner b (some t')) :
    ({ s with isRunning := b }.setThread i t').Inv := by
  have htServer := h.held i t ht hne
  have hlt := (List.getElem?_eq_some_iff.1 ht).1
  have hself : (s.threads.set i t')[i]? = some t' := by simp [hlt]
  refine ⟨fun j u hu hended => ?_, fun j hj => ?_, ?_, fun hs => h.stopped hs⟩
  · change (s.threads.set i t')[j]? = some u at hu
    by_cases hij : i = j
    · rw [← hij]
      exact htServer
    · rw [List.getElem?_set_ne hij] at hu
      exact h.held j u hu hended
  · cases htServer.symm.trans hj
    exact ⟨t', hself⟩
  · have hjoinable : ({ s with isRunning := b }.setThread i t').joinable = some t' := by
      change s.tServer.bind (fun i' => (s.threads.set i t')[i']?) = some t'
      rw [htServer, Option.bind_some, hself]
    rw [hjoinable]
    exact hfits

theorem Inv.threadStep (h : s.Inv) (hstep : s.threadStep i = some t) : t.Inv := by
  unfold RPCServer.threadStep at hstep
  split at hstep
  · next hi =>
    cases hstep
    have hfits := h.fits_running hi (by simp)
    exact h.setThread hi (by simp) hfits
  · next hi =>
    cases hstep
    have hfits := h.fits_running hi (by simp)
    exact h.setThread hi (by simp) (.inl ⟨rfl, hfits.2.imp_right .inl⟩)
  · next hi =>
    cases hstep
    have hfits := h.fits_running hi (by simp)
    refine h.setThread hi (by simp) ?_
    split
    · exact hfits
    · next hrun => exact hfits.resolve_left fun hfits => hrun hfits.1
  · next hi =>
    cases hstep
    have hfits := h.fits_running hi (by simp)
    exact h.setThread hi (by simp) hfits
  · next hi =>
    cases hstep
    have hfits := h.fits_running hi (by simp)
    exact h.setThread hi (by simp) hfits
  · exact absurd hstep (by simp)
  · exact absurd hstep (by simp)

/-! ## Steps of the owner -/

/-- The owner goes on, and the flag with it; the threads stay as they are. -/
theorem Inv.setOwner (h : s.Inv) {o : Owner} {b : Bool} (hfits : Fits o b s.joinable) :
    ({ s with owner := o, isRunning := b } : RPCServer).Inv :=
  ⟨h.held, h.valid, hfits, h.stopped⟩

/-- With nothing to join, the owner may be anywhere but in `stop` after its test. -/
theorem Inv.setOwner_of_none (h : s.Inv) (hnone : s.tServer = none) {o : Owner} {b : Bool}
    (hrun : s.isRunning = false)
    (ho : Fits o false none) : ({ s with owner := o, stopped := b } : RPCServer).Inv := by
  refine ⟨h.held, h.valid, ?_, fun _ => hnone⟩
  change Fits o s.isRunning s.joinable
  rw [joinable, hnone, hrun]
  exact ho

theorem Inv.stopReturns (h : s.Inv) (hnone : s.tServer = none) (hrun : s.isRunning = false)
    (after : After) : (s.stopReturns after).Inv := by
  refine h.setOwner_of_none hnone hrun ?_
  cases after <;> simp [Fits]

/-- When no thread is about to set the flag, it is set exactly while a thread can be joined. -/
theorem Inv.awaited (h : s.Inv) (hreads : s.owner.Reads) (hw : ∀ t ∈ s.threads, ¬t.Pending) :
    s.isRunning = true ∧ (∀ o : Owner, (o = .idle ∨ ∃ after, o = .clearing after) →
        Fits o true s.joinable) ∨
      s.isRunning = false ∧ s.tServer = none := by
  have hfits := h.fits
  cases htServer : s.tServer with
  | none =>
    rw [joinable, htServer] at hfits
    exact .inr ⟨hfits.1, rfl⟩
  | some i =>
    obtain ⟨t, ht⟩ := h.valid i htServer
    have hjoinable : s.joinable = some t := by rw [joinable, htServer, Option.bind_some, ht]
    have hpending := hw t (List.mem_of_getElem? ht)
    rw [hjoinable] at hfits ⊢
    -- The owner is not waiting for the thread to end, for it is about to read the flag.
    have hjoining : ¬∃ after, s.owner = .joining after := by
      rintro ⟨after, hafter⟩
      rw [hafter] at hreads
      exact hreads
    cases t with
    | settingUp => exact absurd (.inl rfl) hpending
    | ready => exact absurd (.inr rfl) hpending
    | checking =>
      exact .inl ⟨(hfits.resolve_right fun h => hjoining h.2).1,
        fun o ho => .inl ⟨rfl, ho.imp_right .inr⟩⟩
    | polling =>
      exact .inl ⟨(hfits.resolve_right fun h => hjoining h.2).1,
        fun o ho => .inl ⟨rfl, ho.imp_right .inr⟩⟩
    | leaving => exact absurd hfits.2 hjoining
    | ended => exact absurd hfits.2 hjoining

/-- After reading that the flag is not set, and before the destructor is through, there is nothing
to join. -/
theorem Inv.nothing_to_join (h : s.Inv) (howner : s.owner = .assigning ∨ s.owner = .destroying) :
    s.tServer = none ∧ s.isRunning = false := by
  have hfits := h.fits
  cases hjoin : s.joinable with
  | none =>
    rw [hjoin] at hfits
    exact ⟨joinable_eq_none h hjoin, hfits.1⟩
  | some t =>
    rw [hjoin] at hfits
    obtain howner | howner := howner <;> rw [howner] at hfits <;> cases t <;>
      simp [Fits, Owner.Reads] at hfits

theorem Inv.call (h : s.Inv) (hidle : s.owner = .idle) (operation : Operation) :
    (s.call operation).Inv := by
  have hfits := h.fits
  rw [hidle] at hfits
  have hcall : ∀ o : Owner, o.Reads → Fits o s.isRunning s.joinable := by
    intro o ho
    cases hjoin : s.joinable with
    | none =>
      rw [hjoin] at hfits
      cases o <;> simp_all [Fits, Owner.Reads]
    | some t =>
      rw [hjoin] at hfits
      cases t <;> simp_all [Fits, Owner.Reads]
  cases operation with
  | start => exact h.setOwner (hcall .starting trivial)
  | stop => exact h.setOwner (hcall (.stopping .idle) trivial)
  | restart => exact h.setOwner (hcall (.stopping .start) trivial)
  | destroy => exact h.setOwner (hcall (.stopping .destroy) trivial)

theorem Inv.assign (h : s.Inv) (howner : s.owner = .assigning) : s.assign.Inv := by
  obtain ⟨hnone, hrun⟩ := h.nothing_to_join (.inl howner)
  have hassign : s.assign = { s with
      threads := s.threads ++ [Thread.settingUp], tServer := some s.threads.length,
      owner := .idle, stopped := false } := by
    rw [RPCServer.assign, if_neg (by simp [hnone])]
  rw [hassign]
  refine ⟨fun j u hu hended => ?_, fun j hj => ?_, ?_, fun hs => absurd hs (by simp)⟩
  · change (s.threads ++ [Thread.settingUp])[j]? = some u at hu
    rw [List.getElem?_append] at hu
    split at hu
    · exact absurd (ended_of_tServer_eq_none h hnone hu) hended
    · next hlt =>
      have hj := (List.getElem?_eq_some_iff.1 hu).1
      rw [List.length_singleton] at hj
      show some s.threads.length = some j
      rw [show j = s.threads.length by omega]
  · cases hj
    exact ⟨.settingUp, List.getElem?_concat_length⟩
  · change Fits .idle s.isRunning ((s.threads ++ [Thread.settingUp])[s.threads.length]?)
    rw [List.getElem?_concat_length]
    exact ⟨hrun, .inl rfl⟩

theorem Inv.join (h : s.Inv) {after : After} (howner : s.owner = .joining after)
    (hstep : s.join after = some t) : t.Inv := by
  have hfits := h.fits
  rw [howner] at hfits
  unfold RPCServer.join at hstep
  split at hstep
  · next hnone =>
    rw [joinable, hnone] at hfits
    exact absurd rfl (hfits.2.2.2.2 after)
  · next i htServer =>
    split at hstep
    · next hended =>
      cases hstep
      rw [joinable, htServer, Option.bind_some, hended] at hfits
      -- The thread that has ended was the only one left.
      have hinv : ({ s with tServer := none, owner := .idle } : RPCServer).Inv := by
        refine ⟨fun j u hu hne => ?_, fun j hj => absurd hj (by simp), ?_, fun _ => rfl⟩
        · cases htServer.symm.trans (h.held j u hu hne)
          exact absurd (Option.some.inj (hu.symm.trans hended)) hne
        · exact ⟨hfits.1, by simp⟩
      exact hinv.stopReturns rfl hfits.1 after
    · exact absurd hstep (by simp)

theorem Inv.ownerStep (h : s.Inv) (hw : s.Awaits .owner) (hstep : s.ownerStep = some t) :
    t.Inv := by
  unfold RPCServer.ownerStep at hstep
  split at hstep
  · next howner =>
    cases hstep
    have hreads : s.owner.Reads := by rw [howner]; trivial
    obtain ⟨hrun, hfits⟩ | ⟨hrun, hnone⟩ := h.awaited hreads (hw rfl hreads)
    · rw [if_pos hrun]
      refine h.setOwner ?_
      rw [hrun]
      exact hfits .idle (.inl rfl)
    · rw [if_neg (by simp [hrun])]
      exact h.setOwner_of_none hnone hrun (by simp [Fits])
  · next howner =>
    cases hstep
    exact h.assign howner
  · next after howner =>
    cases hstep
    have hreads : s.owner.Reads := by rw [howner]; trivial
    obtain ⟨hrun, hfits⟩ | ⟨hrun, hnone⟩ := h.awaited hreads (hw rfl hreads)
    · rw [if_pos hrun]
      refine h.setOwner ?_
      rw [hrun]
      exact hfits (.clearing after) (.inr ⟨after, rfl⟩)
    · rw [if_neg (by simp [hrun])]
      exact h.stopReturns hnone hrun after
  · next after howner =>
    cases hstep
    have hfits := h.fits
    rw [howner] at hfits
    refine h.setOwner ?_
    cases hjoin : s.joinable with
    | none =>
      rw [hjoin] at hfits
      exact absurd rfl (hfits.2.2.2.1 after)
    | some t =>
      rw [hjoin] at hfits
      cases t <;> simp_all [Fits, Owner.Reads]
  · next after howner => exact h.join howner hstep
  · next howner =>
    cases hstep
    obtain ⟨hnone, hrun⟩ := h.nothing_to_join (.inr howner)
    rw [if_neg (by simp [hnone])]
    exact h.setOwner_of_none hnone hrun (by simp [Fits])
  all_goals exact absurd hstep (by simp)

/-! ## Runs -/

theorem Inv.init : ({} : RPCServer).Inv where
  held i t ht := absurd ht (by simp)
  valid i hi := absurd hi (by simp)
  fits := by simp [joinable, Fits]
  stopped _ := rfl

theorem Inv.step (h : s.Inv) {act : Act} (hstep : AwaitingSteps s act t) : t.Inv := by
  obtain ⟨hstep, hw⟩ := hstep
  unfold Steps RPCServer.step at hstep
  split at hstep
  · exact absurd hstep (by simp)
  · cases act with
    | call operation =>
      dsimp only at hstep
      split at hstep
      · next hidle =>
        cases hstep
        exact h.call hidle operation
      · exact absurd hstep (by simp)
    | owner => exact h.ownerStep hw hstep
    | thread i => exact h.threadStep hstep

theorem inv_of_runs {acts : List Act} (h : Runs AwaitingSteps {} acts s) : s.Inv :=
  h.invariant (fun _ _ _ hinv hstep => hinv.step hstep) Inv.init

/-- The owner reads the flag before the thread it has started sets it: `stop` leaves the thread
running, and `start` goes on to assign `tServer`. -/
theorem Inv.hasty (h : s.Inv) {act : Act} (hstep : s.Steps act t) (hhasty : ¬s.Awaits act) :
    ¬t.Safe ∨ ∃ u, t.Steps .owner u ∧ ¬u.Safe := by
  unfold Awaits at hhasty
  push Not at hhasty
  obtain ⟨rfl, hreads, t₀, hmem, hpending⟩ := hhasty
  obtain ⟨i, hi⟩ := List.getElem?_of_mem hmem
  have hne : t₀ ≠ .ended := by
    rintro rfl
    simp [Thread.Pending] at hpending
  have hrun : s.isRunning = false := by
    have hfits := h.fits_running hi hne
    obtain rfl | rfl := hpending
    · exact hfits.1
    · exact hfits.1
  unfold Steps RPCServer.step at hstep
  rw [if_neg h.safe.alive] at hstep
  cases howner : s.owner with
  | starting =>
    right
    simp only [RPCServer.ownerStep, howner, hrun] at hstep
    cases hstep
    refine ⟨_, rfl, fun hsafe => hsafe.alive ?_⟩
    simp [RPCServer.assign, h.held i t₀ hi hne]
  | stopping after =>
    left
    simp only [RPCServer.ownerStep, howner, hrun] at hstep
    cases hstep
    exact fun hsafe => hne (hsafe.stopped rfl t₀ hmem)
  | _ =>
    rw [howner] at hreads
    exact hreads.elim

/-- In every run in which the owner reads the flag only when the thread it has started has set it,
the server is safe; the first read that comes too early makes it unsafe, at once or with the owner's
next step. -/
theorem life_cycle_safe {acts : List Act} (h : Runs AwaitingSteps {} acts s) :
    s.Safe ∧ ∀ act t, s.Steps act t → ¬s.Awaits act →
      ¬t.Safe ∨ ∃ u, t.Steps .owner u ∧ ¬u.Safe :=
  ⟨(inv_of_runs h).safe, fun _ _ hstep hhasty => (inv_of_runs h).hasty hstep hhasty⟩

/-- The step, if the owner awaits the threads. -/
def awaitingStep (s : RPCServer) (act : Act) : Option RPCServer :=
  if s.Awaits act then s.step act else none

theorem awaitingSteps_of_eq {act : Act} (h : s.awaitingStep act = some t) :
    s.AwaitingSteps act t := by
  unfold awaitingStep at h
  split at h
  · next hw => exact ⟨h, hw⟩
  · exact absurd h (by simp)

/-- A server that is started, stopped when its thread has set the flag, and destroyed. -/
def patientLife : List Act :=
  [.call .start, .owner, .owner, .thread 0, .thread 0, .call .stop, .owner, .owner, .thread 0,
    .thread 0, .owner, .call .destroy, .owner, .owner]

/-- What becomes of the server in this life. -/
def patientlyDestroyed : RPCServer :=
  { threads := [.ended], owner := .destroyed, stopped := true }

theorem life_cycle_safe_patient : Runs AwaitingSteps {} patientLife patientlyDestroyed ∧
    (patientlyDestroyed.Safe ∧ ∀ act t, patientlyDestroyed.Steps act t →
      ¬patientlyDestroyed.Awaits act → ¬t.Safe ∨ ∃ u, t.Steps .owner u ∧ ¬u.Safe) :=
  have hruns : Runs AwaitingSteps {} patientLife patientlyDestroyed :=
    .of_foldlM (fun _ _ _ => awaitingSteps_of_eq) (by decide)
  ⟨hruns, life_cycle_safe hruns⟩

/-- A second `start`, before the thread of the first one has set the flag, assigns `tServer` while
it is joinable. -/
theorem started_twice : ¬∀ (acts : List Act) (s : RPCServer), Runs Steps {} acts s → s.Safe := by
  intro h
  have hruns : Runs Steps {} [.call .start, .owner, .owner, .call .start, .owner, .owner]
      { tServer := some 0, threads := [.settingUp, .settingUp], owner := .terminated } :=
    .of_foldlM (f := step) (fun _ _ _ => id) (by decide)
  exact (h _ _ hruns).alive rfl

end RPCServer

end PxAccounts
