import PxAccounts.Lib.Run
import PxAccounts.Proof.Listing

/-!
# Deleted accounts

A deletion removes the account file of one directory.  The account is gone, and stays so until it is
stored again, exactly when no other directory has a copy of it that can be read.
-/

namespace PxAccounts

open Effect Run AccountManager
open AccountObject (rest)

variable {Text : Type} {env : Env Text} {id : Uuid}

/-! ## Where the files come from -/

/-- What a file holds it held before, unless the file was written since. -/
def tracked : Frame (World Text) where
  rel w w' := w.calls <+: w'.calls ∧ ∀ path text, w'.fileAt path = some text →
    w.fileAt path = some text ∨ ∃ data outcome, .writeFile path data outcome ∈ w.newCalls w'
  refl w := ⟨List.prefix_refl _, fun _ _ h => .inl h⟩
  trans := by
    rintro s t u ⟨hcalls, h⟩ ⟨hcalls', h'⟩
    refine ⟨hcalls.trans hcalls', fun path text htext => ?_⟩
    rcases h' path text htext with hold | ⟨data, outcome, hnew⟩
    · rcases h path text hold with hold | ⟨data, outcome, hnew⟩
      · exact .inl hold
      · exact .inr ⟨data, outcome, World.newCalls_mono_right hcalls' hnew⟩
    · exact .inr ⟨data, outcome, World.newCalls_mono_left hcalls hnew⟩

theorem tracked_of_files {w w' : World Text} (hcalls : w.calls <+: w'.calls)
    (hfiles : w'.files = w.files) : tracked.rel w w' :=
  ⟨hcalls, fun path _ h => .inl (by rwa [World.fileAt_congr hfiles] at h)⟩

theorem permissive_tracked (env : Env Text) : Permissive env tracked where
  record _ _ _ := tracked_of_files (List.prefix_append _ _) rfl
  log _ _ := tracked_of_files (List.prefix_refl _) rfl
  setSecret _ _ := tracked_of_files (List.prefix_append _ _) rfl
  deleteSecret _ _ := tracked_of_files (List.prefix_append _ _) rfl
  write _ _ _ _ := tracked_of_files (List.prefix_append _ _) rfl
  remove _ _ _ := tracked_of_files (List.prefix_append _ _) rfl
  errors _ _ := tracked_of_files (List.prefix_refl _) rfl
  statDict _ _ := tracked_of_files (List.prefix_refl _) rfl
  emit _ _ _ _ := tracked_of_files (List.prefix_append _ _) rfl
  writeFile parser _ _ id data w := by
    refine ⟨List.prefix_append _ _, fun path text h => ?_⟩
    by_cases hpath : path = parser.accountPath env id
    · subst hpath
      exact .inr ⟨data, _, World.mem_newCalls_of_prefix (List.prefix_refl _)⟩
    · have hsame : (w.written env _ data).fileAt path = w.fileAt path :=
        World.fileAt_written_of_ne w data hpath
      exact .inl (by rwa [← hsame])
  erase parser _ _ id w _ := by
    refine ⟨List.prefix_append _ _, fun path text h => .inl ?_⟩
    obtain ⟨-, hsame⟩ := fileAt_of_erased
      (show ((w.erased (parser.accountPath env id)).fileAt path).isSome by
        rw [show (w.erased (parser.accountPath env id)).fileAt path = some text from h]; rfl)
    rw [← hsame]
    exact h
  keep _ _ := tracked_of_files (List.prefix_append _ _) rfl

/-! ## Accounts that are gone -/

/-- The account cannot be read, and no account with the id is listed. -/
def Gone (env : Env Text) (w : World Text) (id : Uuid) : Prop :=
  (∃ w', (readAccount env id).run w = .ok none w') ∧
    ∀ acc ∈ listAccounts env w [] [], acc.id ≠ id

/-- An account with the id is stored again: a file under its name is written, or one that then reads
as an account with the id. -/
def StoresAgain (env : Env Text) (id : Uuid) (w w' : World Text) : Prop :=
  ∃ path data outcome, .writeFile path data outcome ∈ w.newCalls w' ∧
    (path.name = AccountParser.accountFile env id ∨
      ∃ text acc, w'.fileAt path = some text ∧
        AccountParser.readText env text {} = .ok acc ∧ acc.id = id)

/-- One operation, however it ends, that does not store an account with the id again. -/
def Change.StepWithout (env : Env Text) (id : Uuid) (w : World Text) (change : Change)
    (w' : World Text) : Prop :=
  w' = change.after env w ∧ ¬StoresAgain env id w w'

/-- Only one directory has an account file of the id that can be read. -/
def OnlyCopy (env : Env Text) (w : World Text) (id : Uuid) : Prop :=
  ∀ p ∈ env.parsers, ∀ q ∈ env.parsers, Readable env w p id → Readable env w q id → p = q

/-- No file under the name of the id can be read, and none reads as an account with the id. -/
def Absent (env : Env Text) (id : Uuid) (w : World Text) : Prop :=
  ∀ p ∈ env.parsers, ∀ id' acc, p.read env w id' {} = .ok acc → id' ≠ id ∧ acc.id ≠ id

theorem gone_of_absent {w : World Text} (h : Absent env id w) : Gone env w id := by
  constructor
  · obtain ⟨r, w', hread⟩ := returns_readAccount env id w
    rcases readAccount_ok hread with ⟨rfl, -⟩ | ⟨p, acc, act, -, hok⟩
    · exact ⟨w', hread⟩
    · exact absurd rfl (h p (findParser_some hok.parser_eq).1 id acc hok.read_eq).1
  · intro acc hacc
    obtain ⟨p, hp, f, -, id', -, hread⟩ := mem_listAccounts.1 hacc
    exact (h p hp id' acc hread).2

theorem Absent.step {w w' : World Text} {change : Change} (h : Absent env id w)
    (hstep : change.StepWithout env id w w') : Absent env id w' := by
  obtain ⟨rfl, hno⟩ := hstep
  obtain ⟨-, htracked⟩ := Change.within_run (permissive_tracked env) change w
  intro p hp id' acc hread
  obtain ⟨text, hfile, htext⟩ := AccountParser.read_ok_iff.1 hread
  rcases htracked _ _ hfile with hold | ⟨data, outcome, hnew⟩
  · exact h p hp id' acc (AccountParser.read_ok_iff.2 ⟨text, hold, htext⟩)
  · refine ⟨fun he => hno ⟨_, data, outcome, hnew, .inl ?_⟩,
      fun he => hno ⟨_, data, outcome, hnew, .inr ⟨text, acc, hfile, htext, he⟩⟩⟩
    rw [he]
    rfl

/-- A deletion that succeeds removes one readable copy. -/
theorem files_of_deleted {w w₁ : World Text} (hinner : InnerIds env w)
    (hr : (deleteAccount env id).run w = .ok true w₁) : ∃ p ∈ env.parsers, Readable env w p id ∧
      w₁.files = (w.erased (p.accountPath env id)).files := by
  rcases delete_cases hinner hr with ⟨hb, -⟩ | ⟨-, p, act, w₂, hfind, hread, -, hrest, rfl⟩
  · cases hb
  · refine ⟨p, (findParser_some hfind).1, ⟨act, hread⟩, ?_⟩
    rw [World.files_published]
    exact congrArg Prod.fst hrest

/-- A deleted account is gone and stays gone until it is stored again, if and only if only one
directory had a copy that could be read. -/
theorem deleted_gone_iff (env : Env Text) (w w₁ : World Text) (id : Uuid)
    (hr : (deleteAccount env id).run w = .ok true w₁) (hinner : InnerIds env w) :
    (∀ changes w₂, Runs (fun s change t => Change.StepWithout env id s change t) w₁ changes w₂ →
      Gone env w₂ id) ↔ OnlyCopy env w id := by
  obtain ⟨p, hp, hcopy, hfiles⟩ := files_of_deleted hinner hr
  constructor
  · intro hgone
    obtain ⟨-, hlisted⟩ := hgone [] w₁ (.nil w₁)
    have hother : ∀ q ∈ env.parsers, Readable env w q id → q = p := by
      rintro q hq ⟨acc, hread⟩
      by_contra hne
      have hpath : q.accountPath env id ≠ p.accountPath env id := fun he =>
        hne (path_injective hq hp (AccountParser.accountPath_inj he).1)
      have hread' : q.read env w₁ id {} = .ok acc := by
        rwa [AccountParser.read_congr]
        rw [World.fileAt_congr hfiles, World.fileAt_erased_of_ne w hpath]
      exact hlisted acc (mem_listAccounts_of_read hq hread') (hinner q hq id acc hread)
    exact fun q hq q' hq' hread hread' => (hother q hq hread).trans (hother q' hq' hread').symm
  · intro honly changes w₂ hrun
    refine gone_of_absent (hrun.invariant (P := Absent env id)
      (fun s change t h hstep => h.step hstep) fun q hq id' acc hread => ?_)
    obtain ⟨text, hfile, htext⟩ := AccountParser.read_ok_iff.1 hread
    rw [World.fileAt_congr hfiles] at hfile
    obtain ⟨hne, hsame⟩ := fileAt_of_erased (show ((w.erased _).fileAt _).isSome by
      rw [hfile]; rfl)
    rw [hsame] at hfile
    have hread₀ := AccountParser.read_ok_iff.2 ⟨text, hfile, htext⟩
    have hid : id' ≠ id := by
      rintro rfl
      rw [honly q hq p hp ⟨acc, hread₀⟩ hcopy] at hne
      exact hne rfl
    exact ⟨hid, by rwa [hinner q hq id' acc hread₀]⟩

/-- The reference directory with one account. -/
def ownWorld : World YamlText := placed { files := fun _ => ∅ } "/accounts" { id := 7, title := "Mine" }

theorem onlyCopy_ownWorld : OnlyCopy sharedEnv ownWorld 7 := by
  have hpath : ∀ p : AccountParser, Readable sharedEnv ownWorld p 7 → p.path = "/accounts" := by
    rintro p ⟨acc, hread⟩
    have hsome := isSome_of_read hread
    by_contra hne
    rw [ownWorld, placed, World.fileAt_written_of_ne _ _ fun he =>
      hne (congrArg AccountPath.dir he)] at hsome
    cases hsome
  exact fun p hp q hq hread hread' =>
    path_injective hp hq ((hpath p hread).trans (hpath q hread').symm)

/-- The only copy of an account is deleted for good. -/
theorem deleted_gone_own : ∃ w₁, (deleteAccount sharedEnv 7).run ownWorld = .ok true w₁ ∧
    Gone sharedEnv w₁ 7 := by
  have hrun : (deleteAccount sharedEnv 7).run ownWorld = .ok true _ :=
    eq_ok_of_result? (by decide +kernel)
  have hinner : InnerIds sharedEnv ownWorld := (tidy_of_empty fun _ => rfl).inner.placed _ (by simp)
  exact ⟨_, hrun, (deleted_gone_iff sharedEnv ownWorld _ 7 hrun hinner).2 onlyCopy_ownWorld [] _
    (.nil _)⟩

/-- After a deletion the copy in the read-only directory is still listed. -/
theorem deleted_account_listed : ¬∀ (env : Env YamlText) (w w₁ : World YamlText) (id : Uuid),
    InnerIds env w → (deleteAccount env id).run w = .ok true w₁ → Gone env w₁ id := by
  intro h
  have hrun : (deleteAccount sharedEnv 7).run copiedWorld = .ok true _ :=
    eq_ok_of_result? (by decide +kernel)
  obtain ⟨-, hlisted⟩ := h sharedEnv copiedWorld _ 7 innerIds_copiedWorld hrun
  exact absurd hlisted (by decide +kernel)

end PxAccounts
