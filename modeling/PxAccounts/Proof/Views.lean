import PxAccounts.Proof.Listing

/-!
# The views of a directory

A file of an account is found under any name that can be read as its id, but opened under one name
only.  The views of a directory agree when no other spelling gets in the way.
-/

namespace PxAccounts

open AccountParser

variable {Text : Type} {env : Env Text} {w : World Text} {p : AccountParser} {actFile : String}
  {id : Uuid} {acc : AccountObject}

/-- The file is taken for the file of an account. -/
def Recognised (env : Env Text) (w : World Text) (p : AccountParser) (actFile : String) : Prop :=
  actFile ∈ p.accountFiles env w ∧ ∃ id, NamesId env actFile id

/-- The content of the file is that of the account. -/
def Parses (env : Env Text) (w : World Text) (p : AccountParser) (actFile : String)
    (acc : AccountObject) : Prop :=
  ∃ text, w.fileAt { dir := p.path, name := actFile } = some text ∧
    readText env text {} = .ok acc

/-- The file that the listing opens for a file name, if it reads an account from it. -/
def openedFor (env : Env Text) (w : World Text) (p : AccountParser) (actFile : String) :
    Option String :=
  match env.uuidFromString (fileStem actFile) with
  | (true, accountId) =>
    (p.read env w accountId {}).toOption.map fun _ => accountFile env accountId
  | (false, _) => none

/-- The files that the listing reads an account from. -/
def listedFrom (env : Env Text) (w : World Text) (p : AccountParser) : List String :=
  (p.accountFiles env w).filterMap (openedFor env w p)

/-- The directory has the accounts whose file can be opened, and the listing reads each readable
account file once. -/
structure ViewsAgree (env : Env Text) (w : World Text) (p : AccountParser) : Prop where
  has : ∀ id, id ≠ Uuid.null →
    (p.hasAccount env w id = true ↔ (w.fileAt (p.accountPath env id)).isSome)
  accounts : List.Forall₂ (Parses env w p) (listedFrom env w p) (p.list env w)
  once : (listedFrom env w p).Nodup
  all : ∀ actFile, actFile ∈ listedFrom env w p ↔
    Recognised env w p actFile ∧ ∃ acc, Parses env w p actFile acc

/-- A name that stands for an id and is not the one its file is opened under is that of a file that
cannot be read; the file that is opened cannot be read either, but is there. -/
def SpelledOut (env : Env Text) (w : World Text) (p : AccountParser) : Prop :=
  ∀ actFile ∈ p.accountFiles env w, ∀ id, NamesId env actFile id → actFile ≠ accountFile env id →
    (¬∃ acc, Parses env w p actFile acc) ∧ (¬∃ acc, Parses env w p (accountFile env id) acc) ∧
      (id ≠ Uuid.null → (w.fileAt (p.accountPath env id)).isSome)

/-! ## Names and contents -/

theorem namesId_accountFile : NamesId env (accountFile env id) id := by
  rw [NamesId, fileStem_accountFile, uuidFromString_uuidAsString]

theorem NamesId.unique {id' : Uuid} (h : NamesId env actFile id) (h' : NamesId env actFile id') :
    id = id' :=
  congrArg Prod.snd (h.symm.trans h')

theorem parses_accountFile : Parses env w p (accountFile env id) acc ↔
    p.read env w id {} = .ok acc :=
  read_ok_iff.symm

theorem Parses.mem_accountFiles (h : Parses env w p (accountFile env id) acc) :
    accountFile env id ∈ p.accountFiles env w := by
  obtain ⟨text, htext, -⟩ := h
  exact AccountParser.mem_accountFiles.2 (Option.isSome_of_eq_some htext)

theorem hasAccount_iff_namesId : p.hasAccount env w id = true ↔
    ∃ actFile ∈ p.accountFiles env w, NamesId env actFile id := by
  rw [hasAccount, List.any_eq_true]
  refine exists_congr fun actFile => and_congr_right fun _ => ?_
  unfold NamesId
  rcases env.uuidFromString (fileStem actFile) with ⟨_ | _, curId⟩
  · simp only [Bool.false_eq_true, Prod.mk.injEq, false_and]
  · rw [beq_iff_eq, Prod.mk.injEq]
    exact ⟨fun h => ⟨rfl, h.symm⟩, fun h => h.2.symm⟩

theorem openedFor_eq_some {name : String} : openedFor env w p actFile = some name ↔
    ∃ id, NamesId env actFile id ∧ name = accountFile env id ∧ ∃ acc, Parses env w p name acc := by
  unfold openedFor NamesId
  rcases env.uuidFromString (fileStem actFile) with ⟨_ | _, id⟩
  · simp
  · constructor
    · intro h
      obtain ⟨acc, hread, rfl⟩ := Option.map_eq_some_iff.1 h
      refine ⟨id, rfl, rfl, acc, parses_accountFile.2 ?_⟩
      cases hr : p.read env w id {} with
      | error e => rw [hr] at hread; cases hread
      | ok acc' => rw [hr] at hread; cases hread; rfl
    · rintro ⟨_, hname, rfl, acc, hparses⟩
      cases hname
      have hread := parses_accountFile.1 hparses
      dsimp only
      rw [hread]
      rfl

theorem mem_listedFrom {name : String} : name ∈ listedFrom env w p ↔
    ∃ actFile ∈ p.accountFiles env w, ∃ id, NamesId env actFile id ∧
      name = accountFile env id ∧ ∃ acc, Parses env w p name acc := by
  rw [listedFrom, List.mem_filterMap]
  simp only [openedFor_eq_some]

/-- The accounts that are listed are those of the files they are read from. -/
theorem forall₂_listedFrom : List.Forall₂ (Parses env w p) (listedFrom env w p) (p.list env w) := by
  change List.Forall₂ _ _ ((p.accountFiles env w).filterMap (listedAt env w p))
  rw [listedFrom]
  induction p.accountFiles env w with
  | nil => exact .nil
  | cons actFile files ih =>
    cases hacc : listedAt env w p actFile with
    | none =>
      have hopened : openedFor env w p actFile = none := by
        refine Option.eq_none_iff_forall_ne_some.2 fun name hopened => ?_
        obtain ⟨id, hname, rfl, acc, hparses⟩ := openedFor_eq_some.1 hopened
        cases hacc.symm.trans (listedAt_eq_some.2 ⟨id, hname, parses_accountFile.1 hparses⟩)
      rw [List.filterMap_cons_none hacc, List.filterMap_cons_none hopened]
      exact ih
    | some acc =>
      obtain ⟨id, hname, hread⟩ := listedAt_eq_some.1 hacc
      have hparses : Parses env w p (accountFile env id) acc := parses_accountFile.2 hread
      have hopened := openedFor_eq_some.2 ⟨id, hname, rfl, acc, hparses⟩
      rw [List.filterMap_cons_some hacc, List.filterMap_cons_some hopened]
      exact .cons hparses ih

/-- A file from which an account is listed is listed for itself. -/
theorem recognised_of_mem_listedFrom {name : String} (h : name ∈ listedFrom env w p) :
    Recognised env w p name ∧ ∃ acc, Parses env w p name acc := by
  obtain ⟨_, -, id, -, rfl, acc, hparses⟩ := mem_listedFrom.1 h
  exact ⟨⟨hparses.mem_accountFiles, id, namesId_accountFile⟩, acc, hparses⟩

/-- Two names of the listing stand for different accounts that can be read. -/
theorem nodup_listedFrom_iff : (listedFrom env w p).Nodup ↔
    ∀ f ∈ p.accountFiles env w, ∀ f' ∈ p.accountFiles env w, f ≠ f' → ∀ id, NamesId env f id →
      NamesId env f' id → ¬∃ acc, Parses env w p (accountFile env id) acc := by
  rw [listedFrom, List.Nodup, List.pairwise_filterMap]
  constructor
  · intro h f hf f' hf' hne id hname hname' hparses
    have : Std.Symm fun f f' => ∀ b, openedFor env w p f = some b → ∀ b',
        openedFor env w p f' = some b' → b ≠ b' :=
      ⟨fun _ _ h b hb b' hb' heq => h b' hb' b hb heq.symm⟩
    exact h.forall hf hf' hne _ (openedFor_eq_some.2 ⟨id, hname, rfl, hparses⟩) _
      (openedFor_eq_some.2 ⟨id, hname', rfl, hparses⟩) rfl
  · intro h
    refine (nodup_accountFiles p).imp_of_mem fun {f f'} hf hf' hne name hname name' hname' heq => ?_
    obtain ⟨id, hid, rfl, hparses⟩ := openedFor_eq_some.1 hname
    obtain ⟨id', hid', hfile, -⟩ := openedFor_eq_some.1 hname'
    rw [← heq] at hfile
    rw [← accountFile_inj hfile] at hid'
    exact h f hf f' hf' hne id hid hid' hparses

/-- The views of a directory agree if and only if no second spelling of a name interferes. -/
theorem views_agree_iff (env : Env Text) (w : World Text) (p : AccountParser) :
    ViewsAgree env w p ↔ SpelledOut env w p := by
  constructor
  · intro h actFile hmem id hname hne
    refine ⟨fun hparses => ?_, ?_,
      fun hid => (h.has id hid).1 (hasAccount_iff_namesId.2 ⟨actFile, hmem, hname⟩)⟩
    · obtain ⟨_, _, id', -, hfile, -⟩ :=
        mem_listedFrom.1 ((h.all actFile).2 ⟨⟨hmem, id, hname⟩, hparses⟩)
      rw [hfile] at hname
      exact hne (hfile.trans (by rw [hname.unique namesId_accountFile]))
    · rintro ⟨acc, hparses⟩
      exact nodup_listedFrom_iff.1 h.once actFile hmem (accountFile env id)
        hparses.mem_accountFiles hne id hname namesId_accountFile ⟨acc, hparses⟩
  · intro h
    refine ⟨fun id hid => ⟨fun hhas => ?_, hasAccount_of_isSome⟩, forall₂_listedFrom, ?_,
      fun actFile => ⟨recognised_of_mem_listedFrom, ?_⟩⟩
    · obtain ⟨actFile, hmem, hname⟩ := hasAccount_iff_namesId.1 hhas
      by_cases hfile : actFile = accountFile env id
      · rw [hfile] at hmem
        exact mem_accountFiles.1 hmem
      · exact (h actFile hmem id hname hfile).2.2 hid
    · refine nodup_listedFrom_iff.2 fun f hf f' hf' hne id hname hname' hparses => ?_
      by_cases hfile : f = accountFile env id
      · exact (h f' hf' id hname' fun hfile' =>
          hne (hfile.trans hfile'.symm)).2.1 hparses
      · exact (h f hf id hname hfile).2.1 hparses
    · rintro ⟨⟨hmem, id, hname⟩, acc, hparses⟩
      by_cases hfile : actFile = accountFile env id
      · exact mem_listedFrom.2 ⟨actFile, hmem, id, hname, hfile, acc, hparses⟩
      · exact absurd ⟨acc, hparses⟩ (h actFile hmem id hname hfile).1

/-- A directory with a file whose name has the extension twice. -/
def twiceNamedWorld : World YamlText where
  files _ := (∅ : StrMap YamlText).insert
    (AccountParser.accountFile referenceEnv 7 ++ ".yaml") (.whole .null)

/-- An account is found under a name that is never opened. -/
theorem found_but_not_opened : ¬∀ (env : Env YamlText) (w : World YamlText) (p : AccountParser),
    ViewsAgree env w p := by
  intro h
  have hhas := (h referenceEnv twiceNamedWorld { path := "/accounts", readonly := false }).has 7
    (by decide)
  exact absurd hhas (by decide +kernel)

end PxAccounts
