import PxAccounts.Proof.Changes

/-!
# Accounts in several directories

The parser that an account is read with is found among all directories, the one that writes it among
the writable ones, which come first.  So both are the same directory, or the account is only in
read-only directories and stays as it is.
-/

namespace PxAccounts

open Effect AccountManager
open AccountObject (rest)

variable {Text : Type} {env : Env Text}

/-- The account was read from one file before the call and is read from it after the call, which has
put the document of the new account there and changed no other file. -/
def RewritesWhatIsRead (env : Env Text) (id : Uuid) (act' : AccountObject) (w w' : World Text) :
    Prop :=
  ∃ p, (∃ acc old w₁, ReadOk env w id p acc old w₁) ∧
    (∀ path, path ≠ p.accountPath env id → w'.fileAt path = w.fileAt path) ∧
    w'.fileAt (p.accountPath env id) = some (documentText env act') ∧
    ∃ new w₁, ReadOk env w' id p (AccountParser.stored env act') new w₁

/-- The files, the status table, the secrets and the plugin records are the same. -/
structure Untouched (w w' : World Text) : Prop where
  files : w'.files = w.files
  statDict : w'.statDict = w.statDict
  secrets : w'.secrets = w.secrets
  records : w'.records = w.records

/-- The account is only in read-only directories. -/
def HeldReadonly (env : Env Text) (w : World Text) (id : Uuid) : Prop :=
  ∀ p ∈ env.parsers, (w.fileAt (p.accountPath env id)).isSome → p.readonly = true

instance (env : Env Text) (w : World Text) (id : Uuid) : Decidable (HeldReadonly env w id) :=
  inferInstanceAs (Decidable (∀ p ∈ env.parsers,
    (w.fileAt (p.accountPath env id)).isSome → p.readonly = true))

/-- Every account file the call wrote was written as a whole. -/
def WritesComplete (w w' : World Text) : Prop :=
  ∀ path data outcome, .writeFile path data outcome ∈ w.newCalls w' → outcome = .complete

theorem rewrites_of_modify {id : Uuid} {act act' : AccountObject} {w w' : World Text}
    (hinner : InnerIds env w) (hwrites : WritesComplete w w')
    (hr : (modifyAccount env id act).run w = .ok (true, act') w') :
    RewritesWhatIsRead env id act' w w' := by
  rcases modify_cases hinner hr with ⟨hb, -⟩ |
    ⟨-, hid, p, acc, old, w₀, w₁, w₂, sb, hok, -, hvia⟩
  · cases hb
  have hsaved := hvia.saved
  have hcomplete := hwrites _ _ _ (hsaved.mem_newCalls.2 ⟨rfl, rfl, rfl⟩)
  have hfile : w'.fileAt (p.accountPath env id) = some (documentText env act') := by
    rw [← hid, hsaved.file, hcomplete]
    rfl
  have hother : ∀ path, path ≠ p.accountPath env id → w'.fileAt path = w.fileAt path := by
    intro path hpath
    rw [World.fileAt_congr hvia.files_eq, World.fileAt_written_of_ne _ _ (by rw [hid]; exact hpath),
      World.fileAt_congr hvia.files₁]
  have hfind : findParser env w' id false = some p := by
    rw [findParser_of_files hvia.files_eq, ← hid]
    refine findParser_written hvia.notNull hvia.routed ?_
    rw [← World.fileAt_congr hvia.files_eq, hid, hfile]
    rfl
  have hread : p.read env w' id {} = .ok (AccountParser.stored env act') := by
    rw [← hid] at hfile ⊢
    exact AccountParser.read_of_fileAt hvia.registered hfile
  obtain ⟨new, w₃, hnew⟩ := exists_readOk hfind hread
  exact ⟨p, ⟨acc, old, w₀, hok⟩, hother, hfile, new, w₃, hnew⟩

theorem Untouched.of_silent {w w₁ : World Text} (h : w.Silent w₁) (errs : StringList) :
    Untouched w (w₁.addErrors errs) := ⟨h.files, h.statDict, h.secrets, h.records⟩

theorem run_modifyAccount_of_heldReadonly {id : Uuid} {w : World Text} (hinner : InnerIds env w)
    (hheld : HeldReadonly env w id) (act : AccountObject) :
    ∃ w', (modifyAccount env id act).run w = .ok (false, act) w' ∧ Untouched w w' := by
  obtain ⟨r, w₁, hread⟩ := returns_readAccount env id w
  rcases readAccount_ok hread with ⟨rfl, -, errs, rfl⟩ | ⟨p, acc, old, rfl, hok⟩
  · exact ⟨_, run_bind_ok.2 ⟨none, _, hread, rfl⟩, rfl, rfl, rfl, rfl⟩
  · have hp := (findParser_some hok.parser_eq).1
    have holdid : old.id = id := hok.id_eq.trans (hinner p hp id acc hok.read_eq)
    have hnone : findParser env w₁ old.id true = none := by
      rw [findParser_of_files hok.silent.files, holdid]
      by_contra hsome
      obtain ⟨q, hq⟩ := Option.ne_none_iff_exists'.1 hsome
      -- A writable directory that has the account would have been read.
      have hsame : q = p :=
        Option.some.inj ((findParser_false_of_true hq).symm.trans hok.parser_eq)
      have hro := hheld p hp (isSome_of_read hok.read_eq)
      rw [← hsame, (findParser_some hq).2.1 rfl] at hro
      cases hro
    refine ⟨w₁.addErrors ["Could not find writable parser!"],
      run_bind_ok.2 ⟨some old, w₁, hread, run_bind_ok.2 ⟨w₁, w₁, rfl, ?_⟩⟩,
      Untouched.of_silent hok.silent _⟩
    simp only [hnone]
    rfl

theorem run_deleteAccount_of_heldReadonly {id : Uuid} {w : World Text}
    (hheld : HeldReadonly env w id) :
    ∃ w', (deleteAccount env id).run w = .ok false w' ∧ Untouched w w' := by
  cases hfind : findParser env w id true with
  | none =>
    refine ⟨w.addErrors ["Could not find suitable parser."], run_bind_ok.2 ⟨w, w, rfl, ?_⟩,
      Untouched.of_silent (World.Silent.refl w) _⟩
    simp only [hfind]
    rfl
  | some p =>
    obtain ⟨hp, hro, -⟩ := findParser_some hfind
    cases hread : p.read env w id {} with
    | ok acc =>
      have := hheld p hp (isSome_of_read hread)
      rw [hro rfl] at this
      cases this
    | error errs =>
      refine ⟨w.addErrors ["Could not read account before deletion."],
        run_bind_ok.2 ⟨w, w, rfl, ?_⟩, Untouched.of_silent (World.Silent.refl w) _⟩
      simp only [hfind]
      refine run_bind_ok.2 ⟨w, w, rfl, ?_⟩
      simp only [hread]
      rfl

/-- No sequence of operations changes a read-only directory; a modification that succeeds rewrites
the file that the account is read from, before and after; and an account that is only in read-only
directories can neither be modified nor deleted. -/
theorem routing_consistent (env : Env Text) :
    (∀ (w : World Text) (changes : List Change), ∀ dir ∈ env.readonlyPaths,
      (changes.foldl (Change.after env) w).files dir = w.files dir) ∧
    (∀ (w w' : World Text) id act act', InnerIds env w → WritesComplete w w' →
      (modifyAccount env id act).run w = .ok (true, act') w' →
      RewritesWhatIsRead env id act' w w') ∧
    ∀ (w : World Text) id, InnerIds env w → HeldReadonly env w id →
      (∀ act, ∃ w', (modifyAccount env id act).run w = .ok (false, act) w' ∧ Untouched w w') ∧
      ∃ w', (deleteAccount env id).run w = .ok false w' ∧ Untouched w w' :=
  ⟨fun w changes _ hdir => Change.rel_of_changes (permissive_readonly hdir) w changes,
    fun _ _ _ _ _ => rewrites_of_modify,
    fun _ _ hinner hheld => ⟨run_modifyAccount_of_heldReadonly hinner hheld,
      run_deleteAccount_of_heldReadonly hheld⟩⟩

/-- The reference service with a read-only directory beside the user directory. -/
def sharedConfig : Config YamlText :=
  { referenceConfig with readonlyPaths := ["/shared"], paths_nodup := by decide }

def sharedEnv : Env YamlText := { sharedConfig, referenceAnswers with }

theorem shared_dependable : Dependable sharedEnv := ⟨fun _ _ _ => rfl, fun _ _ => rfl⟩

/-- The directories after an account was put into the directory `dir`. -/
def placed (w : World YamlText) (dir : String) (act : AccountObject) : World YamlText :=
  w.written sharedEnv { dir, name := AccountParser.accountFile sharedEnv act.id }
    (documentText sharedEnv act)

theorem InnerIds.placed {w : World YamlText} (h : InnerIds sharedEnv w) (dir : String)
    {act : AccountObject}
    (hreg : ∀ svcName ∈ act.services, (sharedEnv.pluginNamed svcName).isSome) :
    InnerIds sharedEnv (placed w dir act) :=
  h.written (p := { path := dir, readonly := false }) shared_dependable hreg

/-- An account in the read-only directory. -/
def sharedWorld : World YamlText :=
  placed { files := fun _ => ∅ } "/shared" { id := 7, title := "Shared" }

theorem innerIds_sharedWorld : InnerIds sharedEnv sharedWorld :=
  (tidy_of_empty fun _ => rfl).inner.placed _ (by simp)

/-- The same account also in the user directory, with another title. -/
def copiedWorld : World YamlText := placed sharedWorld "/accounts" { id := 7, title := "Mine" }

theorem innerIds_copiedWorld : InnerIds sharedEnv copiedWorld := innerIds_sharedWorld.placed _ (by simp)

theorem writesComplete_of_modify (hd : Dependable env) {id : Uuid} {act act' : AccountObject}
    {w w' : World Text} (hinner : InnerIds env w)
    (hr : (modifyAccount env id act).run w = .ok (true, act') w') : WritesComplete w w' := by
  rcases modify_cases hinner hr with ⟨hb, -⟩ | ⟨-, -, p, _, _, _, w₁, _, _, -, -, hvia⟩
  · cases hb
  · intro path data outcome hcall
    obtain ⟨-, -, rfl⟩ := hvia.saved.mem_newCalls.1 hcall
    exact hd.writes _ _ _

/-- The copy in the user directory can be modified, the one in the read-only directory cannot. -/
theorem routing_consistent_shared :
    (Change.after sharedEnv copiedWorld (.delete 7)).files "/shared" =
      copiedWorld.files "/shared" ∧
    (∃ act' w', RewritesWhatIsRead sharedEnv 7 act' copiedWorld w') ∧
    ∃ w', (deleteAccount sharedEnv 7).run sharedWorld = .ok false w' ∧ Untouched sharedWorld w' := by
  obtain ⟨hreadonly, hmodify, hheld⟩ := routing_consistent sharedEnv
  obtain ⟨⟨b, act'⟩, hr⟩ := Option.isSome_iff_exists.1 (show (result? ((modifyAccount sharedEnv 7
    { title := "Mine again" }).run copiedWorld)).isSome by decide +kernel)
  have hb : (result? ((modifyAccount sharedEnv 7
      { title := "Mine again" }).run copiedWorld)).map Prod.fst = some true := by decide +kernel
  rw [hr, Option.map_some, Option.some.injEq] at hb
  obtain rfl : b = true := hb
  have hrun := eq_ok_of_result? hr
  refine ⟨hreadonly copiedWorld [.delete 7] "/shared" (by decide), ⟨act', _,
    hmodify copiedWorld _ 7 _ act' innerIds_copiedWorld
      (writesComplete_of_modify shared_dependable innerIds_copiedWorld hrun) hrun⟩, ?_⟩
  exact (hheld sharedWorld 7 innerIds_sharedWorld (by decide +kernel)).2

end PxAccounts
