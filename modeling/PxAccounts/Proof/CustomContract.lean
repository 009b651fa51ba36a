import PxAccounts.Proof.ClientSession
import PxAccounts.Proof.CustomStorage

/-!
# What the plugin with a storage of its own keeps

The directory of `cpp-custom-plugin` is a shelf: under ids that are new, files that are written to the
end hold what the plugin was given, until it is asked to remove it.
-/

namespace PxAccounts

open Effect Run
open AccountService (assigned)

variable {Text : Type}

namespace CPPCustomPlugin

variable {uuid : Libuuid} {dir : StrMap String} {shelf : Shelf}

/-! ## Files -/

theorem filePath_of_nulFree {id : String} (h : NulFree id) : filePath id = id ++ ".txt" := by
  apply cStr_of_nulFree
  intro hmem
  rw [String.toList_append, List.mem_append] at hmem
  rcases hmem with hmem | hmem
  · exact h hmem
  · revert hmem
    decide

theorem filePath_injective {id id' : String} (h : NulFree id) (h' : NulFree id')
    (heq : filePath id = filePath id') : id = id' := by
  rw [filePath_of_nulFree h, filePath_of_nulFree h'] at heq
  apply String.toList_injective
  have hlists := congrArg String.toList heq
  rw [String.toList_append, String.toList_append] at hlists
  exact List.append_cancel_right hlists

/-! ## The directory and the shelf -/

/-- The files hold what is on the shelf. -/
structure Mirrors (dir : StrMap String) (shelf : Shelf) : Prop where
  own : shelf.Own {title}
  file : ∀ id params, shelf { plugin := title, id } = some params → NulFree id ∧
    ∃ text, dir[filePath id]? = some text ∧ readText text = params

/-- The plugin of a call of one of the three methods, and whether it returned. -/
def storageCall : Call Unit → Option (String × Bool)
  | .read plugin _ answer => some (plugin, returned answer)
  | .write plugin _ _ answer => some (plugin, returned answer)
  | .remove plugin _ answer => some (plugin, returned answer)
  | _ => none
where
  returned {α : Type} : Option (Answer α) → Bool
    | some (.returned _) => true
    | _ => false

/-- A call under good conditions: a file that is written is a new one, is written to the end and gets
parameters that it can hold, and a file that is removed is one with the name of the id.  The other
calls are not made to this plugin, and no other plugin returns from one of the three methods. -/
def Deed.Sound (uuid : Libuuid) (dir : StrMap String) : Deed → Prop
  | .reads _ => True
  | .writes id outcome vResult _ => outcome = .complete ∧ filePath (uuid.unparseLower id) ∉ dir ∧
    ∀ p ∈ vResult.params, Storable p.key p.val
  | .removes unlinks id => unlinks = true ∧ NulFree id
  | .other call => ∀ s ∈ storageCall call, s.1 ≠ title ∧ s.2 = false

theorem not_returned_of_storageCall {α : Type} {answer : Option (Answer α)}
    (h : storageCall.returned answer = false) : ∀ a, answer ≠ some (.returned a) := by
  rintro a rfl
  cases h

/-- A call that is none of this plugin. -/
theorem answers_of_other (shelf : Shelf) {call : Call Unit}
    (h : ∀ s ∈ storageCall call, s.1 ≠ title ∧ s.2 = false) :
    shelf.Answers {title} call ∧ shelf.after call = shelf := by
  have hcustom : ∀ (plugin : String) {α : Type} (answer : Option (Answer α)),
      storageCall call = some (plugin, storageCall.returned answer) →
      plugin ∉ ({title} : Set String) ∧ ∀ a, answer ≠ some (.returned a) := fun _ _ _ hcall =>
    ⟨(h _ hcall).1, not_returned_of_storageCall (h _ hcall).2⟩
  cases call with
  | read plugin id answer =>
    obtain ⟨hplugin, hnot⟩ := hcustom plugin answer rfl
    exact ⟨⟨fun hmem => absurd hmem hplugin, fun _ => hnot⟩, rfl⟩
  | write plugin vResult aResult answer =>
    obtain ⟨hplugin, hnot⟩ := hcustom plugin answer rfl
    refine ⟨⟨fun hmem => absurd hmem hplugin, fun _ => hnot⟩, ?_⟩
    unfold Shelf.after
    split <;> simp_all
  | remove plugin id answer =>
    obtain ⟨hplugin, hnot⟩ := hcustom plugin answer rfl
    refine ⟨⟨fun hmem => absurd hmem hplugin, fun _ => hnot⟩, ?_⟩
    unfold Shelf.after
    split <;> simp_all
  | _ => exact ⟨trivial, rfl⟩

/-- A file that is written to the end is put on the shelf under its id. -/
theorem Mirrors.written (h : Mirrors dir shelf) {id : String} (hnul : NulFree id)
    {params : ServiceParamList} (hstorable : ∀ p ∈ params, Storable p.key p.val) :
    Mirrors (dir.alter (filePath id) fun _ => some (fileText params))
      (Function.update shelf { plugin := title, id } (some (assigned ServiceParam.val params))) := by
  constructor
  · intro r hr
    by_cases heq : r = { plugin := title, id }
    · exact congrArg PluginRecord.plugin heq
    · rw [Function.update_of_ne heq] at hr
      exact h.own r hr
  · intro id' params' hkept
    by_cases hid : id' = id
    · subst hid
      rw [Function.update_self, Option.some.injEq] at hkept
      refine ⟨hnul, fileText params, Std.ExtTreeMap.getElem?_alter_self, ?_⟩
      rw [readText_fileText hstorable, hkept]
    · rw [Function.update_of_ne fun heq => hid (congrArg PluginRecord.id heq)] at hkept
      obtain ⟨hnul', text, hfile, htext⟩ := h.file id' params' hkept
      refine ⟨hnul', text, ?_, htext⟩
      have hne : filePath id ≠ filePath id' := fun heq => hid (filePath_injective hnul' hnul heq.symm)
      rw [Std.ExtTreeMap.getElem?_alter, if_neg (by simpa using hne)]
      exact hfile

/-- A file that is removed takes what was kept under its id with it, and nothing else. -/
theorem Mirrors.erased (h : Mirrors dir shelf) {id : String} (hnul : NulFree id) :
    Mirrors (dir.erase (filePath id)) (Function.update shelf { plugin := title, id } none) := by
  have hstays : ∀ {r}, (Function.update shelf { plugin := title, id } none r).isSome →
      r ≠ { plugin := title, id } := by
    rintro r hr rfl
    simp at hr
  constructor
  · intro r hr
    rw [Function.update_of_ne (hstays hr)] at hr
    exact h.own r hr
  · intro id' params' hkept
    have hne := hstays (Option.isSome_iff_exists.2 ⟨params', hkept⟩)
    rw [Function.update_of_ne hne] at hkept
    obtain ⟨hnul', text, hfile, htext⟩ := h.file id' params' hkept
    refine ⟨hnul', text, ?_, htext⟩
    rw [TreeMap.getElem?_erase_of_ne]
    · exact hfile
    · rintro heq
      cases filePath_injective hnul hnul' heq
      exact hne rfl

/-- A call of the plugin is answered as the shelf says, and the directory stays a mirror of it. -/
theorem Mirrors.perform (h : Mirrors dir shelf) {deed : Deed} (hsound : deed.Sound uuid dir) :
    shelf.Answers {title} (perform uuid dir deed).1 ∧
      Mirrors (perform uuid dir deed).2 (shelf.after (perform uuid dir deed).1) := by
  cases deed with
  | other call =>
    obtain ⟨hanswers, hafter⟩ := answers_of_other shelf hsound
    refine ⟨hanswers, ?_⟩
    show Mirrors dir (shelf.after call)
    rw [hafter]
    exact h
  | reads id =>
    refine ⟨⟨fun _ params hkept => ?_, fun hnot => absurd rfl hnot⟩, h⟩
    obtain ⟨-, text, hfile, htext⟩ := h.file id params hkept
    rw [read, hfile, ← htext]
  | writes id outcome vResult aResult =>
    obtain ⟨rfl, hnew, hstorable⟩ := hsound
    refine ⟨⟨fun _ => ⟨uuid.unparseLower id, rfl, ?_⟩, fun hnot => absurd rfl hnot⟩,
      h.written (nulFree_unparseLower uuid id) hstorable⟩
    rw [← Option.not_isSome_iff_eq_none, Option.isSome_iff_exists]
    rintro ⟨params, hkept⟩
    obtain ⟨-, text, hfile, -⟩ := h.file _ params hkept
    exact hnew (Std.ExtTreeMap.mem_iff_isSome_getElem?.2 (hfile ▸ rfl))
  | removes unlinks id =>
    obtain ⟨rfl, hnul⟩ := hsound
    by_cases hfile : filePath id ∈ dir
    · have hremove : CPPCustomPlugin.perform uuid dir (.removes true id) =
          (.remove title id (some (.returned true)), dir.erase (filePath id)) := by
        simp [CPPCustomPlugin.perform, remove, hfile]
      rw [hremove]
      exact ⟨⟨fun _ _ => rfl, fun hnot => absurd rfl hnot⟩, h.erased hnul⟩
    · have hremove : CPPCustomPlugin.perform uuid dir (.removes true id) =
          (.remove title id (some (.returned false)), dir) := by
        simp [CPPCustomPlugin.perform, remove, hfile]
      rw [hremove]
      refine ⟨⟨fun _ hkept => ?_, fun hnot => absurd rfl hnot⟩, h⟩
      obtain ⟨params, hparams⟩ := Option.isSome_iff_exists.1 hkept
      obtain ⟨-, text, htext, -⟩ := h.file id params hparams
      exact absurd (Std.ExtTreeMap.mem_iff_isSome_getElem?.2 (htext ▸ rfl)) hfile

/-- A service whose plugin makes its calls under good conditions, whatever is in its directory at
first. -/
structure Backs (uuid : Libuuid) (dir : StrMap String) (deeds : List Deed) (w : World Text) :
    Prop where
  calls : w.calls.filterMap Call.storage = outputs (CPPCustomPlugin.perform uuid) dir deeds
  sound : Checked (fun dir deed => (CPPCustomPlugin.perform uuid dir deed).2) (Deed.Sound uuid) dir
    deeds

theorem Backs.served {deeds : List Deed} {w : World Text} (h : Backs uuid dir deeds w) :
    Served {title} w := by
  have hempty : Mirrors dir fun _ => none := by
    constructor
    · intro r hr
      cases hr
    · intro id params hr
      cases hr
  apply served_of_storage
  rw [h.calls]
  exact checked_outputs (fun dir deed shelf hmirrors hsound => hmirrors.perform hsound) hempty h.sound

end CPPCustomPlugin

/-- With the files of the plugin as its storage, every session of clients is a run of the book. -/
theorem custom_sessions_refine_book (env : Env Text) (dir : StrMap String)
    (deeds : List CPPCustomPlugin.Deed) (w₀ w : World Text) (os : List (Occurrence Text))
    (hkeeping : BookKeeping env w.tick) (hbacks : CPPCustomPlugin.Backs env.uuid dir deeds w)
    (hstart : Orderly env {CPPCustomPlugin.title} w.tick w₀) (hrun : Runs (Occurs env) w₀ os w) :
    Runs (Book.Step env {CPPCustomPlugin.title}) (bookAt env w₀) os (bookAt env w) :=
  book_of_run hkeeping hstart hrun hbacks.served le_rfl

/-- A service with the plugin, whose file it finds under the id 7. -/
def customEnv : Env YamlText :=
  { referenceConfig, referenceAnswers with
    registeredPlugins := (∅ : StrMap PluginContainer).insert CPPCustomPlugin.title
      { type := .cppPlugin, title := CPPCustomPlugin.title }
    title_registered := fun name plugin h => by
      by_cases hn : CPPCustomPlugin.title = name
      · subst hn
        rw [Std.ExtTreeMap.getElem?_insert_self] at h
        cases h
        rfl
      · rw [TreeMap.getElem?_insert_of_ne hn, Std.ExtTreeMap.getElem?_empty] at h
        cases h
    verify := fun _ _ params => .returned (CPPCustomPlugin.verify (fun _ => (false, false)) params)
    authenticate := fun _ _ params => .returned (CPPCustomPlugin.authenticate params)
    read := fun _ _ _ => some (.returned ((∅ : StrStrMap).insert "user" "ann"))
    write := fun _ _ _ _ records => (some (.returned (referenceLibuuid.unparseLower 7)), records)
    remove := fun _ _ _ records => (some (.returned true), records) }

/-- An account with a service of the plugin. -/
def customRequest : RPCAccount :=
  { mailRequest with services := [{ name := CPPCustomPlugin.title, params := [("user", "ann")] }] }

/-- The service after a client has added the account. -/
def customAdded : World YamlText :=
  final ((RPCHandler.handle customEnv (.add (some customRequest))).run { files := fun _ => ∅ })

/-- It was read then. -/
def customGot : World YamlText :=
  final ((RPCHandler.handle customEnv (.get (some (customEnv.uuidAsString 1)))).run customAdded)

/-- What the plugin does meanwhile: it is read once when the status is set. -/
def customDeeds : List CPPCustomPlugin.Deed :=
  [.writes 7 .complete (CPPCustomPlugin.verify (fun _ => (false, false))
      ((∅ : StrStrMap).insert "user" "ann")) (CPPCustomPlugin.authenticate []),
    .reads (referenceLibuuid.unparseLower 7), .reads (referenceLibuuid.unparseLower 7)]

deriving instance DecidableEq for Call

theorem backs_customDeeds : CPPCustomPlugin.Backs customEnv.uuid ∅ customDeeds customGot where
  calls := by decide +kernel
  sound := by
    refine ⟨⟨rfl, Std.ExtTreeMap.not_mem_empty, fun p hp => ?_⟩, trivial, trivial, trivial⟩
    have hparams : (CPPCustomPlugin.verify (fun _ => (false, false))
        ((∅ : StrStrMap).insert "user" "ann")).params = [{ key := "user", val := "ann" }] := by
      decide +kernel
    rw [hparams, List.mem_singleton] at hp
    subst hp
    exact ⟨⟨by decide, by decide⟩, ⟨by decide, by decide⟩, by decide⟩

/-- What the plugin has in its file is in the book. -/
theorem custom_sessions_refine_book_deeds : ∃ os, Runs (Book.Step customEnv {CPPCustomPlugin.title})
    (bookAt customEnv { files := fun _ => ∅ }) os (bookAt customEnv customGot) ∧
    os.length = 2 ∧ (((bookAt customEnv customGot).accounts 1).bind fun entry =>
      (entry.services CPPCustomPlugin.title).bind fun params => params "user") = some "ann" := by
  have htick : customGot.tick ≤ 100 := by decide +kernel
  have hkeeping : BookKeeping customEnv customGot.tick :=
    ⟨⟨fun _ _ _ => rfl, fun _ _ => rfl⟩, rfl, injOn_uuidGenerate (fun _ => rfl) htick⟩
  obtain ⟨added, hadd⟩ : ∃ reply, EndsWith ((RPCHandler.handle customEnv
      (.add (some customRequest))).run { files := fun _ => ∅ }) (.replied reply) customAdded :=
    endsWith_of_result? (by decide +kernel)
  obtain ⟨got, hget⟩ : ∃ reply, EndsWith ((RPCHandler.handle customEnv
      (.get (some (customEnv.uuidAsString 1)))).run customAdded) (.replied reply) customGot :=
    endsWith_of_result? (by decide +kernel)
  have hrun : Runs (Occurs customEnv) { files := fun _ => ∅ } _ customGot :=
    (Runs.single (.request hadd)).snoc (.request hget)
  exact ⟨_, custom_sessions_refine_book customEnv ∅ customDeeds { files := fun _ => ∅ } customGot _
    hkeeping backs_customDeeds (orderly_of_empty fun _ => rfl) hrun, rfl, by decide +kernel⟩

end PxAccounts
