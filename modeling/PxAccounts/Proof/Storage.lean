import PxAccounts.Proof.RoundTrip

/-!
# What success says about the file

`FILE::write` reports success whatever becomes of the stream, and nothing above it looks at the file
again.  So a creation or a modification that returns true has stored its account exactly when the
write it asked for kept the whole document.
-/

namespace PxAccounts

open Effect AccountManager
open AccountObject (Lenient lenient_rest)

variable {Text : Type} {env : Env Text}

/-- The two operations that save an account. -/
inductive SaveOp
  | create (act : AccountObject)
  | modify (id : Uuid) (act : AccountObject)

def SaveOp.run (env : Env Text) : SaveOp → M Text (Bool × AccountObject)
  | .create act => createAccount env act
  | .modify id act => modifyAccount env id act

/-! ## The calls of an operation -/

/-- The calls that write a file or publish an event. -/
def Call.IsOutput : Call Text → Prop
  | .writeFile .. | .emit .. => True
  | _ => False

/-- The calls added all satisfy `P`. -/
def callsOf (P : Call Text → Prop) : Frame (World Text) where
  rel w w' := ∃ cs, w'.calls = w.calls ++ cs ∧ ∀ c ∈ cs, P c
  refl _ := ⟨[], by simp⟩
  trans := by
    rintro s t u ⟨cs, hcs, hP⟩ ⟨cs', hcs', hP'⟩
    refine ⟨cs ++ cs', by rw [hcs', hcs, List.append_assoc], fun c hc => ?_⟩
    rcases List.mem_append.1 hc with hc | hc
    · exact hP c hc
    · exact hP' c hc

theorem callsOf_record {P : Call Text → Prop} {w w' : World Text} {c : Call Text}
    (h : w'.calls = w.calls ++ [c]) (hc : P c) : (callsOf P).rel w w' :=
  ⟨[c], h, by simpa using hc⟩

theorem newCalls_eq {w w' : World Text} {cs : List (Call Text)} (h : w'.calls = w.calls ++ cs) :
    w.newCalls w' = cs := by
  rw [World.newCalls, h, World.tick, List.drop_left]

/-- The call writes no file. -/
def Call.WritesNothing (c : Call Text) : Prop :=
  ∀ path data outcome, c ≠ .writeFile path data outcome

theorem Call.writesNothing_of_not_isOutput {c : Call Text} (h : ¬c.IsOutput) : c.WritesNothing := by
  rintro path data outcome rfl
  exact h trivial

theorem lenient_callsOf (env : Env Text) {P : Call Text → Prop} (h : ∀ c, ¬c.IsOutput → P c) :
    Lenient env (callsOf P) where
  record w c hc := callsOf_record rfl (h c (by cases c <;> first | exact id | exact hc.elim))
  log w lines := ⟨[], by simp⟩
  setSecret item w := callsOf_record rfl (h _ id)
  deleteSecret attributes w := callsOf_record rfl (h _ id)
  write plugin vResult aResult w := callsOf_record rfl (h _ id)
  remove plugin id' w := callsOf_record rfl (h _ id)

theorem callsOf_addErrors {P : Call Text → Prop} (w : World Text) (errs : StringList) :
    (callsOf P).rel w (w.addErrors errs) := ⟨[], by simp⟩

/-- The text `write` asks for. -/
def documentText (env : Env Text) (act : AccountObject) : Text :=
  env.yaml.emit (AccountParser.document env act)

/-- The operation wrote the account once, to `path`, and left the files alone otherwise. -/
structure Saved (env : Env Text) (w : World Text) (act : AccountObject) (w' : World Text)
    (path : AccountPath) (outcome : WriteOutcome) : Prop where
  name : path.name = AccountParser.accountFile env act.id
  calls : ∃ cs₁ cs₂, w'.calls =
      w.calls ++ (cs₁ ++ .writeFile path (documentText env act) outcome :: cs₂) ∧
    ∀ c ∈ cs₁ ++ cs₂, c.WritesNothing
  files : w'.files = (w.leftBy env path (documentText env act) outcome).files
  outcome_eq : ∃ n, outcome = env.writeFile n path (documentText env act)

theorem Saved.file {w w' : World Text} {act : AccountObject} {path : AccountPath}
    {outcome : WriteOutcome} (h : Saved env w act w' path outcome) :
    w'.fileAt path = env.afterWrite outcome (documentText env act) (w.fileAt path) := by
  rw [World.fileAt_congr h.files]
  show (Function.update w.files path.dir _ path.dir)[path.name]? = _
  rw [Function.update_self, Std.ExtTreeMap.getElem?_alter_self]
  rfl

/-- The write of the account is the only one. -/
theorem Saved.mem_newCalls {w w' : World Text} {act : AccountObject} {path path' : AccountPath}
    {outcome outcome' : WriteOutcome} {data : Text} (h : Saved env w act w' path outcome) :
    .writeFile path' data outcome' ∈ w.newCalls w' ↔
      path' = path ∧ data = documentText env act ∧ outcome' = outcome := by
  obtain ⟨cs₁, cs₂, hcalls, hnothing⟩ := h.calls
  rw [newCalls_eq hcalls, List.mem_append, List.mem_cons, Call.writeFile.injEq]
  constructor
  · rintro (hc | hc | hc)
    · exact absurd rfl (hnothing _ (List.mem_append_left _ hc) _ _ _)
    · exact hc
    · exact absurd rfl (hnothing _ (List.mem_append_right _ hc) _ _ _)
  · exact fun hc => .inr (.inl hc)

theorem saved_of_written {w w₁ w' : World Text} {act : AccountObject} {path : AccountPath}
    (hname : path.name = AccountParser.accountFile env act.id) (hfiles : w₁.files = w.files)
    (hcalls : (callsOf fun c => ¬c.IsOutput).rel w w₁)
    (hfiles' : w'.files = (w₁.written env path (documentText env act)).files)
    (hcalls' : (callsOf Call.WritesNothing).rel (w₁.written env path (documentText env act)) w') :
    Saved env w act w' path (env.writeFile w₁.tick path (documentText env act)) := by
  obtain ⟨cs₁, h₁, hP₁⟩ := hcalls
  obtain ⟨cs₂, h₂, hP₂⟩ := hcalls'
  refine ⟨hname, ⟨cs₁, cs₂, ?_, fun c hc => ?_⟩, ?_, _, rfl⟩
  · rw [h₂, World.calls_written, h₁]
    simp
  · rcases List.mem_append.1 hc with hc | hc
    · exact Call.writesNothing_of_not_isOutput (hP₁ c hc)
    · exact hP₂ c hc
  · rw [hfiles', World.files_written, hfiles]
    rfl

theorem setStatus_writesNothing {id : Uuid} {stat : AccountStatus} {b : Bool} {w w' : World Text}
    (hr : (setStatus env id stat).run w = .ok b w') :
    w'.files = w.files ∧ (callsOf Call.WritesNothing).rel w w' := by
  constructor
  · exact rel_of_setStatus (F := Frame.eqOn World.files) ⟨fun _ _ _ => rfl, fun _ _ => rfl⟩
      (fun _ _ => rfl) (fun _ _ _ => rfl) (fun w _ _ => w.files_published _ _) hr
  · refine rel_of_setStatus (lenient_callsOf env fun c => Call.writesNothing_of_not_isOutput).toQuiet
      callsOf_addErrors (fun w strId stat => ⟨[], by simp⟩) (fun w event params => ?_) hr
    exact callsOf_record (w.calls_published _ _) fun _ _ _ h => by cases h

theorem published_writesNothing (w : World Text) (event : String) (params : StrStrMap) :
    (callsOf Call.WritesNothing).rel w (w.published env event params) :=
  callsOf_record (w.calls_published _ _) fun _ _ _ h => by cases h

theorem verify_noOutput {act act' : AccountObject} {b : Bool} {w w' : World Text}
    (hr : (act.verify env).run w = .ok (b, act') w') :
    w'.files = w.files ∧ (callsOf fun c => ¬c.IsOutput).rel w w' :=
  ⟨congrArg Prod.fst (((lenient_rest env).verify act).rel_of_ok hr),
    ((lenient_callsOf env fun _ => id).verify act).rel_of_ok hr⟩

theorem silent_noOutput (env : Env Text) {w w' : World Text} (h : w.Silent w') :
    (callsOf fun c => ¬c.IsOutput).rel w w' := h _ (lenient_callsOf env fun _ => id).toQuiet

/-- A save that fails puts nothing out; one that succeeds writes the account once. -/
theorem save_ok {op : SaveOp} {act' : AccountObject} {b : Bool} {w w' : World Text}
    (hr : (op.run env).run w = .ok (b, act') w') :
    (b = false ∧ (callsOf fun c => ¬c.IsOutput).rel w w') ∨
      (b = true ∧ ∃ path outcome, Saved env w act' w' path outcome) := by
  cases op with
  | create act =>
    rw [SaveOp.run] at hr
    rcases createAccount_ok hr with ⟨rfl, errs, rfl⟩ | ⟨parser, -, hcase⟩
    · exact .inl ⟨rfl, callsOf_addErrors _ _⟩
    have hgen : (callsOf fun c : Call Text => ¬c.IsOutput).rel w
        (w.record (.uuidGenerate (env.uuidGenerate w.tick))) := callsOf_record rfl id
    cases hcase with
    | limit => exact .inl ⟨rfl, (callsOf _).trans hgen (callsOf_addErrors _ _)⟩
    | refused _ hverify =>
      exact .inl ⟨rfl, (callsOf _).trans hgen
        ((callsOf _).trans (verify_noOutput hverify).2 (callsOf_addErrors _ _))⟩
    | unwritten _ hverify _ =>
      exact .inl ⟨rfl, (callsOf _).trans hgen
        ((callsOf _).trans (verify_noOutput hverify).2 (callsOf_addErrors _ _))⟩
    | created _ hverify _ _ hstatus =>
      obtain ⟨hfiles, hcalls⟩ := verify_noOutput hverify
      obtain ⟨hfiles', hcalls'⟩ := setStatus_writesNothing hstatus
      refine .inr ⟨rfl, _, _, saved_of_written rfl hfiles ((callsOf _).trans hgen hcalls) ?_
        ((callsOf _).trans hcalls' (published_writesNothing _ _ _))⟩
      rw [World.files_published, hfiles']
      rfl
  | modify id act =>
    rw [SaveOp.run] at hr
    rcases modifyAccount_ok hr with ⟨rfl, w₁, errs, rfl, hsilent⟩ |
      ⟨parser, acc, oldAct, w₁, parser', hok, -, hcase⟩
    · exact .inl ⟨rfl, (callsOf _).trans (silent_noOutput env hsilent)
        (callsOf_addErrors _ _)⟩
    have hread := silent_noOutput env hok.silent
    cases hcase with
    | refused hverify =>
      exact .inl ⟨rfl, (callsOf _).trans hread
        ((callsOf _).trans (verify_noOutput hverify).2 (callsOf_addErrors _ _))⟩
    | unwritten hverify _ =>
      exact .inl ⟨rfl, (callsOf _).trans hread
        ((callsOf _).trans (verify_noOutput hverify).2 (callsOf_addErrors _ _))⟩
    | modified hverify _ _ hstatus hclean =>
      obtain ⟨hfiles, hcalls⟩ := verify_noOutput hverify
      obtain ⟨hfiles', hcalls'⟩ := setStatus_writesNothing hstatus
      have hclean' := ((lenient_callsOf env fun c => Call.writesNothing_of_not_isOutput).cleanup
        oldAct act').rel_of_ok hclean
      have hfiles'' := congrArg Prod.fst (((lenient_rest env).cleanup oldAct act').rel_of_ok hclean)
      refine .inr ⟨rfl, _, _, saved_of_written rfl (hfiles.trans hok.silent.files)
        ((callsOf _).trans hread hcalls) ?_ ((callsOf _).trans hcalls'
          ((callsOf _).trans hclean' (published_writesNothing _ _ _)))⟩
      rw [World.files_published]
      exact (show _ = _ from hfiles'').trans hfiles'

/-! ## Success and the file -/

/-- What a caller takes success to mean: after it the account file holds the whole document that was
to be written, and a call that fails publishes no creation or modification. -/
def SuccessMeansStored (env : Env Text) (w : World Text) (b : Bool) (act' : AccountObject)
    (w' : World Text) : Prop :=
  (b = true → ∃ path outcome, .writeFile path (documentText env act') outcome ∈ w.newCalls w' ∧
    path.name = AccountParser.accountFile env act'.id ∧
    w'.fileAt path = some (documentText env act')) ∧
  (b = false → ∀ event delivery, .emit event delivery ∈ w.newCalls w' →
    event.event ≠ "account_create" ∧ event.event ≠ "account_modify")

/-- An operation that returned true has saved its account. -/
theorem saved_of_ok (op : SaveOp) {act' : AccountObject} {w w' : World Text}
    (hr : (op.run env).run w = .ok (true, act') w') :
    ∃ path outcome, Saved env w act' w' path outcome := by
  rcases save_ok hr with ⟨hfalse, -⟩ | ⟨-, hsaved⟩
  · cases hfalse
  · exact hsaved

/-- The file system kept the text of a write: it wrote all of it, or cut nothing off, or could not
open a file that held the same text before. -/
def KeptBy (env : Env Text) (data : Text) (old : Option Text) : WriteOutcome → Prop
  | .complete => True
  | .cutShort count => env.yaml.cut data count = data
  | .notOpened => old = some data

theorem afterWrite_eq_iff {outcome : WriteOutcome} {data : Text} {old : Option Text} :
    env.afterWrite outcome data old = some data ↔ KeptBy env data old outcome := by
  cases outcome with
  | notOpened => exact Iff.rfl
  | cutShort count => exact Option.some_inj
  | complete => exact iff_of_true rfl trivial

/-- The file system kept every text it was asked to write. -/
def WritesKept (env : Env Text) (w w' : World Text) : Prop :=
  ∀ path data outcome, .writeFile path data outcome ∈ w.newCalls w' →
    KeptBy env data (w.fileAt path) outcome

theorem success_means_stored_iff (env : Env Text) (op : SaveOp) (act' : AccountObject) (b : Bool)
    (w w' : World Text) (hr : (op.run env).run w = .ok (b, act') w') :
    SuccessMeansStored env w b act' w' ↔ WritesKept env w w' := by
  rcases save_ok hr with ⟨rfl, cs, hcalls, hout⟩ | ⟨rfl, path, outcome, hsaved⟩
  · have hno : ∀ c ∈ w.newCalls w', ¬c.IsOutput := by rwa [newCalls_eq hcalls]
    constructor
    · intro _ path data outcome hc
      exact absurd trivial (hno (.writeFile path data outcome) hc)
    · exact fun _ => ⟨fun h => absurd h (by decide),
        fun _ event delivery hc => absurd trivial (hno (.emit event delivery) hc)⟩
  · have hcall := hsaved.mem_newCalls.2 ⟨rfl, rfl, rfl⟩
    constructor
    · intro h path' data outcome' hc
      obtain ⟨rfl, rfl, rfl⟩ := hsaved.mem_newCalls.1 hc
      obtain ⟨path'', outcome'', hc', -, hstored⟩ := h.1 rfl
      obtain ⟨rfl, -, -⟩ := hsaved.mem_newCalls.1 hc'
      rw [← afterWrite_eq_iff, ← hsaved.file, hstored]
    · intro h
      refine ⟨fun _ => ⟨path, outcome, hcall, hsaved.name, ?_⟩, fun h => absurd h (by decide)⟩
      rw [hsaved.file, afterWrite_eq_iff]
      exact h _ _ _ hcall

theorem success_means_stored_iff_reference : ∃ act' w',
    ((SaveOp.create { title := "Mail" }).run referenceEnv).run { files := fun _ => ∅ } =
      .ok (true, act') w' ∧
    SuccessMeansStored referenceEnv { files := fun _ => ∅ } true act' w' := by
  have hr : ∃ act' w', ((SaveOp.create { title := "Mail" }).run referenceEnv).run
      { files := fun _ => ∅ } = .ok (true, act') w' := ⟨_, _, rfl⟩
  obtain ⟨act', w', hr⟩ := hr
  refine ⟨act', w', hr, (success_means_stored_iff referenceEnv _ _ _ _ _ hr).2 ?_⟩
  intro path data outcome hcall
  obtain ⟨path', outcome', hsaved⟩ := saved_of_ok _ hr
  obtain ⟨-, -, rfl⟩ := hsaved.mem_newCalls.1 hcall
  obtain ⟨n, rfl⟩ := hsaved.outcome_eq
  exact trivial

/-- The file system of the reference service, with a directory that cannot be written to. -/
def unwritableEnv : Env YamlText := { referenceEnv with writeFile := fun _ _ _ => .notOpened }

/-- A creation reports success although the account file could not even be opened. -/
theorem success_without_file : ¬∀ (env : Env YamlText) (op : SaveOp) (act' : AccountObject)
    (b : Bool) (w w' : World YamlText), (op.run env).run w = .ok (b, act') w' →
      SuccessMeansStored env w b act' w' := by
  intro h
  have hr : ∃ act' w', ((SaveOp.create { title := "Mail" }).run unwritableEnv).run
      { files := fun _ => ∅ } = .ok (true, act') w' := ⟨_, _, rfl⟩
  obtain ⟨act', w', hr⟩ := hr
  obtain ⟨path, outcome, hcall, -, hstored⟩ := (h _ _ _ _ _ _ hr).1 rfl
  obtain ⟨path', outcome', hsaved⟩ := saved_of_ok _ hr
  obtain ⟨rfl, -, rfl⟩ := hsaved.mem_newCalls.1 hcall
  obtain ⟨n, rfl⟩ := hsaved.outcome_eq
  rw [hsaved.file] at hstored
  cases hstored

end PxAccounts
