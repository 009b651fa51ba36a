import PxAccounts.Proof.ManagerRun
import PxAccounts.Model.Reference

/-!
# The account file format round-trips
-/

namespace PxAccounts

open Effect

variable {Text : Type}

namespace AccountParser

variable {env : Env Text}

/-- A file that holds the whole document of an account is read as what the file keeps of it. -/
theorem read_of_fileAt {w : World Text} {parser : AccountParser} {account : AccountObject}
    (hreg : ∀ svcName ∈ account.services, (env.pluginNamed svcName).isSome)
    (hfile : w.fileAt (parser.accountPath env account.id) =
      some (env.yaml.emit (document env account))) :
    parser.read env w account.id {} = .ok (stored env account) := by
  simp only [read, hfile, readText, env.yaml.load_emit _ (document_plain env account),
    readDocument_document hreg]

theorem stored_services_getElem? (account : AccountObject) (svcName : String) :
    (stored env account).services[svcName]? =
      account.services[svcName]?.map (storedService env svcName) :=
  Std.ExtTreeMap.getElem?_map

theorem storedService_params (svcName : String) (svc : AccountService) (key val : String) :
    (storedService env svcName svc).params[key]? = some val ↔
      svc.params[key]? = some val ∧ svc.isProtected key = false := by
  rw [storedService, Std.ExtTreeMap.getElem?_filter']
  cases svc.params[key]? with
  | none => simp
  | some v =>
    cases svc.isProtected key <;> simp [Option.filter]

/-- A service read from a file has no protected parameter. -/
theorem plainParams_storedService (svcName : String) (svc : AccountService) :
    plainParams (storedService env svcName svc) = plainParams svc := by
  have hnone : ∀ key, (storedService env svcName svc).isProtected key = false := fun _ => rfl
  rw [plainParams, plainParams_eq svc]
  simp only [hnone, Bool.not_false, List.filter_true]
  rfl

theorem document_stored (account : AccountObject) :
    document env (stored env account) = document env account := by
  have hservices : (stored env account).services.toList.map (fun kv => serviceNode kv.1 kv.2) =
      account.services.toList.map fun kv => serviceNode kv.1 kv.2 := by
    rw [stored, Std.ExtTreeMap.toList_map, List.map_map]
    refine List.map_congr_left fun kv _ => ?_
    simp only [Function.comp_apply, serviceNode, plainParams_storedService]
  rw [document, document, hservices]
  rfl

/-- `write` at a writable parser asks for the document of the account to be written. -/
theorem run_write {parser : AccountParser} {account : AccountObject} (w : World Text)
    (hid : account.id ≠ Uuid.null) (hro : parser.readonly = false) :
    (parser.write env account).run w = .ok true (w.written env
      (parser.accountPath env account.id) (env.yaml.emit (document env account))) := by
  have hnull : uuidIsNull account.id = false := by simpa [uuidIsNull] using hid
  simp only [write, hnull, hro, Bool.false_eq_true, if_false]
  rfl

/-- Writing an account and reading it back gives its details and, for each of its services, the
parameters that are not protected; writing what was read asks for the same document again. -/
theorem write_then_read (env : Env Text) (w : World Text) (parser : AccountParser)
    (account : AccountObject) (hid : account.id ≠ Uuid.null) (hro : parser.readonly = false)
    (hreg : ∀ svcName ∈ account.services, (env.pluginNamed svcName).isSome)
    (hdisk : env.writeFile w.tick (parser.accountPath env account.id)
      (env.yaml.emit (document env account)) = .complete) :
    ∃ w', (parser.write env account).run w = .ok true w' ∧
      ∃ acc, parser.read env w' account.id {} = .ok acc ∧
        acc.id = account.id ∧ acc.title = account.title ∧ acc.provider = account.provider ∧
        acc.isActive = account.isActive ∧ acc.settings = account.settings ∧
        (∀ svcName : String, svcName ∈ acc.services ↔ svcName ∈ account.services) ∧
        (∀ (svcName : String) (svc svc' : AccountService),
          account.services[svcName]? = some svc → acc.services[svcName]? = some svc' →
          ∀ key val : String, svc'.params[key]? = some val ↔
            svc.params[key]? = some val ∧ svc.isProtected key = false) ∧
        document env acc = document env account ∧
        (parser.write env acc).run w' = .ok true (w'.written env
          (parser.accountPath env account.id) (env.yaml.emit (document env account))) := by
  refine ⟨_, run_write w hid hro, stored env account, read_of_fileAt hreg ?_, rfl, rfl, rfl, rfl,
    rfl, fun svcName => ?_, fun svcName svc svc' hsvc hsvc' key val => ?_, document_stored account,
    ?_⟩
  · rw [World.fileAt_written_self, hdisk]
    rfl
  · rw [Std.ExtTreeMap.mem_iff_isSome_getElem?, Std.ExtTreeMap.mem_iff_isSome_getElem?,
      stored_services_getElem?, Option.isSome_map]
  · rw [stored_services_getElem?, hsvc] at hsvc'
    cases hsvc'
    exact storedService_params svcName svc key val
  · rw [← document_stored account]
    exact run_write _ hid hro

/-- An account with one service, whose password is protected. -/
def mailAccount : AccountObject where
  id := 7
  title := "Mail"
  isActive := true
  services := (∅ : StrMap AccountService).insert "mail"
    (({} : AccountService).init referenceEnv "mail" |>.applyVerification
      [{ key := "user", val := "ann" }, { key := "password", val := "secret", isProtected := true }])

theorem write_then_read_mailAccount :
    ∃ w', (write referenceEnv { path := "/accounts", readonly := false } mailAccount).run
        { files := fun _ => ∅ } = .ok true w' ∧
      ∃ acc, read referenceEnv w' { path := "/accounts", readonly := false } 7 {} = .ok acc ∧
        acc.title = "Mail" ∧ document referenceEnv acc = document referenceEnv mailAccount := by
  obtain ⟨w', hwrite, acc, hread, -, htitle, -, -, -, -, -, hdoc, -⟩ :=
    write_then_read referenceEnv { files := fun _ => ∅ } { path := "/accounts", readonly := false }
      mailAccount (by decide) rfl (fun svcName h => by
        have hname : "mail" = svcName := by simpa [mailAccount] using h
        subst hname
        decide) rfl
  exact ⟨w', hwrite, acc, hread, htitle, hdoc⟩

end AccountParser

end PxAccounts
