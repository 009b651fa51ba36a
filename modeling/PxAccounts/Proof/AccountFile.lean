import PxAccounts.Lib.TreeMap
import PxAccounts.Model.AccountParser

/-!
# Account files

The names of account files, and what a parser reads from the document that `write` emits: the
account `stored`, whose services hold the parameters that are not protected.
-/

namespace PxAccounts

variable {Text : Type}

/-! ## File names -/

theorem beforeYaml_append {s : List Char} (hs : '.' ∉ s) :
    beforeYaml (s ++ ".yaml".toList) = s := by
  induction s with
  | nil => rfl
  | cons c s ih =>
    simp only [List.mem_cons, not_or] at hs
    rw [List.cons_append, beforeYaml, if_neg, ih hs.2]
    intro h
    have hc : ('.' : Char) = c := by simpa using (List.isPrefixOf_iff_prefix.1 h).head
    exact hs.1 hc

theorem Libuuid.dot_not_mem (uuid : Libuuid) (id : Uuid) : '.' ∉ (uuid.unparseLower id).toList :=
  fun h => absurd (uuid.unparse_chars id '.' h) (by decide)

theorem Libuuid.unparse_inj (uuid : Libuuid) {id id' : Uuid}
    (h : uuid.unparseLower id = uuid.unparseLower id') : id = id' := by
  have h' := congrArg uuid.parse h
  rw [uuid.parse_unparse, uuid.parse_unparse] at h'
  exact Option.some.inj h'

namespace AccountParser

variable {env : Env Text} {w : World Text} {parser : AccountParser} {id id' : Uuid}

theorem accountFile_toList :
    (accountFile env id).toList = (env.uuidAsString id).toList ++ ".yaml".toList := by
  rw [accountFile, String.toList_append]

theorem accountFile_inj (h : accountFile env id = accountFile env id') : id = id' := by
  have h' := congrArg String.toList h
  rw [accountFile_toList, accountFile_toList] at h'
  exact env.uuid.unparse_inj (String.toList_inj.1 (List.append_cancel_right h'))

theorem accountPath_inj {parser' : AccountParser}
    (h : parser.accountPath env id = parser'.accountPath env id') :
    parser.path = parser'.path ∧ id = id' := by
  rw [accountPath, accountPath, AccountPath.mk.injEq] at h
  exact ⟨h.1, accountFile_inj h.2⟩

theorem fileStem_accountFile : fileStem (accountFile env id) = env.uuidAsString id := by
  rw [fileStem, accountFile_toList, Env.uuidAsString,
    beforeYaml_append (env.uuid.dot_not_mem id), String.ofList_toList]

@[simp] theorem uuidFromString_uuidAsString :
    env.uuidFromString (env.uuidAsString id) = (true, id) := by
  rw [Env.uuidFromString, Env.uuidAsString, env.uuid.parse_unparse]

theorem extpart_accountFile : FILE.extpart (accountFile env id) = "yaml" := by
  have hrev : (accountFile env id).toList.reverse =
      "lmay".toList ++ '.' :: (env.uuidAsString id).toList.reverse := by
    rw [accountFile_toList, List.reverse_append]
    rfl
  have hlen := env.uuid.unparse_length id
  simp only [FILE.extpart, hrev]
  cases hs : (env.uuidAsString id).toList.reverse with
  | nil =>
    rw [List.reverse_eq_nil_iff, Env.uuidAsString] at hs
    rw [hs] at hlen
    cases hlen
  | cons c cs => simp

theorem mem_accountFiles : accountFile env id ∈ accountFiles env w parser ↔
    (w.fileAt (parser.accountPath env id)).isSome := by
  have hext : (".yaml".toList : List Char) = '.' :: "yaml".toList := rfl
  simp only [accountFiles, FILE.dirfiles, hext, List.mem_filter, String.ofList_toList,
    extpart_accountFile, beq_self_eq_true, Bool.or_true, and_true,
    (env.readdir_perm _).mem_iff, Std.ExtTreeMap.mem_keys]
  rw [World.fileAt, Std.ExtTreeMap.isSome_getElem?_iff_mem]
  rfl

/-- A directory that holds the file of an account has the account. -/
theorem hasAccount_of_isSome (h : (w.fileAt (parser.accountPath env id)).isSome) :
    parser.hasAccount env w id = true := by
  refine List.any_eq_true.2 ⟨accountFile env id, mem_accountFiles.2 h, ?_⟩
  simp [fileStem_accountFile]

/-! ## Reading back -/

/-- What a file keeps of a service. -/
def storedService (env : Env Text) (svcName : String) (svc : AccountService) : AccountService :=
  { ({} : AccountService).init env svcName with
    params := svc.params.filter fun key _ => !svc.isProtected key }

/-- What a file keeps of an account. -/
def stored (env : Env Text) (account : AccountObject) : AccountObject :=
  { account with services := account.services.map (storedService env), errors := [] }

theorem plainParams_eq (svc : AccountService) :
    plainParams svc = (svc.params.filter fun key _ => !svc.isProtected key).toList := by
  rw [plainParams, Std.ExtTreeMap.toList_filter]

theorem iter_mapNode (l : List (String × String)) :
    Node.iter (some (mapNode l)) = l.map fun p => .pair (.scalar p.1) (.scalar p.2) := by
  simp [mapNode, Node.mapping, Node.iter]

theorem readSettings_mapNode (l : List (String × String)) (m : StrStrMap) :
    readSettings env (some (mapNode l)) m = .ok (TreeMap.insertAll m l) := by
  rw [readSettings, iter_mapNode]
  induction l generalizing m with
  | nil => rfl
  | cons p l ih => exact ih (m.insert p.1 p.2)

theorem readParams_mapNode (l : List (String × String)) (svc : AccountService) :
    readParams env (some (mapNode l)) svc =
      .ok { svc with params := TreeMap.insertAll svc.params l } := by
  rw [readParams, iter_mapNode]
  induction l generalizing svc with
  | nil => rfl
  | cons p l ih => exact ih { svc with params := svc.params.insert p.1 p.2 }

theorem readService_serviceNode {services : StrMap AccountService} {svcName : String}
    {svc : AccountService} (hreg : (env.pluginNamed svcName).isSome) (hnew : svcName ∉ services) :
    readService env services (.pair (.scalar svcName) (mapNode (plainParams svc))) =
      .ok (services.insert svcName (storedService env svcName svc)) := by
  have hinit : (({} : AccountService).init env svcName).inited = true := hreg
  have hget : services.getD svcName {} = ({} : AccountService) :=
    Std.ExtTreeMap.getD_eq_fallback hnew
  have hparams := TreeMap.insertAll_toList (svc.params.filter fun key _ => !svc.isProtected key)
  rw [← plainParams_eq] at hparams
  simp only [readService, IterValue.first, IterValue.second, YamlCpp.asString_scalar,
    readParams_mapNode, bind, Except.bind, hget]
  rw [if_neg (by rw [hinit]; decide), storedService, ← hparams]
  rfl

theorem readServices_sequence {l : List (String × AccountService)}
    {services : StrMap AccountService} (hl : (l.map Prod.fst).Nodup)
    (hreg : ∀ kv ∈ l, (env.pluginNamed kv.1).isSome) (hnew : ∀ kv ∈ l, kv.1 ∉ services) :
    readServices env (some (.sequence (l.map fun kv => serviceNode kv.1 kv.2))) services =
      .ok (TreeMap.insertAll services (l.map fun kv => (kv.1, storedService env kv.1 kv.2))) := by
  induction l generalizing services with
  | nil => rfl
  | cons kv l ih =>
    have hstep : (Node.iter (some (serviceNode kv.1 kv.2))).foldlM (readService env) services =
        .ok (services.insert kv.1 (storedService env kv.1 kv.2)) := by
      have : readService env services (.pair (.scalar kv.1) (mapNode (plainParams kv.2))) =
          .ok (services.insert kv.1 (storedService env kv.1 kv.2)) :=
        readService_serviceNode (hreg kv (by simp)) (hnew kv (by simp))
      simp [serviceNode, Node.mapping, Node.iter, this]
    simp only [List.map_cons, List.nodup_cons] at hl
    have hnew' : ∀ kv' ∈ l, kv'.1 ∉ services.insert kv.1 (storedService env kv.1 kv.2) := by
      intro kv' h'
      have hne : kv.1 ≠ kv'.1 := fun he => hl.1 (he ▸ List.mem_map_of_mem h')
      simp [Std.ExtTreeMap.mem_insert, hne, hnew kv' (by simp [h'])]
    rw [readServices, Node.iter, List.map_cons, List.map_cons, List.foldlM_cons, IterValue.node,
      hstep]
    exact ih hl.2 (fun kv' h' => hreg kv' (by simp [h'])) hnew'

theorem document_plain (env : Env Text) (account : AccountObject) :
    (document env account).Plain := by
  have hmap : ∀ l : List (String × String), (mapNode l).Plain := fun l =>
    Node.plain_mapping fun e he => by
      obtain ⟨p, -, rfl⟩ := List.mem_map.1 he
      exact .scalar _
  refine Node.plain_mapping fun e he => ?_
  rw [List.mem_singleton] at he
  subst he
  refine Node.plain_mapping fun e he => ?_
  simp only [List.mem_cons, List.not_mem_nil, or_false] at he
  rcases he with rfl | rfl | rfl | rfl | rfl | rfl
  · exact .scalar _
  · exact .scalar _
  · exact .scalar _
  · exact Node.plain_bool _
  · exact hmap _
  · refine .sequence fun n hn => ?_
    obtain ⟨kv, -, rfl⟩ := List.mem_map.1 hn
    refine Node.plain_mapping fun e he => ?_
    rw [List.mem_singleton] at he
    subst he
    exact hmap _

theorem readDocument_document {account : AccountObject}
    (hreg : ∀ svcName ∈ account.services, (env.pluginNamed svcName).isSome) :
    readDocument env (document env account) {} = .ok (stored env account) := by
  have hsvc : readServices env (some (.sequence (account.services.toList.map fun kv =>
      serviceNode kv.1 kv.2))) ∅ = .ok (TreeMap.insertAll ∅ (account.services.toList.map fun kv =>
        (kv.1, storedService env kv.1 kv.2))) :=
    readServices_sequence (TreeMap.nodup_keys_toList _)
      (fun kv h => hreg kv.1 (TreeMap.mem_of_mem_toList h)) (fun kv _ => by simp)
  have hmap : account.services.toList.map (fun kv => (kv.1, storedService env kv.1 kv.2)) =
      (account.services.map (storedService env)).toList := Std.ExtTreeMap.toList_map.symm
  rw [hmap, TreeMap.insertAll_toList] at hsvc
  simp only [readDocument, document, Node.mapping, Node.subscript, Node.isKey, List.map_cons,
    List.map_nil, List.find?_cons]
  simp [bind, Except.bind, hsvc, readSettings_mapNode, stored, AccountObject.setId,
    AccountObject.idAsString]
  rfl

end AccountParser

end PxAccounts
