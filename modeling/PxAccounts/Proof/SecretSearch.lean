import PxAccounts.Proof.Endings
import PxAccounts.Proof.Tokens

/-!
# Secrets that come back

What a search makes of the items in a reply: the class is chosen by the schema seen while the list
of attributes is read, and asked for later by the schema in the map.  A text of a message counts up
to its first NUL.
-/

namespace PxAccounts

open Effect
open RPCHandler (NulFreeMap nulFreeMap_iff received)

variable {Text : Type} {env : Env Text}

/-- The schema of the items of a class. -/
def SecretClass.schema : SecretClass → String
  | .password => "password"
  | .dualPassword => "dual_password"
  | .oauth2 => "oauth2"

/-- The last value that the entries of a message give to a key. -/
def lastValue (entries : List (String × String)) (key : String) : Option String :=
  (entries.reverse.find? fun e => cStr e.1 == key).map fun e => cStr e.2

/-- The last schema of the item is that of a class. -/
def RPCSecretItem.KnownSchema (item : RPCSecretItem) : Prop :=
  lastValue item.attributes "schema" ∈
    [SecretClass.password, .dualPassword, .oauth2].map fun type => some type.schema

instance (item : RPCSecretItem) : Decidable item.KnownSchema :=
  inferInstanceAs (Decidable (_ ∈ _))

/-- The items in a reply to a search. -/
def RpcReply.items : RpcReply (List RPCSecretItem) → List RPCSecretItem
  | .result items => items
  | _ => []

/-- The dynamic type is the one that the schema stands for. -/
def SecretItemPtr.Typed (secret : SecretItemPtr) : Prop :=
  ∀ type : SecretClass, secret.item.is type.schema = true ↔ secret.type = type

/-- What is to be made of an item. -/
structure DecodedAs (item : RPCSecretItem) (secret : SecretItemPtr) : Prop where
  label : secret.item.label = cStr item.label
  attributes : ∀ key : String, secret.item.attributes[key]? = lastValue item.attributes key
  secrets : ∀ key : String, secret.item.secrets[key]? = lastValue item.secrets key
  typed : secret.Typed

/-! ## Decoding -/

theorem getElem?_received (m : StrStrMap) (entries : List (String × String)) (key : String) :
    (received m entries)[key]? = (lastValue entries key).or m[key]? := by
  induction entries using List.reverseRecOn with
  | nil => rfl
  | append_singleton entries e ih =>
    have hinsert : received m (entries ++ [e]) =
        (received m entries).insert (cStr e.1) (cStr e.2) := by
      rw [received, List.foldl_append]
      rfl
    rw [hinsert, lastValue, List.reverse_append, List.reverse_singleton, List.singleton_append,
      List.find?_cons]
    by_cases hkey : cStr e.1 = key
    · rw [hkey, beq_self_eq_true, Std.ExtTreeMap.getElem?_insert_self]
      rfl
    · rw [beq_eq_false_iff_ne.2 hkey, TreeMap.getElem?_insert_of_ne hkey, ih, lastValue]

theorem receivedMap_getElem? (entries : List (String × String)) (key : String) :
    (SecretManager.receivedMap entries)[key]? = lastValue entries key := by
  refine (getElem?_received ∅ entries key).trans ?_
  rw [Std.ExtTreeMap.getElem?_empty, Option.or_none]

theorem receivedSchema_eq_lastValue (attributes : List (String × String)) :
    SecretManager.receivedSchema attributes = (lastValue attributes "schema").getD "" := by
  rw [SecretManager.receivedSchema, receivedSchema_eq attributes ∅ "" rfl,
    Std.ExtTreeMap.getD_eq_getD_getElem?, getElem?_received, Std.ExtTreeMap.getElem?_empty,
    Option.or_none]

theorem classOfSchema_iff {schema : String} {type : SecretClass} :
    SecretManager.classOfSchema schema = some type ↔ schema = type.schema := by
  rw [SecretManager.classOfSchema]
  constructor
  · intro h
    split at h
    · next hschema =>
      cases h
      exact beq_iff_eq.1 hschema
    · split at h
      · next hschema =>
        cases h
        exact beq_iff_eq.1 hschema
      · split at h
        · next hschema =>
          cases h
          exact beq_iff_eq.1 hschema
        · cases h
  · rintro rfl
    cases type <;> rfl

theorem SecretClass.schema_inj {type type' : SecretClass} (h : type.schema = type'.schema) :
    type = type' :=
  Option.some.inj ((classOfSchema_iff.2 rfl).symm.trans (classOfSchema_iff.2 h))

theorem knownSchema_iff {item : RPCSecretItem} :
    item.KnownSchema ↔
      ∃ type : SecretClass, lastValue item.attributes "schema" = some type.schema := by
  constructor
  · intro h
    obtain ⟨type, -, htype⟩ := List.mem_map.1 h
    exact ⟨type, htype.symm⟩
  · rintro ⟨type, htype⟩
    exact List.mem_map.2 ⟨type, by cases type <;> simp, htype.symm⟩

theorem decodeItem_of_known {item : RPCSecretItem} (h : item.KnownSchema) :
    ∃ secret, SecretManager.decodeItem item = some secret ∧ DecodedAs item secret := by
  obtain ⟨type, htype⟩ := knownSchema_iff.1 h
  have hclass : SecretManager.classOfSchema (SecretManager.receivedSchema item.attributes) =
      some type := by
    rw [classOfSchema_iff, receivedSchema_eq_lastValue, htype, Option.getD_some]
  refine ⟨_, by rw [SecretManager.decodeItem, hclass]; rfl, rfl, receivedMap_getElem? _,
    receivedMap_getElem? _, fun type' => ?_⟩
  rw [SecretItem.is, SecretItem.schema, Std.ExtTreeMap.getD_eq_getD_getElem?, receivedMap_getElem?,
    htype, Option.getD_some, beq_iff_eq]
  exact ⟨SecretClass.schema_inj, fun he => congrArg SecretClass.schema he⟩

theorem decodeItem_of_unknown {item : RPCSecretItem} (h : ¬item.KnownSchema) :
    SecretManager.decodeItem item = none := by
  rw [SecretManager.decodeItem, Option.map_eq_none_iff]
  cases hclass : SecretManager.classOfSchema (SecretManager.receivedSchema item.attributes) with
  | none => rfl
  | some type =>
    rw [classOfSchema_iff, receivedSchema_eq_lastValue] at hclass
    refine absurd (knownSchema_iff.2 ⟨type, ?_⟩) h
    cases hlast : lastValue item.attributes "schema" with
    | none =>
      rw [hlast] at hclass
      exact absurd hclass (by cases type <;> decide)
    | some schema =>
      rw [hlast] at hclass
      exact congrArg some hclass

theorem decoded_items (items : List RPCSecretItem) :
    List.Forall₂ DecodedAs (items.filter fun item => item.KnownSchema)
      (items.filterMap SecretManager.decodeItem) := by
  induction items with
  | nil => exact .nil
  | cons item items ih =>
    by_cases h : item.KnownSchema
    · obtain ⟨secret, hdecode, hsecret⟩ := decodeItem_of_known h
      rw [List.filter_cons_of_pos (by simpa using h), List.filterMap_cons_some hdecode]
      exact .cons hsecret ih
    · rw [List.filter_cons_of_neg (by simpa using h), List.filterMap_cons_none
        (decodeItem_of_unknown h)]
      exact ih

/-! ## Logging -/

def World.say (w : World Text) (messages : List (LogLevel × String)) : World Text :=
  { w with log := w.log ++ messages }

theorem World.say_say (w : World Text) (messages messages' : List (LogLevel × String)) :
    (w.say messages).say messages' = w.say (messages ++ messages') := by
  rw [say, say, say, List.append_assoc]

/-- The program returns `a`, and only logs. -/
def Says {α : Type} (m : M Text α) (a : α) : Prop :=
  ∀ w, ∃ messages, m.run w = .ok a (w.say messages)

theorem says_pure {α : Type} (a : α) : Says (pure a : M Text α) a :=
  fun w => ⟨[], by rw [World.say, List.append_nil]; rfl⟩

theorem says_glog (level : LogLevel) (parts : List String) :
    Says (glog level parts : M Text Unit) () := fun _ => ⟨[(level, logMessage parts)], rfl⟩

theorem Says.bind {α β : Type} {m : M Text α} {f : α → M Text β} {a : α} {b : β} (hm : Says m a)
    (hf : Says (f a) b) : Says (m >>= f) b := by
  intro w
  obtain ⟨messages, hfirst⟩ := hm w
  obtain ⟨messages', hrest⟩ := hf (w.say messages)
  refine ⟨messages ++ messages', ?_⟩
  rw [EStateM.run_bind, hfirst]
  exact hrest.trans (by rw [World.say_say])

/-- Nothing but messages is added to what a first program leaves. -/
theorem Says.run_bind {α β : Type} {m : M Text α} {f : α → M Text β} {a : α} {b : β}
    {w w' : World Text} {messages : List (LogLevel × String)}
    (hm : m.run w = .ok a (w'.say messages)) (hf : Says (f a) b) :
    ∃ messages, (m >>= f).run w = .ok b (w'.say messages) := by
  obtain ⟨messages', hrest⟩ := hf (w'.say messages)
  refine ⟨messages ++ messages', ?_⟩
  rw [EStateM.run_bind, hm, ← World.say_say]
  exact hrest

theorem says_forM {α : Type} {f : α → M Text PUnit} {l : List α} (h : ∀ a, Says (f a) ⟨⟩) :
    Says (forM l f) ⟨⟩ := by
  induction l with
  | nil => exact says_pure _
  | cons a l ih =>
    rw [List.forM_cons]
    exact (h a).bind ih

/-! ## Searches -/

/-- Apart from its call a search only logs. -/
theorem run_search (env : Env Text) (attributes : StrStrMap) (w : World Text) :
    ∃ messages, (SecretManager.search env attributes).run w =
      .ok ((env.search w.tick attributes.toList w.secrets).items.filterMap SecretManager.decodeItem)
        ((w.record (.search attributes.toList
          (env.search w.tick attributes.toList w.secrets))).say messages) := by
  have hcall : (do
      glog .inf ["=========="]
      env.callSearch attributes.toList : M Text _).run w =
        .ok (env.search w.tick attributes.toList w.secrets)
          ((w.record (.search attributes.toList
            (env.search w.tick attributes.toList w.secrets))).say
              [(.inf, logMessage ["=========="])]) := rfl
  generalize env.search w.tick attributes.toList w.secrets = reply at hcall ⊢
  rw [SecretManager.search, ← bind_assoc]
  refine Says.run_bind hcall ?_
  cases reply with
  | unreachable description =>
    exact (says_glog _ _).bind ((says_glog _ _).bind ((says_glog _ _).bind (says_pure _)))
  | exception description => exact (says_pure _).bind ((says_glog _ _).bind (says_pure _))
  | result items =>
    refine (says_pure _).bind ((says_forM fun item => ?_).bind ((says_glog _ _).bind
      ((says_forM fun _ => says_glog _ _).bind (says_pure _))))
    split
    · exact says_glog _ _
    · exact says_pure _

theorem search_ok {attributes : StrStrMap} {secrets : List SecretItemPtr} {w w' : World Text}
    (hr : (SecretManager.search env attributes).run w = .ok secrets w') :
    secrets = (env.search w.tick attributes.toList w.secrets).items.filterMap
      SecretManager.decodeItem := by
  obtain ⟨messages, hrun⟩ := run_search env attributes w
  rw [hrun] at hr
  cases hr
  rfl

variable (env) in
theorem raises_search (attributes : StrStrMap) :
    Raises (fun _ => False) (SecretManager.search env attributes) := by
  intro w e w' hr
  obtain ⟨messages, hrun⟩ := run_search env attributes w
  rw [hrun] at hr
  cases hr

/-- A search gives back what the items with a known schema are to be made of, in the same order. -/
theorem search_decodes {attributes : StrStrMap} {secrets : List SecretItemPtr} {w w' : World Text}
    (hr : (SecretManager.search env attributes).run w = .ok secrets w') :
    List.Forall₂ DecodedAs
      ((env.search w.tick attributes.toList w.secrets).items.filter fun item => item.KnownSchema)
      secrets := by
  rw [search_ok hr]
  exact decoded_items _

theorem typed_of_decodeItem {item : RPCSecretItem} {secret : SecretItemPtr}
    (h : SecretManager.decodeItem item = some secret) : secret.Typed := by
  by_cases hknown : item.KnownSchema
  · obtain ⟨secret', hdecode, hdecoded⟩ := decodeItem_of_known hknown
    obtain rfl : secret = secret' := Option.some.inj (h.symm.trans hdecode)
    exact hdecoded.typed
  · rw [decodeItem_of_unknown hknown] at h
    cases h

theorem typed_of_search {attributes : StrStrMap} {secrets : List SecretItemPtr} {w w' : World Text}
    (hr : (SecretManager.search env attributes).run w = .ok secrets w') :
    ∀ secret ∈ secrets, secret.Typed := by
  intro secret hsecret
  rw [search_ok hr] at hsecret
  obtain ⟨item, -, hdecode⟩ := List.mem_filterMap.1 hsecret
  exact typed_of_decodeItem hdecode

/-! ## Casts -/

/-- No failed cast is dereferenced. -/
def castsSucceed : Ending Exn (Frame.eqOn fun _ : World Text => ()) where
  raised _ e _ := e ≠ .undefined "dynamic_cast"
  extend _ h := h

theorem records_unit : Records (Frame.eqOn fun _ : World Text => ()) where
  same _ := rfl
  record _ _ _ := rfl

theorem as_of_typed {secret : SecretItemPtr} (h : secret.Typed) {type : SecretClass}
    (his : secret.item.is type.schema = true) : secret.as type = .ok secret.item :=
  if_pos ((h type).1 his)

theorem matchSecret_casts {svcName key val : String} {secret : SecretItemPtr} (h : secret.Typed)
    {e : Exn} (hr : AccountService.matchSecret svcName key val secret = .error e) :
    e ≠ .undefined "dynamic_cast" := by
  rw [AccountService.matchSecret] at hr
  split at hr
  · split at hr
    · next hdual =>
      rw [as_of_typed h (show secret.item.is SecretClass.dualPassword.schema = true from hdual)]
        at hr
      rw [getMatchingPassword_error hr]
      decide
    · split at hr
      · next hpassword =>
        rw [as_of_typed h (show secret.item.is SecretClass.password.schema = true from hpassword)]
          at hr
        cases hr
      · cases hr
  · cases hr

theorem casts_loadSecret (svcName : String) {savedSecrets : List SecretItemPtr}
    (h : ∀ secret ∈ savedSecrets, secret.Typed) (param : ServiceParam) :
    Ends castsSucceed
      (AccountService.loadSecret svcName savedSecrets param : M Text ServiceParam) := by
  rw [AccountService.loadSecret]
  refine ends_ite (fun _ => ?_) fun _ => ends_pure _
  cases hfold : savedSecrets.foldlM (AccountService.matchSecret svcName param.key) param.val with
  | error e =>
    have hcasts : e ≠ .undefined "dynamic_cast" :=
      except_foldlM_error (E := fun e => e ≠ .undefined "dynamic_cast") savedSecrets
        (fun _ secret hsecret _ hr => matchSecret_casts (h secret hsecret) hr) hfold
    exact ends_throw fun _ => hcasts
  | ok val =>
    exact ends_ite (fun _ => (ends_glog records_unit _ _).bind fun _ => ends_pure _)
      fun _ => (ends_glog records_unit _ _).bind fun _ => ends_pure _

theorem casts_verifyParams (owner : Owner) (svc : AccountService) :
    Ends castsSucceed (svc.verifyParams env owner) := by
  rw [AccountService.verifyParams]
  cases svc.plugin with
  | none => exact (ends_glog records_unit _ _).bind fun _ => ends_pure _
  | some plugin =>
    have hverify : Ends castsSucceed (plugin.verify env svc.params) := by
      refine (ends_modifyGet fun _ => rfl).bind fun answer => ?_
      cases answer with
      | returned result => exact ends_pure _
      | raised what => exact ends_throw fun _ => by simp [castsSucceed]
      | errorAlreadySet what =>
        dsimp only
        cases plugin.type with
        | pythonPlugin => exact ends_pure _
        | cppPlugin => exact ends_throw fun _ => by simp [castsSucceed]
    have hderef : Ends castsSucceed (svc.derefAccount owner : M Text Owner) :=
      ends_ite (fun _ => ends_pure _) fun _ => ends_throw fun _ => by simp [castsSucceed]
    refine hverify.bind fun vResult => ends_ite (fun _ => ends_pure _) fun _ =>
      hderef.bind fun account => Ends.bind_ok (ends_search records_unit _) ?_
    intro savedSecrets w w' hsearch
    refine (ends_mapM fun param _ => casts_loadSecret svc.name (typed_of_search hsearch) param).bind
      fun params => ?_
    exact (ends_glog records_unit _ _).bind fun _ =>
      (ends_forM fun param _ => ends_glog records_unit _ _).bind fun _ => ends_pure _

/-! ## Items sent and returned -/

theorem decodeItem_of_nulFree {item : SecretItem} {type : SecretClass}
    (hschema : item.schema = type.schema) (hlabel : NulFree item.label)
    (hattributes : NulFreeMap item.attributes) (hsecrets : NulFreeMap item.secrets) :
    SecretManager.decodeItem item.toRpc = some { type, item } := by
  rw [decodeItem_toRpc ⟨hattributes, hsecrets⟩, classOfSchema_iff.2 hschema, cStr_of_nulFree hlabel]
  rfl

theorem sent_of_setSecret {item : SecretItem} {w : World Text} {sent : RPCSecretItem}
    {reply : RpcReply RPCSecretResult} (h : .setSecret sent reply ∈
      w.newCalls (final ((SecretManager.setSecret env item).run w))) : sent = item.toRpc := by
  let P : Call Text → Prop := fun c => ∀ sent reply, c = .setSecret sent reply → sent = item.toRpc
  have hF : Asking (callsOf P) :=
    { record := fun w c hc => callsOf_record rfl (by rintro sent reply rfl; exact hc.elim)
      log := fun w _ => ⟨[], by simp⟩ }
  have hset : Within (callsOf P) (env.callSetSecret item.toRpc) := fun w =>
    callsOf_record rfl (by rintro sent reply ⟨rfl, -⟩; rfl)
  obtain ⟨cs, hcs, hall⟩ := within_setSecret hF hset w
  rw [newCalls_eq hcs] at h
  exact hall _ h sent reply rfl

/-- A search gives back exactly the items with a known schema, in order and with the right type, so
that no cast of a verification fails, and an item that was sent comes back as it was unless a text
in it has a NUL. -/
theorem decoded_secrets (env : Env Text) :
    (∀ (attributes : StrStrMap) (w : World Text), ∃ secrets w',
      (SecretManager.search env attributes).run w = .ok secrets w' ∧ List.Forall₂ DecodedAs
        ((env.search w.tick attributes.toList w.secrets).items.filter fun item => item.KnownSchema)
        secrets) ∧
    (∀ (owner : Owner) (svc : AccountService) (w : World Text) e w',
      (svc.verifyParams env owner).run w = .error e w' → e ≠ .undefined "dynamic_cast") ∧
    ∀ (item : SecretItem) (type : SecretClass), item.schema = type.schema → NulFree item.label →
      NulFreeMap item.attributes → NulFreeMap item.secrets → ∀ (w : World Text) sent reply,
      .setSecret sent reply ∈ w.newCalls (final ((SecretManager.setSecret env item).run w)) →
      ∀ (attributes : StrStrMap) (w₁ : World Text) secrets w₂,
        (SecretManager.search env attributes).run w₁ = .ok secrets w₂ →
        sent ∈ (env.search w₁.tick attributes.toList w₁.secrets).items →
        { type, item } ∈ secrets := by
  refine ⟨fun attributes w => ?_, fun owner svc w e w' hr => ?_, ?_⟩
  · obtain ⟨secrets, w', hr⟩ := (raises_search env attributes).returns w
    exact ⟨secrets, w', hr, search_decodes hr⟩
  · exact (casts_verifyParams owner svc).raised w e w' hr
  · intro item type hschema hlabel hattributes hsecrets w sent reply hsent attributes w₁ secrets w₂
      hr hmem
    rw [sent_of_setSecret hsent] at hmem
    rw [search_ok hr]
    exact List.mem_filterMap.2
      ⟨item.toRpc, hmem, decodeItem_of_nulFree hschema hlabel hattributes hsecrets⟩

/-- The item in which a token with the secret is saved. -/
def tokenItem (secret : String) : SecretItem :=
  (AccountService.collectToken referenceEnv { id := 7, title := "Mail" } "mail" "password" ∅
    { passwordToken with secret }).getD "password" {}

/-- The item is sent to the secret service. -/
def tokenWorld (secret : String) : World YamlText :=
  final ((SecretManager.setSecret referenceEnv (tokenItem secret)).run { files := fun _ => ∅ })

theorem tokenItem_sent (secret : String) :
    ∃ reply, .setSecret (tokenItem secret).toRpc reply ∈
      World.newCalls { files := fun _ => ∅ } (tokenWorld secret) := by
  have haccepts : AcceptsAll referenceEnv := fun _ _ _ => rfl
  obtain ⟨w', hr⟩ := run_setSecret_of_accepts haccepts (tokenItem secret) { files := fun _ => ∅ }
  obtain ⟨reply, -, hsent⟩ := setSecret_accepts hr
  refine ⟨reply, ?_⟩
  rw [tokenWorld, hr]
  exact hsent

/-- A password without a NUL comes back. -/
theorem decoded_secrets_password : ∃ secrets w', (SecretManager.search referenceEnv ∅).run
      (tokenWorld "ann") = .ok secrets w' ∧
    { type := .password, item := tokenItem "ann" } ∈ secrets := by
  obtain ⟨hsearch, -, hreturned⟩ := decoded_secrets referenceEnv
  obtain ⟨secrets, w', hr, -⟩ := hsearch ∅ (tokenWorld "ann")
  obtain ⟨reply, hsent⟩ := tokenItem_sent "ann"
  have hattributes : NulFreeMap (tokenItem "ann").attributes := by
    rw [nulFreeMap_iff]
    unfold NulFree
    decide +kernel
  have hsecrets : NulFreeMap (tokenItem "ann").secrets := by
    rw [nulFreeMap_iff]
    unfold NulFree
    decide +kernel
  exact ⟨secrets, w', hr, hreturned (tokenItem "ann") .password (by decide +kernel)
    (by unfold NulFree; decide +kernel) hattributes hsecrets { files := fun _ => ∅ } _ reply hsent ∅
    _ secrets w' hr (by decide +kernel)⟩

/-- The password of a token is cut at a NUL on its way back. -/
theorem secret_is_cut : ¬∀ (env : Env YamlText) (item : SecretItem) (type : SecretClass),
    item.schema = type.schema → ∀ (w : World YamlText) sent reply,
    .setSecret sent reply ∈ w.newCalls (final ((SecretManager.setSecret env item).run w)) →
    ∀ (attributes : StrStrMap) (w₁ : World YamlText) secrets w₂,
      (SecretManager.search env attributes).run w₁ = .ok secrets w₂ →
      sent ∈ (env.search w₁.tick attributes.toList w₁.secrets).items →
        { type, item } ∈ secrets := by
  intro h
  let secret := String.ofList ['a', Char.ofNat 0, 'b']
  obtain ⟨secrets, w', hr⟩ := (raises_search referenceEnv ∅).returns (tokenWorld secret)
  obtain ⟨reply, hsent⟩ := tokenItem_sent secret
  have hmem := h referenceEnv (tokenItem secret) .password (by decide +kernel)
    { files := fun _ => ∅ } _ reply hsent ∅ _ secrets w' hr (by decide +kernel)
  rw [search_ok hr] at hmem
  exact absurd hmem (by decide +kernel)

end PxAccounts
