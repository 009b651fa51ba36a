import PxAccounts.Proof.Reload
import PxAccounts.Proof.TwoRuns

/-!
# Masked secrets

Two runs whose answers agree up to the mask of the secrets in them.  Whatever the secrets are shown
masked in is logged alike: the tokens, the items to be saved and the items found.
-/

namespace PxAccounts

open Effect
open AccountService (collectToken tokenKeys)

variable {Text : Type} {env : Env Text}

/-! ## Answers that agree up to the mask -/

/-- The texts differ only in characters after the first. -/
def SameMask (s t : String) : Prop := s.length = t.length ∧ s.toList.head? = t.toList.head?

instance (s t : String) : Decidable (SameMask s t) := inferInstanceAs (Decidable (_ ∧ _))

/-- The parameters differ at most in a protected value, which has the same mask. -/
def ServiceParam.Similar (p q : ServiceParam) : Prop :=
  q = { p with val := q.val } ∧ SameMask p.val q.val ∧ (p.isProtected = false → p.val = q.val)

instance (p q : ServiceParam) : Decidable (p.Similar q) := inferInstanceAs (Decidable (_ ∧ _ ∧ _))

namespace ServiceParam.Similar

variable {p q : ServiceParam} (h : p.Similar q)
include h

theorem key_eq : q.key = p.key := by rw [h.1]

theorem isRequired_eq : q.isRequired = p.isRequired := by rw [h.1]

theorem isProtected_eq : q.isProtected = p.isProtected := by rw [h.1]

theorem defaultVal_eq : q.defaultVal = p.defaultVal := by rw [h.1]

end ServiceParam.Similar

/-- The tokens differ at most in their secrets, which have the same mask. -/
def SecretToken.Similar (a b : SecretToken) : Prop :=
  b = { a with secret := b.secret } ∧ SameMask a.secret b.secret

instance (a b : SecretToken) : Decidable (a.Similar b) := inferInstanceAs (Decidable (_ ∧ _))

def VerifyResult.Similar (a b : VerifyResult) : Prop :=
  b = { a with params := b.params } ∧ List.Forall₂ ServiceParam.Similar a.params b.params

instance (a b : VerifyResult) : Decidable (a.Similar b) := inferInstanceAs (Decidable (_ ∧ _))

def AuthResult.Similar (a b : AuthResult) : Prop :=
  b = { a with tokens := b.tokens } ∧ List.Forall₂ SecretToken.Similar a.tokens b.tokens

instance (a b : AuthResult) : Decidable (a.Similar b) := inferInstanceAs (Decidable (_ ∧ _))

/-- The items found differ at most in their secrets, which are read up to a NUL and have the same
mask then. -/
def RPCSecretItem.Similar (a b : RPCSecretItem) : Prop :=
  b = { a with secrets := b.secrets } ∧
    List.Forall₂ (fun e f => e.1 = f.1 ∧ SameMask (cStr e.2) (cStr f.2)) a.secrets b.secrets

instance (a b : RPCSecretItem) : Decidable (a.Similar b) := inferInstanceAs (Decidable (_ ∧ _))

/-- The answers to two calls of a verification agree up to the mask of the secrets. -/
def Call.similar : Call Text → Call Text → Bool
  | .verify _ _ a, .verify _ _ b => a.Similar VerifyResult.Similar b
  | .authenticate _ _ a, .authenticate _ _ b => a.Similar AuthResult.Similar b
  | .search _ a, .search _ b => a.Similar (List.Forall₂ RPCSecretItem.Similar) b
  | .setSecret _ a, .setSecret _ b => a = b
  | .write _ _ _ a, .write _ _ _ b => a = b
  | _, _ => true

/-! ## Masks -/

theorem SameMask.refl (s : String) : SameMask s s := ⟨rfl, rfl⟩

theorem SameMask.mask {s t : String} (h : SameMask s t) : maskString s = maskString t := by
  obtain ⟨hlength, hhead⟩ := h
  rw [← String.length_toList, ← String.length_toList] at hlength
  rw [maskString, maskString]
  generalize s.toList = l at hlength hhead ⊢
  generalize t.toList = l' at hlength hhead ⊢
  cases l with
  | nil =>
    cases l' with
    | nil => rfl
    | cons d ds => cases hhead
  | cons c cs =>
    cases l' with
    | nil => cases hhead
    | cons d ds =>
      cases hhead
      rw [List.length_cons, List.length_cons, Nat.add_right_cancel_iff] at hlength
      dsimp only
      rw [hlength]

theorem SameMask.eq_empty_iff {s t : String} (h : SameMask s t) : s = "" ↔ t = "" := by
  rw [← String.length_eq_zero_iff, ← String.length_eq_zero_iff, h.1]

/-- The values have the same masks, key by key. -/
def SameMasks (m m' : StrStrMap) : Prop := ∀ key : String, Option.Rel SameMask m[key]? m'[key]?

def maskMap (m : StrStrMap) : StrStrMap := m.map fun _ val => maskString val

theorem maskMap_insert (m : StrStrMap) (key val : String) :
    maskMap (m.insert key val) = (maskMap m).insert key (maskString val) :=
  TreeMap.map_insert _ m key val

theorem SameMasks.maskMap_eq {m m' : StrStrMap} (h : SameMasks m m') : maskMap m = maskMap m' := by
  refine Std.ExtTreeMap.ext_getElem? fun key => ?_
  rw [maskMap, maskMap, Std.ExtTreeMap.getElem?_map, Std.ExtTreeMap.getElem?_map]
  have hkey := h key
  generalize m[key]? = val at hkey ⊢
  generalize m'[key]? = val' at hkey ⊢
  cases hkey with
  | none => rfl
  | some hval => exact congrArg some hval.mask

theorem SameMasks.insert {m m' : StrStrMap} (h : SameMasks m m') (key : String) {val val' : String}
    (hval : SameMask val val') : SameMasks (m.insert key val) (m'.insert key val') := by
  intro k
  rw [Std.ExtTreeMap.getElem?_insert, Std.ExtTreeMap.getElem?_insert]
  split
  · exact .some hval
  · exact h k

namespace SecretItem

/-- The item as it is shown. -/
def masked (s : SecretItem) : SecretItem := { s with secrets := maskMap s.secrets }

theorem toString_of_masked {s t : SecretItem} (h : s.masked = t.masked) (pretty : Bool) :
    s.toString pretty = t.toString pretty := by
  have hfields : s.label = t.label ∧ maskMap s.secrets = maskMap t.secrets ∧
      s.attributes = t.attributes := by
    rw [masked, masked, SecretItem.mk.injEq] at h
    exact h
  have hentries : (maskMap s.secrets).toList = (maskMap t.secrets).toList := by rw [hfields.2.1]
  rw [maskMap, maskMap, Std.ExtTreeMap.toList_map, Std.ExtTreeMap.toList_map] at hentries
  have hshown : ∀ sep₁ sep₂ : String,
      s.secrets.toList.map (fun a => sep₂ ++ "[" ++ a.1 ++ ":" ++ maskString a.2 ++ "]" ++ sep₁) =
        t.secrets.toList.map
          fun a => sep₂ ++ "[" ++ a.1 ++ ":" ++ maskString a.2 ++ "]" ++ sep₁ := by
    intro sep₁ sep₂
    have hmap := congrArg
      (List.map fun a : String × String => sep₂ ++ "[" ++ a.1 ++ ":" ++ a.2 ++ "]" ++ sep₁) hentries
    rw [List.map_map, List.map_map] at hmap
    exact hmap
  unfold SecretItem.toString
  rw [hfields.1, hfields.2.2]
  exact congrArg (fun shown => _ ++ String.join shown) (hshown _ _)

end SecretItem

/-- The secrets found differ at most in their values, which have the same masks. -/
def SecretItemPtr.Similar (a b : SecretItemPtr) : Prop :=
  b = { a with item := { a.item with secrets := b.item.secrets } } ∧
    SameMasks a.item.secrets b.item.secrets

theorem SecretItemPtr.Similar.masked {a b : SecretItemPtr} (h : a.Similar b) :
    a.item.masked = b.item.masked := by
  rw [h.1]
  exact congrArg (fun secrets => { a.item with secrets : SecretItem }) h.2.maskMap_eq

theorem sameMasks_receivedMap {entries entries' : List (String × String)}
    (h : List.Forall₂ (fun e f => e.1 = f.1 ∧ SameMask (cStr e.2) (cStr f.2)) entries entries') :
    SameMasks (SecretManager.receivedMap entries) (SecretManager.receivedMap entries') := by
  have hfold : ∀ m m' : StrStrMap, SameMasks m m' →
      SameMasks (entries.foldl (fun m e => m.insert (cStr e.1) (cStr e.2)) m)
        (entries'.foldl (fun m e => m.insert (cStr e.1) (cStr e.2)) m') := by
    induction h with
    | nil => exact fun _ _ hm => hm
    | cons he _ ih =>
      intro m m' hm
      rw [List.foldl_cons, List.foldl_cons, ← he.1]
      exact ih _ _ (hm.insert _ he.2)
  refine hfold ∅ ∅ fun key => ?_
  rw [Std.ExtTreeMap.getElem?_empty]
  exact .none

theorem decodeItem_similar {a b : RPCSecretItem} (h : a.Similar b) :
    Option.Rel SecretItemPtr.Similar (SecretManager.decodeItem a) (SecretManager.decodeItem b) := by
  rw [h.1, SecretManager.decodeItem, SecretManager.decodeItem]
  cases SecretManager.classOfSchema (SecretManager.receivedSchema a.attributes) with
  | none => exact .none
  | some type => exact .some ⟨rfl, sameMasks_receivedMap h.2⟩

def SecretToken.masked (token : SecretToken) : SecretToken :=
  { token with secret := maskString token.secret }

/-- The items collected so far, as they are shown. -/
def maskItems (items : StrMap SecretItem) : StrMap SecretItem := items.map fun _ item => item.masked

/-- Collecting masked tokens gives masked items. -/
theorem maskItems_collectToken (account : Owner) (svcName schema : String)
    (items : StrMap SecretItem) (token : SecretToken) :
    maskItems (collectToken env account svcName schema items token) =
      collectToken env account svcName schema (maskItems items) token.masked := by
  have hitem : ∀ key : String, (maskItems items).getD key {} = (items.getD key {}).masked := by
    intro key
    rw [maskItems, Std.ExtTreeMap.getD_eq_getD_getElem?, Std.ExtTreeMap.getD_eq_getD_getElem?,
      Std.ExtTreeMap.getElem?_map]
    cases items[key]? with
    | some item => rfl
    | none =>
      have hempty : maskMap ∅ = ∅ := Std.ExtTreeMap.map_eq_empty_iff.2 rfl
      exact congrArg (fun secrets => { secrets := secrets : SecretItem }) hempty.symm
  unfold collectToken
  dsimp only
  rw [hitem, maskItems, TreeMap.map_insert]
  refine congrArg ((maskItems items).insert _) ?_
  unfold SecretItem.updateAttributes SecretItem.masked SecretToken.masked
  dsimp only
  rw [maskMap_insert]
  rfl

theorem map_masked_of_maskItems {items items' : StrMap SecretItem}
    (h : maskItems items = maskItems items') :
    (items.toList.map Prod.snd).map SecretItem.masked =
      (items'.toList.map Prod.snd).map SecretItem.masked := by
  have hvalues : (maskItems items).toList.map Prod.snd = (maskItems items').toList.map Prod.snd := by
    rw [h]
  rw [maskItems, maskItems, Std.ExtTreeMap.toList_map, Std.ExtTreeMap.toList_map, List.map_map,
    List.map_map] at hvalues
  rw [List.map_map, List.map_map]
  exact hvalues

theorem SecretToken.Similar.masked {a b : SecretToken} (h : a.Similar b) : a.masked = b.masked := by
  rw [h.1]
  exact congrArg (fun secret => { a with secret : SecretToken }) h.2.mask

/-! ## Two runs -/

namespace World

/-- What was logged between two states of a run. -/
def newLog (w w' : World Text) : List (LogLevel × String) := w'.log.drop w.log.length

/-- The state `s` comes after `w`, with these calls and messages. -/
structure Follows (w s : World Text) (calls : List (Call Text))
    (messages : List (LogLevel × String)) : Prop where
  calls_eq : s.calls = w.calls ++ calls
  log_eq : s.log = w.log ++ messages

variable {w s s' : World Text} {calls : List (Call Text)} {messages : List (LogLevel × String)}

theorem Follows.newCalls_eq (h : w.Follows s calls messages) : w.newCalls s = calls := by
  rw [newCalls, h.calls_eq, tick, List.drop_left]

theorem Follows.newLog_eq (h : w.Follows s calls messages) : w.newLog s = messages := by
  rw [newLog, h.log_eq, List.drop_left]

theorem Follows.trans {calls' : List (Call Text)} {messages' : List (LogLevel × String)}
    (h : w.Follows s calls messages) (h' : s.Follows s' calls' messages') :
    w.Follows s' (calls ++ calls') (messages ++ messages') where
  calls_eq := by rw [h'.calls_eq, h.calls_eq, List.append_assoc]
  log_eq := by rw [h'.log_eq, h.log_eq, List.append_assoc]

end World

/-- There were as many calls since `w₁` as since `w₂`, and the messages are the same just when `D`
holds; lost once two answers do not agree up to the mask. -/
def abreast (w₁ w₂ : World Text) (D : Prop) : Coupling (World Text) (World Text) where
  rel s t := ∃ calls₁ messages₁ calls₂ messages₂, w₁.Follows s calls₁ messages₁ ∧
    w₂.Follows t calls₂ messages₂ ∧ calls₁.length = calls₂.length ∧ (messages₁ = messages₂ ↔ D)
  lost s t := ∃ p ∈ (w₁.newCalls s).zip (w₂.newCalls t), p.1.similar p.2 = false

section Steps

variable {w₁ w₂ : World Text} {D : Prop}

theorem lost_of_growth {s s' t t' : World Text} (hs : s.calls <+: s'.calls)
    (ht : t.calls <+: t'.calls) (h : (abreast w₁ w₂ D).lost s t) :
    (abreast w₁ w₂ D).lost s' t' := by
  obtain ⟨p, hp, hsimilar⟩ := h
  exact ⟨p, mem_zip_mono hp (hs.drop w₁.tick) (ht.drop w₂.tick), hsimilar⟩

theorem abreast_glog (level : LogLevel) (parts : List String) :
    Couples (abreast w₁ w₂ D) Eq (glog level parts : M Text Unit) (glog level parts) := by
  refine couples_modifyGet (fun s t hst => .inl ⟨rfl, ?_⟩)
    (fun s t h => lost_of_growth (List.prefix_refl _) (List.prefix_refl _) h)
    fun s t h => lost_of_growth (List.prefix_refl _) (List.prefix_refl _) h
  obtain ⟨calls₁, messages₁, calls₂, messages₂, hs, ht, hlength, hD⟩ := hst
  have hlog : ∀ w : World Text, w.Follows { w with log := w.log ++ [(level, logMessage parts)] } []
      [(level, logMessage parts)] :=
    fun w => ⟨(List.append_nil _).symm, rfl⟩
  refine ⟨_, _, _, _, hs.trans (hlog s), ht.trans (hlog t), ?_, ?_⟩
  · rw [List.append_nil, List.append_nil, hlength]
  · rw [List.append_cancel_right_eq, hD]

/-- A call in both runs, whose answers are compared when they agree up to the mask. -/
theorem abreast_call {α β : Type} {A : α → β → Prop} {f : World Text → α × World Text}
    {g : World Text → β × World Text} {c d : World Text → Call Text}
    (hf : ∀ w : World Text, w.Follows (f w).2 [c w] [])
    (hg : ∀ w : World Text, w.Follows (g w).2 [d w] [])
    (h : ∀ s t, (c s).similar (d t) = true → A (f s).1 (g t).1) :
    Couples (abreast w₁ w₂ D) A (modifyGet f : M Text α) (modifyGet g : M Text β) := by
  have hgrows : ∀ {w w' : World Text} {c : Call Text}, w.Follows w' [c] [] →
      w.calls <+: w'.calls := by
    intro w w' c hfollows
    rw [hfollows.calls_eq]
    exact List.prefix_append _ _
  refine couples_modifyGet (fun s t hst => ?_)
    (fun s t h => lost_of_growth (hgrows (hf s)) (List.prefix_refl _) h)
    fun s t h => lost_of_growth (List.prefix_refl _) (hgrows (hg t)) h
  obtain ⟨calls₁, messages₁, calls₂, messages₂, hs, ht, hlength, hD⟩ := hst
  have hs' := hs.trans (hf s)
  have ht' := ht.trans (hg t)
  cases hsimilar : (c s).similar (d t) with
  | true =>
    refine .inl ⟨h s t hsimilar, _, _, _, _, hs', ht', ?_, ?_⟩
    · rw [List.length_append, List.length_append, hlength]
      rfl
    · rw [List.append_nil, List.append_nil, hD]
  | false =>
    refine .inr ⟨(c s, d t), ?_, hsimilar⟩
    rw [hs'.newCalls_eq, ht'.newCalls_eq, List.zip_append hlength]
    exact List.mem_append_right _ (List.mem_singleton_self _)

end Steps

/-! ## Parts of a verification -/

section Parts

variable {w₁ w₂ : World Text} {D : Prop} {first second : Answers Text}

/-- The two sources of answers lead to results that are related. -/
abbrev InStep {α β : Type} (env : Env Text) (first second : Answers Text) (w₁ w₂ : World Text)
    (D : Prop) (A : α → β → Prop) (m : Env Text → M Text α) (m' : Env Text → M Text β) : Prop :=
  Couples (abreast w₁ w₂ D) A (m (env.answering first)) (m' (env.answering second))

theorem authResult_similar_refl (a : AuthResult) : a.Similar a :=
  ⟨rfl, List.forall₂_same.2 fun _ _ => ⟨rfl, SameMask.refl _⟩⟩

theorem items_similar_refl (reply : RpcReply (List RPCSecretItem)) :
    reply.Similar (List.Forall₂ RPCSecretItem.Similar) reply := by
  cases reply with
  | unreachable description => rfl
  | exception description => rfl
  | result items =>
    exact List.forall₂_same.2 fun _ _ =>
      ⟨rfl, List.forall₂_same.2 fun _ _ => ⟨rfl, SameMask.refl _⟩⟩

theorem abreast_logUnreachable {α : Type} {R : α → α → Prop} {reply reply' : RpcReply α}
    (h : reply.Similar R reply') : Couples (abreast w₁ w₂ D) Eq
      (SecretManager.logUnreachable reply : M Text Unit) (SecretManager.logUnreachable reply') := by
  cases reply with
  | unreachable description =>
    cases reply' with
    | unreachable description' =>
      obtain rfl : description = description' := h
      exact abreast_glog _ _
    | exception description' => exact h.elim
    | result b => exact h.elim
  | exception description =>
    cases reply' with
    | exception description' => exact couples_pure rfl
    | unreachable description' => exact h.elim
    | result b => exact h.elim
  | result a =>
    cases reply' with
    | result b => exact couples_pure rfl
    | unreachable description' => exact h.elim
    | exception description' => exact h.elim

/-- The secrets that two searches find, with what they log. -/
theorem abreast_search (attributes : StrStrMap) :
    InStep env first second w₁ w₂ D (List.Forall₂ SecretItemPtr.Similar)
      (fun env => SecretManager.search env attributes)
      (fun env => SecretManager.search env attributes) := by
  have hcall : InStep env first second w₁ w₂ D
      (fun a b => a.Similar (List.Forall₂ RPCSecretItem.Similar) b)
      (fun env => env.callSearch attributes.toList) (fun env => env.callSearch attributes.toList) :=
    abreast_call (fun _ => ⟨rfl, (List.append_nil _).symm⟩)
      (fun _ => ⟨rfl, (List.append_nil _).symm⟩) fun _ _ h => of_decide_eq_true h
  refine (abreast_glog _ _).bind fun _ => hcall.bind_rel items_similar_refl fun reply reply' h =>
    (abreast_logUnreachable h).bind fun _ => ?_
  cases reply with
  | unreachable description =>
    cases reply' with
    | unreachable description' =>
      exact (abreast_glog _ _).bind fun _ => (abreast_glog _ _).bind fun _ => couples_pure .nil
    | exception description' => exact h.elim
    | result items' => exact h.elim
  | exception description =>
    cases reply' with
    | exception description' => exact (abreast_glog _ _).bind fun _ => couples_pure .nil
    | unreachable description' => exact h.elim
    | result items' => exact h.elim
  | result items =>
    cases reply' with
    | unreachable description' => exact h.elim
    | exception description' => exact h.elim
    | result items' =>
      have hsecrets : List.Forall₂ SecretItemPtr.Similar
          (items.filterMap SecretManager.decodeItem) (items'.filterMap SecretManager.decodeItem) :=
        List.rel_filterMap (fun _ _ hab => decodeItem_similar hab) h
      dsimp only
      rw [hsecrets.length_eq]
      refine (couples_forM_rel h fun a b hab => ?_).bind fun _ => (abreast_glog _ _).bind fun _ =>
        (couples_forM_rel hsecrets fun a b hab => ?_).bind fun _ => couples_pure hsecrets
      · have hnone : (SecretManager.decodeItem b).isNone = (SecretManager.decodeItem a).isNone := by
          have hdecode := decodeItem_similar hab
          generalize SecretManager.decodeItem a = r at hdecode ⊢
          generalize SecretManager.decodeItem b = r' at hdecode ⊢
          cases hdecode <;> rfl
        have hattributes : b.attributes = a.attributes := by rw [hab.1]
        rw [hnone, hattributes]
        exact couples_ite (fun _ => abreast_glog _ _) fun _ => couples_pure rfl
      · rw [SecretItem.toString_of_masked hab.masked]
        exact abreast_glog _ _

/-- The results are related, and what `init` set in the services is the same. -/
def Linked {α β : Type} (R : α → β → Prop) (r : α × AccountService) (r' : β × AccountService) :
    Prop :=
  R r.1 r'.1 ∧ r.2.link = r'.2.link

variable {svc svc' : AccountService}

theorem abreast_authenticate (h : svc.link = svc'.link) (vResult vResult' : VerifyResult) :
    InStep env first second w₁ w₂ D (Linked (Option.Rel AuthResult.Similar))
      (fun env => svc.authenticate env vResult) (fun env => svc'.authenticate env vResult') := by
  have hcall : ∀ plugin : PluginContainer, InStep env first second w₁ w₂ D AuthResult.Similar
      (fun env => plugin.authenticate env vResult.params)
      (fun env => plugin.authenticate env vResult'.params) := by
    intro plugin
    dsimp only [InStep]
    rw [authenticate_eq, authenticate_eq]
    refine Couples.bind_rel (similar_refl authResult_similar_refl) ?_ fun _ _ hanswer =>
      couples_passOn authResult_similar_refl plugin _ hanswer
    exact abreast_call (fun _ => ⟨rfl, (List.append_nil _).symm⟩)
      (fun _ => ⟨rfl, (List.append_nil _).symm⟩) fun _ _ h => of_decide_eq_true h
  refine (couples_derefPlugin h).bind fun plugin =>
    (hcall plugin).bind_rel authResult_similar_refl fun aResult aResult' ha => ?_
  have herrors : aResult'.errors = aResult.errors := by rw [ha.1]
  have hauthenticated : aResult'.authenticated = aResult.authenticated := by rw [ha.1]
  rw [herrors, hauthenticated]
  refine couples_ite (fun _ => couples_pure ⟨.none, h⟩) fun _ => (abreast_glog _ _).bind fun _ =>
    (couples_forM_rel ha.2 fun a b hab => ?_).bind fun _ => couples_pure ⟨.some ha, h⟩
  have hlabel : b.label = a.label := by rw [hab.1]
  have hattributes : b.attributes = a.attributes := by rw [hab.1]
  rw [hlabel, hattributes, hab.2.mask]
  exact (abreast_glog _ _).bind fun _ => couples_forM fun _ _ => abreast_glog _ _

/-- The items collected are shown alike. -/
theorem abreast_collectStep (owner : Owner) {state state' : StrMap SecretItem × AccountService}
    (hstate : Linked (fun items items' => maskItems items = maskItems items') state state')
    {token token' : SecretToken} (htoken : token.Similar token') :
    InStep env first second w₁ w₂ D
      (Linked fun items items' => maskItems items = maskItems items')
      (fun env => AccountService.collectStep env owner state token)
      (fun env => AccountService.collectStep env owner state' token') := by
  obtain ⟨items, svc⟩ := state
  obtain ⟨items', svc'⟩ := state'
  obtain ⟨hitems, hlink⟩ := hstate
  dsimp only at hitems hlink
  have hlabel : token'.label = token.label := by rw [htoken.1]
  have hattributes : token'.attributes = token.attributes := by rw [htoken.1]
  have hname : svc'.name = svc.name := (congrArg Prod.fst hlink).symm
  dsimp only [InStep]
  unfold AccountService.collectStep
  dsimp only
  rw [hlabel, hattributes, hname]
  cases token.attributes["schema"]? with
  | none => exact (abreast_glog _ _).bind fun _ => couples_pure ⟨hitems, hlink⟩
  | some schema =>
    refine (abreast_glog _ _).bind fun _ => (couples_derefAccount hlink owner).bind
      fun account => couples_pure ⟨?_, hlink⟩
    dsimp only
    rw [maskItems_collectToken, maskItems_collectToken, hitems, htoken.masked]
    rfl

theorem abreast_setSecret (item item' : SecretItem) : InStep env first second w₁ w₂ D Eq
    (fun env => SecretManager.setSecret env item)
    (fun env => SecretManager.setSecret env item') := by
  have hcall : InStep env first second w₁ w₂ D Eq (fun env => env.callSetSecret item.toRpc)
      (fun env => env.callSetSecret item'.toRpc) :=
    abreast_call (fun _ => ⟨rfl, (List.append_nil _).symm⟩)
      (fun _ => ⟨rfl, (List.append_nil _).symm⟩) fun _ _ h => of_decide_eq_true h
  refine (abreast_glog _ _).bind fun _ => hcall.bind fun reply => ?_
  have hlog : Couples (abreast w₁ w₂ D) Eq (SecretManager.logUnreachable reply : M Text Unit)
      (SecretManager.logUnreachable reply) := by
    cases reply with
    | unreachable description => exact abreast_glog _ _
    | exception description => exact couples_pure rfl
    | result r => exact couples_pure rfl
  exact hlog.bind fun _ => couples_ite (fun _ => (abreast_glog _ _).bind fun _ => couples_pure rfl)
    fun _ => couples_pure rfl

theorem abreast_saveItems {items items' : List SecretItem}
    (h : items.map SecretItem.masked = items'.map SecretItem.masked) :
    InStep env first second w₁ w₂ D Eq (fun env => AccountService.saveItems env items)
      (fun env => AccountService.saveItems env items') := by
  induction items generalizing items' with
  | nil =>
    obtain rfl : items' = [] := List.map_eq_nil_iff.1 h.symm
    exact couples_pure rfl
  | cons item items ih =>
    cases items' with
    | nil => cases h
    | cons item' items' =>
      rw [List.map_cons, List.map_cons, List.cons.injEq] at h
      dsimp only [InStep]
      unfold AccountService.saveItems
      rw [SecretItem.toString_of_masked h.1]
      exact (abreast_glog _ _).bind fun _ => (abreast_setSecret item item').bind fun saved =>
        couples_ite (fun _ => ih h.2) fun _ => (abreast_glog _ _).bind fun _ => couples_pure rfl

theorem abreast_saveProtectedParams (h : svc.link = svc'.link) (owner : Owner)
    {aResult aResult' : AuthResult} (ha : aResult.Similar aResult') :
    InStep env first second w₁ w₂ D (Linked Eq)
      (fun env => svc.saveProtectedParams env owner aResult)
      (fun env => svc'.saveProtectedParams env owner aResult') := by
  dsimp only [InStep]
  unfold AccountService.saveProtectedParams
  rw [ha.2.length_eq]
  refine (abreast_glog _ _).bind fun _ => Couples.bind_rel (fun _ => ⟨rfl, rfl⟩)
    (couples_foldlM_rel (fun _ => ⟨rfl, rfl⟩) ha.2
      (fun _ _ _ _ hstate htoken => abreast_collectStep owner hstate htoken) ⟨rfl, h⟩)
    fun state state' hstate => ?_
  obtain ⟨items, svc⟩ := state
  obtain ⟨items', svc'⟩ := state'
  refine (abreast_saveItems (map_masked_of_maskItems hstate.1)).bind fun saved =>
    couples_ite (fun _ => couples_pure ⟨rfl, hstate.2⟩) fun _ => couples_pure ⟨rfl, hstate.2⟩

theorem abreast_customWrite (h : svc.link = svc'.link) (vResult vResult' : VerifyResult)
    (aResult aResult' : AuthResult) : InStep env first second w₁ w₂ D (fun _ _ => True)
      (fun env => svc.customWrite env vResult aResult)
      (fun env => svc'.customWrite env vResult' aResult') := by
  have hcall : ∀ plugin : PluginContainer, InStep env first second w₁ w₂ D Eq
      (fun env => plugin.write env vResult aResult)
      (fun env => plugin.write env vResult' aResult') := by
    intro plugin
    refine Couples.bind ?_ fun answer => couples_pure rfl
    exact abreast_call (fun _ => ⟨rfl, (List.append_nil _).symm⟩)
      (fun _ => ⟨rfl, (List.append_nil _).symm⟩) fun _ _ h => of_decide_eq_true h
  refine (couples_derefPlugin h).bind fun plugin => (hcall plugin).bind fun result => ?_
  cases result with
  | ok pluginId => exact (abreast_glog _ _).bind fun _ => couples_pure trivial
  | error errMsg =>
    exact couples_ite (fun _ => (abreast_glog _ _).bind fun _ => couples_pure trivial)
      fun _ => couples_pure trivial

/-- What `verify` does once `_verifyParams` has returned. -/
def afterParams (env : Env Text) (owner : Owner) :
    Option VerifyResult × AccountService → M Text (Bool × AccountService)
  | (none, svc) => do
    glog .err ["parameter verification failed"]
    return (false, svc.addError "parameter verification failed")
  | (some vResult, svc) => do
    match ← svc.authenticate env vResult with
    | (none, svc) => return (false, svc)
    | (some aResult, svc) =>
      match ← svc.saveProtectedParams env owner aResult with
      | (false, svc) => return (false, svc)
      | (true, svc) => return (true, ← svc.customWrite env vResult aResult)

theorem verify_eq_afterParams (owner : Owner) (svc : AccountService) : svc.verify env owner =
    ({ svc with errors := [] } : AccountService).verifyParams env owner >>=
      afterParams env owner := by
  refine bind_congr fun r => ?_
  obtain ⟨_ | vResult, svc⟩ := r
  · rfl
  · rfl

/-- Nothing after `_verifyParams` logs a secret that is not masked. -/
theorem abreast_afterParams (owner : Owner)
    {r r' : Option VerifyResult × AccountService}
    (h : Linked (Option.Rel fun _ _ => True) r r') :
    InStep env first second w₁ w₂ D (fun _ _ => True) (fun env => afterParams env owner r)
      (fun env => afterParams env owner r') := by
  obtain ⟨o, svc⟩ := r
  obtain ⟨o', svc'⟩ := r'
  obtain ⟨hrel, hlink⟩ := h
  dsimp only at hrel hlink
  cases hrel with
  | none => exact (abreast_glog _ _).bind fun _ => couples_pure trivial
  | some _ =>
    refine (abreast_authenticate hlink _ _).bind_rel
      (fun _ => ⟨option_rel_refl authResult_similar_refl _, rfl⟩) fun r r' hr => ?_
    obtain ⟨o, svc⟩ := r
    obtain ⟨o', svc'⟩ := r'
    obtain ⟨hrel, hlink⟩ := hr
    dsimp only at hrel hlink
    cases hrel with
    | none => exact couples_pure trivial
    | some ha =>
      refine (abreast_saveProtectedParams hlink owner ha).bind_rel (fun _ => ⟨rfl, rfl⟩)
        fun r r' hr => ?_
      obtain ⟨saved, svc⟩ := r
      obtain ⟨saved', svc'⟩ := r'
      obtain ⟨hsaved, hlink⟩ := hr
      dsimp only at hsaved hlink
      subst hsaved
      cases saved with
      | false => exact couples_pure trivial
      | true =>
        exact (abreast_customWrite hlink _ _ _ _).bind_rel (fun _ => trivial)
          fun _ _ _ => couples_pure trivial

end Parts

end PxAccounts
