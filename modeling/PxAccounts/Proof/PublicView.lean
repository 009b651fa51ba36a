import PxAccounts.Proof.Lookups
import PxAccounts.Proof.Masking

/-!
# What is public

Two runs whose answers agree apart from protected values and secrets, compared in the files, statuses,
errors and events, as long as no lookup of a saved password is misspelt.
-/

namespace PxAccounts

open Effect

variable {Text : Type} {env : Env Text}

/-! ## Answers that agree apart from secrets -/

/-- The parameters differ at most in a protected value. -/
def ServiceParam.SamePublic (p q : ServiceParam) : Prop :=
  p.key = q.key ∧ p.isRequired = q.isRequired ∧ p.isProtected = q.isProtected ∧
    (p.isProtected = false → p.val = q.val)

instance (p q : ServiceParam) : Decidable (p.SamePublic q) :=
  inferInstanceAs (Decidable (_ ∧ _ ∧ _ ∧ _))

/-- The tokens differ at most in their secrets. -/
def SecretToken.SamePublic (a b : SecretToken) : Prop :=
  a.label = b.label ∧ a.attributes = b.attributes

instance (a b : SecretToken) : Decidable (a.SamePublic b) := inferInstanceAs (Decidable (_ ∧ _))

def VerifyResult.SamePublic (a b : VerifyResult) : Prop :=
  a.verified = b.verified ∧ a.errors = b.errors ∧
    List.Forall₂ ServiceParam.SamePublic a.params b.params

instance (a b : VerifyResult) : Decidable (a.SamePublic b) :=
  inferInstanceAs (Decidable (_ ∧ _ ∧ _))

def AuthResult.SamePublic (a b : AuthResult) : Prop :=
  a.authenticated = b.authenticated ∧ a.errors = b.errors ∧
    List.Forall₂ SecretToken.SamePublic a.tokens b.tokens

instance (a b : AuthResult) : Decidable (a.SamePublic b) :=
  inferInstanceAs (Decidable (_ ∧ _ ∧ _))

/-- The items found differ at most in their secrets. -/
def RPCSecretItem.SamePublic (a b : RPCSecretItem) : Prop :=
  a.label = b.label ∧ a.attributes = b.attributes

instance (a b : RPCSecretItem) : Decidable (a.SamePublic b) := inferInstanceAs (Decidable (_ ∧ _))

/-- Both requests to the secret service succeed, or neither does. -/
def SameSuccess (a b : RpcReply RPCSecretResult) : Prop :=
  (SecretManager.succeeded a).1 = (SecretManager.succeeded b).1

instance (a b : RpcReply RPCSecretResult) : Decidable (SameSuccess a b) :=
  inferInstanceAs (Decidable (_ = _))

theorem SameSuccess.refl (a : RpcReply RPCSecretResult) : SameSuccess a a := rfl

/-- The answers to two calls agree apart from protected values and secrets.  Those of a plugin to
`read`, `write` and `remove` are the same, as those of plugins that do not define them are. -/
def Call.samePublic : Call Text → Call Text → Bool
  | .uuidGenerate id, .uuidGenerate id' => id = id'
  | .verify _ _ a, .verify _ _ b => a.Similar VerifyResult.SamePublic b
  | .authenticate _ _ a, .authenticate _ _ b => a.Similar AuthResult.SamePublic b
  | .read _ _ a, .read _ _ b => a = b
  | .write _ _ _ a, .write _ _ _ b => a = b
  | .remove _ _ a, .remove _ _ b => a = b
  | .setSecret _ a, .setSecret _ b => SameSuccess a b
  | .search _ a, .search _ b => List.Forall₂ RPCSecretItem.SamePublic a.items b.items
  | .deleteSecret _ a, .deleteSecret _ b => SameSuccess a b
  | .writeFile _ _ a, .writeFile _ _ b => a = b
  | .removeFile _ a, .removeFile _ b => a = b
  | .emit _ a, .emit _ b => a = b
  | _, _ => true

/-! ## Misspelt lookups -/

/-- A saved password of the service with the attribute `user_password_key`, in which
`user_pasword_key` is looked up without being there. -/
def Misspelt (svcName : String) (secret : SecretItemPtr) : Prop :=
  secret.item.attributes["service"]? = some svcName ∧ secret.item.is "dual_password" = true ∧
    "user_password_key" ∈ secret.item.attributes ∧ "user_pasword_key" ∉ secret.item.attributes

/-- A blank protected parameter was verified while such a password was found. -/
def MisspeltLookup (calls : List (Call Text)) : Prop :=
  ∃ before plugin params result attributes reply rest,
    calls = before ++ .verify plugin params (.returned result) :: .search attributes reply :: rest ∧
      (∃ param ∈ result.params, param.isProtected = true ∧ param.val = "") ∧
      ∃ secret ∈ reply.items.filterMap SecretManager.decodeItem, Misspelt plugin secret

/-- No lookup of a run of calls is misspelt, and corresponding answers agree. -/
structure Comparable (calls calls' : List (Call Text)) : Prop where
  answers : ∀ p ∈ calls.zip calls', p.1.samePublic p.2 = true
  lookups : ¬MisspeltLookup calls
  lookups' : ¬MisspeltLookup calls'

theorem MisspeltLookup.mono {calls calls' : List (Call Text)} (h : MisspeltLookup calls)
    (hpre : calls <+: calls') : MisspeltLookup calls' := by
  obtain ⟨before, plugin, params, result, attributes, reply, rest, rfl, hblank, hfound⟩ := h
  obtain ⟨after, rfl⟩ := hpre
  exact ⟨before, plugin, params, result, attributes, reply, rest ++ after, by simp, hblank, hfound⟩

theorem Comparable.mono {calls₁ calls₂ calls₁' calls₂' : List (Call Text)}
    (h : Comparable calls₂ calls₂') (h₁ : calls₁ <+: calls₂) (h₁' : calls₁' <+: calls₂') :
    Comparable calls₁ calls₁' where
  answers p hp := h.answers p (mem_zip_mono hp h₁ h₁')
  lookups hlookup := h.lookups (hlookup.mono h₁)
  lookups' hlookup := h.lookups' (hlookup.mono h₁')

def Event.untimed (event : Event) : Event := { event with time := 0 }

/-- What clients, the readers of the directories and the subscribers get to see, apart from the
times of events. -/
structure PublicView (Text : Type) where
  files : String → StrMap Text
  statDict : StrMap AccountStatus
  errors : StringList
  events : List Event

def World.publicView (w : World Text) : PublicView Text where
  files := w.files
  statDict := w.statDict
  errors := w.errors
  events := w.events.map Event.untimed

/-- The same is public after as many calls since `w₁` as since `w₂`. -/
structure SideBySide (w₁ w₂ s t : World Text) : Prop where
  view : s.publicView = t.publicView
  grown : w₁.calls <+: s.calls
  grown' : w₂.calls <+: t.calls
  count : (w₁.newCalls s).length = (w₂.newCalls t).length

section Steps

variable {w₁ w₂ : World Text}

theorem newCalls_record {w s : World Text} (h : w.calls <+: s.calls) {s' : World Text} {c : Call Text}
    (hcalls : s'.calls = s.calls ++ [c]) : w.newCalls s' = w.newCalls s ++ [c] := by
  rw [World.newCalls, World.newCalls, hcalls, World.tick,
    List.drop_append_of_le_length h.length_le]

theorem SideBySide.record {s t s' t' : World Text} {c d : Call Text} (h : SideBySide w₁ w₂ s t)
    (hs : s'.calls = s.calls ++ [c]) (ht : t'.calls = t.calls ++ [d])
    (hview : s'.publicView = t'.publicView) : SideBySide w₁ w₂ s' t' where
  view := hview
  grown := by
    rw [hs]
    exact h.grown.trans (List.prefix_append _ _)
  grown' := by
    rw [ht]
    exact h.grown'.trans (List.prefix_append _ _)
  count := by
    rw [newCalls_record h.grown hs, newCalls_record h.grown' ht, List.length_append,
      List.length_append, h.count]
    rfl

end Steps

end PxAccounts
