import PxAccounts.Lib.Couple
import PxAccounts.Proof.Endings

/-!
# Two runs

What two runs share whatever the relation between their states is: answers that agree, and the
programs that do not touch the state.
-/

namespace PxAccounts

open Effect

variable {Text : Type}

/-! ## Answers that agree -/

/-- The same configuration with other answers from outside. -/
def Env.answering (env : Env Text) (answers : Answers Text) : Env Text :=
  { env with toAnswers := answers }

section Answers

variable {α : Type} (R : α → α → Prop)

/-- Both answers are results, which are related, or they are the same exception. -/
def Answer.Similar : Answer α → Answer α → Prop
  | .returned a, .returned b => R a b
  | .errorAlreadySet what, .errorAlreadySet what' => what = what'
  | .raised what, .raised what' => what = what'
  | _, _ => False

instance [DecidableRel R] : DecidableRel (Answer.Similar R)
  | .returned a, .returned b => inferInstanceAs (Decidable (R a b))
  | .errorAlreadySet what, .errorAlreadySet what' => inferInstanceAs (Decidable (what = what'))
  | .raised what, .raised what' => inferInstanceAs (Decidable (what = what'))
  | .returned _, .errorAlreadySet _ => .isFalse id
  | .returned _, .raised _ => .isFalse id
  | .errorAlreadySet _, .returned _ => .isFalse id
  | .errorAlreadySet _, .raised _ => .isFalse id
  | .raised _, .returned _ => .isFalse id
  | .raised _, .errorAlreadySet _ => .isFalse id

/-- Both replies are results, which are related, or the same failure. -/
def RpcReply.Similar : RpcReply α → RpcReply α → Prop
  | .result a, .result b => R a b
  | .exception description, .exception description' => description = description'
  | .unreachable description, .unreachable description' => description = description'
  | _, _ => False

instance [DecidableRel R] : DecidableRel (RpcReply.Similar R)
  | .result a, .result b => inferInstanceAs (Decidable (R a b))
  | .exception d, .exception d' => inferInstanceAs (Decidable (d = d'))
  | .unreachable d, .unreachable d' => inferInstanceAs (Decidable (d = d'))
  | .result _, .exception _ => .isFalse id
  | .result _, .unreachable _ => .isFalse id
  | .exception _, .result _ => .isFalse id
  | .exception _, .unreachable _ => .isFalse id
  | .unreachable _, .result _ => .isFalse id
  | .unreachable _, .exception _ => .isFalse id

end Answers

theorem similar_refl {α : Type} {R : α → α → Prop} (hR : ∀ a, R a a) (answer : Answer α) :
    answer.Similar R answer := by
  cases answer with
  | returned a => exact hR a
  | errorAlreadySet what => rfl
  | raised what => rfl

theorem option_rel_refl {α : Type} {R : α → α → Prop} (hR : ∀ a, R a a) (o : Option α) :
    Option.Rel R o o := by
  cases o with
  | none => exact .none
  | some a => exact .some (hR a)

/-! ## Calls made in both runs -/

/-- Calls that correspond still do when both runs have gone on. -/
theorem mem_zip_mono {α β : Type} {l₁ l₂ : List α} {m₁ m₂ : List β} {p : α × β}
    (h : p ∈ l₁.zip m₁) (hl : l₁ <+: l₂) (hm : m₁ <+: m₂) : p ∈ l₂.zip m₂ := by
  obtain ⟨i, hi⟩ := List.mem_iff_getElem?.1 h
  obtain ⟨hi₁, hi₂⟩ := List.getElem?_zip_eq_some.1 hi
  obtain ⟨hlt₁, hget₁⟩ := List.getElem?_eq_some_iff.1 hi₁
  obtain ⟨hlt₂, hget₂⟩ := List.getElem?_eq_some_iff.1 hi₂
  refine List.mem_iff_getElem?.2 ⟨i, List.getElem?_zip_eq_some.2 ⟨?_, ?_⟩⟩
  · rw [List.prefix_iff_getElem?.1 hl i hlt₁, hget₁]
  · rw [List.prefix_iff_getElem?.1 hm i hlt₂, hget₂]

/-! ## Programs that do not touch the state -/

section Stateless

variable {C : Coupling (World Text) (World Text)} {svc svc' : AccountService}

theorem couples_passOn {α : Type} {R : α → α → Prop} (hR : ∀ a, R a a) (plugin : PluginContainer)
    (refused : String → α) {answer answer' : Answer α} (h : answer.Similar R answer') :
    Couples C R (passOn plugin refused answer : M Text α) (passOn plugin refused answer') := by
  cases answer with
  | returned a =>
    cases answer' with
    | returned b => exact couples_pure h
    | errorAlreadySet what => exact h.elim
    | raised what => exact h.elim
  | errorAlreadySet what =>
    cases answer' with
    | errorAlreadySet what' =>
      obtain rfl : what = what' := h
      rw [passOn]
      cases plugin.type with
      | pythonPlugin => exact couples_pure (hR _)
      | cppPlugin => exact couples_throw _
    | returned b => exact h.elim
    | raised what' => exact h.elim
  | raised what =>
    cases answer' with
    | raised what' =>
      obtain rfl : what = what' := h
      exact couples_throw _
    | returned b => exact h.elim
    | errorAlreadySet what' => exact h.elim

theorem couples_derefPlugin (h : svc.link = svc'.link) : Couples C Eq
    (svc.derefPlugin : M Text PluginContainer) svc'.derefPlugin := by
  have hplugin : svc.plugin = svc'.plugin := congrArg (fun link => link.2.2.1) h
  rw [AccountService.derefPlugin, AccountService.derefPlugin, hplugin]
  cases svc'.plugin with
  | none => exact couples_throw _
  | some plugin => exact couples_pure rfl

theorem couples_derefAccount (h : svc.link = svc'.link) (owner : Owner) :
    Couples C Eq (svc.derefAccount owner : M Text Owner) (svc'.derefAccount owner) := by
  have hset : svc.accountSet = svc'.accountSet := congrArg (fun link => link.2.1) h
  rw [AccountService.derefAccount, AccountService.derefAccount, hset]
  exact couples_ite (fun _ => couples_pure rfl) fun _ => couples_throw _

end Stateless

end PxAccounts
