import PxAccounts.Model.Reference
import PxAccounts.Proof.Endings

/-!
# What the service is asked for

Requests of clients and the creation of the default accounts at start-up, in any order and whatever
becomes of each.  None of them follows a null pointer to a plugin or to an account.
-/

namespace PxAccounts

open Effect AccountManager

variable {Text : Type} {env : Env Text}

inductive Demand
  | request (req : Request)
  | createAutoInitializingAccounts

/-- The handling of a demand, with the reply to a request. -/
def Demand.run (env : Env Text) : Demand → M Text (Option Reply)
  | .request req => do return some (← RPCHandler.handle env req)
  | .createAutoInitializingAccounts => do
    AccountManager.createAutoInitializingAccounts env
    return none

/-- How the demands end that are handled one after the other, whether they return or raise. -/
def Demand.runAll (env : Env Text) : World Text → List Demand →
    List (EStateM.Result Exn (World Text) (Option Reply))
  | _, [] => []
  | w, demand :: demands =>
    let result := (demand.run env).run w
    result :: runAll env (final result) demands

/-! ## Handlers -/

variable {F : Frame (World Text)} {V : Ending Exn F}

section Handlers

variable (hV : Admits env V) (hkj : ∀ w description, V.raised w (.kj description) w)
include hkj

theorem ends_kjAssert (condition : Bool) (description : String) :
    Ends V (kjAssert condition description : M Text Unit) :=
  ends_ite (fun _ => ends_pure _) fun _ => ends_throw fun w => hkj w description

theorem ends_requestId (id : Option String) (notSet invalid : String) :
    Ends V (RPCHandler.requestId env id notSet invalid) := by
  cases id with
  | none => exact ends_throw fun w => hkj w notSet
  | some strId => exact (ends_kjAssert hkj _ _).bind fun _ => ends_pure _

theorem ends_requestAccount (account : RPCAccount) :
    Ends V (RPCHandler.requestAccount env account) := by
  rw [RPCHandler.requestAccount]
  cases RPCHandler.rpc2act env account with
  | some act => exact ends_pure _
  | none => exact ends_throw fun w => hkj w _

omit hkj in
theorem requestAccount_ok {account : RPCAccount} {act : AccountObject} {w w' : World Text}
    (hr : (RPCHandler.requestAccount env account).run w = .ok act w') :
    Decoded env act ∧ w = w' := by
  rw [RPCHandler.requestAccount] at hr
  split at hr
  · next hact =>
    obtain ⟨rfl, hw⟩ := run_pure_ok.1 hr
    exact ⟨⟨account, hact⟩, hw⟩
  · cases hr

include hV in
theorem ends_handle (req : Request) : Ends V (RPCHandler.handle env req) := by
  have hF := hV.toRecords
  cases req with
  | list providerFilter serviceFilter =>
    exact (ends_sameCalls hF fun _ => by rfl).bind fun _ => ends_get.bind fun _ => ends_pure _
  | get id =>
    refine (ends_requestId hkj _ _ _).bind fun accountId => (ends_sameCalls hF fun _ => by rfl).bind
      fun _ => (ends_readAccount hF accountId).bind fun r => ?_
    cases r with
    | none => exact ends_get.bind fun _ => ends_throw fun w => hkj w _
    | some act => exact ends_pure _
  | setStatus id stat =>
    exact (ends_requestId hkj _ _ _).bind fun accountId => (ends_sameCalls hF fun _ => by rfl).bind
      fun _ => (ends_setStatus hV.toAdmitsUninited accountId stat).bind fun res =>
        (ends_kjAssert hkj _ _).bind fun _ => ends_pure _
  | getStatus id =>
    exact (ends_requestId hkj _ _ _).bind fun accountId => (ends_sameCalls hF fun _ => by rfl).bind
      fun _ => ends_get.bind fun _ => ends_pure _
  | add account =>
    cases account with
    | none => exact ends_throw fun w => hkj w _
    | some account =>
      refine (ends_requestAccount hkj account).bind_ok fun act w w₁ hact =>
        (ends_sameCalls hF fun _ => by rfl).bind fun _ => ?_
      exact (ends_createAccount hV (requestAccount_ok hact).1.allInited).bind fun r =>
        ends_get.bind fun _ => (ends_kjAssert hkj _ _).bind fun _ => ends_pure _
  | edit id account =>
    refine ends_ite (fun _ => ends_throw fun w => hkj w _) fun _ => ?_
    cases account with
    | none => exact ends_throw fun w => hkj w _
    | some account =>
      refine (ends_requestId hkj _ _ _).bind fun accountId =>
        (ends_requestAccount hkj account).bind_ok fun act w w₁ hact =>
          (ends_sameCalls hF fun _ => by rfl).bind fun _ => ?_
      exact (ends_modifyAccount hV accountId (requestAccount_ok hact).1.allInited).bind fun r =>
        (ends_kjAssert hkj _ _).bind fun _ => ends_get.bind fun _ => ends_pure _
  | remove id =>
    exact (ends_requestId hkj _ _ _).bind fun accountId => (ends_sameCalls hF fun _ => by rfl).bind
      fun _ => (ends_deleteAccount hV.toAdmitsUninited accountId).bind fun res => (ends_kjAssert hkj _ _).bind
        fun _ => ends_pure _

include hV in
theorem ends_demand (demand : Demand) : Ends V (demand.run env) := by
  cases demand with
  | request req => exact (ends_handle hV hkj req).bind fun _ => ends_pure _
  | createAutoInitializingAccounts =>
    exact (ends_createAutoInitializingAccounts hV).bind fun _ => ends_pure _

end Handlers

/-! ## Null pointers -/

/-- The exceptions that are no null dereference. -/
def nonNull : Ending Exn (callsFrame : Frame (World Text)) where
  raised _ e _ := ¬e.NullDereference
  extend _ h := h

theorem admits_nonNull : Admits env nonNull where
  toRecords := records_callsFrame
  answered {w w'} c _ h := by
    show w.calls <+: w'.calls
    rw [h]
    exact List.prefix_append _ _
  undefined _ _ h := h
  letOut _ _ _ _ h := by
    rcases h with h | h <;> cases h
  notInited _ _ h := by
    rcases h with h | h <;> cases h

theorem kj_nonNull (w : World Text) (description : String) :
    nonNull.raised w (.kj description) w := by
  rintro (h | h) <;> cases h

/-- In no sequence of requests and start-ups does a demand follow a null pointer to a plugin or to
the account of a service. -/
theorem no_null_dereference (env : Env Text) (w : World Text) (demands : List Demand) (e : Exn)
    (w' : World Text) (h : .error e w' ∈ Demand.runAll env w demands) : ¬e.NullDereference := by
  induction demands generalizing w with
  | nil => cases h
  | cons demand demands ih =>
    rcases List.mem_cons.1 h with hr | h
    · exact (ends_demand admits_nonNull kj_nonNull demand).raised w e w' hr.symm
    · exact ih _ h

/-- A directory with an account that names a service without a plugin. -/
def unknownServiceWorld : World YamlText where
  files := fun _ => (∅ : StrMap YamlText).insert (AccountParser.accountFile referenceEnv 7)
    (.whole (AccountParser.document referenceEnv
      { id := 7, title := "Chat", services := (∅ : StrMap AccountService).insert "chat" {} }))

/-- The account cannot be read, and the request is answered with an exception. -/
theorem no_null_dereference_unknown : ∃ e w', .error e w' ∈ Demand.runAll referenceEnv
    unknownServiceWorld [.request (.get (some (referenceEnv.uuidAsString 7)))] ∧
      ¬e.NullDereference := by
  have hnone : result? ((Demand.request (.get (some (referenceEnv.uuidAsString 7)))).run
      referenceEnv |>.run unknownServiceWorld) = none := by decide +kernel
  cases hr : ((Demand.request (.get (some (referenceEnv.uuidAsString 7)))).run
      referenceEnv).run unknownServiceWorld with
  | ok reply w' =>
    rw [hr] at hnone
    cases hnone
  | error e w' =>
    have hmem : .error e w' ∈ Demand.runAll referenceEnv unknownServiceWorld
        [.request (.get (some (referenceEnv.uuidAsString 7)))] := List.mem_singleton.2 hr.symm
    exact ⟨e, w', hmem, no_null_dereference referenceEnv unknownServiceWorld _ e w' hmem⟩

end PxAccounts
