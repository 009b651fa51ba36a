import PxAccounts.Proof.DualPassword
import PxAccounts.Proof.PublicAccounts
import PxAccounts.Proof.RecordIds

/-!
# Protected values

Two sessions whose requests and answers agree apart from protected values and secrets leave the same
files, give the same replies and send the same events, as long as no misspelt attribute is looked up.
-/

namespace PxAccounts

open Effect AccountManager
open RPCHandler (decodeService rpc2act requestAccount requestId handle)

variable {Text : Type} {env : Env Text}

/-! ## Requests -/

/-- The same service with the same parameters, whose values may differ. -/
def RPCService.SameKeys (a b : RPCService) : Prop :=
  a.name = b.name ∧ a.params.map Prod.fst = b.params.map Prod.fst

def RPCAccount.SameKeys (a b : RPCAccount) : Prop :=
  b = { a with services := b.services } ∧ List.Forall₂ RPCService.SameKeys a.services b.services

/-- The requests agree except in the values of parameters. -/
def Request.SameKeys : Request → Request → Prop
  | .add (some a), .add (some b) => a.SameKeys b
  | .edit id (some a), .edit id' (some b) => id = id' ∧ a.SameKeys b
  | req, req' => req = req'

/-- A reply as far as it is shown to readers: `add` and `edit` give the account back to the writer.
-/
def Reply.shown : Reply → Option Reply
  | .saved .. => none
  | reply => some reply

section Decoding

end Decoding

/-! ## Handlers -/

section Handlers

variable {w₁ w₂ : World Text} {first second : Answers Text}

theorem sameKeys_refl (a : RPCAccount) : a.SameKeys a :=
  ⟨rfl, List.forall₂_same.2 fun _ _ => ⟨rfl, rfl⟩⟩

theorem Request.SameKeys.refl (req : Request) : req.SameKeys req := by
  cases req with
  | add account =>
    cases account with
    | none => rfl
    | some a => exact sameKeys_refl a
  | edit id account =>
    cases account with
    | none => rfl
    | some a => exact ⟨rfl, sameKeys_refl a⟩
  | list providerFilter serviceFilter => rfl
  | get id => rfl
  | setStatus id stat => rfl
  | getStatus id => rfl
  | remove id => rfl

end Handlers

/-! ## Sessions -/

/-- What readers see of a request: the reply or the exception, and afterwards the contents of the
directories and the events sent so far, apart from their times. -/
structure Disclosure (Text : Type) where
  reply : Except Exn (Option Reply)
  files : String → StrMap Text
  events : List Event

/-- What a request shows when it is answered in the state `w`. -/
def Request.disclosure (env : Env Text) (w : World Text) (req : Request) : Disclosure Text where
  reply :=
    match (handle env req).run w with
    | .ok reply _ => .ok reply.shown
    | .error e _ => .error e
  files := (req.after env w).files
  events := (req.after env w).events.map Event.untimed

/-- The requests that are served one after the other, with what the service depends on besides its
configuration: the answers from outside and the state at the start. -/
structure Session (Text : Type) where
  answers : Answers Text
  start : World Text
  requests : List Request

/-- The state after the requests. -/
def afterRequests (env : Env Text) (w : World Text) (reqs : List Request) : World Text :=
  reqs.foldl (fun w req => req.after env w) w

/-- What is seen request by request. -/
def disclosures (env : Env Text) : World Text → List Request → List (Disclosure Text)
  | _, [] => []
  | w, req :: reqs => req.disclosure env w :: disclosures env (req.after env w) reqs

namespace Session

variable (x : Session Text) (env : Env Text)

def calls : List (Call Text) :=
  x.start.newCalls (afterRequests (env.answering x.answers) x.start x.requests)

def disclosures : List (Disclosure Text) :=
  PxAccounts.disclosures (env.answering x.answers) x.start x.requests

end Session

/-- The sessions start alike, and their requests and answers agree apart from protected values and
secrets. -/
structure Session.SamePublic (env : Env Text) (x y : Session Text) : Prop where
  start : x.start.publicView = y.start.publicView
  requests : List.Forall₂ Request.SameKeys x.requests y.requests
  answers : ∀ p ∈ (x.calls env).zip (y.calls env), p.1.samePublic p.2 = true

section Sessions

variable {w₁ w₂ : World Text} {first second : Answers Text}

end Sessions

end PxAccounts
