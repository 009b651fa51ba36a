import Mathlib

/-!
# Values

The data the service works on: string maps, uuids, what a plugin answers, secrets, account status
and events.  A `std::map` is an `ExtTreeMap`, which enumerates its entries in key order and is
determined by its lookups; a `std::string` is a `String`, one character for each byte.
-/

namespace PxAccounts

/-- `map<string, V>`. -/
abbrev StrMap (V : Type) := Std.ExtTreeMap String V

abbrev StrStrMap := StrMap String

abbrev StringList := List String

/-! ## Account ids -/

/-- `uuid_t`: sixteen bytes. -/
abbrev Uuid := BitVec 128

/-- What `uuid_clear` writes. -/
def Uuid.null : Uuid := 0#128

def uuidIsNull (id : Uuid) : Bool := id == Uuid.null

/-- The text form of a uuid, from libuuid: 36 characters, each a lower-case hexadecimal digit or a
hyphen, which `uuid_parse` reads back. -/
structure Libuuid where
  unparseLower : Uuid → String
  parse : String → Option Uuid
  parse_unparse : ∀ u, parse (unparseLower u) = some u
  unparse_length : ∀ u, (unparseLower u).toList.length = 36
  unparse_chars : ∀ u, ∀ c ∈ (unparseLower u).toList, c ∈ "0123456789abcdef-".toList

/-! ## Plugin interface -/

structure ServiceParam where
  key : String
  val : String
  isRequired : Bool := false
  isProtected : Bool := false
  defaultVal : String := ""
deriving DecidableEq

abbrev ServiceParamList := List ServiceParam

structure VerifyResult where
  verified : Bool := false
  params : ServiceParamList := []
  errors : StringList := []
deriving DecidableEq

structure SecretToken where
  label : String
  secret : String
  attributes : StrStrMap := ∅
deriving DecidableEq

structure AuthResult where
  authenticated : Bool := false
  tokens : List SecretToken := []
  errors : StringList := []
deriving DecidableEq

inductive PluginTypes
  | pythonPlugin
  | cppPlugin
deriving DecidableEq

/-- A registered plugin container: its type and the three attributes the service asks for. -/
structure PluginContainer where
  type : PluginTypes
  title : String
  autoInitialize : Bool := false
  maxInstanceCount : ℤ := -1
deriving DecidableEq

/-- What a call of a plugin method comes to: a Python exception is `errorAlreadySet`; `raised` is
any other `std::exception`, a result of the wrong Python type included. -/
inductive Answer (α : Type)
  | returned (a : α)
  | errorAlreadySet (what : String)
  | raised (what : String)
deriving DecidableEq

/-- A record in a plugin's own storage. -/
structure PluginRecord where
  plugin : String
  id : String
deriving DecidableEq

/-! ## Secrets -/

/-- `SecretItemBase`. -/
structure SecretItem where
  label : String := ""
  secrets : StrStrMap := ∅
  attributes : StrStrMap := ∅
deriving DecidableEq

/-- The classes derived from `SecretItemBase`. -/
inductive SecretClass
  | password
  | dualPassword
  | oauth2
deriving DecidableEq

/-- `SecretItemPtr`: an item with its dynamic type. -/
structure SecretItemPtr where
  type : SecretClass
  item : SecretItem
deriving DecidableEq

/-- `RPCSecretItem`, as it stands in a message. -/
structure RPCSecretItem where
  label : String
  attributes : List (String × String)
  secrets : List (String × String)
deriving DecidableEq

namespace RPCSecretItem

/-- The value of an attribute. -/
def attr (s : RPCSecretItem) (key : String) : Option String := s.attributes.lookup key

/-- The item carries all these attributes. -/
def Carries (s : RPCSecretItem) (attributes : List (String × String)) : Prop :=
  ∀ a ∈ attributes, s.attr a.1 = some a.2

instance (s : RPCSecretItem) (attributes : List (String × String)) :
    Decidable (s.Carries attributes) :=
  inferInstanceAs (Decidable (∀ a ∈ attributes, s.attr a.1 = some a.2))

end RPCSecretItem

/-- What a request to the secret service comes to: no connection, an exception, or a result. -/
inductive RpcReply (α : Type)
  | unreachable (description : String)
  | exception (description : String)
  | result (a : α)
deriving DecidableEq

/-- `RPCSecretResult`. -/
structure RPCSecretResult where
  success : Bool
  error : String := ""
deriving DecidableEq

/-! ## Status and events -/

/-- `AccountStatus`.  A status is cast from the number in a request, so it can also be one that is
not declared. -/
inductive AccountStatus
  | none
  | online
  | offline
  | error
  | undeclared (value : ℕ)
deriving DecidableEq

/-- `AccountStatusString`; `operator[]` of a map gives the empty string for a missing key. -/
def accountStatusString : AccountStatus → String
  | .none => "NONE"
  | .online => "ONLINE"
  | .offline => "OFFLINE"
  | .error => "ERROR"
  | .undeclared _ => ""

/-- The four statuses of the enumeration. -/
def AccountStatus.Declared (s : AccountStatus) : Prop := ∀ n, s ≠ .undeclared n

/-- `EventData`. -/
structure Event where
  topic : String
  source : String
  time : ℕ
  event : String
  params : StrStrMap
deriving DecidableEq

/-- What becomes of an event: `nng_dial` or `nng_send` fails, or it is sent. -/
inductive Delivery
  | dialFailed
  | sendFailed
  | sent
deriving DecidableEq

/-! ## Log lines -/

inductive LogLevel
  | err
  | wrn
  | inf
deriving DecidableEq

/-- `mask_string` with its default arguments. -/
def maskString (input : String) : String :=
  match input.toList with
  | [] => "XXX"
  | c :: cs => String.ofList (c :: List.replicate cs.length 'X')

/-- `Logger::log(head, rest...)` puts one blank between its arguments. -/
def logMessage (parts : List String) : String := String.intercalate " " parts

end PxAccounts
