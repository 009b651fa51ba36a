import PxAccounts.Lib.Pieces
import PxAccounts.Model.World

/-!
# The plugin with a storage of its own

`cpp-custom-plugin` keeps the parameters of a service in a text file, one line for each of them.  The
name of the file is the id that goes back to the service.
-/

namespace PxAccounts

/-- What the loop over `std::getline` reads: a token ends at the delimiter or at the end of the stream,
and there is none left when the stream ends right after a delimiter. -/
def getlines (delim : Char) (stream : String) : List String :=
  (Pieces.parts delim stream.toList).map String.ofList

namespace CPPCustomPlugin

/-- The title that the constructor sets. -/
def title : String := "cpp-custom"

/-- `verify`, which leaves the two flags of a parameter as they happen to be. -/
def verify (flags : String → Bool × Bool) (params : StrStrMap) : VerifyResult where
  verified := true
  params := params.toList.map fun kv =>
    { key := kv.1, val := kv.2, isRequired := (flags kv.1).1, isProtected := (flags kv.1).2 }

/-- `authenticate`, the same for all parameters. -/
def authenticate (_params : ServiceParamList) : AuthResult where
  authenticated := true
  tokens := [
    { label := "password"
      secret := "token_value_1"
      attributes := ((∅ : StrStrMap).insert "username" "user1").insert "schema" "password" }]

/-! ## The files -/

/-- The file that is opened for an id: its name ends at the first NUL. -/
def filePath (id : String) : String := cStr (id ++ ".txt")

/-- The turn of the loop of `read` for one line. -/
def readLine (result : StrStrMap) (line : String) : StrStrMap :=
  match getlines '=' line with
  | [key, val] => result.insert key val
  | _ => result

/-- The loop of `read`. -/
def readText (text : String) : StrStrMap := (getlines '\n' text).foldl readLine ∅

/-- `read`, from the working directory of the service. -/
def read (dir : StrMap String) (id : String) : StrStrMap :=
  match dir[filePath id]? with
  | some text => readText text
  | none => ∅

/-- What `write` puts into the stream. -/
def fileText (params : ServiceParamList) : String :=
  String.join (params.map fun param => param.key ++ "=" ++ param.val ++ "\n")

/-- What a file holds after the stream is closed: nothing is said of a file that cannot be opened, or
of a text that is cut short. -/
def afterClose (outcome : WriteOutcome) (text : String) (old : Option String) : Option String :=
  match outcome with
  | .notOpened => old
  | .cutShort count => some (String.ofList (text.toList.take count))
  | .complete => some text

/-- `write`, with the id that `uuid_generate` gave. -/
def write (uuid : Libuuid) (id : Uuid) (outcome : WriteOutcome) (dir : StrMap String)
    (vResult : VerifyResult) (_aResult : AuthResult) : String × StrMap String :=
  let strId := uuid.unparseLower id
  (strId, dir.alter (filePath strId) (afterClose outcome (fileText vResult.params)))

/-- `remove`; `unlinks` says whether the file may be removed. -/
def remove (unlinks : Bool) (dir : StrMap String) (id : String) : Bool × StrMap String :=
  if filePath id ∈ dir ∧ unlinks then (true, dir.erase (filePath id)) else (false, dir)

/-! ## Calls of the plugin -/

/-- A call of one of the three methods, with what the plugin does not decide: the id that
`uuid_generate` gives, what becomes of the file, and whether it may be removed.  Calls of other plugins
come in between. -/
inductive Deed
  | reads (id : String)
  | writes (uuid : Uuid) (outcome : WriteOutcome) (vResult : VerifyResult) (aResult : AuthResult)
  | removes (unlinks : Bool) (id : String)
  | other (call : Call Unit)

/-- The call with the answer of the plugin, and the directory after it. -/
def perform (uuid : Libuuid) (dir : StrMap String) : Deed → Call Unit × StrMap String
  | .reads id => (.read title id (some (.returned (read dir id))), dir)
  | .writes id outcome vResult aResult =>
    let result := write uuid id outcome dir vResult aResult
    (.write title vResult aResult (some (.returned result.1)), result.2)
  | .removes unlinks id =>
    let result := remove unlinks dir id
    (.remove title id (some (.returned result.1)), result.2)
  | .other call => (call, dir)

end CPPCustomPlugin

end PxAccounts
