import PxAccounts.Model.World

/-!
# File helpers

`PXUTILS::FILE` as far as the account files need it.
-/

namespace PxAccounts

variable {Text : Type}

namespace FILE

/-- `extpart`: what follows the last dot, unless the dot is the first character. -/
def extpart (fname : String) : String :=
  let rev := fname.toList.reverse
  match rev.dropWhile (· ≠ '.') with
  | [] | [_] => ""
  | _ => String.ofList (rev.takeWhile (· ≠ '.')).reverse

/-- `dirfiles`: the names in a directory with the extension `ext`, which may start with a dot. -/
def dirfiles (env : Env Text) (w : World Text) (path ext : String) : List String :=
  let ext := match ext.toList with
    | '.' :: rest => String.ofList rest
    | _ => ext
  (env.readdir (w.files path)).filter fun name => ext.isEmpty || extpart name == ext

/-- `exists`. -/
def fileExists (w : World Text) (path : AccountPath) : Bool := (w.fileAt path).isSome

/-- `remove`. -/
def remove (env : Env Text) (path : AccountPath) : M Text Bool := env.callRemoveFile path

/-- `write`: whatever becomes of the stream, the result is `true`. -/
def write (env : Env Text) (path : AccountPath) (data : Text) : M Text Bool := do
  let _ ← env.callWriteFile path data
  return true

end FILE

/-- The characters before the first `.yaml`, or all of them. -/
def beforeYaml : List Char → List Char
  | [] => []
  | c :: cs => if ".yaml".toList.isPrefixOf (c :: cs) then [] else c :: beforeYaml cs

/-- `actFile.substr(0, actFile.find(".yaml"))`. -/
def fileStem (actFile : String) : String := String.ofList (beforeYaml actFile.toList)

end PxAccounts
