import PxAccounts.Lib.Directory
import PxAccounts.Model.World

/-!
# Paths

`PXUTILS::FILE` and `PXUTILS::PATH` as far as they work on paths: their expansion by the shell, their
base directories, the making of directories, and lists of paths.
-/

namespace PxAccounts

/-- What `wordexp` comes to: an error, or the words of the expansion. -/
inductive Expansion
  | failed
  | words (words : List String)
deriving DecidableEq

/-- `wordexp`, with the characters that have a meaning for the shell.  Other characters are left as
they are, and the empty string has no words. -/
structure Shell where
  wordexp : String → Expansion
  isMeta : Char → Bool
  wordexp_plain : ∀ path, path ≠ "" → (∀ c ∈ path.toList, isMeta c = false) →
    wordexp path = .words [path]
  wordexp_empty : wordexp "" = .words []

/-- A shell that leaves letters, digits and a few signs as they are, and accepts nothing else. -/
def plainShell : Shell where
  wordexp path :=
    if path = "" then .words []
    else if path.toList.any fun c => !(c.isAlphanum || c ∈ "/._-".toList) then .failed
    else .words [path]
  isMeta c := !(c.isAlphanum || c ∈ "/._-".toList)
  wordexp_plain path hne hplain := by
    rw [if_neg hne, if_neg]
    simpa using hplain
  wordexp_empty := if_pos rfl

/-- `stat` and `mkdir`, which say whether they returned 0. -/
structure FileSystem (σ : Type) where
  stat : σ → String → Bool
  mkdir : σ → String → Bool × σ

/-- What a component of a path means. -/
def pathStep (component : List Char) : DirectoryTree.Step String :=
  if component = [] then .skip
  else if component = ['.'] then .here
  else if component = ['.', '.'] then .up
  else .down (String.ofList component)

/-- The components of a path. -/
def pathSteps (path : String) : List (DirectoryTree.Step String) :=
  (path.toList.splitOn '/').map pathStep

/-- A file system that is a tree, seen from the working directory `cwd`.  Slashes at the end of a
path and several slashes in a row are ignored. -/
def treeFileSystem (cwd : List String) : FileSystem (DirectoryTree.DirTree String) where
  stat t path := path ≠ "" && (t.walk (start path) (pathSteps path)).isSome
  mkdir t path := if path = "" then (false, t) else t.mkdir (start path) (pathSteps path)
where
  start (path : String) : List String := if path.toList.head? = some '/' then [] else cwd

/-- What keeps a call from returning: it never ends, or it makes a `string` from the null pointer
after the last word of `wordexp`. -/
inductive Halt
  | outOfFuel
  | nullWord
deriving DecidableEq

/-- `find`: the position of the first `c`. -/
def find (s : List Char) (c : Char) : Option ℕ := s.findIdx? (· == c)

/-- `rfind`: the position of the last `c`. -/
def rfind (s : List Char) (c : Char) : Option ℕ :=
  (s.reverse.findIdx? (· == c)).map fun i => s.length - 1 - i

namespace FILE

/-- `abspath`: the first word that the shell makes of the path. -/
def abspath (sh : Shell) (path : String) : Except Halt String :=
  match sh.wordexp (cStr path) with
  | .failed => .ok ""
  | .words [] => .error .nullWord
  | .words (word :: _) => .ok word

/-- `basedir`.  Where there is no slash `lastpos` is `npos`, which is greater than 0, and the path
is its own base directory. -/
def basedir (path : String) : String :=
  match rfind path.toList '/' with
  | none => path
  | some 0 => "/"
  | some lastpos => String.ofList (path.toList.take lastpos)

variable {σ : Type}

/-- `exists`. -/
def pathExists (fs : FileSystem σ) (s : σ) (fpath : String) : Bool := fs.stat s (cStr fpath)

/-- `mkpath`, for at most `fuel` calls one inside the other. -/
def mkpath (sh : Shell) (fs : FileSystem σ) : ℕ → String → σ → Except Halt (Bool × σ)
  | 0, _, _ => .error .outOfFuel
  | fuel + 1, path, s => do
    let fullPath ← abspath sh path
    if pathExists fs s fullPath then
      return (true, s)
    let parent := basedir fullPath
    match ← mkpath sh fs fuel parent s with
    | (true, s) => return fs.mkdir s (cStr fullPath)
    | (false, s) => return (false, s)

end FILE

/-- The loop of `extract_path_str` and of the `PluginManager` constructor, which cuts a list of
paths at the colons. -/
def splitPaths (sh : Shell) (pathList : List String) (token : List Char) :
    Except Halt (List String) :=
  match h : find token ':' with
  | some pos => do
    let path ← FILE.abspath sh (String.ofList (token.take pos))
    splitPaths sh (pathList ++ [path]) (token.drop (pos + 1))
  | none => do
    let path ← FILE.abspath sh (String.ofList token)
    return pathList ++ [path]
termination_by token.length
decreasing_by
  have hpos := (List.findIdx?_eq_some_iff_findIdx_eq.1 h).1
  rw [List.length_drop]
  omega

/-- `extract_path_str`. -/
def PATH.extractPathStr (sh : Shell) (pathStr : String) : Except Halt (List String) :=
  splitPaths sh [] pathStr.toList

/-- The paths that the `PluginManager` constructor looks for plugins in; `customPaths` is the value
of `PLUGIN_PATH`. -/
def PluginManager.pluginPaths (sh : Shell) (pluginPaths : List String)
    (customPaths : Option String) : Except Halt (List String) :=
  match customPaths with
  | some paths => splitPaths sh pluginPaths paths.toList
  | none => return pluginPaths

end PxAccounts
