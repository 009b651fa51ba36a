import PxAccounts.Model.Values

/-!
# yaml-cpp

The trees `YAML::LoadFile` gives and the operations on them that the service uses: `operator[]`
with a string key, `as<string>`, `as<bool>`, and the iterator, whose values are nodes in a sequence
and pairs of nodes in a map.
-/

namespace PxAccounts

/-- `YAML::Node`.  An undefined node, the result of a subscript that finds nothing, is `none` in
`Option Node`. -/
inductive Node
  | null
  | scalar (s : String)
  | sequence (items : List Node)
  | map (entries : List (Node × Node))

/-- What ends the reading of an account file: a `YAML::Exception` or another `std::exception`. -/
inductive ReadError
  | yaml
  | failure (what : String)
deriving DecidableEq

/-- How a bool is emitted. -/
def Node.bool (b : Bool) : Node := .scalar (if b then "true" else "false")

/-- A map node with string keys. -/
def Node.mapping (entries : List (String × Node)) : Node :=
  .map (entries.map fun e => (.scalar e.1, e.2))

/-- The key of an entry equals `key`, which only a scalar does. -/
def Node.isKey (key : String) : Node → Bool
  | .scalar s => s == key
  | _ => false

/-- `node[key]`: a scalar has no subscript, and only a map has string keys. -/
def Node.subscript (key : String) : Node → Except ReadError (Option Node)
  | .scalar _ => .error .yaml
  | .map entries => .ok ((entries.find? fun e => e.1.isKey key).map Prod.snd)
  | _ => .ok none

/-- The spellings `as<bool>` accepts: each word in lower case, capitalised or in upper case. -/
def trueNames : List String :=
  ["y", "Y", "yes", "Yes", "YES", "true", "True", "TRUE", "on", "On", "ON"]

def falseNames : List String :=
  ["n", "N", "no", "No", "NO", "false", "False", "FALSE", "off", "Off", "OFF"]

/-- `as<bool>`. -/
def Node.asBool : Option Node → Except ReadError Bool
  | some (.scalar s) =>
    if s ∈ trueNames then .ok true else if s ∈ falseNames then .ok false else .error .yaml
  | _ => .error .yaml

/-- What an iterator points at. -/
inductive IterValue
  | item (node : Node)
  | pair (first second : Node)

/-- The values between `begin` and `end`; only a sequence and a map have any. -/
def Node.iter : Option Node → List IterValue
  | some (.sequence items) => items.map .item
  | some (.map entries) => entries.map fun e => .pair e.1 e.2
  | _ => []

/-- The node part of an iterator value, which for an entry of a map is not valid. -/
def IterValue.node : IterValue → Option Node
  | .item node => some node
  | .pair _ _ => none

/-- `it.first`, which for an item of a sequence is not valid. -/
def IterValue.first : IterValue → Option Node
  | .item _ => none
  | .pair first _ => some first

/-- `it.second`. -/
def IterValue.second : IterValue → Option Node
  | .item _ => none
  | .pair _ second => some second

/-- The trees whose leaves are scalars. -/
inductive Node.Plain : Node → Prop
  | scalar (s : String) : Plain (.scalar s)
  | sequence {items : List Node} : (∀ n ∈ items, Plain n) → Plain (.sequence items)
  | map {entries : List (Node × Node)} : (∀ e ∈ entries, Plain e.1) → (∀ e ∈ entries, Plain e.2) →
      Plain (.map entries)

/-- The emitter and the loader: the text emitted for a tree of scalars, the tree loaded from a text
unless it is not YAML, what is left of a text when only its first bytes are written, and what
`as<string>` gives for a null node, if it does not throw. -/
structure YamlCpp (Text : Type) where
  emit : Node → Text
  load : Text → Option Node
  load_emit : ∀ n, n.Plain → load (emit n) = some n
  cut : Text → ℕ → Text
  nullAsString : Option String

/-- `as<string>`. -/
def YamlCpp.asString {Text : Type} (yaml : YamlCpp Text) : Option Node → Except ReadError String
  | some (.scalar s) => .ok s
  | some .null =>
    match yaml.nullAsString with
    | some s => .ok s
    | none => .error .yaml
  | _ => .error .yaml

@[simp] theorem YamlCpp.asString_scalar {Text : Type} (yaml : YamlCpp Text) (s : String) :
    yaml.asString (some (.scalar s)) = .ok s := rfl

@[simp] theorem Node.asBool_bool (b : Bool) : Node.asBool (some (Node.bool b)) = .ok b := by
  cases b <;> rfl

theorem Node.plain_bool (b : Bool) : (Node.bool b).Plain := .scalar _

theorem Node.plain_mapping {entries : List (String × Node)} (h : ∀ e ∈ entries, e.2.Plain) :
    (Node.mapping entries).Plain := by
  refine .map ?_ ?_ <;> intro e he <;> obtain ⟨e', he', rfl⟩ := List.mem_map.1 he
  · exact .scalar _
  · exact h e' he'

end PxAccounts
