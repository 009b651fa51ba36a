import PxAccounts.Model.World

/-!
# Reference libraries

A concrete libuuid and a concrete yaml-cpp for the two parameters of the model.  The first writes the
16 bytes as hexadecimal digits in groups of 8, 4, 4, 4 and 12; the second takes the emitted tree
itself for the text, and an empty text for the null document.
-/

namespace PxAccounts

namespace UuidText

/-- The `k` hexadecimal digits of a number, the highest first. -/
def nibbles : ℕ → ℕ → List ℕ
  | 0, _ => []
  | k + 1, n => nibbles k (n / 16) ++ [n % 16]

def ofNibbles (ds : List ℕ) : ℕ := ds.foldl (fun n d => 16 * n + d) 0

/-- Where a digit stands (`true`) and where a hyphen (`false`). -/
def layout : List Bool :=
  List.replicate 8 true ++ false :: List.replicate 4 true ++ false :: List.replicate 4 true ++
    false :: List.replicate 4 true ++ false :: List.replicate 12 true

def hexChars : List Char := "0123456789abcdef".toList

def hexChar (d : ℕ) : Char := hexChars.getD d '0'

/-- The value of a digit; capital letters are digits too. -/
def hexVal (c : Char) : Option ℕ := hexChars.idxOf? c.toLower

def render : List Bool → List ℕ → List Char
  | false :: t, ds => '-' :: render t ds
  | true :: t, d :: ds => hexChar d :: render t ds
  | _, _ => []

def scan : List Bool → List Char → Option (List ℕ)
  | [], [] => some []
  | false :: t, c :: cs => if c = '-' then scan t cs else none
  | true :: t, c :: cs => do
    let d ← hexVal c
    let ds ← scan t cs
    return d :: ds
  | _, _ => none

theorem nibbles_length (k n : ℕ) : (nibbles k n).length = k := by
  induction k generalizing n with
  | zero => rfl
  | succ k ih => simp [nibbles, ih]

theorem nibbles_lt {k n d : ℕ} (h : d ∈ nibbles k n) : d < 16 := by
  induction k generalizing n with
  | zero => simp [nibbles] at h
  | succ k ih =>
    rw [nibbles, List.mem_append, List.mem_singleton] at h
    rcases h with h | rfl
    · exact ih h
    · omega

theorem ofNibbles_nibbles (k n : ℕ) : ofNibbles (nibbles k n) = n % 16 ^ k := by
  induction k generalizing n with
  | zero => simp [nibbles, ofNibbles, Nat.mod_one]
  | succ k ih =>
    have h : ofNibbles (nibbles (k + 1) n) = 16 * ofNibbles (nibbles k (n / 16)) + n % 16 := by
      simp [nibbles, ofNibbles, List.foldl_append]
    rw [h, ih, pow_succ', Nat.mod_mul, add_comm]

theorem hexVal_hexChar {d : ℕ} (h : d < 16) : hexVal (hexChar d) = some d := by
  interval_cases d <;> decide

theorem hexChar_mem {d : ℕ} (h : d < 16) : hexChar d ∈ "0123456789abcdef-".toList := by
  interval_cases d <;> decide

theorem scan_render {t : List Bool} {ds : List ℕ} (hlen : ds.length = t.count true)
    (hlt : ∀ d ∈ ds, d < 16) : scan t (render t ds) = some ds := by
  induction t generalizing ds with
  | nil =>
    rw [List.count_nil, List.length_eq_zero_iff] at hlen
    subst hlen
    rfl
  | cons b t ih =>
    cases b with
    | false => exact ih (by simpa using hlen) hlt
    | true =>
      cases ds with
      | nil => simp at hlen
      | cons d ds =>
        have hrest : scan t (render t ds) = some ds :=
          ih (by simpa using hlen) fun d' h => hlt d' (by simp [h])
        simp [render, scan, hexVal_hexChar (hlt d (by simp)), hrest]

theorem render_length {t : List Bool} {ds : List ℕ} (hlen : ds.length = t.count true) :
    (render t ds).length = t.length := by
  induction t generalizing ds with
  | nil => rfl
  | cons b t ih =>
    cases b with
    | false => exact congrArg (· + 1) (ih (by simpa using hlen))
    | true =>
      cases ds with
      | nil => simp at hlen
      | cons d ds => exact congrArg (· + 1) (ih (by simpa using hlen))

theorem render_chars {t : List Bool} {ds : List ℕ} (hlt : ∀ d ∈ ds, d < 16) :
    ∀ c ∈ render t ds, c ∈ "0123456789abcdef-".toList := by
  induction t generalizing ds with
  | nil => simp [render]
  | cons b t ih =>
    cases b with
    | false =>
      intro c hc
      rw [render, List.mem_cons] at hc
      rcases hc with rfl | hc
      · decide
      · exact ih hlt c hc
    | true =>
      cases ds with
      | nil => simp [render]
      | cons d ds =>
        intro c hc
        rw [render, List.mem_cons] at hc
        rcases hc with rfl | hc
        · exact hexChar_mem (hlt d (by simp))
        · exact ih (fun d' h => hlt d' (by simp [h])) c hc

end UuidText

open UuidText

/-- libuuid. -/
def referenceLibuuid : Libuuid where
  unparseLower id := String.ofList (render layout (nibbles 32 id.toNat))
  parse s := (scan layout s.toList).map fun ds => BitVec.ofNat 128 (ofNibbles ds)
  parse_unparse id := by
    have hlen : (nibbles 32 id.toNat).length = layout.count true := by
      rw [nibbles_length]; decide
    have hlt : id.toNat < 16 ^ 32 := id.isLt
    rw [String.toList_ofList, scan_render hlen fun d h => nibbles_lt h, Option.map_some,
      ofNibbles_nibbles, Nat.mod_eq_of_lt hlt, BitVec.ofNat_toNat, BitVec.setWidth_eq]
  unparse_length id := by
    rw [String.toList_ofList, render_length (by rw [nibbles_length]; decide)]
    decide
  unparse_chars id := by
    rw [String.toList_ofList]
    exact render_chars fun d h => nibbles_lt h

/-- A text: a whole emitted tree, or its first bytes. -/
inductive YamlText
  | whole (n : Node)
  | part (n : Node) (count : ℕ)

/-- yaml-cpp. -/
def referenceYaml : YamlCpp YamlText where
  emit := .whole
  load
    | .whole n => some n
    | .part _ 0 => some .null
    | .part _ (_ + 1) => none
  load_emit _ _ := rfl
  cut
    | .whole n, count => .part n count
    | .part n count', count => .part n (min count' count)
  nullAsString := some "null"

/-! ## A service with everything in order -/

/-- Plugins that accept what they are given and define no custom storage, a secret service that does
as it is told, and a file system and an event service that do not fail. -/
def referenceAnswers {Text : Type} : Answers Text where
  uuidGenerate n := BitVec.ofNat 128 (n + 1)
  verify _ _ params :=
    .returned { verified := true, params := params.toList.map fun p => { key := p.1, val := p.2 } }
  authenticate _ _ _ := .returned { authenticated := true }
  read _ _ _ := none
  write _ _ _ _ records := (none, records)
  remove _ _ _ records := (none, records)
  setSecret _ item store :=
    (.result { success := true }, store.filter (fun s => s.attributes != item.attributes) ++ [item])
  search _ attributes store :=
    .result (store.filter fun s => s.Carries attributes)
  deleteSecret _ attributes store :=
    (.result { success := true }, store.filter fun s => ¬s.Carries attributes)
  writeFile _ _ _ := .complete
  removeFile _ _ := true
  emit _ _ := .sent
  clock _ := 0

/-- One user directory and one plugin. -/
def referenceConfig : Config YamlText where
  uuid := referenceLibuuid
  yaml := referenceYaml
  readdir files := files.keys
  readdir_perm _ := .refl _
  userPaths := ["/accounts"]
  readonlyPaths := []
  paths_nodup := by decide
  registeredPlugins :=
    (∅ : StrMap PluginContainer).insert "mail" { type := .pythonPlugin, title := "mail" }
  title_registered name plugin h := by
    by_cases hn : "mail" = name
    · subst hn
      rw [Std.ExtTreeMap.getElem?_insert_self] at h
      cases h
      rfl
    · rw [Std.ExtTreeMap.getElem?_insert, if_neg (by simpa using hn)] at h
      simp at h
  providers := ∅
  eventManagerInited := true

def referenceEnv : Env YamlText := { referenceConfig, referenceAnswers with }

end PxAccounts
