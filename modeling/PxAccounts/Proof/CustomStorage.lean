import PxAccounts.Model.CustomPlugin
import PxAccounts.Proof.Messages
import PxAccounts.Proof.ServiceRun

/-!
# The files of the plugin with a storage of its own

A file has one line for each parameter, with the key before the first `=`.  What the plugin reads from
it is what it was given if no text has a delimiter in it and no value is empty, and only then.
-/

namespace PxAccounts

open AccountService (assigned)

namespace CPPCustomPlugin

/-! ## Lines -/

/-- The text has neither of the two delimiters. -/
structure Plain (text : String) : Prop where
  noEquals : '=' ∉ text.toList
  noNewline : '\n' ∉ text.toList

/-- A parameter that can be told from a line of the file. -/
structure Storable (key val : String) : Prop where
  plainKey : Plain key
  plainVal : Plain val
  nonempty : val ≠ ""

/-- The entry that a line stands for. -/
def entry (line : String) : Option (String × String) :=
  match getlines '=' line with
  | [key, val] => some (key, val)
  | _ => none

/-- The entries of a file, line by line. -/
def entries (text : String) : List (String × String) := (getlines '\n' text).filterMap entry

theorem readLine_eq (result : StrStrMap) (line : String) :
    readLine result line = TreeMap.insertAll result (entry line).toList := by
  unfold readLine entry
  split <;> simp_all

theorem readText_eq (text : String) : readText text = TreeMap.insertAll ∅ (entries text) := by
  have hfold : ∀ (lines : List String) (m : StrStrMap),
      lines.foldl readLine m = TreeMap.insertAll m (lines.filterMap entry) := by
    intro lines
    induction lines with
    | nil => simp
    | cons line lines ih =>
      intro m
      rw [List.foldl_cons, ih, readLine_eq, ← TreeMap.insertAll_append]
      cases hentry : entry line <;> simp [hentry]
  exact hfold _ _

/-- What is read has no delimiter. -/
theorem plain_of_mem_entries {text key val : String} (h : (key, val) ∈ entries text) :
    Plain key ∧ Plain val := by
  obtain ⟨line, hline, hentry⟩ := List.mem_filterMap.1 h
  obtain ⟨chars, hchars, rfl⟩ := List.mem_map.1 hline
  have hnewline := (Pieces.not_mem_of_mem_parts hchars).1
  have htoken : ∀ token ∈ getlines '=' (String.ofList chars), Plain token := by
    intro token htoken
    obtain ⟨token, hmem, rfl⟩ := List.mem_map.1 htoken
    rw [String.toList_ofList] at hmem
    obtain ⟨hequals, hsub⟩ := Pieces.not_mem_of_mem_parts hmem
    refine ⟨?_, fun hmem' => hnewline (hsub ?_)⟩ <;> rwa [String.toList_ofList] at *
  unfold entry at hentry
  split at hentry
  · next heq =>
    cases hentry
    exact ⟨htoken key (by simp [heq]), htoken val (by simp [heq])⟩
  · cases hentry

/-- The line of a parameter without the first delimiter in it. -/
theorem entry_line {key val : String} (hkey : '=' ∉ key.toList) (hval : '=' ∉ val.toList) :
    entry (key ++ "=" ++ val) = if val = "" then none else some (key, val) := by
  have hline : (key ++ "=" ++ val).toList = key.toList ++ '=' :: val.toList := by simp
  unfold entry getlines
  rw [hline, Pieces.parts_append_sep hkey]
  by_cases hempty : val = ""
  · simp [hempty, Pieces.parts]
  · have hchars : val.toList ≠ [] := by simpa using hempty
    simp [hempty, Pieces.parts_of_not_mem hval hchars]

/-- The lines of a file whose texts have no newline. -/
theorem getlines_fileText {params : ServiceParamList}
    (h : ∀ p ∈ params, '\n' ∉ p.key.toList ∧ '\n' ∉ p.val.toList) :
    getlines '\n' (fileText params) = params.map fun p => p.key ++ "=" ++ p.val := by
  have htext : (fileText params).toList =
      (params.map fun p => (p.key ++ "=" ++ p.val).toList).flatMap fun l => l ++ ['\n'] := by
    simp [fileText, String.toList_join, List.flatMap_map]
  unfold getlines
  rw [htext, Pieces.parts_flatMap, List.map_map]
  · exact List.map_congr_left fun p _ => String.ofList_toList
  · intro l hl
    obtain ⟨p, hp, rfl⟩ := List.mem_map.1 hl
    simp [h p hp]

theorem entries_fileText {params : ServiceParamList}
    (h : ∀ p ∈ params, Plain p.key ∧ Plain p.val) :
    entries (fileText params) =
      (params.filter fun p => p.val ≠ "").map fun p => (p.key, p.val) := by
  rw [entries, getlines_fileText fun p hp => ⟨(h p hp).1.noNewline, (h p hp).2.noNewline⟩]
  induction params with
  | nil => rfl
  | cons p params ih =>
    obtain ⟨hkey, hval⟩ := h p List.mem_cons_self
    have hrest := ih fun q hq => h q (List.mem_cons_of_mem p hq)
    rw [List.map_cons, List.filterMap_cons, entry_line hkey.noEquals hval.noEquals, List.filter_cons]
    by_cases hempty : p.val = "" <;> simp [hempty, hrest]

/-! ## Writing and reading -/

theorem mem_of_getElem?_insertAll {l : List (String × String)} {key val : String}
    (h : (TreeMap.insertAll (∅ : StrStrMap) l)[key]? = some val) : (key, val) ∈ l := by
  induction l using List.reverseRecOn with
  | nil => simp at h
  | append_singleton l e ih =>
    rw [TreeMap.insertAll_append, TreeMap.insertAll_cons, TreeMap.insertAll_nil] at h
    by_cases hkey : e.1 = key
    · subst hkey
      rw [Std.ExtTreeMap.getElem?_insert_self, Option.some.injEq] at h
      simp [← h]
    · rw [TreeMap.getElem?_insert_of_ne hkey] at h
      exact List.mem_append_left _ (ih h)

/-- Storable parameters come back; of a key that is there twice, the last value. -/
theorem readText_fileText {params : ServiceParamList} (h : ∀ p ∈ params, Storable p.key p.val) :
    readText (fileText params) = assigned ServiceParam.val params := by
  rw [readText_eq, entries_fileText fun p hp => ⟨(h p hp).plainKey, (h p hp).plainVal⟩,
    List.filter_eq_self.2]
  · rfl
  · intro p hp
    simpa using (h p hp).nonempty

/-- A file gives back the parameters that were written into it if and only if all are storable. -/
theorem readText_fileText_iff {params : ServiceParamList}
    (hkeys : (params.map ServiceParam.key).Nodup) :
    readText (fileText params) = assigned ServiceParam.val params ↔
      ∀ p ∈ params, Storable p.key p.val := by
  have hentries : ((params.map fun p => (p.key, p.val)).map Prod.fst).Nodup := by
    rwa [List.map_map]
  rw [readText_eq]
  constructor
  · intro heq
    have hread : ∀ p ∈ params, (p.key, p.val) ∈ entries (fileText params) := by
      intro p hp
      apply mem_of_getElem?_insertAll
      rw [heq]
      exact TreeMap.insertAll_getElem?_of_mem hentries (List.mem_map_of_mem hp)
    have hplain : ∀ p ∈ params, Plain p.key ∧ Plain p.val := fun p hp =>
      plain_of_mem_entries (hread p hp)
    intro p hp
    refine ⟨(hplain p hp).1, (hplain p hp).2, ?_⟩
    -- Among plain texts only the lines of values that are not empty are read.
    have hmem := hread p hp
    rw [entries_fileText hplain] at hmem
    obtain ⟨q, hq, hqp⟩ := List.mem_map.1 hmem
    obtain ⟨-, hval⟩ := Prod.mk.inj hqp
    rw [← hval]
    simpa using (List.mem_filter.1 hq).2
  · intro h
    rw [← readText_eq, readText_fileText h]

/-! ## A file of the plugin -/

theorem nulFree_unparseLower (uuid : Libuuid) (id : Uuid) : NulFree (uuid.unparseLower id) := by
  intro h
  have hchar := uuid.unparse_chars id _ h
  revert hchar
  decide

theorem read_written (uuid : Libuuid) (id : Uuid) (dir : StrMap String) (vResult : VerifyResult)
    (aResult : AuthResult) :
    read (write uuid id .complete dir vResult aResult).2 (uuid.unparseLower id) =
      readText (fileText vResult.params) := by
  unfold read write
  simp only [Std.ExtTreeMap.getElem?_alter_self, afterClose]

theorem keys_verify (flags : String → Bool × Bool) (m : StrStrMap) :
    ((verify flags m).params.map fun p => (p.key, p.val)) = m.toList := by
  rw [verify, List.map_map]
  exact List.map_id' m.toList

/-- What the service is shown of an account of this plugin is what was verified if and only if every
parameter is storable, whatever the flags happen to be. -/
theorem custom_file_roundtrip (uuid : Libuuid) (flags : String → Bool × Bool) (m : StrStrMap)
    (id : Uuid) (dir : StrMap String) (aResult : AuthResult) :
    read (write uuid id .complete dir (verify flags m) aResult).2
        (write uuid id .complete dir (verify flags m) aResult).1 = m ↔
      ∀ key val : String, m[key]? = some val → Storable key val := by
  have hassigned : assigned ServiceParam.val (verify flags m).params = m := by
    rw [assigned, keys_verify, TreeMap.insertAll_toList]
  have hnodup : ((verify flags m).params.map ServiceParam.key).Nodup := by
    have hkeys := congrArg (List.map Prod.fst) (keys_verify flags m)
    rw [List.map_map] at hkeys
    rw [show (verify flags m).params.map ServiceParam.key = m.toList.map Prod.fst from hkeys]
    exact TreeMap.nodup_keys_toList m
  have hmem : ∀ key val, (∃ p ∈ (verify flags m).params, p.key = key ∧ p.val = val) ↔
      m[key]? = some val := by
    intro key val
    rw [← Std.ExtTreeMap.mem_toList_iff_getElem?_eq_some, ← keys_verify flags m, List.mem_map]
    simp only [Prod.mk.injEq]
  have hiff := readText_fileText_iff hnodup
  rw [hassigned] at hiff
  show read _ (uuid.unparseLower id) = m ↔ _
  rw [read_written, hiff]
  constructor
  · intro h key val hget
    obtain ⟨p, hp, rfl, rfl⟩ := (hmem key val).2 hget
    exact h p hp
  · intro h p hp
    exact h p.key p.val ((hmem _ _).1 ⟨p, hp, rfl, rfl⟩)

end CPPCustomPlugin

end PxAccounts
