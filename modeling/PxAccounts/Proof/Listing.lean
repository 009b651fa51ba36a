import PxAccounts.Proof.Messages
import PxAccounts.Proof.Placement

/-!
# Listing

The listing takes every file that can be read in every directory, a read only the first directory
that has a file of the id.
-/

namespace PxAccounts

open Effect AccountManager

variable {Text : Type} {env : Env Text} {w : World Text}

/-- The directory has an account file of the id that can be read. -/
def Readable (env : Env Text) (w : World Text) (p : AccountParser) (id : Uuid) : Prop :=
  ∃ acc, p.read env w id {} = .ok acc

/-- The directory is the first one that has a file of the id; for the null id, the first one. -/
def FoundFirst (env : Env Text) (w : World Text) (id : Uuid) (p : AccountParser) : Prop :=
  (p.hasAccount env w id = true ∨ uuidIsNull id = true) ∧ ∃ l₁ l₂, env.parsers = l₁ ++ p :: l₂ ∧
    ∀ q ∈ l₁, ¬(q.hasAccount env w id = true ∨ uuidIsNull id = true)

/-- The file name stands for the id. -/
def NamesId (env : Env Text) (actFile : String) (id : Uuid) : Prop :=
  env.uuidFromString (fileStem actFile) = (true, id)

theorem findParser_eq_some_iff {id : Uuid} {p : AccountParser} :
    findParser env w id false = some p ↔ FoundFirst env w id p := by
  rw [findParser, List.find?_eq_some_iff_append, FoundFirst]
  simp only [Bool.not_false, Bool.true_or, Bool.true_and, Bool.or_eq_true, Bool.not_eq_true',
    Bool.or_eq_false_iff, not_or, Bool.not_eq_true]

/-! ## The files that are listed -/

/-- What the listing makes of one file. -/
def listedAt (env : Env Text) (w : World Text) (p : AccountParser) (actFile : String) :
    Option AccountObject :=
  match env.uuidFromString (fileStem actFile) with
  | (true, accountId) => (p.read env w accountId {}).toOption
  | (false, _) => none

theorem listedAt_eq_some {p : AccountParser} {actFile : String} {acc : AccountObject} :
    listedAt env w p actFile = some acc ↔
      ∃ id, NamesId env actFile id ∧ p.read env w id {} = .ok acc := by
  unfold listedAt NamesId
  rcases env.uuidFromString (fileStem actFile) with ⟨_ | _, id⟩
  · simp
  · cases hread : p.read env w id {} <;> simp [Except.toOption, hread]

theorem listAccounts_eq : listAccounts env w [] [] =
    env.parsers.flatMap fun p => (p.accountFiles env w).filterMap (listedAt env w p) := by
  have hfilter : ∀ act : AccountObject,
      (([] : List String).isEmpty && ([] : List String).isEmpty ||
        ([] : List String).contains act.provider || [].any act.hasService) = true := fun _ => rfl
  unfold listAccounts
  congr 1
  funext p
  rw [List.filter_eq_self.2 fun act _ => hfilter act]
  rfl

theorem mem_listAccounts {acc : AccountObject} : acc ∈ listAccounts env w [] [] ↔
    ∃ p ∈ env.parsers, ∃ actFile ∈ p.accountFiles env w, ∃ id, NamesId env actFile id ∧
      p.read env w id {} = .ok acc := by
  rw [listAccounts_eq, List.mem_flatMap]
  simp only [List.mem_filterMap, listedAt_eq_some]

/-- A file that can be read is listed. -/
theorem mem_listAccounts_of_read {p : AccountParser} (hp : p ∈ env.parsers) {id : Uuid}
    {acc : AccountObject} (h : p.read env w id {} = .ok acc) : acc ∈ listAccounts env w [] [] :=
  mem_listAccounts.2 ⟨p, hp, AccountParser.accountFile env id,
    AccountParser.mem_accountFiles.2 (isSome_of_read h), id, by
      rw [NamesId, AccountParser.fileStem_accountFile, AccountParser.uuidFromString_uuidAsString], h⟩

theorem nodup_accountFiles (p : AccountParser) : (p.accountFiles env w).Nodup :=
  ((env.readdir_perm _).nodup_iff.2 (w.files p.path).nodup_keys).filter _

/-! ## What list shows and what get serves -/

/-- An id that can be read is in the first directory that has a file of it, and no other file there
has a name that stands for it. -/
structure ListedOnce (env : Env Text) (w : World Text) : Prop where
  first : ∀ p ∈ env.parsers, ∀ id, Readable env w p id → FoundFirst env w id p
  named : ∀ p ∈ env.parsers, ∀ id, Readable env w p id → ∀ actFile ∈ p.accountFiles env w,
    NamesId env actFile id → actFile = AccountParser.accountFile env id

/-- The ids in the reply of an unfiltered list request are pairwise distinct, and as long as the
files stay as they are, a get request for each of them succeeds and returns the listed title. -/
def ServesListed (env : Env Text) (w : World Text) : Prop :=
  ∃ infos w', (RPCHandler.list env none none).run w = .ok (.accounts infos) w' ∧
    (infos.map RPCAccountInfo.id).Nodup ∧
    ∀ info ∈ infos, ∀ w₁ : World Text, w₁.files = w.files → ∃ account w₂,
      (RPCHandler.get env (some info.id)).run w₁ = .ok (.account account) w₂ ∧
        account.title = info.title

/-- The ids of the accounts that are listed. -/
def listedIds (env : Env Text) (w : World Text) : List String :=
  (listAccounts env w [] []).map (AccountObject.idAsString env)

/-- The listed ids are distinct when no id is listed twice in one directory or in two. -/
theorem nodup_listedIds (hinner : InnerIds env w) (h : ListedOnce env w) :
    (listedIds env w).Nodup := by
  rw [listedIds, listAccounts_eq, List.map_flatMap, List.Nodup, List.pairwise_flatMap]
  constructor
  · intro p hp
    rw [List.pairwise_map, List.pairwise_filterMap]
    refine (nodup_accountFiles p).imp_of_mem ?_
    intro f f' hf hf' hne acc hacc acc' hacc' heq
    obtain ⟨id, hname, hread⟩ := listedAt_eq_some.1 hacc
    obtain ⟨id', hname', hread'⟩ := listedAt_eq_some.1 hacc'
    have hid : id = id' := by
      rw [← hinner p hp id acc hread, ← hinner p hp id' acc' hread']
      exact env.uuid.unparse_inj heq
    subst hid
    exact hne ((h.named p hp id ⟨acc, hread⟩ f hf hname).trans
      (h.named p hp id ⟨acc, hread⟩ f' hf' hname').symm)
  · refine List.Pairwise.imp_of_mem ?_ (List.Nodup.of_map _ (nodup_parsers env))
    intro p q hp hq hne i hi j hj heq
    obtain ⟨acc, hacc, rfl⟩ := List.mem_map.1 hi
    obtain ⟨acc', hacc', rfl⟩ := List.mem_map.1 hj
    obtain ⟨f, -, hf⟩ := List.mem_filterMap.1 hacc
    obtain ⟨f', -, hf'⟩ := List.mem_filterMap.1 hacc'
    obtain ⟨id, -, hread⟩ := listedAt_eq_some.1 hf
    obtain ⟨id', -, hread'⟩ := listedAt_eq_some.1 hf'
    have hid : id = id' := by
      rw [← hinner p hp id acc hread, ← hinner q hq id' acc' hread']
      exact env.uuid.unparse_inj heq
    subst hid
    have hfind := findParser_eq_some_iff.2 (h.first p hp id ⟨acc, hread⟩)
    rw [findParser_eq_some_iff.2 (h.first q hq id ⟨acc', hread'⟩)] at hfind
    exact hne (Option.some.inj hfind).symm

/-- If the listed ids are distinct, an id can be read in one directory only. -/
theorem parser_eq_of_nodup (hinner : InnerIds env w) (h : (listedIds env w).Nodup)
    {p q : AccountParser} (hp : p ∈ env.parsers) (hq : q ∈ env.parsers) {id : Uuid}
    (hread : Readable env w p id) (hread' : Readable env w q id) : p = q := by
  rw [listedIds, listAccounts_eq, List.map_flatMap, List.Nodup, List.pairwise_flatMap] at h
  have hmem : ∀ p ∈ env.parsers, Readable env w p id → env.uuidAsString id ∈
      ((p.accountFiles env w).filterMap (listedAt env w p)).map (AccountObject.idAsString env) := by
    rintro p hp ⟨acc, hacc⟩
    refine List.mem_map.2 ⟨acc, List.mem_filterMap.2 ⟨AccountParser.accountFile env id,
      AccountParser.mem_accountFiles.2 (isSome_of_read hacc), listedAt_eq_some.2 ⟨id, ?_, hacc⟩⟩, ?_⟩
    · rw [NamesId, AccountParser.fileStem_accountFile, AccountParser.uuidFromString_uuidAsString]
    · rw [AccountObject.idAsString, hinner p hp id acc hacc]
  by_contra hne
  have : Std.Symm fun p q : AccountParser => ∀ i ∈ ((p.accountFiles env w).filterMap
      (listedAt env w p)).map (AccountObject.idAsString env), ∀ j ∈ ((q.accountFiles env w).filterMap
      (listedAt env w q)).map (AccountObject.idAsString env), i ≠ j :=
    ⟨fun _ _ hpq i hi j hj => (hpq j hj i hi).symm⟩
  exact h.2.forall hp hq hne _ (hmem p hp hread) _ (hmem q hq hread') rfl

/-- If the listed ids are distinct, an id has one file name in each directory. -/
theorem name_eq_of_nodup (h : (listedIds env w).Nodup) {p : AccountParser} (hp : p ∈ env.parsers)
    {id : Uuid} (hread : Readable env w p id) {f : String} (hf : f ∈ p.accountFiles env w)
    (hname : NamesId env f id) : f = AccountParser.accountFile env id := by
  rw [listedIds, listAccounts_eq, List.map_flatMap, List.Nodup, List.pairwise_flatMap] at h
  obtain ⟨acc, hacc⟩ := hread
  have hdir := h.1 p hp
  rw [List.pairwise_map, List.pairwise_filterMap] at hdir
  by_contra hne
  have : Std.Symm fun f f' : String => ∀ b, listedAt env w p f = some b → ∀ b',
      listedAt env w p f' = some b' → b.idAsString env ≠ b'.idAsString env :=
    ⟨fun _ _ hff b hb b' hb' => (hff b' hb' b hb).symm⟩
  have hcanonical : NamesId env (AccountParser.accountFile env id) id := by
    rw [NamesId, AccountParser.fileStem_accountFile, AccountParser.uuidFromString_uuidAsString]
  exact hdir.forall hf (AccountParser.mem_accountFiles.2 (isSome_of_read hacc)) hne acc
    (listedAt_eq_some.2 ⟨id, hname, hacc⟩) acc (listedAt_eq_some.2 ⟨id, hcanonical, hacc⟩) rfl

/-! ## Requests -/

theorem run_list : ((RPCHandler.list env none none).run w) =
    .ok (.accounts ((listAccounts env w [] []).map
      fun act => { id := act.idAsString env, title := act.title })) { w with errors := [] } := rfl

theorem cStr_uuidAsString (id : Uuid) :
    env.uuidFromString (cStr (env.uuidAsString id)) = (true, id) := by
  rw [cStr_of_nulFree (nulFree_uuidAsString env id), AccountParser.uuidFromString_uuidAsString]

/-- A get request for an id replies with the account that is read under it. -/
theorem get_replies {id : Uuid} {account : RPCAccount} {w₂ : World Text}
    (hr : (RPCHandler.get env (some (env.uuidAsString id))).run w = .ok (.account account) w₂) :
    ∃ p acc, FoundFirst env w id p ∧ p.read env w id {} = .ok acc ∧ account.title = acc.title := by
  obtain ⟨act, hread, heq⟩ := (RPCHandler.get_ok (cStr_uuidAsString id)).1 hr
  rcases readAccount_ok hread with ⟨hnone, -⟩ | ⟨p, acc, act', hsome, hok⟩
  · cases hnone
  · cases hsome
    cases heq
    refine ⟨p, acc, findParser_eq_some_iff.1 hok.parser_eq, hok.read_eq, ?_⟩
    have hdetails := hok.back.details
    rw [hdetails]
    rfl

theorem get_of_read {id : Uuid} {p : AccountParser} {acc : AccountObject}
    (hfind : FoundFirst env w id p) (hread : p.read env w id {} = .ok acc) :
    ∃ account w₂, (RPCHandler.get env (some (env.uuidAsString id))).run w =
      .ok (.account account) w₂ ∧ account.title = acc.title := by
  obtain ⟨act, w₂, hok⟩ := exists_readOk (w := { w with errors := [] })
    (findParser_eq_some_iff.2 hfind) hread
  refine ⟨RPCHandler.act2rpc env act, w₂,
    (RPCHandler.get_ok (cStr_uuidAsString id)).2 ⟨act, hok.run_readAccount, rfl⟩, ?_⟩
  have hdetails := hok.back.details
  rw [hdetails]
  rfl

theorem FoundFirst.congr {w' : World Text} (h : w'.files = w.files) {id : Uuid}
    {p : AccountParser} : FoundFirst env w' id p ↔ FoundFirst env w id p := by
  rw [← findParser_eq_some_iff, ← findParser_eq_some_iff, findParser_of_files h]

/-- What list shows, get serves, if and only if every id that can be read is in the first directory
with a file of it, under one name. -/
theorem serves_listed_iff (env : Env Text) (w : World Text) (hinner : InnerIds env w) :
    ServesListed env w ↔ ListedOnce env w := by
  constructor
  · rintro ⟨infos, w', hlist, hnodup, hget⟩
    rw [run_list] at hlist
    cases hlist
    rw [List.map_map] at hnodup
    have hids : (listedIds env w).Nodup := hnodup
    constructor
    · rintro p hp id ⟨acc, hacc⟩
      have hid := hinner p hp id acc hacc
      obtain ⟨account, w₂, hrun, -⟩ := hget _
        (List.mem_map.2 ⟨acc, mem_listAccounts_of_read hp hacc, rfl⟩) w rfl
      rw [AccountObject.idAsString, hid] at hrun
      obtain ⟨q, acc', hfirst, hread, -⟩ := get_replies hrun
      have hq : q ∈ env.parsers := (findParser_some (findParser_eq_some_iff.2 hfirst)).1
      rw [parser_eq_of_nodup hinner hids hp hq ⟨acc, hacc⟩ ⟨acc', hread⟩]
      exact hfirst
    · exact fun p hp id hread f hf hname => name_eq_of_nodup hids hp hread hf hname
  · intro h
    refine ⟨_, _, run_list, ?_, fun info hinfo w₁ hfiles => ?_⟩
    · rw [List.map_map]
      exact nodup_listedIds hinner h
    · obtain ⟨acc, hacc, rfl⟩ := List.mem_map.1 hinfo
      obtain ⟨p, hp, f, -, id, -, hread⟩ := mem_listAccounts.1 hacc
      have hfirst := (FoundFirst.congr hfiles).2 (h.first p hp id ⟨acc, hread⟩)
      rw [← AccountParser.read_congr (World.fileAt_congr hfiles _)] at hread
      dsimp only [AccountObject.idAsString]
      rw [hinner p hp id acc (by rwa [AccountParser.read_congr (World.fileAt_congr hfiles _)] at hread)]
      exact get_of_read hfirst hread

/-- The only file of the read-only account. -/
theorem path_of_sharedWorld {path : AccountPath} (h : (sharedWorld.fileAt path).isSome) :
    path = { dir := "/shared", name := AccountParser.accountFile sharedEnv 7 } := by
  by_contra hne
  rw [sharedWorld, placed, World.fileAt_written_of_ne _ _ hne] at h
  cases h

/-- One copy of an account is listed once and served. -/
theorem serves_listed_shared : ServesListed sharedEnv sharedWorld := by
  refine (serves_listed_iff sharedEnv sharedWorld innerIds_sharedWorld).2 ⟨?_, ?_⟩
  · rintro p hp id ⟨acc, hread⟩
    have hpath := path_of_sharedWorld (isSome_of_read hread)
    obtain rfl : id = 7 := AccountParser.accountFile_inj (congrArg AccountPath.name hpath)
    have hshared : p = { path := "/shared", readonly := true } :=
      path_injective hp (by decide) (congrArg AccountPath.dir hpath)
    rw [hshared]
    exact findParser_eq_some_iff.1 (by decide +kernel)
  · rintro p hp id ⟨acc, hread⟩ f hf hname
    have hpath := path_of_sharedWorld (isSome_of_read hread)
    have hfile : (sharedWorld.fileAt { dir := p.path, name := f }).isSome := by
      have hmem := (sharedEnv.readdir_perm _).mem_iff.1 (List.mem_of_mem_filter hf)
      exact Std.ExtTreeMap.mem_iff_isSome_getElem?.1 (Std.ExtTreeMap.mem_keys.1 hmem)
    have hname' : f = AccountParser.accountFile sharedEnv 7 :=
      congrArg AccountPath.name (path_of_sharedWorld hfile)
    rw [hname']
    exact (congrArg AccountPath.name hpath).symm

/-- An account in two directories is listed twice. -/
theorem copies_are_listed_twice : ¬∀ (env : Env YamlText) (w : World YamlText), InnerIds env w →
    ServesListed env w := by
  intro h
  obtain ⟨infos, w', hlist, hnodup, -⟩ := h sharedEnv copiedWorld innerIds_copiedWorld
  rw [run_list] at hlist
  cases hlist
  rw [List.map_map] at hnodup
  exact absurd (show (listedIds sharedEnv copiedWorld).Nodup from hnodup) (by decide +kernel)

end PxAccounts
