import Mathlib.Data.List.Forall2
import Mathlib.Logic.Function.Basic

/-!
# Layers of definitions

A layer is a list of sources, each of which may define a value for a key.  Layers are loaded one
over the other, and loading a layer ends at the first source that cannot be read.  When the sources of a
layer come in any order, a definition is only sure to be loaded if its layer can be read throughout
and no layer above it says otherwise.
-/

namespace Layers

variable {ν κ β : Type}

/-- Sources in the order in which they are read. -/
structure Layer (ν κ β : Type) where
  read : ν → Option (κ × β)
  names : List ν

namespace Layer

/-- A source of the layer defines the key. -/
def Defines (layer : Layer ν κ β) (key : κ) (val : β) : Prop :=
  ∃ name ∈ layer.names, layer.read name = some (key, val)

/-- All sources can be read. -/
def Readable (layer : Layer ν κ β) : Prop := ∀ name ∈ layer.names, (layer.read name).isSome

/-- No key has two definitions. -/
def Unambiguous (layer : Layer ν κ β) : Prop :=
  ∀ key val val', layer.Defines key val → layer.Defines key val' → val = val'

/-- The same sources, maybe in another order. -/
def Reorders (layer layer' : Layer ν κ β) : Prop :=
  layer'.read = layer.read ∧ layer'.names.Perm layer.names

end Layer

/-- The definition of the topmost layer that defines the key. -/
def Prevails : List (Layer ν κ β) → κ → β → Prop
  | [], _, _ => False
  | layer :: layers, key, val =>
    layer.Defines key val ∨ ((∀ val', ¬layer.Defines key val') ∧ Prevails layers key val)

/-- A layer that can be read throughout has the definition, and the layers above it have no other.
-/
def Secured (layers : List (Layer ν κ β)) (key : κ) (val : β) : Prop :=
  ∃ above layer below, layers = above ++ layer :: below ∧ layer.Defines key val ∧
    layer.Readable ∧ ∀ layer' ∈ above, ∀ val', layer'.Defines key val' → val' = val

/-! ## Loading -/

section Load

variable [DecidableEq κ]

/-- What is known after the sources were read over `known`, up to the first that cannot be read. -/
def loadNames (read : ν → Option (κ × β)) : List ν → (κ → Option β) → κ → Option β
  | [], known => known
  | name :: names, known =>
    match read name with
    | none => known
    | some (key, val) => loadNames read names (Function.update known key (some val))

def Layer.load (layer : Layer ν κ β) (known : κ → Option β) : κ → Option β :=
  loadNames layer.read layer.names known

/-- The layers loaded one over the other, the first of the list last. -/
def loadAll (layers : List (Layer ν κ β)) : κ → Option β := layers.foldr Layer.load fun _ => none

/-- What is loaded is a definition or was known before. -/
theorem loadNames_cases (read : ν → Option (κ × β)) (names : List ν) (known : κ → Option β)
    (key : κ) : loadNames read names known key = known key ∨ ∃ name ∈ names, ∃ val,
      read name = some (key, val) ∧ loadNames read names known key = some val := by
  induction names generalizing known with
  | nil => exact .inl rfl
  | cons name names ih =>
    cases hread : read name with
    | none => exact .inl (by simp only [loadNames, hread])
    | some def_ =>
      obtain ⟨key', val⟩ := def_
      simp only [loadNames, hread]
      rcases ih (Function.update known key' (some val)) with
        h | ⟨name', hmem, val', hread', h⟩
      · by_cases hkey : key = key'
        · subst hkey
          rw [Function.update_self] at h
          exact .inr ⟨name, by simp, val, hread, h⟩
        · rw [Function.update_of_ne hkey] at h
          exact .inl h
      · exact .inr ⟨name', by simp [hmem], val', hread', h⟩

/-- Sources that can be read hold up none of those after them. -/
theorem loadNames_append {read : ν → Option (κ × β)} {names₁ names₂ : List ν}
    {known : κ → Option β} (h : ∀ name ∈ names₁, (read name).isSome) :
    loadNames read (names₁ ++ names₂) known =
      loadNames read names₂ (loadNames read names₁ known) := by
  induction names₁ generalizing known with
  | nil => rfl
  | cons name names₁ ih =>
    obtain ⟨⟨key, val⟩, hread⟩ := Option.isSome_iff_exists.1 (h name (by simp))
    simp only [List.cons_append, loadNames, hread]
    exact ih fun name' h' => h name' (by simp [h'])

theorem loadNames_of_isNone {read : ν → Option (κ × β)} {name : ν} {names : List ν}
    {known : κ → Option β} (h : read name = none) :
    loadNames read (name :: names) known = known := by
  simp only [loadNames, h]

/-- Among sources that can be read and do not contradict each other, a definition is loaded. -/
theorem loadNames_of_readable {read : ν → Option (κ × β)} {names : List ν} {known : κ → Option β}
    {key : κ} {val : β} (hread : ∀ name ∈ names, (read name).isSome)
    (hdefines : ∃ name ∈ names, read name = some (key, val))
    (hall : ∀ name ∈ names, ∀ val', read name = some (key, val') → val' = val) :
    loadNames read names known key = some val := by
  obtain ⟨name, hmem, hname⟩ := hdefines
  obtain ⟨before, after, rfl⟩ := List.append_of_mem hmem
  rw [loadNames_append fun name' h' => hread name' (by simp [h'])]
  simp only [loadNames, hname]
  rcases loadNames_cases read after (Function.update (loadNames read before known) key (some val))
    key with h | ⟨name', hmem', val', hread', h⟩
  · rw [h, Function.update_self]
  · rw [h, hall name' (by simp [hmem']) val' hread']

namespace Layer

variable {layer : Layer ν κ β} {known : κ → Option β} {key : κ} {val : β}

variable (layer known key) in
theorem load_cases : layer.load known key = known key ∨
    ∃ val, layer.Defines key val ∧ layer.load known key = some val := by
  rcases loadNames_cases layer.read layer.names known key with h | ⟨name, hmem, val, hread, h⟩
  · exact .inl h
  · exact .inr ⟨val, ⟨name, hmem, hread⟩, h⟩

theorem load_of_readable (hread : layer.Readable) (hun : layer.Unambiguous)
    (h : layer.Defines key val) : layer.load known key = some val :=
  loadNames_of_readable hread h fun name hmem val' hname => hun key val' val ⟨name, hmem, hname⟩ h

/-- The layer with the sources that can be read in front. -/
def readFirst (layer : Layer ν κ β) : Layer ν κ β where
  read := layer.read
  names := layer.names.filter (fun name => (layer.read name).isSome) ++
    layer.names.filter fun name => !(layer.read name).isSome

/-- The layer with the sources that cannot be read in front. -/
def failFirst (layer : Layer ν κ β) : Layer ν κ β where
  read := layer.read
  names := layer.names.filter (fun name => !(layer.read name).isSome) ++
    layer.names.filter fun name => (layer.read name).isSome

omit [DecidableEq κ] in
theorem reorders_readFirst : layer.Reorders layer.readFirst :=
  ⟨rfl, List.filter_append_perm _ _⟩

omit [DecidableEq κ] in
theorem reorders_failFirst : layer.Reorders layer.failFirst :=
  ⟨rfl, List.perm_append_comm.trans (List.filter_append_perm _ _)⟩

theorem load_readFirst (hun : layer.Unambiguous) (h : layer.Defines key val) :
    layer.readFirst.load known key = some val := by
  obtain ⟨name, hmem, hname⟩ := id h
  have hreadable : ∀ name' ∈ layer.names.filter fun name' => (layer.read name').isSome,
      (layer.read name').isSome := fun name' h' => (List.mem_filter.1 h').2
  have hloaded : loadNames layer.read (layer.names.filter fun name' => (layer.read name').isSome)
      known key = some val := by
    refine loadNames_of_readable hreadable ⟨name, ?_, hname⟩ fun name' h' val' hname' => ?_
    · exact List.mem_filter.2 ⟨hmem, by rw [hname]; rfl⟩
    · exact hun key val' val ⟨name', List.mem_of_mem_filter h', hname'⟩ h
  rw [load]
  dsimp only [readFirst]
  rw [loadNames_append hreadable]
  rcases loadNames_cases layer.read
    (layer.names.filter fun name' => !(layer.read name').isSome)
    (loadNames layer.read (layer.names.filter fun name' => (layer.read name').isSome) known)
    key with h' | ⟨name', hmem', val', hname', -⟩
  · rw [h', hloaded]
  · simp [hname'] at hmem'

theorem load_failFirst (h : ¬layer.Readable) : layer.failFirst.load known = known := by
  rw [Readable, not_forall] at h
  obtain ⟨name, h⟩ := h
  rw [Classical.not_imp] at h
  have hmem : name ∈ layer.names.filter fun name => !(layer.read name).isSome :=
    List.mem_filter.2 ⟨h.1, by simpa using h.2⟩
  rw [load]
  dsimp only [failFirst]
  cases hfail : layer.names.filter fun name => !(layer.read name).isSome with
  | nil =>
    rw [hfail] at hmem
    cases hmem
  | cons name' names =>
    have hname' : name' ∈ layer.names.filter fun name => !(layer.read name).isSome := by
      rw [hfail]
      exact List.mem_cons_self
    exact loadNames_of_isNone (by simpa using (List.mem_filter.1 hname').2)

end Layer

end Load

namespace Layer

variable {layer layer' : Layer ν κ β} {key : κ} {val : β}

theorem Reorders.defines_iff (h : layer.Reorders layer') :
    layer'.Defines key val ↔ layer.Defines key val := by
  unfold Defines
  rw [h.1]
  exact exists_congr fun name => and_congr_left fun _ => h.2.mem_iff

theorem Reorders.readable_iff (h : layer.Reorders layer') : layer'.Readable ↔ layer.Readable := by
  unfold Readable
  rw [h.1]
  exact forall_congr' fun name => imp_congr_left h.2.mem_iff

theorem Reorders.unambiguous (h : layer.Reorders layer') (hun : layer.Unambiguous) :
    layer'.Unambiguous := fun key val val' hval hval' =>
  hun key val val' (h.defines_iff.1 hval) (h.defines_iff.1 hval')

end Layer

theorem secured_cons {layer : Layer ν κ β} {layers : List (Layer ν κ β)} {key : κ} {val : β} :
    Secured (layer :: layers) key val ↔ (layer.Defines key val ∧ layer.Readable) ∨
      ((∀ val', layer.Defines key val' → val' = val) ∧ Secured layers key val) := by
  constructor
  · rintro ⟨_ | ⟨top, above⟩, layer', below, heq, hdefines, hread, habove⟩
    · rw [List.nil_append, List.cons.injEq] at heq
      obtain ⟨rfl, -⟩ := heq
      exact .inl ⟨hdefines, hread⟩
    · rw [List.cons_append, List.cons.injEq] at heq
      obtain ⟨rfl, rfl⟩ := heq
      exact .inr ⟨habove layer (by simp), above, layer', below, rfl, hdefines, hread,
        fun l hl => habove l (by simp [hl])⟩
  · rintro (⟨hdefines, hread⟩ | ⟨htop, above, layer', below, rfl, hdefines, hread, habove⟩)
    · exact ⟨[], layer, layers, rfl, hdefines, hread, by simp⟩
    · refine ⟨layer :: above, layer', below, rfl, hdefines, hread, fun l hl => ?_⟩
      rcases List.mem_cons.1 hl with rfl | hl
      · exact htop
      · exact habove l hl

theorem not_secured_nil {key : κ} {val : β} : ¬Secured ([] : List (Layer ν κ β)) key val := by
  rintro ⟨above, layer, below, h, -⟩
  simp at h

/-- Where all layers can be read throughout, all prevailing definitions are secured. -/
theorem secured_of_readable {layers : List (Layer ν κ β)} {key : κ} {val : β}
    (hread : ∀ layer ∈ layers, layer.Readable) (h : Prevails layers key val) :
    Secured layers key val := by
  induction layers with
  | nil => exact h.elim
  | cons layer layers ih =>
    rw [secured_cons]
    rcases h with hdefines | ⟨hnone, h⟩
    · exact .inl ⟨hdefines, hread layer (by simp)⟩
    · exact .inr ⟨fun val' h' => absurd h' (hnone val'), ih (fun l hl => hread l (by simp [hl])) h⟩

/-! ## What is loaded in every order -/

section Orders

variable [DecidableEq κ] {layers : List (Layer ν κ β)} {key : κ} {val : β}

theorem loadAll_cons (layer : Layer ν κ β) (layers : List (Layer ν κ β)) :
    loadAll (layer :: layers) = layer.load (loadAll layers) := rfl

/-- A definition is loaded in every order exactly if it is secured. -/
theorem loaded_always_iff (hun : ∀ layer ∈ layers, layer.Unambiguous) :
    (∀ layers', List.Forall₂ Layer.Reorders layers layers' → loadAll layers' key = some val) ↔
      Secured layers key val := by
  induction layers with
  | nil =>
    refine ⟨fun h => ?_, fun h => absurd h not_secured_nil⟩
    cases h [] .nil
  | cons layer layers ih =>
    have hlayer := hun layer (by simp)
    have ih := ih fun l hl => hun l (by simp [hl])
    rw [secured_cons]
    constructor
    · intro h
      by_cases hdefines : ∃ val', layer.Defines key val'
      · obtain ⟨val', hdefines⟩ := hdefines
        have hval : ∀ layers', List.Forall₂ Layer.Reorders layers layers' → val' = val :=
          fun layers' hl => by
            have hloaded := h _ (.cons Layer.reorders_readFirst hl)
            rw [loadAll_cons, Layer.load_readFirst hlayer hdefines] at hloaded
            exact Option.some.inj hloaded
        have hrefl : List.Forall₂ Layer.Reorders layers layers :=
          List.forall₂_same.2 fun _ _ => ⟨rfl, .refl _⟩
        obtain rfl := hval layers hrefl
        by_cases hread : layer.Readable
        · exact .inl ⟨hdefines, hread⟩
        · refine .inr ⟨fun val'' h'' => hlayer key val'' val' h'' hdefines,
            ih.1 fun layers' hl => ?_⟩
          have hloaded := h _ (.cons Layer.reorders_failFirst hl)
          rwa [loadAll_cons, Layer.load_failFirst hread] at hloaded
      · refine .inr ⟨fun val' h' => absurd ⟨val', h'⟩ hdefines, ih.1 fun layers' hl => ?_⟩
        have hloaded := h (layer :: layers') (.cons ⟨rfl, .refl _⟩ hl)
        rw [loadAll_cons] at hloaded
        rcases layer.load_cases (loadAll layers') key with h' | ⟨val', h', -⟩
        · rw [← h', hloaded]
        · exact absurd ⟨val', h'⟩ hdefines
    · rintro h _ (_ | ⟨hreorders, hl⟩)
      rename_i layer' layers'
      rw [loadAll_cons]
      rcases h with ⟨hdefines, hread⟩ | ⟨htop, hsecured⟩
      · exact Layer.load_of_readable (hreorders.readable_iff.2 hread) (hreorders.unambiguous hlayer)
          (hreorders.defines_iff.2 hdefines)
      · rcases layer'.load_cases (loadAll layers') key with h' | ⟨val', hdef, h'⟩
        · rw [h']
          exact ih.2 hsecured layers' hl
        · rw [h', htop val' (hreorders.defines_iff.1 hdef)]

/-- Nothing is loaded that no layer defines. -/
theorem defines_of_loaded (h : loadAll layers key = some val) :
    ∃ layer ∈ layers, layer.Defines key val := by
  induction layers with
  | nil => cases h
  | cons layer layers ih =>
    rw [loadAll_cons] at h
    rcases layer.load_cases (loadAll layers) key with h' | ⟨val', hdefines, h'⟩
    · obtain ⟨layer', hmem, hdefines⟩ := ih (h'.symm.trans h)
      exact ⟨layer', by simp [hmem], hdefines⟩
    · obtain rfl := Option.some.inj (h'.symm.trans h)
      exact ⟨layer, by simp, hdefines⟩

omit [DecidableEq κ] in
theorem exists_prevails {layer : Layer ν κ β} (hmem : layer ∈ layers)
    (h : layer.Defines key val) : ∃ val', Prevails layers key val' := by
  induction layers with
  | nil => cases hmem
  | cons top layers ih =>
    by_cases htop : ∃ val', top.Defines key val'
    · obtain ⟨val', htop⟩ := htop
      exact ⟨val', .inl htop⟩
    · rcases List.mem_cons.1 hmem with rfl | hmem
      · exact absurd ⟨val, h⟩ htop
      · obtain ⟨val', hval'⟩ := ih hmem
        exact ⟨val', .inr ⟨fun v hv => htop ⟨v, hv⟩, hval'⟩⟩

/-- The order of the sources does not matter and the topmost definitions are loaded, if and only if
all of these are secured. -/
theorem loads_by_priority_iff (hun : ∀ layer ∈ layers, layer.Unambiguous) :
    (∀ layers', List.Forall₂ Layer.Reorders layers layers' →
        loadAll layers' = loadAll layers ∧
          ∀ key val, Prevails layers key val → loadAll layers' key = some val) ↔
      ∀ key val, Prevails layers key val → Secured layers key val := by
  constructor
  · intro h key val hprevails
    exact (loaded_always_iff hun).1 fun layers' hl => (h layers' hl).2 key val hprevails
  · intro h
    have hloaded : ∀ layers', List.Forall₂ Layer.Reorders layers layers' → ∀ key val,
        Prevails layers key val → loadAll layers' key = some val :=
      fun layers' hl key val hprevails =>
        (loaded_always_iff hun).2 (h key val hprevails) layers' hl
    have hnone : ∀ layers', List.Forall₂ Layer.Reorders layers layers' → ∀ key,
        (∀ val, ¬Prevails layers key val) → loadAll layers' key = none := by
      intro layers' hl key hkey
      refine Option.eq_none_iff_forall_ne_some.2 fun val hval => ?_
      obtain ⟨layer', hmem', hdefines⟩ := defines_of_loaded hval
      obtain ⟨i, hi, rfl⟩ := List.getElem_of_mem hmem'
      have hi' : i < layers.length := hl.length_eq ▸ hi
      have hreorders : (layers[i]).Reorders layers'[i] := (List.forall₂_iff_get.1 hl).2 i hi' hi
      obtain ⟨val', hval'⟩ :=
        exists_prevails (List.getElem_mem hi') (hreorders.defines_iff.1 hdefines)
      exact hkey val' hval'
    have hrefl : List.Forall₂ Layer.Reorders layers layers :=
      List.forall₂_same.2 fun _ _ => ⟨rfl, .refl _⟩
    refine fun layers' hl => ⟨funext fun key => ?_, hloaded layers' hl⟩
    by_cases hkey : ∃ val, Prevails layers key val
    · obtain ⟨val, hval⟩ := hkey
      rw [hloaded layers' hl key val hval, hloaded layers hrefl key val hval]
    · rw [not_exists] at hkey
      rw [hnone layers' hl key hkey, hnone layers hrefl key hkey]

end Orders

/-! ## What is loaded in some order

Layers that can be read throughout, whose sources may contradict each other. -/

section Outcomes

variable [DecidableEq κ] {layer : Layer ν κ β} {layers : List (Layer ν κ β)} {known : κ → Option β}
  {key : κ} {val : β}

theorem Layer.load_of_not_defines (h : ∀ val, ¬layer.Defines key val) :
    layer.load known key = known key := by
  rcases layer.load_cases known key with h' | ⟨val, hdefines, -⟩
  · exact h'
  · exact absurd hdefines (h val)

/-- A layer that can be read throughout and defines the key has one of its definitions loaded. -/
theorem Layer.exists_of_load (hread : layer.Readable) (h : layer.Defines key val) :
    ∃ val', layer.Defines key val' ∧ layer.load known key = some val' := by
  obtain ⟨name, hmem, hname⟩ := h
  obtain ⟨before, after, hnames⟩ := List.append_of_mem hmem
  have hload : layer.load known key = loadNames layer.read after
      (Function.update (loadNames layer.read before known) key (some val)) key := by
    rw [load, hnames, loadNames_append fun name' h' => hread name' (by simp [hnames, h'])]
    simp only [loadNames, hname]
  rw [hload]
  rcases loadNames_cases layer.read after
    (Function.update (loadNames layer.read before known) key (some val)) key with
    h' | ⟨name', hmem', val', hname', h'⟩
  · exact ⟨val, ⟨name, hmem, hname⟩, by rw [h', Function.update_self]⟩
  · exact ⟨val', ⟨name', by simp [hnames, hmem'], hname'⟩, h'⟩

/-- What is loaded for a key is one of the definitions in the topmost layer that has any. -/
theorem prevails_of_loaded (hread : ∀ layer ∈ layers, layer.Readable)
    (h : loadAll layers key = some val) : Prevails layers key val := by
  induction layers with
  | nil => cases h
  | cons layer layers ih =>
    rw [loadAll_cons] at h
    by_cases hdefines : ∃ val', layer.Defines key val'
    · obtain ⟨val', hdefines⟩ := hdefines
      obtain ⟨val'', hdefines'', hloaded⟩ :=
        Layer.exists_of_load (hread layer (by simp)) hdefines
      obtain rfl := Option.some.inj (hloaded.symm.trans h)
      exact .inl hdefines''
    · rw [not_exists] at hdefines
      rw [Layer.load_of_not_defines hdefines] at h
      exact .inr ⟨hdefines, ih (fun l hl => hread l (by simp [hl])) h⟩

/-- Something is loaded for every key that a layer defines. -/
theorem loadAll_of_prevails (hread : ∀ layer ∈ layers, layer.Readable)
    (h : Prevails layers key val) : ∃ val', loadAll layers key = some val' := by
  induction layers with
  | nil => exact h.elim
  | cons layer layers ih =>
    rw [loadAll_cons]
    rcases h with hdefines | ⟨hnone, h⟩
    · obtain ⟨val', -, hloaded⟩ := Layer.exists_of_load (hread layer (by simp)) hdefines
      exact ⟨val', hloaded⟩
    · rw [Layer.load_of_not_defines hnone]
      exact ih (fun l hl => hread l (by simp [hl])) h

variable [DecidableEq β]

/-- The layer with the sources of one definition at the end. -/
def Layer.lastly (layer : Layer ν κ β) (key : κ) (val : β) : Layer ν κ β where
  read := layer.read
  names := layer.names.filter (fun name => decide (layer.read name ≠ some (key, val))) ++
    layer.names.filter fun name => decide (layer.read name = some (key, val))

theorem Layer.load_lastly (hread : layer.Readable) (h : layer.Defines key val) :
    (layer.lastly key val).load known key = some val := by
  obtain ⟨name, hmem, hname⟩ := h
  rw [load]
  dsimp only [lastly]
  rw [loadNames_append fun name' h' => hread name' (List.mem_of_mem_filter h')]
  refine loadNames_of_readable (fun name' h' => hread name' (List.mem_of_mem_filter h'))
    ⟨name, List.mem_filter.2 ⟨hmem, by simpa using hname⟩, hname⟩ fun name' h' val' hname' => ?_
  have hlast : layer.read name' = some (key, val) := by simpa using (List.mem_filter.1 h').2
  rw [hname', Option.some.injEq, Prod.mk.injEq] at hlast
  exact hlast.2

theorem Layer.load_lastly_of_not_defines (h : ∀ val', ¬layer.Defines key val') :
    (layer.lastly key val).load known key = known key := by
  refine load_of_not_defines fun val' ⟨name, hmem, hname⟩ => h val' ⟨name, ?_, hname⟩
  rcases List.mem_append.1 hmem with hmem | hmem
  · exact List.mem_of_mem_filter hmem
  · exact List.mem_of_mem_filter hmem

/-- Every definition in the topmost layer that defines the key is loaded in some order. -/
theorem loadAll_lastly (hread : ∀ layer ∈ layers, layer.Readable) (h : Prevails layers key val) :
    loadAll (layers.map fun layer => layer.lastly key val) key = some val := by
  induction layers with
  | nil => exact h.elim
  | cons layer layers ih =>
    rw [List.map_cons, loadAll_cons]
    rcases h with hdefines | ⟨hnone, h⟩
    · exact Layer.load_lastly (hread layer (by simp)) hdefines
    · rw [Layer.load_lastly_of_not_defines hnone]
      exact ih (fun l hl => hread l (by simp [hl])) h

end Outcomes

end Layers
