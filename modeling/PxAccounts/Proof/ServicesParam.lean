import PxAccounts.Lib.Pieces
import PxAccounts.Model.Reference
import PxAccounts.Proof.Delivery

/-!
# The services parameter of events

A subscriber cuts the `services` parameter of an event at the commas to learn the names of the
account's services.
-/

namespace PxAccounts

open Effect EventManager

variable {Text : Type} {env : Env Text} {act : AccountObject}

/-- The names in a services parameter, which for no services is empty. -/
def namesIn (services : String) : List String :=
  (Pieces.cut ',' services.toList).map String.ofList

/-- The service names can be written in a list with commas. -/
def PlainNames (act : AccountObject) : Prop :=
  ∀ name ∈ act.services.keys, name ≠ "" ∧ ',' ∉ name.toList

instance : Decidable (PlainNames act) :=
  inferInstanceAs (Decidable (∀ name ∈ act.services.keys, name ≠ "" ∧ ',' ∉ name.toList))

/-- The services parameter as it is documented: `svc1,svc2`. -/
def documentedParam (act : AccountObject) : String := String.intercalate "," act.services.keys

/-- The account events. -/
inductive AccountEvent
  | statusChange (old new : AccountStatus)
  | created
  | modified
  | deleted

/-- The function that publishes an event of the account. -/
def AccountEvent.emit (env : Env Text) (act : AccountObject) : AccountEvent → M Text Bool
  | .statusChange old new => emitStatusChange env act old new
  | .created => emitCreateAccount env act
  | .modified => emitModifyAccount env act
  | .deleted => emitDeleteAccount env act

/-- The event is handed to the event service for the account, by one of the four functions. -/
def Announces (Text : Type) (act : AccountObject) (e : Event) : Prop :=
  ∃ (env : Env Text) (kind : AccountEvent) (w : World Text) (delivery : Delivery),
    .emit e delivery ∈ w.newCalls (final ((kind.emit env act).run w))

/-! ## Names -/

theorem plain_names (h : PlainNames act) :
    Pieces.Plain ',' (act.services.keys.map String.toList) := by
  intro p hp
  obtain ⟨name, hname, rfl⟩ := List.mem_map.1 hp
  exact ⟨fun hnil => (h name hname).1 (String.toList_eq_nil_iff.1 hnil), (h name hname).2⟩

theorem map_ofList_toList (names : List String) :
    (names.map String.toList).map String.ofList = names := by
  rw [List.map_map]
  exact (List.map_congr_left fun name _ => String.ofList_toList).trans (List.map_id _)

theorem map_ofList_inj {l l' : List (List Char)} (h : l.map String.ofList = l'.map String.ofList) :
    l = l' :=
  List.map_injective_iff.2 (fun _ _ h => String.ofList_inj.1 h) h

/-- The documented parameter names the services. -/
theorem namesIn_documentedParam (h : PlainNames act) :
    namesIn (documentedParam act) = act.services.keys := by
  have hcut := Pieces.cut_intercalate (plain_names h)
  rw [namesIn, documentedParam, String.toList_intercalate]
  exact (congrArg _ hcut).trans (map_ofList_toList _)

theorem namesIn_makeServicesParam_iff (h : PlainNames act) :
    namesIn (makeServicesParam act) = act.services.keys ↔ act.services.size ≤ 1 := by
  have hcut := Pieces.cut_flatten_iff (plain_names h)
  rw [List.length_map, Std.ExtTreeMap.length_keys] at hcut
  rw [← hcut, namesIn, makeServicesParam, String.toList_join, List.flatMap_def]
  constructor
  · intro hnames
    apply map_ofList_inj
    rw [hnames, map_ofList_toList]
  · intro hparts
    rw [hparts, map_ofList_toList]

/-- The documented parameter is what is published for at most one service. -/
theorem makeServicesParam_eq_documentedParam_iff (h : PlainNames act) :
    makeServicesParam act = documentedParam act ↔ act.services.size ≤ 1 := by
  constructor
  · intro heq
    rw [← namesIn_makeServicesParam_iff h, heq, namesIn_documentedParam h]
  · intro hsize
    rw [← Std.ExtTreeMap.length_keys] at hsize
    rw [makeServicesParam, documentedParam]
    generalize act.services.keys = names at hsize
    match names, hsize with
    | [], _ => simp
    | [name], _ => simp

/-! ## Events -/

theorem services_accountParams :
    (accountParams env act)["services"]? = some (makeServicesParam act) := by
  rw [accountParams, Std.ExtTreeMap.getElem?_insert_self]

/-- Whether or not there is an event manager, `emit` hands over at most one event. -/
theorem params_of_emit {event : String} {params : StrStrMap} {w : World Text} {e : Event}
    {delivery : Delivery}
    (h : .emit e delivery ∈ w.newCalls (final ((EventManager.emit env event params).run w))) :
    e.params = params := by
  unfold EventManager.emit at h
  split at h
  · have hnone : w.newCalls w = [] := newCalls_eq (List.append_nil _).symm
    change _ ∈ w.newCalls w at h
    rw [hnone] at h
    exact absurd h List.not_mem_nil
  · change _ ∈ w.newCalls (w.published env event params) at h
    rw [newCalls_eq (World.calls_published w event params), List.mem_singleton] at h
    cases h
    rfl

theorem services_of_announces {e : Event} (h : Announces Text act e) :
    e.params["services"]? = some (makeServicesParam act) := by
  obtain ⟨env, kind, w, delivery, hcall⟩ := h
  cases kind with
  | statusChange old new =>
    rw [params_of_emit hcall, TreeMap.getElem?_insert_of_ne (by decide),
      TreeMap.getElem?_insert_of_ne (by decide), services_accountParams]
  | created => rw [params_of_emit hcall, services_accountParams]
  | modified => rw [params_of_emit hcall, services_accountParams]
  | deleted => rw [params_of_emit hcall, services_accountParams]

/-! ## Decoding -/

/-- A subscriber reads the service names of both accounts, and tells events of accounts with
different services apart. -/
structure ServicesDecoded (Text : Type) (act act' : AccountObject) : Prop where
  first : namesIn (makeServicesParam act) = act.services.keys
  second : namesIn (makeServicesParam act') = act'.services.keys
  apart : act.services.keys ≠ act'.services.keys → ∀ e e', Announces Text act e →
    Announces Text act' e' → e.params["services"]? ≠ e'.params["services"]?

/-- The services parameters of two accounts can be decoded if and only if neither account has more
than one service. -/
theorem services_param_decoded_iff {act act' : AccountObject} (h : PlainNames act)
    (h' : PlainNames act') :
    ServicesDecoded Text act act' ↔ act.services.size ≤ 1 ∧ act'.services.size ≤ 1 := by
  constructor
  · intro hdec
    exact ⟨(namesIn_makeServicesParam_iff h).1 hdec.first,
      (namesIn_makeServicesParam_iff h').1 hdec.second⟩
  · rintro ⟨hsize, hsize'⟩
    have hfirst := (namesIn_makeServicesParam_iff h).2 hsize
    have hsecond := (namesIn_makeServicesParam_iff h').2 hsize'
    refine ⟨hfirst, hsecond, fun hne e e' he he' heq => hne ?_⟩
    rw [services_of_announces he, services_of_announces he'] at heq
    rw [← hfirst, ← hsecond, Option.some.inj heq]

/-- An account with services of these names. -/
def accountWith (names : List String) : AccountObject :=
  { services := names.foldl (fun services name => services.insert name {}) ∅ }

theorem services_param_decoded_single :
    ServicesDecoded YamlText (accountWith ["imap"]) (accountWith ["smtp"]) := by
  have hplain : PlainNames (accountWith ["imap"]) ∧ PlainNames (accountWith ["smtp"]) := by
    decide +kernel
  exact (services_param_decoded_iff hplain.1 hplain.2).2 (by decide +kernel)

/-- The names of two services run into one. -/
theorem services_run_together :
    ¬∀ act act' : AccountObject, PlainNames act → PlainNames act' →
      ServicesDecoded YamlText act act' := by
  intro h
  have hdec := h (accountWith ["imap", "smtp"]) (accountWith ["imaps", "mtp"]) (by decide +kernel)
    (by decide +kernel)
  exact absurd hdec.first (by decide +kernel)

end PxAccounts
