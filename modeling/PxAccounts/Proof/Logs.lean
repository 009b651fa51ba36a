import PxAccounts.Model.Reference
import PxAccounts.Proof.Lookups
import PxAccounts.Proof.Masking

/-!
# Secrets in the log

Tokens and saved secrets are logged masked, but `_verifyParams` logs the value of every parameter.
Two executions whose answers agree up to the mask log the same exactly when the protected parameters
are verified with the same values.
-/

namespace PxAccounts

open Effect

variable {Text : Type} {env : Env Text}

/-- `verify`, followed by the reading back of the saved secrets. -/
def verifyAndSearch (env : Env Text) (owner : Owner) (svc : AccountService) :
    M Text (List SecretItemPtr) := do
  let _ ← svc.verify env owner
  SecretManager.getAccountSecrets env owner.id

/-- What an execution depends on besides the configuration, the account and the service: the answers
from outside, the parameters of the service and the state at the start. -/
structure Execution (Text : Type) where
  answers : Answers Text
  params : StrStrMap
  start : World Text

namespace Execution

variable (x : Execution Text) (env : Env Text) (owner : Owner) (svc : AccountService)

/-- The execution of `verify` and the reading back for a service with these parameters. -/
def run : EStateM.Result Exn (World Text) (List SecretItemPtr) :=
  (verifyAndSearch (env.answering x.answers) owner { svc with params := x.params }).run x.start

def calls : List (Call Text) := x.start.newCalls (final (x.run env owner svc))

/-- What was logged, at all levels. -/
def log : List (LogLevel × String) := x.start.newLog (final (x.run env owner svc))

/-- The execution does not end in undefined behaviour. -/
def Defined : Prop := ∀ what, exception? (x.run env owner svc) ≠ some (.undefined what)

/-- What the plugin answers to the parameters. -/
def verdict (plugin : PluginContainer) : Answer VerifyResult :=
  x.answers.verify x.start.tick plugin x.params

/-- The secrets of the account that are found after that answer. -/
def found : List SecretItemPtr :=
  (x.answers.search (x.start.tick + 1) ((∅ : StrStrMap).insert "account_id"
    (env.uuidAsString owner.id)).toList x.start.secrets).items.filterMap SecretManager.decodeItem

end Execution

/-- Corresponding answers of the two executions agree up to the mask of the secrets in them. -/
def AnswersSimilar (env : Env Text) (owner : Owner) (svc : AccountService)
    (x y : Execution Text) : Prop :=
  ∀ p ∈ (x.calls env owner svc).zip (y.calls env owner svc), p.1.similar p.2 = true

/-- The two executions log the same, unless one of them ends in undefined behaviour. -/
def LogsAgree (env : Env Text) (owner : Owner) (svc : AccountService) (x y : Execution Text) :
    Prop :=
  x.Defined env owner svc → y.Defined env owner svc → x.log env owner svc = y.log env owner svc

/-- If the plugin accepts the parameters and the lookups are defined, the protected parameters are
verified with the same values in both executions. -/
def ProtectedAgree (env : Env Text) (owner : Owner) (svc : AccountService) (x y : Execution Text) :
    Prop :=
  ∀ (plugin : PluginContainer) (a b : VerifyResult), svc.plugin = some plugin →
    svc.accountSet = true → x.verdict plugin = .returned a → y.verdict plugin = .returned b →
    a.verified = true → LookupsDefined svc.name (x.found env owner) a.params →
    List.Forall₂ (fun p q => p.isProtected = true →
      heldValue svc.name (x.found env owner) p = heldValue svc.name (y.found env owner) q)
      a.params b.params

/-! ## Two lists of parameters -/

section Compared

variable {svcName : String} {secrets secrets' : List SecretItemPtr} {ps qs : ServiceParamList}

/-- Whether a lookup is undefined does not depend on the secrets. -/
theorem supplied_error {a b : SecretItemPtr} (h : a.Similar b) {key : String} {e : Exn}
    (hb : supplied svcName key b = some (.error e)) : supplied svcName key a = some (.error e) := by
  have hattributes : b.item.attributes = a.item.attributes := by rw [h.1]
  have his : ∀ type, b.item.is type = a.item.is type := by
    intro type
    rw [SecretItem.is, SecretItem.is, SecretItem.schema, SecretItem.schema, hattributes]
  have huser : b.item.isUserPassword key = a.item.isUserPassword key := by
    rw [SecretItem.isUserPassword, SecretItem.isUserPassword, hattributes]
  rw [supplied, hattributes, his, his] at hb
  rw [supplied]
  split at hb
  · next hservice =>
    rw [if_pos hservice]
    split at hb
    · next hdual =>
      rw [if_pos hdual]
      rw [Option.some.injEq, SecretItem.getMatchingPassword, huser] at hb
      rw [Option.some.injEq, SecretItem.getMatchingPassword]
      refine except_bind_error.2 (.inl ?_)
      rcases except_bind_error.1 hb with hkey | ⟨found, -, hvalue⟩
      · exact hkey
      · split at hvalue
        · cases hvalue
        · split at hvalue
          · cases hvalue
          · cases hvalue
    · split at hb
      · cases hb
      · cases hb
  · cases hb

theorem exists_of_forall₂ {α : Type} {R : α → α → Prop} {l l' : List α}
    (h : List.Forall₂ R l l') {b : α} (hb : b ∈ l') : ∃ a ∈ l, R a b := by
  induction h with
  | nil => cases hb
  | cons hab _ ih =>
    rcases List.mem_cons.1 hb with rfl | hb
    · exact ⟨_, List.mem_cons_self, hab⟩
    · obtain ⟨a, ha, hab⟩ := ih hb
      exact ⟨a, List.mem_cons_of_mem _ ha, hab⟩

theorem lookupsDefined_of_similar (hsecrets : List.Forall₂ SecretItemPtr.Similar secrets secrets')
    (hparams : List.Forall₂ ServiceParam.Similar ps qs) (h : LookupsDefined svcName secrets ps) :
    LookupsDefined svcName secrets' qs := by
  intro q hq hprotected hblank secret' hsecret' e he
  obtain ⟨p, hp, hpq⟩ := exists_of_forall₂ hparams hq
  obtain ⟨secret, hsecret, hsimilar⟩ := exists_of_forall₂ hsecrets hsecret'
  rw [hpq.isProtected_eq] at hprotected
  rw [hpq.key_eq] at he
  exact h p hp hprotected (hpq.2.1.eq_empty_iff.2 hblank) secret hsecret e
    (supplied_error hsimilar he)

theorem paramMessage_inj {param : ServiceParam} {val val' : String}
    (h : paramMessage { param with val } = paramMessage { param with val := val' }) :
    val = val' := by
  have hmessage := congrArg (fun message => message.2.toList) h
  simp only [paramMessage, logMessage, String.toList_intercalate, List.map_cons, List.map_nil,
    List.intercalate, List.intersperse, List.flatten_cons, List.append_cancel_left_eq,
    List.append_cancel_right_eq] at hmessage
  exact String.toList_inj.1 hmessage

/-- A protected parameter is logged with its value. -/
theorem message_held_iff {p q : ServiceParam} (h : p.Similar q) :
    paramMessage (held svcName secrets p) = paramMessage (held svcName secrets' q) ↔
      (p.isProtected = true → heldValue svcName secrets p = heldValue svcName secrets' q) := by
  by_cases hprotected : p.isProtected = true
  · have hp : held svcName secrets p = { p with val := heldValue svcName secrets p } :=
      if_pos hprotected
    have hq : held svcName secrets' q = { p with val := heldValue svcName secrets' q } := by
      rw [held, if_pos (h.isProtected_eq.trans hprotected)]
      conv_lhs => rw [h.key_eq, h.isRequired_eq, h.isProtected_eq, h.defaultVal_eq]
    rw [hp, hq]
    constructor
    · exact fun hmessage _ => paramMessage_inj hmessage
    · intro hvalue
      rw [hvalue hprotected]
  · have hpq : q = p := by
      rw [h.1, ← h.2.2 (Bool.eq_false_iff.2 hprotected)]
    have hkept : ∀ secrets, held svcName secrets p = p := fun _ => if_neg hprotected
    rw [hpq, hkept, hkept]
    exact iff_of_true rfl fun hnot => absurd hnot hprotected

theorem lookupMessages_congr {p q : ServiceParam} (h : p.Similar q)
    (hvalue : p.isProtected = true → heldValue svcName secrets p = heldValue svcName secrets' q) :
    lookupMessages svcName secrets p = lookupMessages svcName secrets' q := by
  have hblank : q.val.isEmpty = p.val.isEmpty := by
    rw [Bool.eq_iff_iff, String.isEmpty_iff, String.isEmpty_iff]
    exact h.2.1.eq_empty_iff.symm
  rw [lookupMessages, lookupMessages, h.isProtected_eq, h.key_eq, hblank]
  split
  · next hlookup =>
    rw [Bool.and_eq_true] at hlookup
    rw [hvalue hlookup.1]
  · rfl

/-- The messages about the parameters are the same just when the protected values are. -/
theorem messages_eq_iff (hparams : List.Forall₂ ServiceParam.Similar ps qs)
    (header : LogLevel × String) :
    ps.flatMap (lookupMessages svcName secrets) ++
        header :: (ps.map (held svcName secrets)).map paramMessage =
      qs.flatMap (lookupMessages svcName secrets') ++
        header :: (qs.map (held svcName secrets')).map paramMessage ↔
    List.Forall₂ (fun p q => p.isProtected = true →
      heldValue svcName secrets p = heldValue svcName secrets' q) ps qs := by
  constructor
  · intro h
    have htail := (List.append_inj' h (by simp [hparams.length_eq])).2
    rw [List.cons.injEq, List.map_map, List.map_map] at htail
    replace htail := htail.2
    clear h
    induction hparams with
    | nil => exact .nil
    | cons hpq _ ih =>
      rw [List.map_cons, List.map_cons, List.cons.injEq] at htail
      exact .cons ((message_held_iff hpq).1 htail.1) (ih htail.2)
  · intro h
    have hlookups : ps.flatMap (lookupMessages svcName secrets) =
        qs.flatMap (lookupMessages svcName secrets') := by
      induction hparams with
      | nil => rfl
      | cons hpq _ ih =>
        rw [List.forall₂_cons] at h
        rw [List.flatMap_cons, List.flatMap_cons, lookupMessages_congr hpq h.1, ih h.2]
    have hverified : (ps.map (held svcName secrets)).map paramMessage =
        (qs.map (held svcName secrets')).map paramMessage := by
      clear hlookups
      induction hparams with
      | nil => rfl
      | cons hpq _ ih =>
        rw [List.forall₂_cons] at h
        rw [List.map_cons, List.map_cons, List.map_cons, List.map_cons,
          (message_held_iff hpq).2 h.1, ih h.2]
    rw [hlookups, hverified]

end Compared

/-! ## Whole executions -/

section Whole

variable {w₁ w₂ s t : World Text} {D : Prop} {first second : Answers Text} {owner : Owner}
  {svc svc' : AccountService}

theorem rel_say {messages messages' : List (LogLevel × String)}
    (h : (abreast w₁ w₂ True).rel s t) :
    (abreast w₁ w₂ (messages = messages')).rel (s.say messages) (t.say messages') := by
  obtain ⟨calls₁, messages₁, calls₂, messages₂, hs, ht, hlength, hsame⟩ := h
  have hsay : ∀ (w : World Text) messages, w.Follows (w.say messages) [] messages :=
    fun w _ => ⟨(List.append_nil _).symm, rfl⟩
  refine ⟨_, _, _, _, hs.trans (hsay s _), ht.trans (hsay t _), ?_, ?_⟩
  · rw [List.append_nil, List.append_nil, hlength]
  · rw [hsame.2 trivial, List.append_cancel_left_eq]

/-- The parameters are loaded in both executions, and the messages are the same just when the
protected values are. -/
theorem matches_loadParams {a b : VerifyResult} (hlink : svc.link = svc'.link)
    (hab : a.Similar b) (hst : (abreast w₁ w₂ True).rel s t)
    (hdefined : LookupsDefined svc.name (foundNext (env.answering first) owner s) a.params) :
    Matches (abreast w₁ w₂ (List.Forall₂ (fun p q => p.isProtected = true →
        heldValue svc.name (foundNext (env.answering first) owner s) p =
          heldValue svc.name (foundNext (env.answering second) owner t) q) a.params b.params))
      (Linked (Option.Rel fun _ _ => True))
      ((loadParams (env.answering first) owner svc a).run s)
      ((loadParams (env.answering second) owner svc' b).run t) := by
  have hname : svc'.name = svc.name := (congrArg Prod.fst hlink).symm
  obtain ⟨messages₁, hsearch₁⟩ := run_search (env.answering first)
    ((∅ : StrStrMap).insert "account_id" (env.uuidAsString owner.id)) s
  obtain ⟨messages₂, hsearch₂⟩ := run_search (env.answering second)
    ((∅ : StrStrMap).insert "account_id" (env.uuidAsString owner.id)) t
  have hstep : ∀ attributes, InStep env first second w₁ w₂ True (List.Forall₂ SecretItemPtr.Similar)
      (fun env => SecretManager.search env attributes)
      (fun env => SecretManager.search env attributes) := abreast_search
  have hsearch := (hstep ((∅ : StrStrMap).insert "account_id" (env.uuidAsString owner.id))).run s t hst
  dsimp only at hsearch
  rw [hsearch₁, hsearch₂] at hsearch
  cases hsearch with
  | lost hlost =>
    exact .lost (lost_of_growth (calls_loadParams hsearch₁) (calls_loadParams hsearch₂) hlost)
  | ok hsecrets hrel =>
    have hdefined' := lookupsDefined_of_similar hsecrets hab.2 hdefined
    rw [← hname] at hdefined'
    obtain ⟨s₂, hagain₁, hrun₁⟩ := run_loadParams svc hdefined
    obtain ⟨t₂, hagain₂, hrun₂⟩ := run_loadParams svc' hdefined'
    obtain ⟨-, rfl⟩ := EStateM.Result.ok.inj (hsearch₁.symm.trans hagain₁)
    obtain ⟨-, rfl⟩ := EStateM.Result.ok.inj (hsearch₂.symm.trans hagain₂)
    rw [hrun₁, hrun₂, hname]
    refine .ok ⟨.some trivial, ?_⟩ ?_
    · rw [AccountService.link_applyVerification, AccountService.link_applyVerification, hlink]
    · rw [← messages_eq_iff hab.2 (.inf, logMessage ["parameters are verified:"])]
      exact rel_say hrel

/-- What follows `_verifyParams`. -/
def afterwards (env : Env Text) (owner : Owner) (r : Option VerifyResult × AccountService) :
    M Text (List SecretItemPtr) := do
  let _ ← afterParams env owner r
  SecretManager.getAccountSecrets env owner.id

theorem abreast_afterwards {r r' : Option VerifyResult × AccountService}
    (h : Linked (Option.Rel fun _ _ => True) r r') :
    InStep env first second w₁ w₂ D (fun _ _ => True) (fun env => afterwards env owner r)
      (fun env => afterwards env owner r') :=
  couples_seq (abreast_afterParams owner h) ((abreast_search _).mono fun _ _ _ => trivial)

/-- The exceptions that can be caught, and nothing undefined. -/
def catchable : Ending Exn (Frame.eqOn fun _ : World Text => ()) where
  raised _ e _ := ∀ what, e ≠ .undefined what
  extend _ h := h

/-- Nothing is undefined once the parameters are verified. -/
theorem ends_afterwards (hplugin : svc.plugin.isSome) (hset : svc.accountSet = true)
    (vResult : VerifyResult) : Ends catchable (afterwards env owner (some vResult, svc)) := by
  have hauth : Ends catchable (svc.authenticate env vResult) := by
    refine (ends_derefPlugin hplugin).bind fun plugin => Ends.bind ?_ fun aResult =>
      ends_ite (fun _ => ends_pure _) fun _ => (ends_glog records_unit _ _).bind fun _ => ?_
    · rw [authenticate_eq]
      refine (ends_modifyGet fun _ => rfl).bind fun answer => ?_
      cases answer with
      | returned result => exact ends_pure _
      | raised what => exact ends_throw fun _ => by simp [catchable]
      | errorAlreadySet what =>
        rw [passOn]
        cases plugin.type with
        | pythonPlugin => exact ends_pure _
        | cppPlugin => exact ends_throw fun _ => by simp [catchable]
    · refine (ends_forM fun token _ => (ends_glog records_unit _ _).bind fun _ => ?_).bind
        fun _ => ends_pure _
      exact ends_forM fun attrib _ => ends_glog records_unit _ _
  refine Ends.bind (hauth.bind_ok ?_) fun _ => ends_search records_unit _
  rintro ⟨r, svc₁⟩ w w₁ hrun
  obtain ⟨⟨errs, rfl⟩, -⟩ := AccountService.authenticate_ok hrun
  cases r with
  | none => exact ends_pure _
  | some aResult =>
    have hset₁ : (svc.addErrorList errs).accountSet = true := hset
    refine (ends_saveProtectedParams records_unit hset₁ owner aResult).bind_ok ?_
    rintro ⟨saved, svc₂⟩ w₁ w₂ hsave
    obtain ⟨errs', rfl⟩ := AccountService.saveProtectedParams_ok hsave
    cases saved with
    | false => exact ends_pure _
    | true =>
      have hplugin₂ : ((svc.addErrorList errs).addErrorList errs').plugin.isSome := hplugin
      exact (ends_customWrite records_unit hplugin₂ _ _).bind fun _ => ends_pure _

end Whole

/-! ## The log -/

section Log

variable {owner : Owner} {svc : AccountService} {x y : Execution Text} {D : Prop}

/-- The service as `verify` passes it to `_verifyParams`. -/
def Execution.service (x : Execution Text) (svc : AccountService) : AccountService :=
  { svc with params := x.params, errors := [] }

theorem Execution.run_eq (x : Execution Text) : x.run env owner svc =
    ((x.service svc).verifyParams (env.answering x.answers) owner >>=
      afterwards (env.answering x.answers) owner).run x.start := by
  rw [run, verifyAndSearch, verify_eq_afterParams, bind_assoc]
  rfl

theorem couples_afterwards {r r' : Option VerifyResult × AccountService}
    (h : Linked (Option.Rel fun _ _ => True) r r') :
    Couples (abreast x.start y.start D) (fun _ _ => True)
      (afterwards (env.answering x.answers) owner r)
      (afterwards (env.answering y.answers) owner r') :=
  abreast_afterwards h

theorem linked_refl (r : Option VerifyResult × AccountService) :
    Linked (Option.Rel fun _ _ => True) r r :=
  ⟨option_rel_refl (fun _ => trivial) _, rfl⟩

/-- The answers are compared to the end. -/
theorem not_lost (hanswers : AnswersSimilar env owner svc x y) : ¬(abreast x.start y.start D).lost
    (final (((x.service svc).verifyParams (env.answering x.answers) owner).run x.start))
    (final (((y.service svc).verifyParams (env.answering y.answers) owner).run y.start)) := by
  intro hlost
  have hwhole : (abreast x.start y.start D).lost (final (x.run env owner svc))
      (final (y.run env owner svc)) := by
    rw [x.run_eq, y.run_eq]
    exact lost_bind_right (fun r => (couples_afterwards (x := x) (linked_refl r)).right)
      (lost_bind_left (fun r => (couples_afterwards (y := y) (linked_refl r)).left) hlost)
  obtain ⟨p, hp, hsimilar⟩ := hwhole
  rw [hanswers p hp] at hsimilar
  cases hsimilar

section Matched

variable (hanswers : AnswersSimilar env owner svc x y)
  (h : Matches (abreast x.start y.start D) (Linked (Option.Rel fun _ _ => True))
    (((x.service svc).verifyParams (env.answering x.answers) owner).run x.start)
    (((y.service svc).verifyParams (env.answering y.answers) owner).run y.start))
include hanswers h

/-- The whole logs are the same just when the messages about the parameters are. -/
theorem log_eq_iff : x.log env owner svc = y.log env owner svc ↔ D := by
  have hwhole : Matches (abreast x.start y.start D) (fun _ _ => True) (x.run env owner svc)
      (y.run env owner svc) := by
    rw [x.run_eq, y.run_eq]
    exact h.bind (fun _ _ hr => (couples_afterwards hr).run)
      (fun r => (couples_afterwards (y := y) (linked_refl r)).left)
      fun r => (couples_afterwards (x := x) (linked_refl r)).right
  unfold AnswersSimilar Execution.calls at hanswers
  unfold Execution.log
  generalize x.run env owner svc = r at hwhole hanswers ⊢
  generalize y.run env owner svc = r' at hwhole hanswers ⊢
  cases hwhole with
  | ok _ hrel =>
    obtain ⟨calls₁, messages₁, calls₂, messages₂, hs, ht, -, hD⟩ := hrel
    rw [final_ok, final_ok, hs.newLog_eq, ht.newLog_eq, hD]
  | error hrel =>
    obtain ⟨calls₁, messages₁, calls₂, messages₂, hs, ht, -, hD⟩ := hrel
    rw [final_error, final_error, hs.newLog_eq, ht.newLog_eq, hD]
  | lost hlost =>
    obtain ⟨p, hp, hsimilar⟩ := hlost
    rw [hanswers p hp] at hsimilar
    cases hsimilar

/-- Once the parameters are verified, neither execution ends in undefined behaviour. -/
theorem both_defined {vResult : VerifyResult} {svc' : AccountService} {w' : World Text}
    (hx : ((x.service svc).verifyParams (env.answering x.answers) owner).run x.start =
      .ok (some vResult, svc') w') (hlink : svc'.link = svc.link) (hplugin : svc.plugin.isSome)
    (hset : svc.accountSet = true) : x.Defined env owner svc ∧ y.Defined env owner svc := by
  have hdefined : ∀ {z : Execution Text} {vResult svc' w'},
      ((z.service svc).verifyParams (env.answering z.answers) owner).run z.start =
        .ok (some vResult, svc') w' → svc'.link = svc.link → z.Defined env owner svc := by
    intro z vResult svc' w' hz hlink what hwhat
    rw [z.run_eq, EStateM.run_bind, hz] at hwhat
    have hplugin' : svc'.plugin.isSome := by
      rw [show svc'.plugin = svc.plugin from congrArg (fun link => link.2.2.1) hlink]
      exact hplugin
    have hset' : svc'.accountSet = true := (congrArg (fun link => link.2.1) hlink).trans hset
    exact (ends_afterwards hplugin' hset' vResult).raised _ _ _ (eq_error_of_exception? hwhat) what
      rfl
  refine ⟨hdefined hx hlink, ?_⟩
  have hnot := not_lost (D := D) hanswers
  rw [hx] at h hnot
  generalize hy : ((y.service svc).verifyParams (env.answering y.answers) owner).run y.start = r
    at h hnot
  cases h with
  | lost hlost => exact absurd hlost hnot
  | @ok _ r' _ t hrel _ =>
    obtain ⟨o, svc''⟩ := r'
    obtain ⟨hsome, hlinks⟩ := hrel
    dsimp only at hsome hlinks
    cases hsome with
    | some _ => exact hdefined hy (hlinks.symm.trans hlink)

end Matched

/-- The state in which the plugin has answered. -/
def Execution.asked (x : Execution Text) (plugin : PluginContainer) : World Text :=
  x.start.record (.verify plugin.title x.params (x.verdict plugin))

theorem Execution.foundNext_asked (x : Execution Text) (owner : Owner) (plugin : PluginContainer) :
    foundNext (env.answering x.answers) owner (x.asked plugin) = x.found env owner := by
  have htick : (x.asked plugin).tick = x.start.tick + 1 := List.length_append
  rw [foundNext, htick]
  rfl

/-- The two answers are compared, or nothing more is said. -/
theorem matches_verifyParams {plugin : PluginContainer} (hplugin : svc.plugin = some plugin)
    (h : (x.verdict plugin).Similar VerifyResult.Similar (y.verdict plugin) →
      (abreast x.start y.start True).rel (x.asked plugin) (y.asked plugin) →
      Matches (abreast x.start y.start D) (Linked (Option.Rel fun _ _ => True))
        ((judge (env.answering x.answers) owner (x.service svc) plugin (x.verdict plugin)).run
          (x.asked plugin))
        ((judge (env.answering y.answers) owner (y.service svc) plugin (y.verdict plugin)).run
          (y.asked plugin))) :
    Matches (abreast x.start y.start D) (Linked (Option.Rel fun _ _ => True))
      (((x.service svc).verifyParams (env.answering x.answers) owner).run x.start)
      (((y.service svc).verifyParams (env.answering y.answers) owner).run y.start) := by
  rw [run_verifyParams (show (x.service svc).plugin = some plugin from hplugin),
    run_verifyParams (show (y.service svc).plugin = some plugin from hplugin)]
  have hasked : ∀ z : Execution Text, z.start.Follows (z.asked plugin)
      [.verify plugin.title z.params (z.verdict plugin)] [] :=
    fun z => ⟨rfl, (List.append_nil _).symm⟩
  by_cases hsimilar : (x.verdict plugin).Similar VerifyResult.Similar (y.verdict plugin)
  · exact h hsimilar ⟨_, _, _, _, hasked x, hasked y, rfl, iff_of_true rfl trivial⟩
  · have hdiffer : (Call.verify plugin.title x.params (x.verdict plugin) : Call Text).similar
        (.verify plugin.title y.params (y.verdict plugin)) = false := decide_eq_false hsimilar
    refine .lost (lost_of_growth (calls_judge _ _ _ _ (x.asked plugin))
      (calls_judge _ _ _ _ (y.asked plugin)) ⟨(_, _), ?_, hdiffer⟩)
    rw [(hasked x).newCalls_eq, (hasked y).newCalls_eq]
    exact List.mem_singleton_self _

/-- Where the parameters are not loaded, nothing is logged of them. -/
theorem matches_judge {s t w₁ w₂ : World Text} {first second : Answers Text}
    {svc svc' : AccountService} (hlink : svc.link = svc'.link)
    (hrel : (abreast w₁ w₂ True).rel s t) {plugin : PluginContainer}
    {answer answer' : Answer VerifyResult} (hsimilar : answer.Similar VerifyResult.Similar answer')
    (hnot : ∀ a, answer = .returned a → a.verified = true → svc.accountSet = false) :
    Matches (abreast w₁ w₂ True) (Linked (Option.Rel fun _ _ => True))
      ((judge (env.answering first) owner svc plugin answer).run s)
      ((judge (env.answering second) owner svc' plugin answer').run t) := by
  have hset : svc'.accountSet = svc.accountSet := (congrArg (fun link => link.2.1) hlink).symm
  cases answer with
  | returned a =>
    cases answer' with
    | errorAlreadySet what' => exact hsimilar.elim
    | raised what' => exact hsimilar.elim
    | returned b =>
      have hverified : b.verified = a.verified := by rw [hsimilar.1]
      cases ha : a.verified with
      | false =>
        rw [judge_refused ha, judge_refused (hverified.trans ha)]
        exact .ok ⟨.none, hlink⟩ hrel
      | true =>
        have hunset := hnot a rfl ha
        have hnone : ∀ svc : AccountService, svc.accountSet = false →
            (svc.derefAccount owner : M Text Owner) = throw (.undefined "_account is null") := by
          intro svc h
          rw [AccountService.derefAccount, if_neg (by simp [h])]
          rfl
        rw [judge_accepted ha, judge_accepted (hverified.trans ha), hnone svc hunset,
          hnone svc' (hset.trans hunset)]
        exact .error hrel
  | errorAlreadySet what =>
    cases answer' with
    | returned b => exact hsimilar.elim
    | raised what' => exact hsimilar.elim
    | errorAlreadySet what' =>
      obtain rfl : what = what' := hsimilar
      cases hplugin : plugin.type with
      | pythonPlugin =>
        have hrefused : ∀ (env : Env Text) (svc : AccountService),
            judge env owner svc plugin (.errorAlreadySet what) =
              pure (none, svc.addErrorList [what]) := by
          intro env svc
          rw [judge, passOn, hplugin]
          rfl
        rw [hrefused, hrefused]
        exact .ok ⟨.none, hlink⟩ hrel
      | cppPlugin =>
        have hraised : ∀ (env : Env Text) (svc : AccountService),
            judge env owner svc plugin (.errorAlreadySet what) = throw (.std what) := by
          intro env svc
          rw [judge, passOn, hplugin]
          rfl
        rw [hraised, hraised]
        exact .error hrel
  | raised what =>
    cases answer' with
    | returned b => exact hsimilar.elim
    | errorAlreadySet what' => exact hsimilar.elim
    | raised what' =>
      obtain rfl : what = what' := hsimilar
      exact .error hrel

section Accepted

variable {plugin : PluginContainer} {a : VerifyResult} (hplugin : svc.plugin = some plugin)
  (hset : svc.accountSet = true) (ha : x.verdict plugin = .returned a)
  (hverified : a.verified = true)
include hplugin hset ha hverified

theorem run_accepted :
    ((x.service svc).verifyParams (env.answering x.answers) owner).run x.start =
      (loadParams (env.answering x.answers) owner (x.service svc) a).run (x.asked plugin) := by
  have hset' : (x.service svc).accountSet = true := hset
  rw [← judge_loads plugin hverified hset', ← ha]
  exact run_verifyParams (show (x.service svc).plugin = some plugin from hplugin) owner x.start

theorem protectedAgree_iff {b : VerifyResult} (hb : y.verdict plugin = .returned b)
    (hdefined : LookupsDefined svc.name (x.found env owner) a.params) :
    ProtectedAgree env owner svc x y ↔ List.Forall₂ (fun p q => p.isProtected = true →
      heldValue svc.name (x.found env owner) p = heldValue svc.name (y.found env owner) q)
      a.params b.params := by
  constructor
  · exact fun h => h plugin a b hplugin hset ha hb hverified hdefined
  · intro h plugin' a' b' hplugin' _ ha' hb' _ _
    obtain rfl : plugin = plugin' := Option.some.inj (hplugin.symm.trans hplugin')
    obtain rfl : a = a' := by simpa using ha.symm.trans ha'
    obtain rfl : b = b' := by simpa using hb.symm.trans hb'
    exact h

theorem matches_accepted (hdefined : LookupsDefined svc.name (x.found env owner) a.params) :
    Matches (abreast x.start y.start (ProtectedAgree env owner svc x y))
      (Linked (Option.Rel fun _ _ => True))
      (((x.service svc).verifyParams (env.answering x.answers) owner).run x.start)
      (((y.service svc).verifyParams (env.answering y.answers) owner).run y.start) := by
  refine matches_verifyParams hplugin fun hsimilar hrel => ?_
  rw [ha] at hsimilar
  cases hb : y.verdict plugin with
  | errorAlreadySet what =>
    rw [hb] at hsimilar
    exact hsimilar.elim
  | raised what =>
    rw [hb] at hsimilar
    exact hsimilar.elim
  | returned b =>
    rw [hb] at hsimilar
    have hab : a.Similar b := hsimilar
    have hverified' : b.verified = true := by rw [hab.1, hverified]
    have hset' : ∀ z : Execution Text, (z.service svc).accountSet = true := fun _ => hset
    rw [protectedAgree_iff hplugin hset ha hverified hb hdefined, ha,
      judge_loads plugin hverified (hset' x), judge_loads plugin hverified' (hset' y),
      ← x.foundNext_asked owner plugin, ← y.foundNext_asked owner plugin]
    have hlink : (x.service svc).link = (y.service svc).link := rfl
    rw [← x.foundNext_asked owner plugin] at hdefined
    exact matches_loadParams hlink hab hrel hdefined

theorem undefined_of_lookup (h : ¬LookupsDefined svc.name (x.found env owner) a.params) :
    ¬x.Defined env owner svc := by
  rw [← x.foundNext_asked owner plugin] at h
  obtain ⟨what, w', hundefined⟩ := undefined_of_loadParams (x.service svc) h
  refine fun hx => hx what ?_
  rw [x.run_eq, EStateM.run_bind, run_accepted hplugin hset ha hverified, hundefined]
  rfl

end Accepted

/-- Nothing is logged of the parameters. -/
theorem matches_unloaded (hload : ¬∃ plugin a, svc.plugin = some plugin ∧ svc.accountSet = true ∧
      x.verdict plugin = .returned a ∧ a.verified = true) :
    Matches (abreast x.start y.start True) (Linked (Option.Rel fun _ _ => True))
      (((x.service svc).verifyParams (env.answering x.answers) owner).run x.start)
      (((y.service svc).verifyParams (env.answering y.answers) owner).run y.start) := by
  have hlink : (x.service svc).link = (y.service svc).link := rfl
  cases hplugin : svc.plugin with
  | none =>
    have hnone : ∀ z : Execution Text,
        (z.service svc).verifyParams (env.answering z.answers) owner = (do
          glog .inf ["service plugin is not initiated."]
          return (none, z.service svc)) := by
      intro z
      rw [AccountService.verifyParams, show (z.service svc).plugin = none from hplugin]
    have hstart : ∀ w : World Text, w.Follows w [] [] :=
      fun w => ⟨(List.append_nil _).symm, (List.append_nil _).symm⟩
    rw [hnone, hnone]
    exact ((abreast_glog _ _).bind fun _ => couples_pure ⟨.none, hlink⟩).run _ _
      ⟨_, _, _, _, hstart _, hstart _, rfl, iff_of_true rfl trivial⟩
  | some plugin =>
    refine matches_verifyParams hplugin fun hsimilar hrel => ?_
    exact matches_judge hlink hrel hsimilar fun a ha hverified => Bool.eq_false_iff.2 fun hset =>
      hload ⟨plugin, a, hplugin, hset, ha, hverified⟩

end Log

/-- Two executions whose answers agree up to the mask log the same if and only if the protected
parameters are verified with the same values. -/
theorem logs_agree_iff (env : Env Text) (owner : Owner) (svc : AccountService)
    (x y : Execution Text) (hanswers : AnswersSimilar env owner svc x y) :
    LogsAgree env owner svc x y ↔ ProtectedAgree env owner svc x y := by
  by_cases hload : ∃ plugin a, svc.plugin = some plugin ∧ svc.accountSet = true ∧
      x.verdict plugin = .returned a ∧ a.verified = true
  · obtain ⟨plugin, a, hplugin, hset, ha, hverified⟩ := hload
    by_cases hdefined : LookupsDefined svc.name (x.found env owner) a.params
    · have hmatch := matches_accepted (y := y) hplugin hset ha hverified hdefined
      have hlookup := hdefined
      rw [← x.foundNext_asked owner plugin] at hlookup
      obtain ⟨w', -, hloaded⟩ := run_loadParams (x.service svc) hlookup
      obtain ⟨hx, hy⟩ := both_defined hanswers hmatch
        ((run_accepted hplugin hset ha hverified).trans hloaded) (AccountService.link_applyVerification _ _) (by rw [hplugin]; rfl) hset
      rw [← log_eq_iff hanswers hmatch]
      exact ⟨fun h => h hx hy, fun h _ _ => h⟩
    · refine iff_of_true
        (fun hx => absurd hx (undefined_of_lookup hplugin hset ha hverified hdefined)) ?_
      intro plugin' a' b hplugin' _ ha' _ _ hdefined'
      obtain rfl : plugin = plugin' := Option.some.inj (hplugin.symm.trans hplugin')
      obtain rfl : a = a' := by simpa using ha.symm.trans ha'
      exact absurd hdefined' hdefined
  · have hagree : ProtectedAgree env owner svc x y := by
      intro plugin a b hplugin hset ha _ hverified
      exact absurd ⟨plugin, a, hplugin, hset, ha, hverified⟩ hload
    exact iff_of_true (fun _ _ => (log_eq_iff hanswers (matches_unloaded hload)).2 trivial) hagree

/-- An execution in which the plugin verifies this password and authenticates with this token, which
is saved and read back. -/
def passwordRun (password token : String) : Execution YamlText where
  answers :=
    { referenceAnswers with
      verify := fun _ _ _ => .returned
        { verified := true
          params := [{ key := "password", val := password, isProtected := true }] }
      authenticate := fun _ _ _ => .returned
        { authenticated := true
          tokens := [{ label := "imap", secret := token
                       attributes := (∅ : StrStrMap).insert "schema" "password" }] } }
  params := ∅
  start := { files := fun _ => ∅ }

/-- Two tokens with the same mask are not told apart by the log. -/
theorem logs_agree_tokens : LogsAgree referenceEnv { id := 7, title := "Mail" } pluginService
    (passwordRun "ann" "abc") (passwordRun "ann" "axy") := by
  have hanswers : AnswersSimilar referenceEnv { id := 7, title := "Mail" } pluginService
      (passwordRun "ann" "abc") (passwordRun "ann" "axy") := by
    unfold AnswersSimilar
    decide +kernel
  refine (logs_agree_iff referenceEnv { id := 7, title := "Mail" } pluginService
    (passwordRun "ann" "abc") (passwordRun "ann" "axy") hanswers).2 ?_
  intro plugin a b _ _ ha hb _ _
  cases ha
  cases hb
  exact .cons (fun _ => rfl) .nil

/-- Two passwords with the same mask are told apart. -/
theorem password_is_logged : ¬∀ (env : Env YamlText) (owner : Owner) (svc : AccountService)
    (x y : Execution YamlText), AnswersSimilar env owner svc x y → LogsAgree env owner svc x y := by
  intro h
  have hruns : AnswersSimilar referenceEnv { id := 7, title := "Mail" } pluginService
        (passwordRun "ann" "abc") (passwordRun "axy" "abc") ∧
      exception? ((passwordRun "ann" "abc").run referenceEnv { id := 7, title := "Mail" }
        pluginService) = none ∧
      exception? ((passwordRun "axy" "abc").run referenceEnv { id := 7, title := "Mail" }
        pluginService) = none ∧
      (passwordRun "ann" "abc").log referenceEnv { id := 7, title := "Mail" } pluginService ≠
        (passwordRun "axy" "abc").log referenceEnv { id := 7, title := "Mail" } pluginService := by
    unfold AnswersSimilar
    decide +kernel
  obtain ⟨hanswers, hx, hy, hdiffer⟩ := hruns
  refine hdiffer (h _ _ _ _ _ hanswers (fun what hwhat => ?_) fun what hwhat => ?_)
  · rw [hx] at hwhat
    cases hwhat
  · rw [hy] at hwhat
    cases hwhat

end PxAccounts
