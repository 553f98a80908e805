import Mathlib.Data.List.TakeWhile
import Vanetza.Lib.Program
import Vanetza.Lib.Run
import Vanetza.Pki.Storage
import Vanetza.Security.V3.Digest

/-!
# The trust list processor

`CertificateTrustListProcessor` follows the trust lists of one issuer. A full list replaces
everything, a delta list adds and deletes.
-/

namespace Vanetza.Pki

open Security Security.V3 Security.V3.Asn1 Lib Program List

def findCtlFormat : MgmtContent → Option CtlFormat
  | .certificateTrustListRca format => some format
  | .certificateTrustListTlm format => some format
  | .other => none

structure EnrolmentAuthority where
  certificate : Certificate
  aaAccessPoint : String
  itsAccessPoint : String
  deriving DecidableEq

structure AuthorizationAuthority where
  certificate : Certificate
  accessPoint : String
  deriving DecidableEq

structure CertificateTrustListProcessor where
  enrolmentAuthorities : HashedId8 → Option EnrolmentAuthority
  authorizationAuthorities : HashedId8 → Option AuthorizationAuthority
  distributionCentres : HashedId8 → Option String
  rootCas : HashedId8 → Option Certificate
  trustListManagers : HashedId8 → Option Certificate

namespace CertificateTrustListProcessor

def empty : CertificateTrustListProcessor :=
  ⟨fun _ => none, fun _ => none, fun _ => none, fun _ => none, fun _ => none⟩

abbrev Processing (α : Type) := Program Unit CertificateTrustListProcessor α

variable (m : SecurityModule)

def copied (cert : Certificate) : Processing Certificate :=
  Program.orThrow () (copyCertificate m.platform cert)

def addRootCa (selfsignedRootCa : Certificate) : Processing Unit := do
  let cert ← copied m selfsignedRootCa
  let hid ← Program.orThrow () (calculateHashedId8 m.platform cert)
  modify fun p => { p with rootCas := Function.update p.rootCas hid (some cert) }

def addTrustListManager (selfSignedTLMCertificate : Certificate) : Processing Unit := do
  let cert ← copied m selfSignedTLMCertificate
  let hid ← Program.orThrow () (calculateHashedId8 m.platform cert)
  modify fun p => { p with
    trustListManagers := Function.update p.trustListManagers hid (some cert) }

def addAuthorizationAuthority (entry : AaEntry) (ctlSigner : HashedId8) : Processing Unit := do
  let cert ← copied m entry.aaCertificate
  let aa : AuthorizationAuthority := ⟨cert, entry.accessPoint⟩
  modify fun p => { p with
    authorizationAuthorities := Function.update p.authorizationAuthorities ctlSigner (some aa) }

def addEnrolmentAuthority (entry : EaEntry) (ctlSigner : HashedId8) : Processing Unit := do
  let cert ← copied m entry.eaCertificate
  let ea : EnrolmentAuthority := ⟨cert, entry.aaAccessPoint, entry.itsAccessPoint.getD ""⟩
  modify fun p => { p with
    enrolmentAuthorities := Function.update p.enrolmentAuthorities ctlSigner (some ea) }

def addDistributionCentre (entry : DcEntry) : Processing Unit :=
  modify fun p => { p with
    distributionCentres := entry.cert.foldl
      (fun map hid => Function.update map hid (some entry.url))
      p.distributionCentres }

def addEntry (ctlSigner : HashedId8) : CtlEntry → Processing Unit
  | .aa entry => addAuthorizationAuthority m entry ctlSigner
  | .ea entry => addEnrolmentAuthority m entry ctlSigner
  | .dc entry => addDistributionCentre entry
  | .rca cert => addRootCa m cert
  | .tlm cert => addTrustListManager m cert
  | .nothing => pure ()

def removeCertificate (hid : HashedId8) : Processing Unit :=
  modify fun p =>
    { enrolmentAuthorities := Function.update p.enrolmentAuthorities hid none
      authorizationAuthorities := Function.update p.authorizationAuthorities hid none
      distributionCentres := Function.update p.distributionCentres hid none
      rootCas := Function.update p.rootCas hid none
      trustListManagers := Function.update p.trustListManagers hid none }

def removeDc (url : String) : Processing Unit :=
  modify fun p => { p with
    distributionCentres := fun hid =>
      if p.distributionCentres hid = some url then none
      else p.distributionCentres hid }

def remove : CtlDelete → Processing Unit
  | .cert id => removeCertificate id
  | .dc url => removeDc url
  | .nothing => pure ()

def processCommand (ctlSigner : HashedId8) : ListCommand → Processing Unit
  | .add entry => addEntry m ctlSigner entry
  | .delete removal => remove removal
  | .nothing => pure ()

def process (ctl : SignedList) : Processing Unit := do
  let ctlSigner ← Program.orThrow () (getHashedId8 m.platform ctl)
  match m.getSignedPayload ctl, ctlSigner with
  | some payload, some ctlSigner =>
    match (m.mgmtData payload).bind findCtlFormat with
    | none => pure ()
    | some format => do
        if format.isFullCtl then set empty
        format.ctlCommands.forM (processCommand m ctlSigner)
  | _, _ => pure ()

def processAll (p : CertificateTrustListProcessor) (lists : List SignedList) :
  CertificateTrustListProcessor :=
  run (fun p ctl => ((process m ctl).exec p).2) p lists

inductive Step where
  | clear
  | command (ctlSigner : HashedId8) (cmd : ListCommand)

def Step.apply (p : CertificateTrustListProcessor) : Step → CertificateTrustListProcessor
  | .clear => empty
  | .command ctlSigner cmd => ((processCommand m ctlSigner cmd).exec p).2

def raises : ListCommand → Bool
  | .add (.rca cert) | .add (.tlm cert) =>
    (calculateHashedId8 m.platform cert).isNone
  | .add (.aa entry) => (m.platform.codec.encode entry.aaCertificate).isNone
  | .add (.ea entry) => (m.platform.codec.encode entry.eaCertificate).isNone
  | _ => false

def steps (ctl : SignedList) : List Step :=
  match getHashedId8 m.platform ctl, m.getSignedPayload ctl with
  | some (some ctlSigner), some payload =>
    match (m.mgmtData payload).bind findCtlFormat with
    | none => []
    | some format =>
      (if format.isFullCtl then [.clear] else []) ++
        (format.ctlCommands.takeWhile fun cmd => !raises m cmd).map
          (.command ctlSigner)
  | _, _ => []

variable {hid : HashedId8}

section Steps

variable {m} {p : CertificateTrustListProcessor} {ctlSigner : HashedId8} {cmd : ListCommand}

variable {cert : Certificate} {f : Certificate → HashedId8 → Processing Unit}

theorem encode_of_calculateHashedId8 {P : Platform} (h : calculateHashedId8 P cert = some hid) :
  (P.codec.encode cert).isSome := by
  have hen : ∀ {keyType}, calculateDigestInternal P cert keyType =
      some hid → (P.codec.encode cert).isSome := by
    intro keyType hd
    obtain ⟨buf, hb, -⟩ := Option.bind_eq_some_iff.1 hd
    rw [hb]
    rfl
  unfold calculateHashedId8 at h
  split at h
  · cases h
  · split at h <;> first | exact hen h | cases h

theorem exec_copied (h : (m.platform.codec.encode cert).isSome) :
  (copied m cert).exec p = (.ok cert, p) :=
  Program.exec_orThrow_eq_ok.2 ⟨copyCertificate_eq_some.2 ⟨h, rfl⟩, rfl⟩

theorem exec_copied_none (h : m.platform.codec.encode cert = none) :
  (copied m cert).exec p = (.error (), p) := by
  have hc : copyCertificate m.platform cert = none := by
    rw [copyCertificate, h]
    rfl
  rw [copied, hc]
  rfl

theorem exec_keyed (h : calculateHashedId8 m.platform cert = some hid) :
  (do
    let cert ← copied m cert
    let hid ← Program.orThrow () (calculateHashedId8 m.platform cert)
    f cert hid : Processing Unit).exec p = (f cert hid).exec p := by
  rw [exec_bind_ok (exec_copied (encode_of_calculateHashedId8 h)),
    exec_bind_ok (exec_orThrow_eq_ok.2 ⟨h, rfl⟩)]

theorem exec_keyed_none (h : calculateHashedId8 m.platform cert = none) :
  (do
    let cert ← copied m cert
    let hid ← Program.orThrow () (calculateHashedId8 m.platform cert)
    f cert hid : Processing Unit).exec p = (.error (), p) := by
  cases henc : m.platform.codec.encode cert with
  | none => exact exec_bind_error (exec_copied_none henc)
  | some buf =>
    rw [exec_bind_ok (exec_copied (by rw [henc]; rfl)), h]
    rfl

theorem exec_of_raises (h : raises m cmd = true) :
  (processCommand m ctlSigner cmd).exec p = (.error (), p) := by
  unfold raises at h
  split at h
  · exact exec_keyed_none (Option.isNone_iff_eq_none.1 h)
  · exact exec_keyed_none (Option.isNone_iff_eq_none.1 h)
  · exact exec_bind_error (exec_copied_none (Option.isNone_iff_eq_none.1 h))
  · exact exec_bind_error (exec_copied_none (Option.isNone_iff_eq_none.1 h))
  · cases h

theorem exec_of_not_raises (h : raises m cmd = false) :
  (processCommand m ctlSigner cmd).exec p = (.ok (), Step.apply m p (.command ctlSigner cmd)) := by
  suffices hok : ((processCommand m ctlSigner cmd).exec p).1 = .ok () from
    Prod.ext hok rfl
  have hs : ∀ {α : Type} {x : Option α}, x.isNone = false → ∃ a, x = some a := by
    intro α x hx
    exact Option.isSome_iff_exists.1 (by simpa using hx)
  cases cmd with
  | nothing => rfl
  | delete removal => cases removal <;> rfl
  | add entry =>
    cases entry with
    | nothing | dc entry => rfl
    | rca cert | tlm cert =>
      obtain ⟨hid, hh⟩ := hs h
      exact congrArg Prod.fst (exec_keyed hh)
    | aa entry | ea entry =>
      obtain ⟨buf, hb⟩ := hs h
      exact congrArg Prod.fst (exec_bind_ok (exec_copied (by rw [hb]; rfl)))

theorem exec_forM (cmds : List ListCommand) :
  ((cmds.forM (processCommand m ctlSigner)).exec p).2 =
    run (Step.apply m) p ((cmds.takeWhile fun cmd => !raises m cmd).map (.command ctlSigner)) := by
  induction cmds generalizing p with
  | nil => rfl
  | cons cmd rest ih =>
    have hc : (cmd :: rest).forM (processCommand m ctlSigner) =
        processCommand m ctlSigner cmd >>= fun _ =>
          rest.forM (processCommand m ctlSigner) := rfl
    rw [hc]
    cases hr : raises m cmd with
    | true =>
      rw [exec_bind_error (exec_of_raises hr), takeWhile_cons_of_neg (by simp [hr])]
      rfl
    | false =>
      rw [exec_bind_ok (exec_of_not_raises hr), takeWhile_cons_of_pos (by simp [hr]), ih]
      rfl

theorem exec_process (ctl : SignedList) :
  ((process m ctl).exec p).2 = run (Step.apply m) p (steps m ctl) := by
  unfold process steps
  cases hs : getHashedId8 m.platform ctl with
  | none => rfl
  | some maybeSigner =>
    rw [exec_bind_ok (exec_orThrow_eq_ok.2 ⟨rfl, rfl⟩)]
    cases hp : m.getSignedPayload ctl with
    | none => cases maybeSigner <;> rfl
    | some pay =>
      cases maybeSigner with
      | none => rfl
      | some ctlSigner =>
        dsimp only
        cases (m.mgmtData pay).bind findCtlFormat with
        | none => rfl
        | some format =>
          dsimp only
          split
          · exact exec_forM format.ctlCommands
          · exact exec_forM format.ctlCommands

theorem processAll_eq (lists : List SignedList) :
  processAll m p lists = run (Step.apply m) p (lists.flatMap (steps m)) := by
  induction lists generalizing p with
  | nil => rfl
  | cons ctl rest ih =>
    rw [flatMap_cons, run, foldl_append]
    refine (ih (p := ((process m ctl).exec p).2)).trans ?_
    rw [exec_process]
    rfl

end Steps

inductive Getter where
  | enrolmentAuthority
  | authorizationAuthority
  | rootCa
  | trustListManager
  deriving DecidableEq

def get (p : CertificateTrustListProcessor) (getter : Getter)
  (key : HashedId8) : Option Certificate :=
  match getter with
  | .enrolmentAuthority => (p.enrolmentAuthorities key).map (·.certificate)
  | .authorizationAuthority =>
    (p.authorizationAuthorities key).map (·.certificate)
  | .rootCa => p.rootCas key
  | .trustListManager => p.trustListManagers key

def ReturnsDigest (p : CertificateTrustListProcessor) (h : HashedId8) : Prop :=
  ∃ getter key cert, p.get getter key = some cert ∧
    calculateHashedId8 m.platform cert = some h

def Step.Adds (h : HashedId8) : Step → Prop
  | .command _ (.add (.rca cert)) | .command _ (.add (.tlm cert)) =>
    calculateHashedId8 m.platform cert = some h
  | .command _ (.add (.aa entry)) => calculateHashedId8 m.platform entry.aaCertificate = some h
  | .command _ (.add (.ea entry)) => calculateHashedId8 m.platform entry.eaCertificate = some h
  | _ => False

def Step.writes (getter : Getter) (key : HashedId8) : Step → Option (Option Certificate)
  | .clear => some none
  | .command _ (.add (.rca cert)) =>
    if getter = .rootCa ∧ calculateHashedId8 m.platform cert = some key then
      some (some cert)
    else none
  | .command _ (.add (.tlm cert)) =>
    if getter = .trustListManager ∧
        calculateHashedId8 m.platform cert = some key then
      some (some cert)
    else none
  | .command ctlSigner (.add (.aa entry)) =>
    if getter = .authorizationAuthority ∧ key = ctlSigner then
      some (some entry.aaCertificate)
    else none
  | .command ctlSigner (.add (.ea entry)) =>
    if getter = .enrolmentAuthority ∧ key = ctlSigner then
      some (some entry.eaCertificate)
    else none
  | .command _ (.delete (.cert id)) => if key = id then some none else none
  | _ => none

def Step.Runs : Step → Prop
  | .clear => True
  | .command _ cmd => raises m cmd = false

def Step.Of (issuer : HashedId8) : Step → Prop
  | .clear => True
  | .command ctlSigner cmd => ctlSigner = issuer ∧ raises m cmd = false

section Getters

variable {m} {p : CertificateTrustListProcessor} {issuer h : HashedId8}
  {step : Step} {getter : Getter} {key : HashedId8} {cert : Certificate}

variable {ctlSigner : HashedId8}

theorem apply_rca (hh : calculateHashedId8 m.platform cert = some hid) :
  Step.apply m p (.command ctlSigner (.add (.rca cert))) =
    { p with rootCas := Function.update p.rootCas hid (some cert) } :=
  congrArg Prod.snd (exec_keyed hh)

theorem apply_tlm (hh : calculateHashedId8 m.platform cert = some hid) :
  Step.apply m p (.command ctlSigner (.add (.tlm cert))) =
    { p with trustListManagers := Function.update p.trustListManagers hid (some cert) } :=
  congrArg Prod.snd (exec_keyed hh)

theorem apply_aa {entry : AaEntry} (henc : (m.platform.codec.encode entry.aaCertificate).isSome) :
  Step.apply m p (.command ctlSigner (.add (.aa entry))) = { p with authorizationAuthorities :=
        (Function.update p.authorizationAuthorities ctlSigner
          (some ⟨entry.aaCertificate, entry.accessPoint⟩)) } :=
  congrArg Prod.snd (Program.exec_bind_ok (exec_copied henc))

theorem apply_ea {entry : EaEntry} (henc : (m.platform.codec.encode entry.eaCertificate).isSome) :
  Step.apply m p (.command ctlSigner (.add (.ea entry))) = { p with enrolmentAuthorities :=
        (Function.update p.enrolmentAuthorities ctlSigner
          (some ⟨entry.eaCertificate, entry.aaAccessPoint, entry.itsAccessPoint.getD ""⟩)) } :=
  congrArg Prod.snd (Program.exec_bind_ok (exec_copied henc))

theorem apply_delete {id : HashedId8} :
  Step.apply m p (.command ctlSigner (.delete (.cert id))) =
    { enrolmentAuthorities := Function.update p.enrolmentAuthorities id none
      authorizationAuthorities := Function.update p.authorizationAuthorities id none
      distributionCentres := Function.update p.distributionCentres id none
      rootCas := Function.update p.rootCas id none
      trustListManagers := Function.update p.trustListManagers id none } :=
  rfl

theorem Step.Of.runs (hstep : step.Of m issuer) : step.Runs m := by
  cases step with
  | clear => trivial
  | command ctlSigner cmd => exact hstep.2

theorem get_apply (hstep : step.Runs m) :
  (step.apply m p).get getter key = (step.writes m getter key).getD (p.get getter key) := by
  have hs : ∀ {α : Type} {x : Option α}, x.isNone = false → x.isSome := by
    intro α x hx
    simpa using hx
  cases step with
  | clear => cases getter <;> rfl
  | command ctlSigner cmd =>
    have hr : raises m cmd = false := hstep
    cases cmd with
    | nothing => rfl
    | delete removal =>
      cases removal with
      | nothing => rfl
      | dc url => cases getter <;> rfl
      | cert id =>
        rw [apply_delete]
        by_cases hk : key = id <;> cases getter <;>
          simp [Step.writes, get, hk]
    | add entry =>
      cases entry with
      | nothing => rfl
      | dc entry => cases getter <;> rfl
      | rca cert =>
        obtain ⟨hid, hh⟩ := Option.isSome_iff_exists.1 (hs hr)
        rw [apply_rca hh]
        have hc : hid = key ↔ key = hid := eq_comm
        by_cases hk : key = hid <;> cases getter <;>
          simp [Step.writes, get, hh, hc, hk]
      | tlm cert =>
        obtain ⟨hid, hh⟩ := Option.isSome_iff_exists.1 (hs hr)
        rw [apply_tlm hh]
        have hc : hid = key ↔ key = hid := eq_comm
        by_cases hk : key = hid <;> cases getter <;>
          simp [Step.writes, get, hh, hc, hk]
      | aa entry =>
        rw [apply_aa (hs hr)]
        by_cases hk : key = ctlSigner <;> cases getter <;>
          simp [Step.writes, get, hk]
      | ea entry =>
        rw [apply_ea (hs hr)]
        by_cases hk : key = ctlSigner <;> cases getter <;>
          simp [Step.writes, get, hk]

def Filed (m : SecurityModule) (issuer : HashedId8) (p : CertificateTrustListProcessor) : Prop :=
  ∀ getter key cert, p.get getter key = some cert →
    key = issuer ∨ calculateHashedId8 m.platform cert = some key

theorem filed_empty : Filed m issuer empty := by rintro (_ | _ | _ | _) key cert ⟨⟩

theorem writes_filed (hstep : step.Of m issuer)
  (hwr : step.writes m getter key = some (some cert)) :
  key = issuer ∨ calculateHashedId8 m.platform cert = some key := by
  unfold Step.writes at hwr
  split at hwr
  · cases hwr
  · split at hwr
    · next hk =>
      cases hwr
      exact .inr hk.2
    · cases hwr
  · split at hwr
    · next hk =>
      cases hwr
      exact .inr hk.2
    · cases hwr
  · split at hwr
    · next hk => exact .inl (hk.2.trans hstep.1)
    · cases hwr
  · split at hwr
    · next hk => exact .inl (hk.2.trans hstep.1)
    · cases hwr
  · split at hwr <;> cases hwr
  · cases hwr

theorem filed_apply (hp : Filed m issuer p) (hstep : step.Of m issuer) :
  Filed m issuer (step.apply m p) := by
  intro getter key cert hg
  rw [get_apply hstep.runs] at hg
  cases hwr : step.writes m getter key with
  | none =>
    rw [hwr] at hg
    exact hp getter key cert hg
  | some written =>
    rw [hwr] at hg
    cases hg
    exact writes_filed hstep hwr

theorem adds_of_writes (hwr : step.writes m getter key = some (some cert))
  (hcert : calculateHashedId8 m.platform cert = some h) : step.Adds m h := by
  unfold Step.writes at hwr
  split at hwr
  · cases hwr
  iterate 4
    split at hwr
    · cases hwr
      exact hcert
    · cases hwr
  · split at hwr <;> cases hwr
  · cases hwr

def Named (m : SecurityModule) (h : HashedId8) (getter : Getter)
  (key : HashedId8) (p : CertificateTrustListProcessor) : Prop :=
  ∃ cert, p.get getter key = some cert ∧
    calculateHashedId8 m.platform cert = some h

theorem named_apply (hstep : step.Runs m) (ha : ¬ step.Adds m h) :
  Named m h getter key (step.apply m p) ↔
    Named m h getter key p ∧ step.writes m getter key = none := by
  unfold Named
  rw [get_apply hstep]
  cases hwr : step.writes m getter key with
  | none => simp
  | some written =>
    constructor
    · rintro ⟨cert, hg, hcert⟩
      cases hg
      exact absurd (adds_of_writes hwr hcert) ha
    · rintro ⟨-, ⟨⟩⟩

theorem named_run {steps : List Step} (hs : ∀ step ∈ steps, step.Runs m)
  (had : ∀ step ∈ steps, ¬ step.Adds m h) :
  Named m h getter key (run (Step.apply m) p steps) ↔ Named m h getter key p ∧
      ∀ step ∈ steps, step.writes m getter key = none := by
  induction steps generalizing p with
  | nil => simp [run]
  | cons step rest ih =>
    obtain ⟨hstep, hr⟩ := forall_mem_cons.1 hs
    obtain ⟨hadd, ha⟩ := forall_mem_cons.1 had
    rw [forall_mem_cons, ← and_assoc, ← named_apply hstep hadd]
    exact ih hr ha

end Getters

def OneIssuer (issuer : HashedId8) (lists : List SignedList) : Prop :=
  ∀ ctl ∈ lists, ∀ id, getHashedId8 m.platform ctl = some (some id) →
    id = issuer

section Deleted

variable {m} {issuer h : HashedId8} {lists : List SignedList} {before after : List Step}

variable {ctl : SignedList}

theorem mem_steps {step : Step} (hstep : step ∈ steps m ctl) :
  step = .clear ∨ ∃ ctlSigner cmd, step = .command ctlSigner cmd ∧
    getHashedId8 m.platform ctl = some (some ctlSigner) ∧ raises m cmd = false := by
  unfold steps at hstep
  split at hstep
  · next ctlSigner pay hs hpay =>
    split at hstep
    · cases hstep
    next format =>
    rcases mem_append.1 hstep with hc | hcom
    · split at hc
      · exact .inl (mem_singleton.1 hc)
      · cases hc
    · obtain ⟨cmd, hcmd, rfl⟩ := mem_map.1 hcom
      have hr := mem_takeWhile_imp hcmd
      exact .inr ⟨ctlSigner, cmd, rfl, hs, by simpa using hr⟩
  · cases hstep

theorem runs_of_mem_steps {step : Step} (hstep : step ∈ steps m ctl) :
  step.Runs m := by
  rcases mem_steps hstep with rfl | ⟨ctlSigner, cmd, rfl, -, hr⟩
  · trivial
  · exact hr

theorem OneIssuer.steps (hiss : OneIssuer m issuer lists) :
  ∀ step ∈ lists.flatMap (steps m), step.Of m issuer := by
  intro step hstep
  obtain ⟨ctl, hc, hm⟩ := mem_flatMap.1 hstep
  rcases mem_steps hm with rfl | ⟨ctlSigner, cmd, rfl, hs, hr⟩
  · trivial
  · exact ⟨hiss ctl hc ctlSigner hs, hr⟩

theorem named_after_delete {p : CertificateTrustListProcessor} {getter : Getter}
  {key : HashedId8} (hp : Filed m issuer p) :
  Named m h getter key (Step.apply m p (.command issuer (.delete (.cert h)))) ↔
    Named m h getter key p ∧ key = issuer ∧ h ≠ issuer := by
  have hd : Step.Runs m (.command issuer (.delete (.cert h))) := rfl
  rw [named_apply hd id]
  constructor
  · rintro ⟨⟨cert, hg, hcert⟩, hwr⟩
    have hk : key ≠ h := by
      rintro rfl
      simp [Step.writes] at hwr
    rcases hp getter key cert hg with rfl | hown
    · exact ⟨⟨cert, hg, hcert⟩, rfl, hk.symm⟩
    · exact absurd (Option.some.inj (hown.symm.trans hcert)) hk
  · rintro ⟨hn, rfl, hne⟩
    exact ⟨hn, if_neg hne.symm⟩

/-- After a delete command, and without another add of such a certificate, no
getter returns one with the deleted digest exactly if the digest is the issuer's
own, or what was kept under the issuer's digest is later overwritten. -/
theorem deleted_not_returned_iff (hissuer : OneIssuer m issuer lists)
  (hsteps : lists.flatMap (steps m) = before ++ .command issuer (.delete (.cert h)) :: after)
  (hadds : ∀ step ∈ after, ¬ step.Adds m h) :
  ¬ (processAll m empty lists).ReturnsDigest m h ↔ h = issuer ∨ ∀ getter,
      Named m h getter issuer (run (Step.apply m) empty before) →
      ∃ step ∈ after, (step.writes m getter issuer).isSome := by
  have hof := hissuer.steps
  rw [hsteps, forall_mem_append, forall_mem_cons] at hof
  obtain ⟨hb, -, ha⟩ := hof
  have hf : Filed m issuer (run (Step.apply m) empty before) := by
    refine Run.ofKind ?_ filed_empty hb
    intro p step hp hstep
    exact filed_apply hp hstep
  -- a certificate is returned at the end if it was left by the deletion
  have hnam : ∀ getter key, Named m h getter key (processAll m empty lists) ↔
        (Named m h getter key (run (Step.apply m) empty before) ∧ key = issuer ∧ h ≠ issuer) ∧
          ∀ step ∈ after, step.writes m getter key = none := by
    intro getter key
    rw [processAll_eq, hsteps, Run.append]
    exact (named_run (fun step hstep => (ha step hstep).runs) hadds).trans
      (and_congr_left' (named_after_delete hf))
  constructor
  · intro hr
    refine or_iff_not_imp_left.2 fun hne getter hh => ?_
    by_contra hkept
    have hn : ∀ step ∈ after, step.writes m getter issuer = none := by
      intro step hstep
      by_contra hwr
      exact hkept ⟨step, hstep, Option.isSome_iff_ne_none.2 hwr⟩
    obtain ⟨cert, hg, hcert⟩ := (hnam getter issuer).2 ⟨⟨hh, rfl, hne⟩, hn⟩
    exact hr ⟨getter, issuer, cert, hg, hcert⟩
  · rintro hc ⟨getter, key, cert, hg, hcert⟩
    obtain ⟨⟨hh, rfl, hne⟩, hn⟩ := (hnam getter key).1 ⟨cert, hg, hcert⟩
    obtain ⟨step, hstep, hwr⟩ := hc.resolve_left hne getter hh
    rw [hn step hstep] at hwr
    cases hwr

end Deleted

def listedAa : AaEntry := ⟨xOnlySigned, "https://aa.example/v1"⟩

def fullList : CtlFormat := ⟨true, [.add (.aa listedAa)]⟩
def deltaList : CtlFormat := ⟨false, [.delete (.cert (digestAt 0))]⟩

def twoLists : SecurityModule where
  platform := Platform.ofTable [xOnlySigned] fits_signedWith
  validate _ _ := some true
  revokedEntries _ := none
  signedPayload body := some body
  mgmtData
    | [0] => some (.certificateTrustListRca fullList)
    | [1] => some (.certificateTrustListRca deltaList)
    | _ => none

/-- Both are signed by the root CA `digestAt 9`. -/
def deletingLists : List SignedList :=
  [⟨some (.digest (digestAt 9)), [0]⟩, ⟨some (.digest (digestAt 9)), [1]⟩]

theorem deletingLists_oneIssuer : OneIssuer twoLists (digestAt 9) deletingLists := by
  intro ctl hc id hid
  rcases mem_pair.1 hc with rfl | rfl
  · cases hid
    rfl
  · cases hid
    rfl

theorem deletingLists_not_returned_iff :
  ¬ (processAll twoLists empty deletingLists).ReturnsDigest twoLists (digestAt 0) ↔
    digestAt 0 = digestAt 9 ∨ ∀ getter, Named twoLists (digestAt 0) getter (digestAt 9)
        (run (Step.apply twoLists) empty [.clear, .command (digestAt 9) (.add (.aa listedAa))]) →
      ∃ step ∈ ([] : List Step), (step.writes twoLists getter (digestAt 9)).isSome :=
  deleted_not_returned_iff deletingLists_oneIssuer (by rfl) (List.forall_mem_nil _)

/-- The deleted authority is still returned for the root CA. -/
theorem deleted_authority_returned :
  (processAll twoLists empty deletingLists).get .authorizationAuthority
      (digestAt 9) = some xOnlySigned ∧
    calculateHashedId8 twoLists.platform xOnlySigned = some (digestAt 0) ∧
    (processAll twoLists empty deletingLists).ReturnsDigest twoLists (digestAt 0) := by
  have hg : (processAll twoLists empty deletingLists).get
      .authorizationAuthority (digestAt 9) = some xOnlySigned := by
    decide +kernel
  have hd : calculateHashedId8 twoLists.platform xOnlySigned = some (digestAt 0) := by
    decide +kernel
  exact ⟨hg, hd, .authorizationAuthority, digestAt 9, _, hg, hd⟩

end CertificateTrustListProcessor

end Vanetza.Pki
