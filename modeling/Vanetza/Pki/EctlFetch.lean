import Vanetza.Lib.Returns
import Vanetza.Pki.TrustListProcessor
import Vanetza.Security.V3.Validity

/-!
# Fetching the European trust list

`cpoc ectl fetch` asks the point of contact for the list of a trust list
manager, checks that the answer comes from that manager, and stores three
things: the manager's certificate if it was not known, the list itself, and the
root CAs the list names.
-/

namespace Vanetza.Pki

open Security Security.V3 Security.V3.Asn1 Lib Program

/-- `CertificateFilesystemStorage`: the contents of the file for an
identifier. -/
abbrev CertificateFiles := HashedId8 → Option ByteBuffer

def CertificateFiles.fetch (files : CertificateFiles) (P : Platform)
  (id : HashedId8) : Option Certificate :=
  (files id).bind P.codec.decode

def fileOf (P : Platform) (cert : Certificate) : Option (HashedId8 × ByteBuffer) := do
  let id ← calculateHashedId8 P cert
  let buffer ← P.codec.encode cert
  return (id, buffer)

def CertificateFiles.write (files : CertificateFiles)
  (file : HashedId8 × ByteBuffer) : CertificateFiles :=
  Function.update files file.1 (some file.2)

structure EctlStores where
  tlm : CertificateFiles
  rootCa : CertificateFiles
  ectlFile : Option ByteBuffer

inductive PkiException where
  | usageError (problem remedy : String)
  | httpException (what : String)
  | decodingFailure (what : String)
  | verificationFailure (what : String)
  | runtimeError
  deriving DecidableEq

structure HttpResponse where
  result : Nat
  contentType : String
  body : ByteBuffer

structure EctlModule extends SecurityModule where
  decodeMessage : ByteBuffer → Option SignedList

structure EctlRequest where
  tlmId : Option HashedId8
  dryRun : Bool
  now : Int
  listing : List HashedId8
  httpGet : HashedId8 → Except PkiException HttpResponse

def isCurrentlyValid (cert : Certificate) (t : Int) : Bool :=
  decide ((periodStart cert.toBeSigned.validityPeriod : Int) ≤ t) &&
    decide (t ≤ (periodEnd cert.toBeSigned.validityPeriod : Int))

def lookupDefaultTlmCertificate (P : Platform) (storage : CertificateFiles)
  (now : Int) (listing : List HashedId8) : Option (Certificate × HashedId8) :=
  listing.foldl (fun found hid8 =>
    match storage.fetch P hid8, found with
    | none, _ => found
    | some candidate, none =>
      if isCurrentlyValid candidate now then some (candidate, hid8) else none
    | some candidate, some (best, _) =>
      if isCurrentlyValid candidate now && decide (periodStart best.toBeSigned.validityPeriod <
            periodStart candidate.toBeSigned.validityPeriod) then
        some (candidate, hid8)
      else found) none

structure Received where
  tlmHid8 : HashedId8
  body : ByteBuffer
  message : SignedList
  certificate : Option Certificate

def checkSigner (P : Platform) (tlmHid8 : HashedId8) :
  Asn1.SignerIdentifier → Except PkiException (Option Certificate)
  | .digest digest =>
    if digest ≠ tlmHid8 then .error (.verificationFailure
      "expected a different HashedId8 digest in response message")
    else .ok none
  | .certificate (cert :: _) =>
    match calculateHashedId8 P cert with
    | none => .error .runtimeError
    | some certHid8 =>
      if certHid8 ≠ tlmHid8 then .error (.verificationFailure
        "signing certificate's digest does not match requested HashedId8")
      else .ok (some cert)
  | .certificate [] =>
    .error (.decodingFailure "missing certificate used for signing")
  | _ => .error (.verificationFailure
      "received ECTL message is not signed by expected TLM HashedId8")

def chooseTlm (P : Platform) (request : EctlRequest)
  (storage : CertificateFiles) : Except PkiException HashedId8 :=
  match request.tlmId with
  | some id => .ok id
  | none =>
    match lookupDefaultTlmCertificate P storage request.now request.listing with
    | some (_, id) => .ok id
    | none => .error (.usageError "no TLM certificate found" "run 'cpoc tlm fetch' first")

/-- The beginning of `fetch_ectl`, which stores nothing. -/
def receive (m : EctlModule) (request : EctlRequest)
  (storage : CertificateFiles) : Except PkiException Received := do
  let tlmHid8 ← chooseTlm m.platform request storage
  let response ← request.httpGet tlmHid8
  if response.result ≠ 200 then .error (.httpException
    "CPOC returned an unexpected HTTP status when fetching full ECTL")
  else if response.contentType ≠ "application/octet-stream" then
    .error (.httpException "did not receive bytes from CPOC when fetching full ECTL")
  else match m.decodeMessage response.body with
    | none => .error (.decodingFailure "decoding received TLM certificate list message failed")
    | some message => match message.signer with
      | none => .error (.decodingFailure "message contains no signed data")
      | some signer => do
          let certificate ← checkSigner m.platform tlmHid8 signer
          .ok ⟨tlmHid8, response.body, message, certificate⟩

abbrev Fetching (α : Type) := Program PkiException EctlStores α

def requireTlm (m : EctlModule) (dryRun : Bool) (received : Received) : Fetching Certificate := do
  let stores ← get
  match stores.tlm.fetch m.platform received.tlmHid8 with
  | some stored => return stored
  | none =>
    match received.certificate with
    | none => throw (.usageError "missing TLM certificate to verify ECTL"
        "run 'cpoc tlm fetch' first")
    | some cert =>
      let cert ← Program.orThrow .runtimeError (copyCertificate m.platform cert)
      if dryRun then return cert
      else
        let file ← Program.orThrow .runtimeError (fileOf m.platform cert)
        modify fun s => { s with tlm := s.tlm.write file }
        return cert

def addRootCa (m : EctlModule) (selfsignedRootCa : Certificate) : Fetching Unit := do
  let rootCa ← Program.orThrow .runtimeError (copyCertificate m.platform selfsignedRootCa)
  let file ← Program.orThrow .runtimeError (fileOf m.platform rootCa)
  modify fun s => { s with rootCa := s.rootCa.write file }

/-- `UpdateVisitor`: root CAs are stored, everything else is passed over. -/
def updateVisitor (m : EctlModule) : ListCommand → Fetching Unit
  | .add (.rca selfsignedRootCa) => addRootCa m selfsignedRootCa
  | _ => pure ()

def tlmCtlCommands (m : EctlModule) (message : SignedList) : Except PkiException CtlFormat :=
  match m.getSignedPayload message with
  | none => .error (.decodingFailure "cannot access signed payload of trust list message")
  | some payload => match m.mgmtData payload with
    | none => .error (.decodingFailure "decoding management data failed")
    | some (.certificateTrustListTlm format) => .ok format
    | some _ => .error (.decodingFailure "management data contains unexpected content")

def storeVerified (m : EctlModule) (dryRun : Bool) (received : Received)
  (tlm : Certificate) : Fetching Unit :=
  match m.validate received.message.body tlm with
  | none => throw .runtimeError
  | some false => throw (.verificationFailure "signature verification of ECTL failed")
  | some true =>
    if dryRun then pure ()
    else do
      modify fun s => { s with ectlFile := some received.body }
      let format ← MonadExcept.ofExcept (tlmCtlCommands m received.message)
      format.ctlCommands.forM (updateVisitor m)

def fetchEctl (m : EctlModule) (request : EctlRequest) : Fetching Unit := do
  let stores ← get
  let received ← MonadExcept.ofExcept (receive m request stores.tlm)
  let tlm ← requireTlm m request.dryRun received
  storeVerified m request.dryRun received tlm

def rootFiles (m : EctlModule) : List ListCommand → List (HashedId8 × ByteBuffer)
  | [] => []
  | .add (.rca cert) :: rest =>
    match fileOf m.platform cert with
    | some file => file :: rootFiles m rest
    | none => []
  | _ :: rest => rootFiles m rest

def CertificateFiles.writeAll (files : CertificateFiles)
  (entries : List (HashedId8 × ByteBuffer)) : CertificateFiles :=
  entries.foldl write files

variable {tlm : Certificate}

section Written

variable {m : EctlModule} {request : EctlRequest} {received : Received}
  {s s' : EctlStores} {cert : Certificate} {file : HashedId8 × ByteBuffer}

theorem fileOf_eq_some : fileOf m.platform cert = some file ↔
  calculateHashedId8 m.platform cert = some file.1 ∧
    m.platform.codec.encode cert = some file.2 := by
  obtain ⟨id, buf⟩ := file
  simp [fileOf, Option.bind_eq_some_iff]

theorem exists_fileOf {id : HashedId8} (hid : calculateHashedId8 m.platform cert = some id) :
  ∃ buf, fileOf m.platform cert = some (id, buf) ∧ copyCertificate m.platform cert = some cert := by
  have henc := CertificateTrustListProcessor.encode_of_calculateHashedId8 hid
  obtain ⟨buf, hb⟩ := Option.isSome_iff_exists.1 henc
  exact ⟨buf, fileOf_eq_some.2 ⟨hid, hb⟩, copyCertificate_eq_some.2 ⟨henc, rfl⟩⟩

theorem fetch_write (files : CertificateFiles)
  (hf : fileOf m.platform cert = some file) (id : HashedId8) :
  (files.write file).fetch m.platform id =
    if id = file.1 then some cert else files.fetch m.platform id := by
  unfold CertificateFiles.fetch CertificateFiles.write
  split
  · next hid =>
    rw [hid, Function.update_self, Option.bind_some]
    exact m.platform.codec.decode_encode (fileOf_eq_some.1 hf).2
  · next hid => rw [Function.update_of_ne hid]

theorem exec_addRootCa (hf : fileOf m.platform cert = some file) : (addRootCa m cert).exec s =
    (.ok (), { s with rootCa := s.rootCa.write file }) := by
  obtain ⟨buf, -, hc⟩ := exists_fileOf (fileOf_eq_some.1 hf).1
  unfold addRootCa
  rw [exec_bind_ok (exec_orThrow_eq_ok.2 ⟨hc, rfl⟩), exec_bind_ok (exec_orThrow_eq_ok.2 ⟨hf, rfl⟩)]
  rfl

theorem exec_addRootCa_none (hf : fileOf m.platform cert = none) :
  (addRootCa m cert).exec s = (.error .runtimeError, s) := by
  unfold addRootCa
  cases hc : copyCertificate m.platform cert with
  | none => rfl
  | some copied =>
    obtain ⟨-, rfl⟩ := copyCertificate_eq_some.1 hc
    rw [exec_bind_ok (exec_orThrow_eq_ok.2 ⟨rfl, rfl⟩), hf]
    rfl

theorem exec_visit (cmds : List ListCommand) : ((cmds.forM (updateVisitor m)).exec s).2 =
    { s with rootCa := s.rootCa.writeAll (rootFiles m cmds) } := by
  induction cmds generalizing s with
  | nil => rfl
  | cons cmd rest ih =>
    cases cmd with
    | nothing | delete removal => exact ih
    | add entry =>
      cases entry with
      | nothing | tlm cert | dc entry | aa entry | ea entry => exact ih
      | rca cert =>
        have hc : (ListCommand.add (.rca cert) :: rest).forM
            (updateVisitor m) = addRootCa m cert >>= fun _ =>
              rest.forM (updateVisitor m) := rfl
        rw [hc, rootFiles]
        cases hf : fileOf m.platform cert with
        | none =>
          rw [exec_bind_error (exec_addRootCa_none hf)]
          rfl
        | some file =>
          rw [exec_bind_ok (exec_addRootCa hf), ih]
          rfl

variable {dryRun : Bool} {storage : CertificateFiles}

theorem receive_signer (h : receive m request storage = .ok received) :
  ∃ signer, received.message.signer = some signer ∧
    checkSigner m.platform received.tlmHid8 signer = .ok received.certificate := by
  obtain ⟨tlmHid8, -, hr⟩ := bind_eq_ok_iff.1 h
  obtain ⟨response, -, hr⟩ := bind_eq_ok_iff.1 hr
  split at hr
  · cases hr
  split at hr
  · cases hr
  split at hr
  · cases hr
  next msg _ =>
  split at hr
  · cases hr
  next signer hs =>
  obtain ⟨certificate, hc, hre⟩ := bind_eq_ok_iff.1 hr
  cases hre
  exact ⟨signer, hs, hc⟩

theorem digest_of_checkSigner {P : Platform} {tlmHid8 : HashedId8} {signer : Asn1.SignerIdentifier}
  (h : checkSigner P tlmHid8 signer = .ok (some cert)) :
  calculateHashedId8 P cert = some tlmHid8 := by
  cases signer with
  | nothing => cases h
  | self => cases h
  | digest digest =>
    dsimp only [checkSigner] at h
    split at h
    · cases h
    · cases h
  | certificate certs =>
    cases certs with
    | nil => cases h
    | cons head _ =>
      dsimp only [checkSigner] at h
      split at h
      · cases h
      next certHid8 hd =>
      split at h
      · cases h
      · next heq =>
        cases h
        rw [hd, not_not.1 heq]

theorem receive_certificate (h : receive m request storage = .ok received)
  (hcert : received.certificate = some cert) :
  calculateHashedId8 m.platform cert = some received.tlmHid8 := by
  obtain ⟨signer, -, hc⟩ := receive_signer h
  rw [hcert] at hc
  exact digest_of_checkSigner hc

theorem exec_requireTlm_known (hkn : s.tlm.fetch m.platform received.tlmHid8 = some cert) :
  (requireTlm m dryRun received).exec s = (.ok cert, s) := by
  have hg : (get : Fetching EctlStores).exec s = (.ok s, s) := rfl
  rw [requireTlm, exec_bind_ok hg, hkn]
  rfl

theorem exec_requireTlm_missing (hu : s.tlm.fetch m.platform received.tlmHid8 = none)
  (hn : received.certificate = none) :
  (requireTlm m dryRun received).exec s =
    (.error (.usageError "missing TLM certificate to verify ECTL"
      "run 'cpoc tlm fetch' first"), s) := by
  have hg : (get : Fetching EctlStores).exec s = (.ok s, s) := rfl
  rw [requireTlm, exec_bind_ok hg, hu, hn]
  rfl

theorem exec_requireTlm_new (hu : s.tlm.fetch m.platform received.tlmHid8 = none)
  (hs : received.certificate = some cert) (hf : fileOf m.platform cert = some file) :
  (requireTlm m dryRun received).exec s =
    (.ok cert, if dryRun then s else { s with tlm := s.tlm.write file }) := by
  have hg : (get : Fetching EctlStores).exec s = (.ok s, s) := rfl
  obtain ⟨buf, -, hc⟩ := exists_fileOf (fileOf_eq_some.1 hf).1
  rw [requireTlm, exec_bind_ok hg, hu, hs]
  dsimp only
  rw [exec_bind_ok (exec_orThrow_eq_ok.2 ⟨hc, rfl⟩)]
  cases dryRun with
  | true => rfl
  | false =>
    rw [if_neg Bool.false_ne_true, if_neg Bool.false_ne_true,
      exec_bind_ok (exec_orThrow_eq_ok.2 ⟨hf, rfl⟩)]
    rfl

theorem exec_storeVerified : ((storeVerified m dryRun received tlm).exec s).2 =
    if m.validate received.message.body tlm = some true ∧ dryRun = false then
      { s with
        ectlFile := some received.body
        rootCa := s.rootCa.writeAll (match tlmCtlCommands m received.message with
            | .ok format => rootFiles m format.ctlCommands
            | .error _ => []) }
    else s := by
  unfold storeVerified
  cases hv : m.validate received.message.body tlm with
  | none => rfl
  | some verdict =>
    cases verdict with
    | false => rfl
    | true =>
      cases dryRun with
      | true => rfl
      | false =>
        refine Eq.trans ?_ (if_pos ⟨rfl, rfl⟩).symm
        cases hc : tlmCtlCommands m received.message with
        | error e => rfl
        | ok format => exact exec_visit format.ctlCommands

theorem exec_fetchEctl (h : receive m request s.tlm = .ok received) : (fetchEctl m request).exec s =
    (requireTlm m request.dryRun received >>= storeVerified m request.dryRun received).exec s := by
  have hg : (get : Fetching EctlStores).exec s = (.ok s, s) := rfl
  have hr : (MonadExcept.ofExcept (receive m request s.tlm) :
      Fetching Received).exec s = (.ok received, s) := by
    rw [exec_ofExcept, h]
  rw [fetchEctl, exec_bind_ok hg, exec_bind_ok hr]

theorem exec_fetchEctl_error {e : PkiException} (h : receive m request s.tlm = .error e) :
  (fetchEctl m request).exec s = (.error e, s) := by
  have hg : (get : Fetching EctlStores).exec s = (.ok s, s) := rfl
  have hr : (MonadExcept.ofExcept (receive m request s.tlm) :
      Fetching Received).exec s = (.error e, s) := by
    rw [exec_ofExcept, h]
  rw [fetchEctl, exec_bind_ok hg, exec_bind_error hr]

theorem rootCa_requireTlm (hr : receive m request s.tlm = .ok received)
  (h : (requireTlm m dryRun received).exec s = (.ok cert, s')) :
  s'.rootCa = s.rootCa := by
  cases hkn : s.tlm.fetch m.platform received.tlmHid8 with
  | some tlm =>
    rw [exec_requireTlm_known hkn] at h
    cases h
    rfl
  | none =>
    cases hcert : received.certificate with
    | none =>
      rw [exec_requireTlm_missing hkn hcert] at h
      cases h
    | some cert' =>
      obtain ⟨buf, hf, -⟩ := exists_fileOf (receive_certificate hr hcert)
      rw [exec_requireTlm_new hkn hcert hf] at h
      obtain ⟨-, rfl⟩ := Prod.mk.inj h
      split <;> rfl

theorem exec_fetchEctl_ok (hok : ((fetchEctl m request).exec s).1 = .ok ())
  (hd : request.dryRun = false) :
  ∃ received format s₁, receive m request s.tlm = .ok received ∧
    tlmCtlCommands m received.message = .ok format ∧ s₁.rootCa = s.rootCa ∧
    (fetchEctl m request).exec s = (format.ctlCommands.forM (updateVisitor m)).exec s₁ := by
  cases hr : receive m request s.tlm with
  | error e =>
    rw [exec_fetchEctl_error hr] at hok
    cases hok
  | ok received =>
    rw [exec_fetchEctl hr] at hok ⊢
    rcases ht : (requireTlm m request.dryRun received).exec s with
      ⟨e | tlm, s₁⟩
    · rw [exec_bind_error ht] at hok
      cases hok
    rw [exec_bind_ok ht] at hok ⊢
    have hrts := rootCa_requireTlm hr ht
    unfold storeVerified at hok ⊢
    rw [hd] at hok ⊢
    split at hok
    · cases hok
    · cases hok
    cases hc : tlmCtlCommands m received.message with
    | error e =>
      rw [hc] at hok
      cases hok
    | ok format =>
      exact ⟨received, format, { s₁ with ectlFile := some received.body },
        rfl, hc, hrts, rfl⟩

end Written

def Harmless (m : EctlModule) (request : EctlRequest) (s : EctlStores) : Prop :=
  ∀ received, receive m request s.tlm = .ok received → request.dryRun = true ∨
    ((s.tlm.fetch m.platform received.tlmHid8 = none → received.certificate = none) ∧
      ∀ tlm, s.tlm.fetch m.platform received.tlmHid8 = some tlm →
        m.validate received.message.body tlm = some true →
        s.ectlFile = some received.body ∧ ∀ format, tlmCtlCommands m received.message = .ok format →
            s.rootCa.writeAll (rootFiles m format.ctlCommands) = s.rootCa)

section Errors

variable {m : EctlModule} {request : EctlRequest} {received : Received} {s : EctlStores}

theorem dryRun_keeps (h : receive m request s.tlm = .ok received)
  (hd : request.dryRun = true) : ((fetchEctl m request).exec s).2 = s := by
  rw [exec_fetchEctl h, hd]
  have hs : ∀ tlm, ((storeVerified m true received tlm).exec s).2 = s := by
    intro tlm
    rw [exec_storeVerified]
    exact if_neg (by simp)
  cases hkn : s.tlm.fetch m.platform received.tlmHid8 with
  | some tlm =>
    rw [exec_bind_ok (exec_requireTlm_known hkn)]
    exact hs tlm
  | none =>
    cases hcert : received.certificate with
    | none => rw [exec_bind_error (exec_requireTlm_missing hkn hcert)]
    | some cert =>
      obtain ⟨buf, hf, -⟩ := exists_fileOf (receive_certificate h hcert)
      rw [exec_bind_ok (exec_requireTlm_new hkn hcert hf)]
      exact hs cert

theorem newTlm_changes {cert : Certificate} (h : receive m request s.tlm = .ok received)
  (hd : request.dryRun = false) (hu : s.tlm.fetch m.platform received.tlmHid8 = none)
  (hcert : received.certificate = some cert) :
  ((fetchEctl m request).exec s).2 ≠ s := by
  obtain ⟨buf, hf, -⟩ := exists_fileOf (receive_certificate h hcert)
  have ht : ((fetchEctl m request).exec s).2.tlm = s.tlm.write (received.tlmHid8, buf) := by
    rw [exec_fetchEctl h, hd, exec_bind_ok (exec_requireTlm_new hu hcert hf), exec_storeVerified]
    split <;> rfl
  intro heq
  have hfet := fetch_write s.tlm hf received.tlmHid8
  rw [← ht, heq, if_pos rfl, hu] at hfet
  cases hfet

theorem knownTlm_keeps_iff (h : receive m request s.tlm = .ok received)
  (hd : request.dryRun = false) (hkn : s.tlm.fetch m.platform received.tlmHid8 = some tlm) :
  ((fetchEctl m request).exec s).2 = s ↔ (m.validate received.message.body tlm = some true →
      s.ectlFile = some received.body ∧ ∀ format, tlmCtlCommands m received.message = .ok format →
          s.rootCa.writeAll (rootFiles m format.ctlCommands) = s.rootCa) := by
  rw [exec_fetchEctl h, exec_bind_ok (exec_requireTlm_known hkn), exec_storeVerified, hd]
  by_cases hv : m.validate received.message.body tlm = some true
  · rw [if_pos ⟨hv, rfl⟩, forall_prop_of_true hv]
    rcases s with ⟨tlmFiles, rootCa, ectlFile⟩
    rw [EctlStores.mk.injEq]
    cases hc : tlmCtlCommands m received.message with
    | error e => simp [CertificateFiles.writeAll, eq_comm]
    | ok format => simp [eq_comm, and_comm]
  · rw [if_neg fun hp => hv hp.1]
    exact ⟨fun _ hp => absurd hp hv, fun _ => rfl⟩

/-- A fetch that ends with an error leaves the stores as they were exactly if
it was harmless. -/
theorem error_keeps_stores_iff {e : PkiException} {s' : EctlStores}
  (h : (fetchEctl m request).exec s = (.error e, s')) :
  s' = s ↔ Harmless m request s := by
  have hs' : s' = ((fetchEctl m request).exec s).2 := by rw [h]
  unfold Harmless
  rw [hs']
  cases hr : receive m request s.tlm with
  | error e' =>
    rw [exec_fetchEctl_error hr]
    refine ⟨fun _ received hok => ?_, fun _ => rfl⟩
    cases hok
  | ok received =>
    simp only [Except.ok.injEq, forall_eq']
    cases hd : request.dryRun with
    | true =>
      rw [dryRun_keeps hr hd]
      exact ⟨fun _ => .inl rfl, fun _ => rfl⟩
    | false =>
      rw [or_iff_right Bool.false_ne_true]
      cases hkn : s.tlm.fetch m.platform received.tlmHid8 with
      | some tlm =>
        rw [knownTlm_keeps_iff hr hd hkn]
        simp
      | none =>
        cases hcert : received.certificate with
        | none =>
          have hkp : ((fetchEctl m request).exec s).2 = s := by
            rw [exec_fetchEctl hr, exec_bind_error (exec_requireTlm_missing hkn hcert)]
          refine ⟨fun _ => ⟨fun _ => rfl, fun tlm hn => ?_⟩, fun _ => hkp⟩
          exact absurd hn.symm (Option.some_ne_none tlm)
        | some cert =>
          have hc := newTlm_changes hr hd hkn hcert
          exact ⟨fun heq => absurd heq hc, fun hco =>
            absurd (hco.1 rfl) (Option.some_ne_none cert)⟩

end Errors

/-- Every message brings the certificate `digestAt 0`, and no signature is
good. -/
def unsignedAnswers : EctlModule where
  platform := Platform.ofTable [xOnlySigned] fits_signedWith
  validate _ _ := some false
  revokedEntries _ := none
  signedPayload _ := none
  mgmtData _ := none
  decodeMessage body := some ⟨some (.certificate [xOnlySigned]), body⟩

def askManager : EctlRequest where
  tlmId := some (digestAt 0)
  dryRun := false
  now := 0
  listing := []
  httpGet _ := .ok ⟨200, "application/octet-stream", []⟩

def noStores : EctlStores := ⟨fun _ => none, fun _ => none, none⟩

def managerStored : EctlStores :=
  { noStores with tlm := noStores.tlm.write (digestAt 0, [0]) }

theorem managerStored_kept_iff : managerStored = managerStored ↔
    Harmless unsignedAnswers askManager managerStored := by
  have hr : (fetchEctl unsignedAnswers askManager).exec managerStored =
      (.error (.verificationFailure "signature verification of ECTL failed"), managerStored) := rfl
  exact error_keeps_stores_iff hr

/-- A certificate that came with an unsigned list is trusted from then on. -/
theorem unverified_manager_stored : (fetchEctl unsignedAnswers askManager).exec noStores =
      (.error (.verificationFailure "signature verification of ECTL failed"), managerStored) ∧
    managerStored ≠ noStores ∧ noStores.tlm.fetch unsignedAnswers.platform (digestAt 0) = none ∧
    managerStored.tlm.fetch unsignedAnswers.platform (digestAt 0) =
      some xOnlySigned := by
  have hf : managerStored.tlm.fetch unsignedAnswers.platform (digestAt 0) =
      some xOnlySigned := by
    decide +kernel
  refine ⟨rfl, fun heq => ?_, rfl, hf⟩
  rw [heq] at hf
  cases hf

end Vanetza.Pki
