import Vanetza.Lib.Program
import Vanetza.Net.Packet
import Vanetza.Security.V3.CertificateValidator
import Vanetza.Security.V3.SecuredMessage
import Vanetza.Security.VerifyService

/-!
# The header of a signed message

`DefaultSignHeaderPolicy` decides what goes into the header of a message that is about to be signed:
the certificate or only its digest, and for CAMs what peers have asked for and what is asked of
them.
-/

namespace Vanetza.Security.V3

open Asn1 Lib.Keeps Lib.Program

/-- `PeerRequestTracker`: the requests in the order they came, each one once. -/
structure PeerRequestTracker where
  fifo : List HashedId3
  limit : Nat
  deriving DecidableEq

namespace PeerRequestTracker

def isPending (tracker : PeerRequestTracker) (id : HashedId3) : Bool := id ∈ tracker.fifo

def addRequest (tracker : PeerRequestTracker) (id : HashedId3) : PeerRequestTracker :=
  if tracker.isPending id then tracker
  else if tracker.limit ≤ tracker.fifo.length then
    { tracker with fifo := tracker.fifo.tail ++ [id] }
  else { tracker with fifo := tracker.fifo ++ [id] }

def discardRequest (tracker : PeerRequestTracker) (id : HashedId3) : PeerRequestTracker :=
  { tracker with fifo := tracker.fifo.erase id }

def all (tracker : PeerRequestTracker) : List HashedId3 × PeerRequestTracker :=
  (tracker.fifo, { tracker with fifo := [] })

end PeerRequestTracker

structure ThreeDLocation where
  latitude : Int
  longitude : Int
  elevation : Int
  deriving DecidableEq

structure RemainingData where
  payload : ByteBuffer
  generationLocation : Option ThreeDLocation
  deriving DecidableEq

structure Packing where
  pack : RemainingData → ByteBuffer
  unpack : ByteBuffer → RemainingData
  unpack_pack : ∀ data, unpack (pack data) = data

namespace SecuredMessage

variable (packing : Packing)

def withSignedData : SecuredMessage where
  protocolVersion := 3
  signedData := some
    { hashId := .sha256
      tbsData := ⟨0, none, none, none, packing.pack ⟨[], none⟩⟩
      signer := .nothing
      signature := .nothing }

def modifySigned (f : SignedData → SignedData) (msg : SecuredMessage) : SecuredMessage :=
  { msg with signedData := msg.signedData.map f }

def modifyTbs (f : ToBeSignedData → ToBeSignedData) : SecuredMessage → SecuredMessage :=
  modifySigned fun data => { data with tbsData := f data.tbsData }

def setHashId (hash : HashAlgorithm) : SecuredMessage → SecuredMessage :=
  modifySigned fun data => { data with
    hashId := match hash with
      | .sha256 => .sha256
      | .sha384 => .sha384
      | .unspecified => .sm3 }

def setItsAid (aid : ItsAid) : SecuredMessage → SecuredMessage :=
  modifyTbs fun tbs => { tbs with psid := aid.toUInt64 }

def setGenerationTime (time : UInt64) : SecuredMessage → SecuredMessage :=
  modifyTbs fun tbs => { tbs with generationTime := some time.toNat }

def setPayload (payload : ByteBuffer) : SecuredMessage → SecuredMessage :=
  modifyTbs fun tbs => { tbs with
    remaining := packing.pack { packing.unpack tbs.remaining with payload } }

def setGenerationLocation (location : ThreeDLocation) : SecuredMessage → SecuredMessage :=
  modifyTbs fun tbs => { tbs with
    remaining := packing.pack
      { packing.unpack tbs.remaining with
        generationLocation := some location } }

def setInlineP2pcdRequest (requests : List HashedId3) : SecuredMessage → SecuredMessage :=
  modifyTbs fun tbs => { tbs with
    inlineP2pcdRequest := requests.foldl (fun list id => some (list.getD [] ++ [id]))
      (tbs.inlineP2pcdRequest.map fun _ => []) }

def setSigner (signer : Asn1.SignerIdentifier) : SecuredMessage → SecuredMessage :=
  modifySigned fun data => { data with signer }

/-- `set_signature`; the dummy signature is all zeros. -/
def setSignature (sig : Signature) : SecuredMessage → SecuredMessage :=
  modifySigned fun data => { data with
    signature := match sig.type with
      | .nistP256 => .ecdsaNistP256Signature ⟨.xOnly sig.r, sig.s⟩
      | .brainpoolP256r1 =>
        .ecdsaBrainpoolP256r1Signature ⟨.xOnly sig.r, sig.s⟩
      | .brainpoolP384r1 =>
        .ecdsaBrainpoolP384r1Signature ⟨.xOnly sig.r, sig.s⟩
      | .unspecified => .ecdsaNistP256Signature
          ⟨.xOnly (List.replicate 32 0), List.replicate 32 0⟩ }

/-- `payload`: one buffer that belongs to the network layer. -/
def payload (msg : SecuredMessage) : CohesivePacket :=
  .ofBuffer ((msg.signedData.map fun data =>
    (packing.unpack data.tbsData.remaining).payload).getD []) .network

end SecuredMessage

/-- `SignRequest`, as far as version 3 reads it. -/
structure SignRequest where
  plainMessage : ChunkPacket
  itsAid : ItsAid
  selfSigned : Bool

/-- A `PositionFix` with the altitude, in metres, if it is known. -/
structure PositionFixWithAltitude extends PositionFix where
  altitude : Option ℚ

/-- `CertificateProvider`; the private key is in the sign service. -/
structure CertificateProvider (P : Platform) where
  ownCertificate : Certificate
  cache : CertificateCache P

/-- The state of `DefaultSignHeaderPolicy`; times are in microseconds. -/
structure DefaultSignHeaderPolicy where
  camNextCertificate : Int
  certRequested : Bool
  incomingRequests : PeerRequestTracker
  outgoingRequests : PeerRequestTracker
  deriving DecidableEq

def aidDen : ItsAid := 37
def aidScr : ItsAid := 623

def roundToInt (x : ℚ) : Int := if 0 ≤ x then (x + 1 / 2).floor else -(-x + 1 / 2).floor

/-- `build_location`; what is out of range is unknown. -/
def buildLocation (fix : PositionFixWithAltitude) : ThreeDLocation :=
  let lat := roundToInt (fix.latitude / 90 * 900000000)
  let lon := roundToInt (fix.longitude / 180 * 1800000000)
  { latitude :=
      if -900000000 ≤ lat ∧ lat ≤ 900000000 then lat else 900000001
    longitude := if -1799999999 ≤ lon ∧ lon ≤ 1800000000 then lon else 1800000001
    elevation := match fix.altitude with
      | none => 4096
      | some altitude =>
        let elevDm := roundToInt (altitude * 10)
        if -4095 ≤ elevDm ∧ elevDm ≤ 61439 then elevDm + 4096 else 4096 }

namespace DefaultSignHeaderPolicy

variable {P : Platform}

abbrev Preparation (α : Type) := Lib.Program Unit DefaultSignHeaderPolicy α

def noteOwnRequest (maybeDigest : Option HashedId8)
  (policy : DefaultSignHeaderPolicy) : DefaultSignHeaderPolicy :=
  match maybeDigest with
  | some digest =>
    if policy.incomingRequests.isPending (truncate digest) then
      { policy with
        certRequested := true
        incomingRequests := policy.incomingRequests.discardRequest (truncate digest) }
    else policy
  | none => policy

def nextRequested (cache : CertificateCache P) :
  List HashedId3 → Option Certificate × List HashedId3
  | [] => (none, [])
  | id :: rest =>
    match cache.lookupShort id with
    | some cert =>
      if isCaCertificate cert then (some cert, rest)
      else nextRequested cache rest
    | none => nextRequested cache rest

/-- `set_signer_identifier` with a certificate, which is copied. -/
def includeCertificate (P : Platform) (cert : Certificate)
  (msg : SecuredMessage) : Preparation SecuredMessage := do
  let copied ← Lib.Program.orThrow () (copyCertificate P cert)
  return msg.setSigner (.certificate [copied])

/-- `set_signer_identifier` with a digest, if there is one. -/
def includeDigest (maybeDigest : Option HashedId8) (msg : SecuredMessage) : SecuredMessage :=
  match maybeDigest with
  | some digest => msg.setSigner (.digest digest)
  | none => msg

def prepareCamSigner (provider : CertificateProvider P) (now : Int)
  (msg : SecuredMessage) : Preparation (SecuredMessage × Bool) := do
  let maybeDigest := calculateDigest P provider.ownCertificate
  modify (noteOwnRequest maybeDigest)
  let policy ← get
  if now < policy.camNextCertificate ∧ policy.certRequested = false then
    return (includeDigest maybeDigest msg, false)
  else
    modify fun policy => { policy with certRequested := false }
    let msg ← includeCertificate P provider.ownCertificate msg
    -- a second, less 50 milliseconds
    modify fun policy =>
      { policy with camNextCertificate := now + 1000000 - 50000 }
    return (msg, true)

def provideRequested (provider : CertificateProvider P)
  (msg : SecuredMessage) : Preparation SecuredMessage := do
  let policy ← get
  let (requested, rest) := nextRequested provider.cache policy.incomingRequests.fifo
  set { policy with
    incomingRequests := { policy.incomingRequests with fifo := rest } }
  match requested with
  | none => return msg
  | some cert =>
    let copied ← Lib.Program.orThrow () (copyCertificate P cert)
    return msg.modifyTbs fun tbs =>
      { tbs with requestedCertificate := some copied }

def prepareCam (provider : CertificateProvider P) (now : Int)
  (msg : SecuredMessage) : Preparation SecuredMessage := do
  let (msg, signerFullCert) ← prepareCamSigner provider now msg
  let policy ← get
  let (requests, outgoingRequests) := policy.outgoingRequests.all
  set { policy with outgoingRequests }
  let msg := msg.setInlineP2pcdRequest requests
  if signerFullCert then return msg
  else provideRequested provider msg

def prepareHeader (packing : Packing) (provider : CertificateProvider P)
  (now : Int) (fix : PositionFixWithAltitude) (request : SignRequest)
  (msg : SecuredMessage) : Preparation SecuredMessage := do
  let msg := (msg.setItsAid request.itsAid).setGenerationTime (.ofInt now)
  if request.itsAid = aidCa then prepareCam provider now msg
  else if request.itsAid = aidDen then
    let msg ← includeCertificate P provider.ownCertificate msg
    return msg.setGenerationLocation packing (buildLocation fix)
  else if request.itsAid = aidScr then
    if request.selfSigned then return msg.setSigner .self
    else
      return includeDigest (calculateDigest P provider.ownCertificate) msg
  else includeCertificate P provider.ownCertificate msg

def requestUnrecognizedCertificate (id : HashedId8)
  (policy : DefaultSignHeaderPolicy) : DefaultSignHeaderPolicy :=
  { policy with
    outgoingRequests := policy.outgoingRequests.addRequest (truncate id) }

def requestCertificate (policy : DefaultSignHeaderPolicy) : DefaultSignHeaderPolicy :=
  { policy with certRequested := true }

def enqueueP2pRequest (id : HashedId3) (policy : DefaultSignHeaderPolicy) :
  DefaultSignHeaderPolicy :=
  { policy with incomingRequests := policy.incomingRequests.addRequest id }

def discardP2pRequest (id : HashedId3) (policy : DefaultSignHeaderPolicy) :
  DefaultSignHeaderPolicy :=
  { policy with incomingRequests := policy.incomingRequests.discardRequest id }

def afterCam (provider : CertificateProvider P) (now : Int)
  (policy : DefaultSignHeaderPolicy) : DefaultSignHeaderPolicy :=
  let noted := policy.noteOwnRequest (calculateDigest P provider.ownCertificate)
  if now < noted.camNextCertificate ∧ noted.certRequested = false then
    let rest := (nextRequested provider.cache noted.incomingRequests.fifo).2
    { noted with
      incomingRequests := { noted.incomingRequests with fifo := rest }
      outgoingRequests := { noted.outgoingRequests with fifo := [] } }
  else
    { noted with
      camNextCertificate := now + 1000000 - 50000
      certRequested := false
      outgoingRequests := { noted.outgoingRequests with fifo := [] } }

variable {cert : Certificate} {fix : PositionFixWithAltitude} {request : SignRequest}

section Record

variable {provider : CertificateProvider P} {now : Int}
  {msg msg' : SecuredMessage} {policy policy' : DefaultSignHeaderPolicy}

theorem exec_includeCertificate
  (h : (includeCertificate P cert msg).exec policy = (.ok msg', policy')) :
  msg' = msg.setSigner (.certificate [cert]) ∧ policy' = policy := by
  obtain ⟨copied, t, hc, hp⟩ := exec_bind_eq_ok.1 h
  obtain ⟨hcop, rfl⟩ := exec_orThrow_eq_ok.1 hc
  obtain ⟨-, rfl⟩ := copyCertificate_eq_some.1 hcop
  cases hp
  exact ⟨rfl, rfl⟩

theorem exec_prepareCamSigner {full : Bool} (h : (prepareCamSigner provider now msg).exec policy =
    (.ok (msg', full), policy')) :
  let noted := policy.noteOwnRequest (calculateDigest P provider.ownCertificate)
  (now < noted.camNextCertificate ∧ noted.certRequested = false ∧
    full = false ∧ policy' = noted ∧ msg' = includeDigest
      (calculateDigest P provider.ownCertificate) msg) ∨
  (¬ (now < noted.camNextCertificate ∧ noted.certRequested = false) ∧ full = true ∧
    policy' = { noted with
      camNextCertificate := now + 1000000 - 50000
      certRequested := false } ∧
    msg' = msg.setSigner (.certificate [provider.ownCertificate])) := by
  intro noted
  obtain ⟨_, t, hn, h⟩ := exec_bind_eq_ok.1 h
  cases hn
  obtain ⟨read, t, hg, h⟩ := exec_bind_eq_ok.1 h
  cases hg
  split at h
  · next hd =>
    cases h
    exact .inl ⟨hd.1, hd.2, rfl, rfl, rfl⟩
  next hfull =>
  obtain ⟨_, t, hc, h⟩ := exec_bind_eq_ok.1 h
  cases hc
  obtain ⟨included, t, hin, h⟩ := exec_bind_eq_ok.1 h
  obtain ⟨rfl, rfl⟩ := exec_includeCertificate hin
  cases h
  exact .inr ⟨hfull, rfl, rfl, rfl⟩

theorem exec_provideRequested
  (h : (provideRequested provider msg).exec policy = (.ok msg', policy')) :
  policy' = { policy with
    incomingRequests := { policy.incomingRequests with
      fifo := (nextRequested provider.cache policy.incomingRequests.fifo).2 } } ∧
  (msg' = msg ∨ ∃ cert, msg' = msg.modifyTbs fun tbs =>
    { tbs with requestedCertificate := some cert }) := by
  obtain ⟨read, t, hg, h⟩ := exec_bind_eq_ok.1 h
  cases hg
  obtain ⟨_, t, hs, h⟩ := exec_bind_eq_ok.1 h
  cases hs
  dsimp only at h
  split at h
  · cases h
    exact ⟨rfl, .inl rfl⟩
  next cert hcert =>
  obtain ⟨copied, t, hc, h⟩ := exec_bind_eq_ok.1 h
  obtain ⟨-, rfl⟩ := exec_orThrow_eq_ok.1 hc
  cases h
  exact ⟨rfl, .inr ⟨copied, rfl⟩⟩

theorem exec_prepareCam (h : (prepareCam provider now msg).exec policy = (.ok msg', policy')) :
  policy' = policy.afterCam provider now := by
  obtain ⟨⟨signed, full⟩, t, hsig, h⟩ := exec_bind_eq_ok.1 h
  obtain ⟨read, t', hg, h⟩ := exec_bind_eq_ok.1 h
  cases hg
  obtain ⟨_, t', hs, h⟩ := exec_bind_eq_ok.1 h
  cases hs
  rcases exec_prepareCamSigner hsig with
    ⟨ht, ha, rfl, rfl, -⟩ | ⟨hfull, rfl, rfl, -⟩
  · obtain ⟨rfl, -⟩ := exec_provideRequested h
    rw [afterCam, if_pos ⟨ht, ha⟩]
  · cases h
    rw [afterCam, if_neg hfull]

theorem exec_prepareHeader {packing : Packing}
  (h : (prepareHeader packing provider now fix request msg).exec policy = (.ok msg', policy')) :
  policy' = if request.itsAid = aidCa then policy.afterCam provider now
    else policy := by
  unfold prepareHeader at h
  dsimp only at h
  split at h
  · next hca =>
    rw [if_pos hca]
    exact exec_prepareCam h
  next hca =>
  rw [if_neg hca]
  split at h
  · obtain ⟨included, t, hin, hl⟩ :=
      exec_bind_eq_ok.1 h
    cases hl
    exact (exec_includeCertificate hin).2
  · split at h
    · split at h <;> cases h <;> rfl
    · exact (exec_includeCertificate h).2

theorem nextRequested_length (cache : CertificateCache P) (ids : List HashedId3) (h : ids ≠ []) :
  (nextRequested cache ids).2.length < ids.length := by
  induction ids with
  | nil => exact absurd rfl h
  | cons id rest ih =>
    have hr : (nextRequested cache rest).2.length ≤ rest.length := by
      cases rest with
      | nil => exact Nat.le_refl 0
      | cons id' rest' => exact (ih (List.cons_ne_nil id' rest')).le
    rw [nextRequested, List.length_cons]
    split
    · split
      · exact Nat.lt_succ_self _
      · exact Nat.lt_succ_of_le hr
    · exact Nat.lt_succ_of_le hr

def Idle (now : Int) (policy : DefaultSignHeaderPolicy) : Prop :=
  now < policy.camNextCertificate ∧ policy.certRequested = false ∧
    policy.incomingRequests.fifo = [] ∧ policy.outgoingRequests.fifo = []

theorem noteOwnRequest_cases (maybeDigest : Option HashedId8) :
  policy.noteOwnRequest maybeDigest = policy ∨ ∃ id ∈ policy.incomingRequests.fifo,
      policy.noteOwnRequest maybeDigest = { policy with
        certRequested := true
        incomingRequests := policy.incomingRequests.discardRequest id } := by
  unfold noteOwnRequest
  split
  · next digest =>
    split
    · next hp =>
      exact .inr ⟨truncate digest, of_decide_eq_true hp, rfl⟩
    · exact .inl rfl
  · exact .inl rfl

theorem idle_of_afterCam_eq (h : policy.afterCam provider now = policy) :
  Idle now policy := by
  have hinc := congrArg (·.incomingRequests.fifo) h
  have ho := congrArg (·.outgoingRequests.fifo) h
  have hn := congrArg (·.camNextCertificate) h
  have hr := congrArg (·.certRequested) h
  rcases noteOwnRequest_cases (calculateDigest P provider.ownCertificate) with
    hno | ⟨id, hm, hno⟩
  · rw [afterCam, hno] at hinc ho hn hr
    split at hinc
    · next hd =>
      rw [if_pos hd] at ho
      refine ⟨hd.1, hd.2, ?_, ho.symm⟩
      by_contra hne
      have hlt := nextRequested_length provider.cache _ hne
      exact hlt.ne (congrArg List.length hinc)
    · next hfull =>
      rw [if_neg hfull] at hn hr
      refine absurd ⟨?_, hr.symm⟩ hfull
      dsimp only at hn
      omega
  · -- the request for our own certificate is gone
    rw [afterCam, hno, if_neg (by simp)] at hinc
    have hl := congrArg List.length hinc
    dsimp only [PeerRequestTracker.discardRequest] at hl
    rw [List.length_erase_of_mem hm] at hl
    have hp := List.length_pos_of_mem hm
    omega

theorem afterCam_eq_iff : policy.afterCam provider now = policy ↔ Idle now policy := by
  refine ⟨idle_of_afterCam_eq, ?_⟩
  rintro ⟨ht, ha, hinc, ho⟩
  rcases noteOwnRequest_cases (calculateDigest P provider.ownCertificate) with
    hn | ⟨id, hm, -⟩
  · rw [afterCam, hn, if_pos ⟨ht, ha⟩, hinc]
    rcases policy with ⟨next, requested, ⟨fifo, limit⟩, ⟨fifo', limit'⟩⟩
    cases hinc
    cases ho
    rfl
  · rw [hinc] at hm
    cases hm

end Record

structure Fits (packing : Packing) (hash : HashId) (aid : ItsAid)
  (octets : ByteBuffer) (data : SignedData) : Prop where
  hashId : data.hashId = hash
  psid : data.tbsData.psid = aid.toUInt64
  time : ∃ time : UInt64, data.tbsData.generationTime = some time.toNat
  payload : (packing.unpack data.tbsData.remaining).payload = octets

def Names (P : Platform) (cert : Certificate) (signer : Asn1.SignerIdentifier) : Prop :=
  signer = .certificate [cert] ∨
    ∃ digest, calculateDigest P cert = some digest ∧ signer = .digest digest

def Headed (P : Platform) (packing : Packing) (hash : HashId) (aid : ItsAid)
  (octets : ByteBuffer) (cert : Certificate) (msg : SecuredMessage) : Prop :=
  ∃ data, msg = ⟨3, some data⟩ ∧ Fits packing hash aid octets data ∧ Names P cert data.signer

section Header

variable {packing : Packing} {hash : HashId} {aid : ItsAid}
  {octets : ByteBuffer} {provider : CertificateProvider P} {now : Int}
  {data : SignedData} {digest : HashedId8}

abbrev Prepares {α : Type} (x : Preparation α) (Q : α → Prop) : Prop :=
  Lib.Keeps (fun _ => True) (fun _ => True) x Q

theorem Fits.headed {signer : Asn1.SignerIdentifier}
  (h : Fits packing hash aid octets data) (hs : Names P cert signer) :
  Headed P packing hash aid octets cert (SecuredMessage.setSigner signer ⟨3, some data⟩) :=
  ⟨{ data with signer }, rfl, ⟨h.hashId, h.psid, h.time, h.payload⟩, hs⟩

theorem prepares_includeCertificate (h : Fits packing hash aid octets data) :
  Prepares (includeCertificate P cert ⟨3, some data⟩) (Headed P packing hash aid octets cert) := by
  refine bind (Q := fun copied => copied = cert) ?_ ?_
  · exact orThrow (fun copied hc =>
      (copyCertificate_eq_some.1 hc).2) trivial
  · rintro copied rfl
    exact pure (h.headed (.inl rfl))

theorem Fits.includeDigest (h : Fits packing hash aid octets data)
  (hd : calculateDigest P cert = some digest) :
  Headed P packing hash aid octets cert
    (includeDigest (calculateDigest P cert) ⟨3, some data⟩) := by
  rw [hd]
  exact h.headed (.inr ⟨digest, hd, rfl⟩)

theorem prepares_prepareCamSigner (h : Fits packing hash aid octets data)
  (hd : calculateDigest P provider.ownCertificate = some digest) :
  Prepares (prepareCamSigner provider now ⟨3, some data⟩) fun prepared =>
    Headed P packing hash aid octets provider.ownCertificate prepared.1 := by
  refine bind (modify fun _ _ => trivial) fun _ _ => ?_
  refine bind get fun policy _ => ?_
  split
  · exact pure (h.includeDigest hd)
  refine bind (modify fun _ _ => trivial) fun _ _ => ?_
  refine bind (prepares_includeCertificate h) fun msg hmsg => ?_
  refine bind (modify fun _ _ => trivial) fun _ _ => ?_
  exact pure hmsg

theorem Headed.modifyTbs {msg : SecuredMessage} {f : ToBeSignedData → ToBeSignedData}
  (h : Headed P packing hash aid octets cert msg) (hp : ∀ tbs, (f tbs).psid = tbs.psid)
  (hti : ∀ tbs, (f tbs).generationTime = tbs.generationTime)
  (hpay : ∀ tbs, (packing.unpack (f tbs).remaining).payload =
    (packing.unpack tbs.remaining).payload) :
  Headed P packing hash aid octets cert (msg.modifyTbs f) := by
  obtain ⟨data, rfl, hf, hs⟩ := h
  refine ⟨{ data with tbsData := f data.tbsData }, rfl, ⟨hf.hashId, ?_, ?_, ?_⟩, hs⟩
  · exact (hp _).trans hf.psid
  · obtain ⟨time, ht⟩ := hf.time
    exact ⟨time, (hti _).trans ht⟩
  · exact (hpay _).trans hf.payload

theorem prepares_prepareCam (h : Fits packing hash aid octets data)
  (hd : calculateDigest P provider.ownCertificate = some digest) :
  Prepares (prepareCam provider now ⟨3, some data⟩)
    (Headed P packing hash aid octets provider.ownCertificate) := by
  refine bind (prepares_prepareCamSigner h hd) ?_
  rintro ⟨msg, full⟩ hmsg
  refine bind get fun policy _ => ?_
  refine bind (set trivial) fun _ _ => ?_
  have hr := hmsg.modifyTbs (f := fun tbs => { tbs with
      inlineP2pcdRequest := policy.outgoingRequests.all.1.foldl
        (fun list id => some (list.getD [] ++ [id])) (tbs.inlineP2pcdRequest.map fun _ => []) })
    (fun _ => rfl) (fun _ => rfl) fun _ => rfl
  cases full with
  | true => exact pure hr
  | false =>
    refine bind get fun policy' _ => ?_
    refine bind (set trivial) fun _ _ => ?_
    split
    · exact pure hr
    · refine bind (orThrow (Q := fun _ => True) (fun _ _ => trivial) trivial) fun copied _ => ?_
      exact pure (hr.modifyTbs (fun _ => rfl) (fun _ => rfl) fun _ => rfl)

theorem prepares_prepareHeader (hs : request.selfSigned = false) (hh : data.hashId = hash)
  (hp : (packing.unpack data.tbsData.remaining).payload = octets)
  (hd : calculateDigest P provider.ownCertificate = some digest) :
  Prepares (prepareHeader packing provider now fix request ⟨3, some data⟩)
    (Headed P packing hash request.itsAid octets provider.ownCertificate) := by
  have hf : Fits packing hash request.itsAid octets { data with tbsData := { data.tbsData with
          psid := request.itsAid.toUInt64
          generationTime := some (UInt64.ofInt now).toNat } } :=
    ⟨hh, rfl, ⟨_, rfl⟩, hp⟩
  unfold prepareHeader
  dsimp only
  split
  · exact prepares_prepareCam hf hd
  split
  · refine bind (prepares_includeCertificate hf) ?_
    intro msg hmsg
    refine pure (hmsg.modifyTbs (fun _ => rfl) (fun _ => rfl) ?_)
    intro tbs
    rw [packing.unpack_pack]
  · split
    · rw [hs, if_neg Bool.false_ne_true]
      exact pure (hf.includeDigest hd)
    · exact prepares_includeCertificate hf

end Header

end DefaultSignHeaderPolicy

end Vanetza.Security.V3
