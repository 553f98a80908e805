import Mathlib.Data.Finset.Dedup
import Mathlib.Data.Finset.Insert
import Mathlib.Logic.Function.Basic
import Vanetza.Security.V3.SecuredMessage

/-!
# Signed lists and where the PKI tool keeps them

Trust lists and revocation lists arrive as signed messages. The signature does not cover the signer
field, so here signer field and body are separate, and verification only ever sees the body.
-/

namespace Vanetza.Pki

open Security Security.V3 Security.V3.Asn1

/-- `CertificateTrustList` and `CertificateRevocationList`; `signer` is `none`
for a message whose content is not signed data. -/
structure SignedList where
  signer : Option Asn1.SignerIdentifier
  body : ByteBuffer
  deriving DecidableEq

structure AaEntry where
  aaCertificate : Certificate
  accessPoint : String
  deriving DecidableEq

structure EaEntry where
  eaCertificate : Certificate
  aaAccessPoint : String
  itsAccessPoint : Option String
  deriving DecidableEq

structure DcEntry where
  url : String
  cert : List HashedId8
  deriving DecidableEq

/-- `CtlEntry`. The access point of a trust list manager and the successor of a
root CA are not looked at. -/
inductive CtlEntry where
  | nothing
  | rca (selfsignedRootCa : Certificate)
  | tlm (selfSignedTLMCertificate : Certificate)
  | dc (entry : DcEntry)
  | aa (entry : AaEntry)
  | ea (entry : EaEntry)
  deriving DecidableEq

inductive CtlDelete where
  | nothing
  | cert (id : HashedId8)
  | dc (url : String)
  deriving DecidableEq

inductive ListCommand where
  | nothing
  | add (entry : CtlEntry)
  | delete (removal : CtlDelete)
  deriving DecidableEq

structure CtlFormat where
  isFullCtl : Bool
  ctlCommands : List ListCommand
  deriving DecidableEq

inductive MgmtContent where
  | certificateTrustListRca (format : CtlFormat)
  | certificateTrustListTlm (format : CtlFormat)
  | other
  deriving DecidableEq

/-- What the tool takes from its cryptography backend and its ASN.1 decoders; `signedPayload` and
`mgmtData` are the two stages that decode a list. -/
structure SecurityModule where
  platform : Platform
  validate : ByteBuffer → Certificate → Option Bool
  revokedEntries : ByteBuffer → Option (List HashedId8)
  signedPayload : ByteBuffer → Option ByteBuffer
  mgmtData : ByteBuffer → Option MgmtContent

/-- `pki::calculate_hashed_id8`. Raises for a certificate that is not
canonical or has a key of an unknown kind; implicit certificates are hashed
with SHA-256. -/
def calculateHashedId8 (P : Platform) (cert : Certificate) : Option HashedId8 :=
  if !isCanonical cert then none
  else match cert.toBeSigned.verifyKeyIndicator with
    | .verificationKey (.ecdsaNistP256 _)
    | .verificationKey (.ecdsaBrainpoolP256r1 _) => calculateDigestInternal P cert .nistP256
    | .verificationKey (.ecdsaBrainpoolP384r1 _) => calculateDigestInternal P cert .brainpoolP384r1
    | .verificationKey _ => none
    | _ => calculateDigestInternal P cert .nistP256

/-- `get_hashed_id8` of either kind of list: the outer `none` is an
exception, the inner one a list whose signer cannot be told. -/
def getHashedId8 (P : Platform) (list : SignedList) : Option (Option HashedId8) :=
  match list.signer with
  | some (.digest digest) => some (some digest)
  | some (.certificate [cert]) => (calculateHashedId8 P cert).map some
  | _ => some none

def SecurityModule.validateList (security : SecurityModule) (list : SignedList)
  (cert : Certificate) : Option Bool :=
  if list.signer.isSome then security.validate list.body cert else some false

def SecurityModule.getSignedPayload (m : SecurityModule) (ctl : SignedList) : Option ByteBuffer :=
  if ctl.signer.isSome then m.signedPayload ctl.body else none

/-- What `visit_rca_ctl` goes through; raises for any other content. -/
def SecurityModule.rcaCtlCommands (m : SecurityModule) (ctl : SignedList) :
    Option (List ListCommand) :=
  match (m.getSignedPayload ctl).bind m.mgmtData with
  | some (.certificateTrustListRca format) => some format.ctlCommands
  | _ => none

structure Stores where
  rootCa : HashedId8 → Option Certificate
  trustLists : HashedId8 → Option SignedList
  crlFiles : HashedId8 → Option SignedList
  revoked : HashedId8 → Finset HashedId8
  authorizationAuthorities : HashedId8 → Option Certificate
  enrolmentAuthorities : HashedId8 → Option Certificate

namespace Stores

/-- `TrustListFilesystemStorage::store` under a known identifier. -/
def storeTrustList (s : Stores) (id : HashedId8) (ctl : SignedList) : Stores :=
  { s with trustLists := Function.update s.trustLists id (some ctl) }

/-- `CrlFilesystemStore::store` of an indexable list: the issuer's bucket is
replaced, then the file is written. -/
def storeCrl (s : Stores) (issuer : HashedId8) (crl : SignedList)
  (entries : List HashedId8) : Stores :=
  { s with
    revoked := Function.update s.revoked issuer entries.toFinset
    crlFiles := Function.update s.crlFiles issuer (some crl) }

def isRevoked (s : Stores) (issuer cert : HashedId8) : Bool := cert ∈ s.revoked issuer

structure Entry where
  trustList : Option SignedList
  crlFile : Option SignedList
  revoked : Finset HashedId8
  deriving DecidableEq

def entry (s : Stores) (root : HashedId8) : Entry :=
  ⟨s.trustLists root, s.crlFiles root, s.revoked root⟩

end Stores

/-- `CtlListingVisitor` on one command, false if it raises: root CAs and trust
list managers are printed with their identifiers. -/
def ctlListingVisitor (P : Platform) : ListCommand → Bool
  | .add (.rca cert) | .add (.tlm cert) => (calculateHashedId8 P cert).isSome
  | _ => true

/-- `CertificateExportVisitor` over the commands of a trust list. A
certificate without identifier raises and ends the visit; what was stored
before stays. -/
def exportCertificates (P : Platform) : List ListCommand → Stores → Stores × Bool
  | [], s => (s, true)
  | .add (.aa entry) :: rest, s =>
    match calculateHashedId8 P entry.aaCertificate with
    | none => (s, false)
    | some id => exportCertificates P rest
        { s with authorizationAuthorities :=
            Function.update s.authorizationAuthorities id (some entry.aaCertificate) }
  | .add (.ea entry) :: rest, s =>
    match calculateHashedId8 P entry.eaCertificate with
    | none => (s, false)
    | some id => exportCertificates P rest
        { s with enrolmentAuthorities :=
            Function.update s.enrolmentAuthorities id (some entry.eaCertificate) }
  | _ :: rest, s => exportCertificates P rest s

end Vanetza.Pki
