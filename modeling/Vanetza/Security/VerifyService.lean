import Vanetza.Security.Basic

/-!
# The verify service interface

What a verify service answers, for both protocol versions.
-/

namespace Vanetza.Security

inductive VerificationReport where
  | success
  | falseSignature
  | invalidCertificate
  | revokedCertificate
  | inconsistentChain
  | invalidTimestamp
  | duplicateMessage
  | invalidMobilityData
  | unsignedMessage
  | signerCertificateNotFound
  | unsupportedSignerIdentifierType
  | incompatibleProtocol
  | configurationProblem
  deriving DecidableEq

inductive CertificateInvalidReason where
  | brokenTimePeriod
  | offTimePeriod
  | unknownSigner
  | missingSignature
  | missingPublicKey
  | invalidSigner
  | invalidName
  | excessiveChainLength
  | offRegion
  | inconsistentWithSigner
  | insufficientItsAid
  | missingSubjectAssurance
  deriving DecidableEq

abbrev CertificateValidity := Option CertificateInvalidReason

/-- `VerifyConfirm`. What the code leaves unset is zero or empty. -/
structure VerifyConfirm where
  report : VerificationReport
  itsAid : ItsAid := 0
  permissions : ByteBuffer := []
  certificateValidity : CertificateValidity := none
  certificateId : Option HashedId8 := none
  deriving DecidableEq

def aidCa : ItsAid := 36

end Vanetza.Security
