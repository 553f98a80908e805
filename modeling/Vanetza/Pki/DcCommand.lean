import Vanetza.Pki.Storage

/-!
# Fetching lists from the distribution centre

`dc fetch ctl` and `dc fetch crl` ask for the list of one root CA, verify the answer under that
root's stored certificate, and store it under the identifier the answer claims for itself; whether
this is the root asked for is only printed.
-/

namespace Vanetza.Pki

open Security Security.V3 Security.V3.Asn1

inductive FetchCommand where
  | ctl
  | crl
  deriving DecidableEq

structure FetchOptions where
  hid8 : HashedId8
  print : Bool
  dryRun : Bool

inductive FetchOutcome where
  | failed
  | missingRootCa
  | untrusted
  | dryRun
  | stored
  | notIndexed
  deriving DecidableEq

def storeAndExport (security : SecurityModule) (s : Stores) (id : HashedId8)
  (ctl : SignedList) : Stores × FetchOutcome :=
  let s := s.storeTrustList id ctl
  match security.rcaCtlCommands ctl with
  | none => (s, .failed)
  | some commands =>
    let exported := exportCertificates security.platform commands s
    (exported.1, if exported.2 then .stored else .failed)

/-- The visit behind `--print`, false if it raises: for commands that cannot be
decoded, and at a root CA or trust list manager without identifier. -/
def printsCtl (security : SecurityModule) (ctl : SignedList) : Bool :=
  match security.rcaCtlCommands ctl with
  | none => false
  | some commands => commands.all (ctlListingVisitor security.platform)

def fetchCtl (security : SecurityModule) (options : FetchOptions)
  (response : Option SignedList) (s : Stores) : Stores × FetchOutcome :=
  match response with
  | none => (s, .failed)
  | some ctl =>
    if options.print && !printsCtl security ctl then
      (s, .failed)
    else match getHashedId8 security.platform ctl with
      | none => (s, .failed)
      | some ctlDigest => match s.rootCa options.hid8 with
        | none => (s, .missingRootCa)
        | some cert => match security.validateList ctl cert with
          | none => (s, .failed)
          | some false => (s, .untrusted)
          | some true =>
            if options.dryRun then (s, .dryRun)
            else match ctlDigest with
              | none => (s, .failed)
              | some id => storeAndExport security s id ctl

def fetchCrl (security : SecurityModule) (options : FetchOptions)
  (response : Option SignedList) (s : Stores) : Stores × FetchOutcome :=
  match response with
  | none => (s, .failed)
  | some crl => match getHashedId8 security.platform crl with
    | none => (s, .failed)
    | some crlDigest => match s.rootCa options.hid8 with
      | none => (s, .missingRootCa)
      | some cert => match security.validateList crl cert with
        | none => (s, .failed)
        | some false => (s, .untrusted)
        | some true =>
          if options.dryRun then (s, .dryRun)
          else match crlDigest, security.revokedEntries crl.body with
            | some issuer, some entries =>
              (s.storeCrl issuer crl entries, .stored)
            | _, _ => (s, .notIndexed)

def fetch (security : SecurityModule) : FetchCommand → FetchOptions →
  Option SignedList → Stores → Stores × FetchOutcome
  | .ctl => fetchCtl security
  | .crl => fetchCrl security

section Effect

variable {security : SecurityModule} {command : FetchCommand}
  {options : FetchOptions} {s : Stores} {list : SignedList} {id : HashedId8} {e : Stores.Entry}

variable {response : Option SignedList} {root : HashedId8}

end Effect

end Vanetza.Pki
