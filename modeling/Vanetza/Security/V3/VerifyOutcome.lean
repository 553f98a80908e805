import Vanetza.Security.V3.SignHeaderPolicy
import Vanetza.Security.V3.StraightVerify

/-!
# What one verification leaves behind

`Outcome` lists the ways `StraightVerifyService::verify` can end, and the state then. The record of
what peers ask for changes by what stands in the header, however the verification ends.
-/

namespace Vanetza.Security.V3

open Asn1 List CertificateCache

namespace PolicyCall

def onIncoming : PolicyCall → Option (PeerRequestTracker → PeerRequestTracker)
  | .enqueueP2pRequest id => some (·.addRequest id)
  | .discardP2pRequest id => some (·.discardRequest id)
  | _ => none

def onOutgoing : PolicyCall → Option (PeerRequestTracker → PeerRequestTracker)
  | .requestUnrecognizedCertificate id => some (·.addRequest (truncate id))
  | _ => none

end PolicyCall

def SecuredMessage.Complete (msg : SecuredMessage) : Prop :=
  msg.isSigned = true ∧ msg.protocolVersion = 3 ∧
    msg.generationTime.isSome = true ∧ msg.signature.isSome = true

namespace StraightVerifyService

open PolicyCall (onIncoming onOutgoing)

variable {P : Platform} (service : StraightVerifyService)

def note (msg : SecuredMessage) (s : VerifyState P) : VerifyState P :=
  service.tell (handleP2p P msg)
    (service.trackStation msg (getCertificateId P msg.signerIdentifier) s)

def Approves (msg : SecuredMessage) (cert : Certificate) : Prop :=
  ∀ check, service.certValidator = some check → check cert msg.itsAid = .valid

inductive Outcome (s : VerifyState P) (msg : SecuredMessage) : VerifyConfirm → VerifyState P → Prop
  | incomplete {confirm : VerifyConfirm} (hmsg : ¬msg.Complete)
      (hreport : confirm.report ≠ .success) : Outcome s msg confirm s
  | notFound {confirm : VerifyConfirm} (hmsg : msg.Complete)
      (hsigner : lookupSigner s.certCache msg.signerIdentifier = none)
      (hreport : confirm.report ≠ .success) :
      Outcome s msg confirm (if msg.itsAid == aidCa then
          service.tell ((getCertificateId P msg.signerIdentifier).toList.map
            .requestUnrecognizedCertificate) (service.note msg s)
        else service.note msg s)
  | rejected {confirm : VerifyConfirm} {cert : Certificate} (hmsg : msg.Complete)
      (hsigner : lookupSigner s.certCache msg.signerIdentifier = some cert)
      (hcert : ¬service.Approves msg cert)
      (hreport : confirm.report ≠ .success) :
      Outcome s msg confirm (service.note msg s)
  | unverified {confirm : VerifyConfirm} {cert : Certificate} (hmsg : msg.Complete)
      (hsigner : lookupSigner s.certCache msg.signerIdentifier = some cert)
      (hcert : service.Approves msg cert)
      (hreport : confirm.report ≠ .success) :
      Outcome s msg confirm (service.requestIssuer cert (service.note msg s))
  | success {confirm : VerifyConfirm} {cert : Certificate} (hmsg : msg.Complete)
      (hsigner : lookupSigner s.certCache msg.signerIdentifier = some cert)
      (hcert : service.Approves msg cert)
      (hreport : confirm.report = .success) :
      Outcome s msg confirm (service.updateCache msg (getCertificateId P msg.signerIdentifier) cert
          (service.requestIssuer cert (service.note msg s)))

variable {service}

variable {cert : Certificate} {msg : SecuredMessage} {s : VerifyState P}
  {d : HashedId8} {cache : CertificateCache P} {entry : HashedId8 × Certificate}

theorem approves_iff : service.Approves msg cert ↔ (service.certValidator.any fun check =>
      check cert msg.itsAid != .valid) = false := by
  unfold Approves
  cases service.certValidator with
  | none => simp
  | some check => simp

theorem lookupSigner_note (msg : SecuredMessage) (s : VerifyState P) (signer : SignerIdentifier) :
  lookupSigner (service.note msg s).certCache signer = lookupSigner s.certCache signer := by
  rw [note, tell_certCache, lookupSigner_trackStation]

theorem outcome_verifyWith {sig : Signature} (hmsg : msg.Complete)
  (hs : lookupSigner s.certCache msg.signerIdentifier = some cert) :
  let result := service.verifyWith msg sig
    (getCertificateId P msg.signerIdentifier) cert (service.note msg s)
  service.Outcome s msg result.1 result.2 := by
  unfold verifyWith
  split
  · next hr =>
    have hcert : ¬service.Approves msg cert := by
      rw [approves_iff, hr]
      exact Bool.noConfusion
    exact .rejected hmsg hs hcert (by rintro ⟨⟩)
  · next ha =>
    have hcert := approves_iff.2 (Bool.eq_false_iff.2 ha)
    dsimp only
    split
    · exact .unverified hmsg hs hcert (by rintro ⟨⟩)
    split
    · exact .unverified hmsg hs hcert (by rintro ⟨⟩)
    · exact .unverified hmsg hs hcert (by rintro ⟨⟩)
    · exact .success hmsg hs hcert rfl

theorem outcome_verify (s : VerifyState P) (msg : SecuredMessage) :
  service.Outcome s msg (service.verify s msg).1 (service.verify s msg).2 := by
  unfold verify
  split
  · next h =>
    refine .incomplete (fun hmsg => ?_) (by rintro ⟨⟩)
    rw [hmsg.1] at h
    cases h
  next hs =>
  split
  · next h => exact .incomplete (fun hmsg => h hmsg.2.1) (by rintro ⟨⟩)
  next hv =>
  split
  · next h =>
    refine .incomplete (fun hmsg => ?_) (by rintro ⟨⟩)
    rw [SecuredMessage.Complete, Option.isNone_iff_eq_none.1 h] at hmsg
    cases hmsg.2.2.1
  next ht =>
  split
  · next h =>
    refine .incomplete (fun hmsg => ?_) (by rintro ⟨⟩)
    rw [SecuredMessage.Complete, h] at hmsg
    cases hmsg.2.2.2
  next sig hsig =>
  have hmsg : msg.Complete := by
    refine ⟨by simpa using hs, not_not.1 hv, ?_, ?_⟩
    · simpa [Option.isSome_iff_ne_none] using ht
    · rw [hsig]
      rfl
  have hnot : lookupSigner (service.note msg s).certCache
      msg.signerIdentifier = _ := lookupSigner_note msg s _
  rw [note] at hnot
  dsimp only
  split
  · next hn =>
    exact .notFound hmsg (hnot.symm.trans hn) (by rintro ⟨⟩)
  · next cert hcert =>
    exact outcome_verifyWith hmsg (hnot.symm.trans hcert)

theorem filterMap_tell {β : Type} (g : PolicyCall → Option β)
  (calls : List PolicyCall) (s : VerifyState P) :
  (service.tell calls s).policyCalls.filterMap g = s.policyCalls.filterMap g ++
      if service.hasSignPolicy then calls.filterMap g else [] := by
  unfold tell
  split
  · exact filterMap_append
  · rw [append_nil]

section Greeting

variable {β : Type} {g : PolicyCall → Option β} (hg : g .requestCertificate = none)

include hg

theorem filterMap_tell_requestCertificate (s : VerifyState P) :
  (service.tell [.requestCertificate] s).policyCalls.filterMap g = s.policyCalls.filterMap g := by
  rw [filterMap_tell, filterMap_cons_none hg, filterMap_nil]
  split <;> rw [append_nil]

theorem filterMap_trackStation (msg : SecuredMessage)
  (maybeDigest : Option HashedId8) (s : VerifyState P) :
  (service.trackStation msg maybeDigest s).policyCalls.filterMap g = s.policyCalls.filterMap g := by
  unfold trackStation
  split
  · dsimp only
    split
    · rw [filterMap_tell_requestCertificate hg]
    · rfl
  · rfl

theorem filterMap_updateCache (msg : SecuredMessage)
  (maybeDigest : Option HashedId8) (cert : Certificate) (s : VerifyState P) :
  (service.updateCache msg maybeDigest cert s).policyCalls.filterMap g =
    s.policyCalls.filterMap g := by
  have hgr : ∀ greet : Bool, (if greet then service.tell [.requestCertificate] s
        else s).policyCalls.filterMap g = s.policyCalls.filterMap g := by
    intro greet
    split
    · exact filterMap_tell_requestCertificate hg s
    · rfl
  unfold updateCache
  split
  · dsimp only
    split
    · exact hgr _
    · exact hgr _
  · rfl

theorem filterMap_note (msg : SecuredMessage) (s : VerifyState P) :
  (service.note msg s).policyCalls.filterMap g = s.policyCalls.filterMap g ++
      if service.hasSignPolicy then (handleP2p P msg).filterMap g else [] := by
  rw [note, filterMap_tell, filterMap_trackStation hg]

end Greeting

theorem filterMap_onIncoming_requestIssuer (cert : Certificate) (s : VerifyState P) :
  (service.requestIssuer cert s).policyCalls.filterMap onIncoming =
    s.policyCalls.filterMap onIncoming := by
  unfold requestIssuer
  split
  · split
    · rfl
    · rw [filterMap_tell]
      split <;> exact append_nil _
  · rfl

theorem filterMap_onIncoming_unrecognized (digests : List HashedId8) :
  (digests.map PolicyCall.requestUnrecognizedCertificate).filterMap onIncoming = [] := by
  rw [filterMap_map]
  exact filterMap_eq_nil_iff.2 fun _ _ => rfl

theorem Outcome.onIncoming_eq {s' : VerifyState P} {confirm : VerifyConfirm}
  (h : service.Outcome s msg confirm s') :
  s' = s ∨ msg.Complete ∧ s'.policyCalls.filterMap onIncoming =
      s.policyCalls.filterMap onIncoming ++
        if service.hasSignPolicy then (handleP2p P msg).filterMap onIncoming
        else [] := by
  have hn : (service.note msg s).policyCalls.filterMap onIncoming = _ := filterMap_note rfl msg s
  cases h with
  | incomplete hmsg => exact .inl rfl
  | notFound hmsg =>
    refine .inr ⟨hmsg, ?_⟩
    split
    · rw [filterMap_tell, filterMap_onIncoming_unrecognized, ite_self, append_nil, hn]
    · exact hn
  | rejected hmsg => exact .inr ⟨hmsg, hn⟩
  | unverified hmsg => exact .inr ⟨hmsg, (filterMap_onIncoming_requestIssuer _ _).trans hn⟩
  | success hmsg =>
    refine .inr ⟨hmsg, ?_⟩
    rw [filterMap_updateCache rfl, filterMap_onIncoming_requestIssuer, hn]

theorem filterMap_onOutgoing_handleP2p (msg : SecuredMessage) :
  (handleP2p P msg).filterMap onOutgoing = [] := by
  unfold handleP2p
  split
  · rfl
  split
  · rw [filterMap_append, filterMap_map, filterMap_map]
    exact append_eq_nil_iff.2 ⟨filterMap_eq_nil_iff.2 fun _ _ => rfl,
        filterMap_eq_nil_iff.2 fun _ _ => rfl⟩
  · rfl

def stored : Option (CertificateCache P) → List (HashedId8 × Certificate)
  | some cache => cache.storage
  | none => []

def known : Option (CertificateCache P) → List HashedId8
  | some cache => cache.digests
  | none => []

theorem stored_trackStation (msg : SecuredMessage)
  (maybeDigest : Option HashedId8) (s : VerifyState P) :
  stored (service.trackStation msg maybeDigest s).certCache = stored s.certCache := by
  have ha : ∀ (cache : CertificateCache P) (digest : HashedId8),
      (cache.announce digest).1.storage = cache.storage := by
    intro cache digest
    unfold announce
    split <;> rfl
  unfold trackStation
  split
  · next cache digest hcc =>
    dsimp only
    split <;> simp [stored, hcc, ha]
  · rfl

theorem mem_announce {digest : HashedId8} :
  d ∈ (cache.announce digest).1.digests ↔ d ∈ cache.digests ∨ digest = d := by
  unfold announce
  split
  · next hkn =>
    refine ⟨.inl, ?_⟩
    rintro (h | rfl)
    · exact h
    · exact hkn
  · rw [mem_cons, or_comm, @eq_comm _ d]

theorem mem_known_trackStation {maybeDigest : Option HashedId8} (hcc : s.certCache.isSome) :
  d ∈ known (service.trackStation msg maybeDigest s).certCache ↔
    d ∈ known s.certCache ∨ maybeDigest = some d := by
  obtain ⟨cache, hcc⟩ := Option.isSome_iff_exists.1 hcc
  unfold trackStation
  rw [hcc]
  cases maybeDigest with
  | none => simp [hcc]
  | some digest =>
    dsimp only
    split <;> simp [known, mem_announce]

@[simp] theorem requestIssuer_certCache (cert : Certificate) (s : VerifyState P) :
  (service.requestIssuer cert s).certCache = s.certCache := by
  unfold requestIssuer
  split
  · split
    · rfl
    · exact tell_certCache _ _
  · rfl

@[simp] theorem note_certCache (msg : SecuredMessage) (s : VerifyState P) :
  (service.note msg s).certCache =
    (service.trackStation msg (getCertificateId P msg.signerIdentifier) s).certCache :=
  tell_certCache _ _

theorem note_certCache_isSome (hcc : s.certCache.isSome) :
  (service.note msg s).certCache.isSome := by
  rw [note_certCache]
  unfold trackStation
  split
  · dsimp only
    split
    · rw [tell_certCache]
      rfl
    · rfl
  · exact hcc

theorem mem_storage_store (h : entry ∈ (cache.store cert).storage) :
  entry ∈ cache.storage ∨ entry.2 = cert := by
  unfold store at h
  split at h
  · exact .inl h
  split at h
  · exact .inl h
  · rcases mem_cons.1 h with rfl | h
    · exact .inr rfl
    · exact .inl h

theorem mem_digests_store {hash : HashedId8} (hd : calculateDigest P cert = some hash)
  (hkn : hash ∈ cache.digests) :
  d ∈ (cache.store cert).digests ↔ d ∈ cache.digests := by
  unfold store
  split
  · rfl
  next other ho =>
  cases hd.symm.trans ho
  split
  · rfl
  · rfl

theorem updateCache_cases (msg : SecuredMessage)
  (maybeDigest : Option HashedId8) (cert : Certificate) (s : VerifyState P) :
  (service.updateCache msg maybeDigest cert s).certCache = s.certCache ∨
  ∃ cache digest, s.certCache = some cache ∧ maybeDigest = some digest ∧
    (service.updateCache msg maybeDigest cert s).certCache = some (cache.store cert) := by
  have hgr : ∀ greet : Bool, (if greet then service.tell [.requestCertificate] s
        else s).certCache = s.certCache := by
    intro greet
    split
    · exact tell_certCache _ _
    · rfl
  unfold updateCache
  split
  · next cache digest hcc =>
    dsimp only
    split
    · exact .inr ⟨cache, digest, hcc, rfl, rfl⟩
    · exact .inl (hgr _)
  · exact .inl rfl

theorem filterMap_onOutgoing_requestIssuer
  (hiss : issuerDigest cert = some d) (hcc : s.certCache.isSome)
  (hp : service.hasSignPolicy = true) :
  (service.requestIssuer cert s).policyCalls.filterMap onOutgoing =
    s.policyCalls.filterMap onOutgoing ++
      if d ∈ known s.certCache then []
      else [(·.addRequest (truncate d))] := by
  obtain ⟨cache, hcc⟩ := Option.isSome_iff_exists.1 hcc
  have hkn : cache.isKnown d = true ↔ d ∈ known s.certCache := by
    rw [hcc]
    exact decide_eq_true_iff
  unfold requestIssuer
  split
  · next other found ho hfnd =>
    cases ho.symm.trans hiss
    cases hfnd.symm.trans hcc
    by_cases hd : d ∈ known s.certCache
    · rw [if_pos (hkn.2 hd), if_pos hd, append_nil]
    · rw [if_neg (mt hkn.1 hd), if_neg hd, filterMap_tell, if_pos hp]
      rfl
  · next hn => exact absurd hcc (hn d cache hiss)

def Announces (P : Platform) (d : HashedId8) (msg : SecuredMessage) : Prop :=
  msg.Complete ∧ getCertificateId P msg.signerIdentifier = some d

namespace Outcome

variable {s s' : VerifyState P} {msg : SecuredMessage}
  {confirm : VerifyConfirm} (h : service.Outcome s msg confirm s')

include h

theorem certCache_cases : ¬msg.Complete ∧ s' = s ∨ msg.Complete ∧
    (s'.certCache = (service.note msg s).certCache ∨ ∃ cert, confirm.report = .success ∧
      lookupSigner s.certCache msg.signerIdentifier = some cert ∧
      s'.certCache = (service.updateCache msg (getCertificateId P msg.signerIdentifier) cert
        (service.requestIssuer cert (service.note msg s))).certCache) := by
  cases h with
  | incomplete hmsg => exact .inl ⟨hmsg, rfl⟩
  | notFound hmsg =>
    refine .inr ⟨hmsg, .inl ?_⟩
    split
    · exact tell_certCache _ _
    · rfl
  | rejected hmsg => exact .inr ⟨hmsg, .inl rfl⟩
  | unverified hmsg => exact .inr ⟨hmsg, .inl (requestIssuer_certCache _ _)⟩
  | success hmsg hs _ hr => exact .inr ⟨hmsg, .inr ⟨_, hr, hs, rfl⟩⟩

theorem stored_eq (hr : confirm.report ≠ .success) :
  stored s'.certCache = stored s.certCache := by
  rcases h.certCache_cases with ⟨-, rfl⟩ | ⟨-, hn | ⟨_, hs, -⟩⟩
  · rfl
  · rw [hn, note_certCache, stored_trackStation]
  · exact absurd hs hr

theorem mem_stored (hent : entry ∈ stored s'.certCache) :
  entry ∈ stored s.certCache ∨ confirm.report = .success ∧
    lookupSigner s.certCache msg.signerIdentifier = some entry.2 := by
  have hn : stored (service.note msg s).certCache = stored s.certCache := by
    rw [note_certCache, stored_trackStation]
  rcases h.certCache_cases with
    ⟨-, rfl⟩ | ⟨-, hs | ⟨cert, hr, hsig, hu⟩⟩
  · exact .inl hent
  · rw [hs, hn] at hent
    exact .inl hent
  rw [hu] at hent
  rcases updateCache_cases msg (getCertificateId P msg.signerIdentifier)
    cert (service.requestIssuer cert (service.note msg s)) with
    hs | ⟨cache, digest, hcc, -, hst⟩
  · rw [hs, requestIssuer_certCache, hn] at hent
    exact .inl hent
  rw [requestIssuer_certCache] at hcc
  rw [hst] at hent
  rcases mem_storage_store hent with ho | hnew
  · rw [hcc] at hn
    exact .inl (hn ▸ ho)
  · exact .inr ⟨hr, hnew ▸ hsig⟩

theorem mem_known (hcc : s.certCache.isSome) :
  d ∈ known s'.certCache ↔ d ∈ known s.certCache ∨ Announces P d msg := by
  have hnot : d ∈ known (service.note msg s).certCache ↔ d ∈ known s.certCache ∨
        getCertificateId P msg.signerIdentifier = some d := by
    rw [note_certCache, mem_known_trackStation hcc]
  rcases h.certCache_cases with
    ⟨hmsg, rfl⟩ | ⟨hmsg, hs | ⟨cert, -, hsig, hu⟩⟩
  · simp [Announces, hmsg]
  · rw [hs, hnot, Announces, and_iff_right hmsg]
  rw [hu, Announces, and_iff_right hmsg, ← hnot]
  rcases updateCache_cases msg (getCertificateId P msg.signerIdentifier)
    cert (service.requestIssuer cert (service.note msg s)) with
    hs | ⟨cache, digest, hn, hd, hst⟩
  · rw [hs, requestIssuer_certCache]
  -- what is filed has been announced before
  have ha : digest ∈ known (service.note msg s).certCache := by
    rw [note_certCache, mem_known_trackStation hcc]
    exact .inr hd
  rw [requestIssuer_certCache] at hn
  rw [hn] at ha ⊢
  rw [hst]
  exact mem_digests_store ((getCertificateId_eq hsig).symm.trans hd) ha

theorem certCache_isSome (hcc : s.certCache.isSome) :
  s'.certCache.isSome := by
  have hn : (service.note msg s).certCache.isSome := note_certCache_isSome hcc
  rcases h.certCache_cases with
    ⟨-, rfl⟩ | ⟨-, hs | ⟨cert, -, -, hu⟩⟩
  · exact hcc
  · rw [hs]
    exact hn
  rw [hu]
  rcases updateCache_cases msg (getCertificateId P msg.signerIdentifier)
    cert (service.requestIssuer cert (service.note msg s)) with
    hs | ⟨_, _, -, -, hst⟩
  · rw [hs, requestIssuer_certCache]
    exact hn
  · rw [hst]
    rfl

theorem onOutgoing_eq (hmsg : msg.Complete)
  (hs : lookupSigner s.certCache msg.signerIdentifier = some cert)
  (hcert : service.Approves msg cert) (hiss : issuerDigest cert = some d)
  (hcc : (service.note msg s).certCache.isSome) (hp : service.hasSignPolicy = true) :
  s'.policyCalls.filterMap onOutgoing = s.policyCalls.filterMap onOutgoing ++
      if d ∈ known (service.note msg s).certCache then []
      else [(·.addRequest (truncate d))] := by
  have hr := filterMap_onOutgoing_requestIssuer hiss hcc hp
  rw [filterMap_note rfl, filterMap_onOutgoing_handleP2p, ite_self, append_nil] at hr
  cases h with
  | incomplete hnot => exact absurd hmsg hnot
  | notFound _ hnone => cases hnone.symm.trans hs
  | rejected _ hoth hnot =>
    cases hoth.symm.trans hs
    exact absurd hcert hnot
  | unverified _ hoth =>
    cases hoth.symm.trans hs
    exact hr
  | success _ hoth =>
    cases hoth.symm.trans hs
    rw [filterMap_updateCache rfl, hr]

end Outcome

end StraightVerifyService

end Vanetza.Security.V3
