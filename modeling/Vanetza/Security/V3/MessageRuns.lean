import Vanetza.Lib.Run
import Vanetza.Security.V3.InlineRequests
import Vanetza.Security.V3.VerifyOutcome

/-!
# What a station learns from the messages it receives

A station verifies messages and signs its own, one after the other. Both
services share the sign header policy, and the verify service keeps a
certificate cache.
-/

namespace Vanetza.Security.V3

open Asn1 Lib List

variable {id : HashedId3}

namespace PeerRequestTracker

variable (tracker : PeerRequestTracker)

theorem mem_addRequest (id : HashedId3) : id ∈ (tracker.addRequest id).fifo := by
  unfold addRequest isPending
  split
  · next h => exact of_decide_eq_true h
  · split <;> simp

def fresh (ids : List HashedId3) : Finset HashedId3 := ids.toFinset \ tracker.fifo.toFinset

def Crowded (ids : List HashedId3) : Prop :=
  (tracker.fresh ids).Nonempty ∧ tracker.limit < tracker.fifo.length + (tracker.fresh ids).card

variable {tracker}

variable {ids : List HashedId3}

theorem fresh_cons_of_pending (h : id ∈ tracker.fifo) :
  tracker.fresh (id :: ids) = tracker.fresh ids := by
  rw [fresh, toFinset_cons, Finset.insert_sdiff_of_mem _ (mem_toFinset.2 h), fresh]

theorem card_fresh_cons (h : id ∉ tracker.fifo) (ids : List HashedId3) :
  (tracker.fresh (id :: ids)).card =
    (fresh { tracker with fifo := tracker.fifo ++ [id] } ids).card + 1 := by
  have hn : id ∉ tracker.fifo.toFinset := fun hm =>
    h (mem_toFinset.1 hm)
  have hr : fresh { tracker with fifo := tracker.fifo ++ [id] } ids =
      (tracker.fresh (id :: ids)).erase id := by
    ext other
    simp only [fresh, toFinset_append, toFinset_cons,
      toFinset_nil, Finset.mem_sdiff, Finset.mem_union, Finset.mem_insert,
      Finset.mem_erase, mem_toFinset, Finset.notMem_empty, or_false]
    tauto
  have hm : id ∈ tracker.fresh (id :: ids) := by
    rw [fresh, toFinset_cons, Finset.mem_sdiff]
    exact ⟨Finset.mem_insert_self _ _, hn⟩
  rw [hr, Finset.card_erase_add_one hm]

theorem subset_foldl_addRequest (h : ¬tracker.Crowded ids) :
  tracker.fifo ⊆ (ids.foldl addRequest tracker).fifo := by
  induction ids generalizing tracker with
  | nil => exact List.Subset.refl _
  | cons id ids ih =>
    rw [foldl_cons]
    by_cases hp : id ∈ tracker.fifo
    · rw [Crowded, fresh_cons_of_pending hp] at h
      rw [addRequest, isPending, if_pos (decide_eq_true hp)]
      exact ih h
    have hc := card_fresh_cons hp ids
    have hro : tracker.fifo.length + (tracker.fresh (id :: ids)).card ≤ tracker.limit := by
      by_contra hfull
      exact h ⟨Finset.card_pos.1 (by omega), by omega⟩
    have hr : ¬Crowded { tracker with fifo := tracker.fifo ++ [id] }
        ids := by
      rintro ⟨-, hfull⟩
      rw [length_append, length_singleton] at hfull
      simp only at hfull
      omega
    rw [addRequest, isPending, if_neg (by simpa using hp), if_neg (by omega)]
    exact List.Subset.trans (subset_append_left _ [id]) (ih hr)

end PeerRequestTracker

def DefaultSignHeaderPolicy.hear (policy : DefaultSignHeaderPolicy) :
  PolicyCall → DefaultSignHeaderPolicy
  | .requestUnrecognizedCertificate id => policy.requestUnrecognizedCertificate id
  | .requestCertificate => policy.requestCertificate
  | .enqueueP2pRequest id => policy.enqueueP2pRequest id
  | .discardP2pRequest id => policy.discardP2pRequest id

structure Station (P : Platform) where
  certCache : Option (CertificateCache P)
  policy : DefaultSignHeaderPolicy

namespace Station

variable {P : Platform}

def start (P : Platform) (cached : Bool) (policy : DefaultSignHeaderPolicy) : Station P :=
  ⟨if cached then some .empty else none, policy⟩

inductive Action (P : Platform) where
  | receive (msg : SecuredMessage)
  | prepareHeader (packing : Packing) (provider : CertificateProvider P)
      (now : Int) (fix : PositionFixWithAltitude) (request : SignRequest)
      (msg : SecuredMessage)

def receive (service : StraightVerifyService) (station : Station P)
  (msg : SecuredMessage) : VerifyConfirm × Station P :=
  let (confirm, s) := service.verify ⟨station.certCache, []⟩ msg
  (confirm, ⟨s.certCache, s.policyCalls.foldl .hear station.policy⟩)

def step (service : StraightVerifyService) (station : Station P) : Action P → Station P
  | .receive msg => (station.receive service msg).2
  | .prepareHeader packing provider now fix request msg =>
    { station with
      policy := ((DefaultSignHeaderPolicy.prepareHeader packing provider now
        fix request msg).exec station.policy).2 }

end Station

namespace DefaultSignHeaderPolicy

theorem incomingRequests_hear (calls : List PolicyCall) (pol : DefaultSignHeaderPolicy) :
  (calls.foldl hear pol).incomingRequests =
    (calls.filterMap PolicyCall.onIncoming).foldl (fun tracker f => f tracker)
      pol.incomingRequests := by
  induction calls generalizing pol with
  | nil => rfl
  | cons call calls ih =>
    rw [foldl_cons, ih]
    cases call <;> rfl

theorem outgoingRequests_hear (calls : List PolicyCall) (pol : DefaultSignHeaderPolicy) :
  (calls.foldl hear pol).outgoingRequests =
    (calls.filterMap PolicyCall.onOutgoing).foldl (fun tracker f => f tracker)
      pol.outgoingRequests := by
  induction calls generalizing pol with
  | nil => rfl
  | cons call calls ih =>
    rw [foldl_cons, ih]
    cases call <;> rfl

end DefaultSignHeaderPolicy

namespace Station

open StraightVerifyService
open PolicyCall (onIncoming onOutgoing)

variable {P : Platform} (service : StraightVerifyService)

theorem outcome_receive (station : Station P) (msg : SecuredMessage) : ∃ s : VerifyState P,
    service.Outcome ⟨station.certCache, []⟩ msg (station.receive service msg).1 s ∧
    (station.receive service msg).2 = ⟨s.certCache, s.policyCalls.foldl .hear station.policy⟩ :=
  ⟨_, outcome_verify _ msg, rfl⟩

variable {station : Station P} {entry : HashedId8 × Certificate} {msg : SecuredMessage}

theorem certCache_isSome_step (hcc : station.certCache.isSome) (act : Action P) :
  (station.step service act).certCache.isSome := by
  cases act with
  | receive msg =>
    obtain ⟨s, ho, heq⟩ := outcome_receive service station msg
    rw [step, heq]
    exact ho.certCache_isSome hcc
  | prepareHeader => exact hcc

theorem mem_known_run (hcc : station.certCache.isSome) (acts : List (Action P)) (d : HashedId8) :
  d ∈ known (run (step service) station acts).certCache ↔ d ∈ known station.certCache ∨
      ∃ msg, .receive msg ∈ acts ∧ Announces P d msg := by
  induction acts generalizing station with
  | nil => simp [run]
  | cons act rest ih =>
    have hn := certCache_isSome_step service hcc act
    have hstep : d ∈ known (station.step service act).certCache ↔ d ∈ known station.certCache ∨
          ∃ msg, act = .receive msg ∧ Announces P d msg := by
      cases act with
      | receive msg =>
        obtain ⟨s, ho, heq⟩ := outcome_receive service station msg
        rw [step, heq]
        simpa using ho.mem_known hcc
      | prepareHeader => simp [step]
    rw [run, foldl_cons, ← run, ih hn, hstep, or_assoc]
    refine or_congr_right ?_
    constructor
    · rintro (⟨msg, rfl, hmsg⟩ | ⟨msg, hm, hmsg⟩)
      · exact ⟨msg, mem_cons_self, hmsg⟩
      · exact ⟨msg, mem_cons_of_mem _ hm, hmsg⟩
    rintro ⟨msg, hm, hmsg⟩
    rcases mem_cons.1 hm with heq | hm
    · exact .inl ⟨msg, heq.symm, hmsg⟩
    · exact .inr ⟨msg, hm, hmsg⟩

structure LacksIssuer (station : Station P) (msg : SecuredMessage) (d : HashedId8) : Prop where
  complete : msg.Complete
  signer : ∃ cert, lookupSigner station.certCache msg.signerIdentifier =
    some cert ∧ service.Approves msg cert ∧ issuerDigest cert = some d
  unstored : ∀ cache, station.certCache = some cache → cache.lookup d = none

variable {service}

theorem isPending_receive_iff {d : HashedId8}
  (hp : service.hasSignPolicy = true) (hcc : station.certCache.isSome)
  (h : station.LacksIssuer service msg d) :
  (station.receive service msg).2.policy.outgoingRequests.isPending (truncate d) = true ↔
    (d ∉ known station.certCache ∧ ¬Announces P d msg) ∨
      station.policy.outgoingRequests.isPending (truncate d) = true := by
  obtain ⟨s, ho, heq⟩ := outcome_receive service station msg
  obtain ⟨cert, hs, hcert, hiss⟩ := h.signer
  have hn : d ∈ known (service.note msg (⟨station.certCache, []⟩ : VerifyState P)).certCache ↔
        d ∈ known station.certCache ∨ Announces P d msg := by
    rw [note_certCache, mem_known_trackStation hcc, Announces, and_iff_right h.complete]
  have hc := ho.onOutgoing_eq h.complete hs hcert hiss (note_certCache_isSome hcc) hp
  rw [heq, DefaultSignHeaderPolicy.outgoingRequests_hear, hc, ← not_or, ← hn]
  split
  · next hkn =>
    rw [or_iff_right (not_not.2 hkn)]
    rfl
  · next hu =>
    refine iff_of_true ?_ (.inl hu)
    exact decide_eq_true (PeerRequestTracker.mem_addRequest _ _)

/-- After a message whose signer is approved there is a request for the issuer
if and only if no message so far has been signed, or has pretended to be
signed, by that issuer, unless the request was pending already. -/
theorem issuer_requested_iff {station : Station P} (hpolicy : service.hasSignPolicy = true)
  (hcache : station.certCache.isSome) (actions : List (Action P))
  {msg : SecuredMessage} {d : HashedId8}
  (h : (run (step service) station actions).LacksIssuer service msg d) :
  (run (step service) station (actions ++ [.receive msg])).policy.outgoingRequests.isPending
      (truncate d) = true ↔
    (d ∉ known station.certCache ∧ ∀ earlier, .receive earlier ∈ actions ++ [.receive msg] →
        ¬Announces P d earlier) ∨
      (run (step service) station actions).policy.outgoingRequests.isPending
        (truncate d) = true := by
  have hstep : ∀ (t : Station P) (act : Action P), t.certCache.isSome →
      (t.step service act).certCache.isSome :=
    fun _ act hinv => certCache_isSome_step service hinv act
  have hs : (run (step service) station actions).certCache.isSome := Run.always hstep hcache
  rw [Run.append]
  refine (isPending_receive_iff hpolicy hs h).trans (or_congr_left ?_)
  rw [mem_known_run service hcache, not_or, and_assoc]
  refine and_congr_right fun _ => ?_
  constructor
  · rintro ⟨hb, hmsg⟩ earlier hm
    rcases mem_append.1 hm with hm | hm
    · exact fun ha => hb ⟨earlier, hm, ha⟩
    · cases mem_singleton.1 hm
      exact hmsg
  · intro hn
    refine ⟨?_, hn msg (mem_append_right _ mem_cons_self)⟩
    rintro ⟨earlier, hm, ha⟩
    exact hn earlier (mem_append_left _ hm) ha

def ticket : Certificate :=
  { xOnlySigned with issuer := .sha256AndDigest (digestAt 7) }

def ticketPlatform : Platform := Platform.ofTable [ticket] (by decide)

def trustingService : StraightVerifyService where
  backend := ⟨fun _ data => some data, fun _ _ _ => some true⟩
  encodeTbsData data := some data.remaining
  certValidator := some fun _ _ => .valid
  hasSignPolicy := true

def noRequests : DefaultSignHeaderPolicy := ⟨0, false, ⟨[], 16⟩, ⟨[], 16⟩⟩

def messageNaming (psid : UInt64) (requests : Option (List HashedId3))
  (answer : Option Certificate) (digest : HashedId8) : SecuredMessage where
  protocolVersion := 3
  signedData := some
    { hashId := .sha256
      tbsData := ⟨psid, some 0, requests, answer, [5]⟩
      signer := .digest digest
      signature := .ecdsaNistP256Signature ⟨.xOnly (coord 1), coord 2⟩ }

theorem ticket_issuer_requested : (run (step trustingService) (start ticketPlatform true noRequests)
    [.receive (messageFrom ticket)]).policy.outgoingRequests.isPending
      (truncate (digestAt 7)) = true := by
  have hs : lookupSigner (start ticketPlatform true noRequests).certCache
      (messageFrom ticket).signerIdentifier = some ticket := rfl
  have hd : getCertificateId ticketPlatform
      (messageFrom ticket).signerIdentifier = some (digestAt 0) := by
    decide +kernel
  refine (issuer_requested_iff rfl rfl [] ⟨⟨rfl, rfl, rfl, rfl⟩,
    ⟨ticket, hs, ?_, rfl⟩, ?_⟩).2 (.inl ⟨not_mem_nil, ?_⟩)
  · rintro check ⟨⟩
    rfl
  · rintro cache ⟨⟩
    rfl
  · rintro earlier hm ⟨-, ha⟩
    cases mem_singleton.1 hm
    exact absurd (hd.symm.trans ha) (by decide)

/-- A DENM gives the issuer as its signer. Nothing is verified, and nothing is
asked for. When the ticket comes, its issuer counts as known. -/
theorem named_issuer_not_requested :
  let first := (start ticketPlatform true noRequests).receive trustingService
    (messageNaming 37 none none (digestAt 7))
  let second := first.2.receive trustingService (messageFrom ticket)
  first.1.report = .signerCertificateNotFound ∧ second.1.report = .success ∧
    issuerDigest ticket = some (digestAt 7) ∧
    (second.2.certCache.bind fun cache => cache.lookup (digestAt 7)) = none ∧
    second.2.policy.outgoingRequests.fifo = [] := by
  decide +kernel

def answered (P : Platform) (msg : SecuredMessage) : Option HashedId3 :=
  (msg.signedData.bind fun data =>
    data.tbsData.requestedCertificate.bind (calculateDigest P)).map truncate

theorem onIncoming_handleP2p (msg : SecuredMessage) : (handleP2p P msg).filterMap onIncoming =
    if msg.itsAid = aidCa then
      (InlineRequests.listed msg).map (fun id tracker => tracker.addRequest id) ++
        (answered P msg).toList.map fun id tracker =>
          tracker.discardRequest id
    else [] := by
  unfold handleP2p InlineRequests.listed answered
  cases hd : msg.signedData with
  | none =>
    dsimp only
    split <;> rfl
  | some data =>
    simp only [beq_iff_eq, Option.bind_some]
    split
    · have henq : ∀ ids : List HashedId3,
          (ids.map PolicyCall.enqueueP2pRequest).filterMap onIncoming =
            ids.map fun id tracker => tracker.addRequest id := fun ids => by
        rw [filterMap_map, ← filterMap_eq_map]
        rfl
      rw [filterMap_append, henq]
      cases data.tbsData.requestedCertificate.bind (calculateDigest P) <;> rfl
    · rfl

theorem mem_incoming_receive (hid : id ∈ station.policy.incomingRequests.fifo) :
  id ∈ (station.receive service msg).2.policy.incomingRequests.fifo ∨
    msg.Complete ∧ msg.itsAid = aidCa ∧ (answered P msg = some id ∨
        station.policy.incomingRequests.Crowded (InlineRequests.listed msg)) := by
  obtain ⟨s, hout, heq⟩ := outcome_receive service station msg
  rw [heq, DefaultSignHeaderPolicy.incomingRequests_hear]
  rcases hout.onIncoming_eq with rfl | ⟨hmsg, hcal⟩
  · exact .inl hid
  rw [hcal, onIncoming_handleP2p]
  split
  · split
    · next hca =>
      by_cases hc : station.policy.incomingRequests.Crowded (InlineRequests.listed msg)
      · exact .inr ⟨hmsg, hca, .inr hc⟩
      have hk := PeerRequestTracker.subset_foldl_addRequest hc hid
      rw [filterMap_nil, nil_append, foldl_append, foldl_map, foldl_map]
      cases ha : answered P msg with
      | none => exact .inl hk
      | some other =>
        by_cases ho : other = id
        · exact .inr ⟨hmsg, hca, .inl (congrArg some ho)⟩
        · exact .inl ((mem_erase_of_ne (Ne.symm ho)).2 hk)
    · exact .inl hid
  · exact .inl hid

theorem mem_stored_step {act : Action P}
  (hent : entry ∈ stored (station.step service act).certCache) :
  entry ∈ stored station.certCache ∨ ∃ msg, act = .receive msg ∧
    (station.receive service msg).1.report = .success ∧
    lookupSigner station.certCache msg.signerIdentifier = some entry.2 := by
  cases act with
  | receive msg =>
    obtain ⟨s, hout, heq⟩ := outcome_receive service station msg
    rw [step, heq] at hent
    rcases hout.mem_stored hent with ho | ⟨hr, hs⟩
    · exact .inl ho
    · exact .inr ⟨msg, rfl, hr, hs⟩
  | prepareHeader => exact .inl hent

theorem mem_stored_run {cached : Bool} {pol : DefaultSignHeaderPolicy}
  {acts : List (Action P)} (hent : entry ∈
    stored (run (step service) (start P cached pol) acts).certCache) :
  ∃ before msg, before ++ [.receive msg] <+: acts ∧
    ((run (step service) (start P cached pol) before).receive service
      msg).1.report = .success ∧
    lookupSigner (run (step service) (start P cached pol) before).certCache
      msg.signerIdentifier = some entry.2 := by
  induction acts using reverseRecOn with
  | nil => cases cached <;> cases hent
  | append_singleton acts act ih =>
    rw [Run.append] at hent
    rcases mem_stored_step hent with ho | ⟨msg, rfl, hr, hs⟩
    · obtain ⟨before, msg, hea, hv⟩ := ih ho
      exact ⟨before, msg, hea.trans (prefix_append _ _), hv⟩
    · exact ⟨acts, msg, prefix_refl _, hr, hs⟩

theorem filed_of_mem_stored {cache : Option (CertificateCache P)} (h : entry ∈ stored cache) :
  calculateDigest P entry.2 = some entry.1 := by
  cases cache with
  | none => cases h
  | some cache => exact cache.filed entry h

/-- A message that is not verified leaves the certificates in the cache as they are. It withdraws
only the request it answers, unless it brings more requests than there is room for. Every
certificate in the cache has signed a verified message and stands under its digest. -/
theorem unverified_message_leaves (cached : Bool)
  (policy : DefaultSignHeaderPolicy) (actions : List (Action P)) :
  let after := run (step service) (start P cached policy)
  (∀ before msg, before ++ [.receive msg] <+: actions →
    ((after before).receive service msg).1.report ≠ .success →
    stored (after (before ++ [.receive msg])).certCache = stored (after before).certCache ∧
      ∀ id ∈ (after before).policy.incomingRequests.fifo,
        id ∈ (after (before ++ [.receive msg])).policy.incomingRequests.fifo ∨
        msg.Complete ∧ msg.itsAid = aidCa ∧ (answered P msg = some id ∨
            (after before).policy.incomingRequests.Crowded (InlineRequests.listed msg))) ∧
  ∀ entry ∈ stored (after actions).certCache, calculateDigest P entry.2 = some entry.1 ∧
    ∃ before msg, before ++ [.receive msg] <+: actions ∧
      ((after before).receive service msg).1.report = .success ∧
      lookupSigner (after before).certCache msg.signerIdentifier = some entry.2 := by
  intro after
  constructor
  · intro before msg _ hr
    have hstep : after (before ++ [.receive msg]) =
        ((after before).receive service msg).2 := Run.append _ _ _ _
    obtain ⟨s, ho, heq⟩ := outcome_receive service (after before) msg
    rw [hstep]
    refine ⟨?_, fun id hid => mem_incoming_receive hid⟩
    rw [heq]
    exact ho.stored_eq hr
  · intro entry hent
    exact ⟨filed_of_mem_stored hent, mem_stored_run hent⟩

/-- A peer asks for a certificate, and the next CAM carries it. Its signer is
unknown and it is not verified, but the request is gone. -/
theorem unverified_answer_withdraws :
  let first := (start ticketPlatform true noRequests).receive trustingService
    (messageNaming 36 (some [truncate (digestAt 0)]) none (digestAt 7))
  let second := first.2.receive trustingService (messageNaming 36 none (some ticket) (digestAt 8))
  first.2.policy.incomingRequests.fifo = [truncate (digestAt 0)] ∧
    second.1.report = .signerCertificateNotFound ∧ second.2.policy.incomingRequests.fifo = [] := by
  decide +kernel

end Station

end Vanetza.Security.V3
