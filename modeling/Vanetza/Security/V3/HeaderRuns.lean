import Vanetza.Lib.Lane
import Vanetza.Lib.Run
import Vanetza.Security.V3.SignHeaderPolicy

/-!
# What the headers of CAMs carry over time

What the header of a CAM carries depends on the time of the last CAM with the
full certificate, on whether somebody has asked for it since, and on which
requests wait.
-/

namespace Vanetza.Security.V3

open Asn1 Lib List Program

structure BlankMessage where
  data : SignedData
  blank : data.tbsData.requestedCertificate = none

namespace BlankMessage

def message (msg : BlankMessage) : SecuredMessage := ⟨3, some msg.data⟩

def stamped (msg : BlankMessage) (aid : ItsAid) (now : Int) : BlankMessage where
  data := { msg.data with
    tbsData := { msg.data.tbsData with
      psid := aid.toUInt64
      generationTime := some (UInt64.ofInt now).toNat } }
  blank := msg.blank

end BlankMessage

namespace SecuredMessage

def signer (msg : SecuredMessage) : Option Asn1.SignerIdentifier :=
  msg.signedData.map fun data => data.signer

def attached (msg : SecuredMessage) : Option Certificate :=
  msg.signedData.bind fun data => data.tbsData.requestedCertificate

end SecuredMessage

theorem copyCertificate_of_digest {P : Platform} {cert : Certificate}
  {digest : HashedId8} (h : calculateDigest P cert = some digest) :
  copyCertificate P cert = some cert := by
  refine copyCertificate_eq_some.2 ⟨?_, rfl⟩
  have hs : (calculateDigest P cert).isSome := by rw [h]; rfl
  have henc := (calculateDigest_isSome.1 hs).2
  unfold canonicalEncoding at henc
  split at henc
  · exact henc
  · obtain ⟨buf, hb⟩ := Option.isSome_iff_exists.1 henc
    obtain ⟨canonical, hc, -⟩ := Option.bind_eq_some_iff.1 hb
    exact (canonicalize_eq_some.1 hc).1

theorem CertificateCache.copy_of_lookupShort {P : Platform}
  {cache : CertificateCache P} {id : HashedId3} {cert : Certificate}
  (h : cache.lookupShort id = some cert) :
  copyCertificate P cert = some cert := by
  obtain ⟨digest, -, hl⟩ := Option.bind_eq_some_iff.1 h
  exact copyCertificate_of_digest (lookup_spec hl)

theorem PeerRequestTracker.discardRequest_of_nodup
  {tracker : PeerRequestTracker} (h : tracker.fifo.Nodup) (id : HashedId3) :
  tracker.discardRequest id = { tracker with
    fifo := tracker.fifo.filter fun other => other ≠ id } := by
  rw [discardRequest, h.erase_eq_filter]
  simp only [ne_eq, decide_not]
  rfl

namespace DefaultSignHeaderPolicy

variable {P : Platform} {provider : CertificateProvider P} {now : Int}
  {policy : DefaultSignHeaderPolicy} {digest : HashedId8}

def create (now : Int) : DefaultSignHeaderPolicy := ⟨now, false, ⟨[], 16⟩, ⟨[], 16⟩⟩

def DigestSuffices (now : Int) (digest : HashedId8) (policy : DefaultSignHeaderPolicy) : Prop :=
  now < policy.camNextCertificate ∧ policy.certRequested = false ∧
    truncate digest ∉ policy.incomingRequests.fifo

theorem noteOwnRequest_of_suffices (h : DigestSuffices now digest policy) :
  policy.noteOwnRequest (some digest) = policy :=
  if_neg fun hp => h.2.2 (of_decide_eq_true hp)

theorem suffices_of_noteOwnRequest
  (h : now < (policy.noteOwnRequest (some digest)).camNextCertificate ∧
    (policy.noteOwnRequest (some digest)).certRequested = false) :
  DigestSuffices now digest policy := by
  rw [noteOwnRequest] at h
  split at h
  · cases h.2
  · next hp =>
    exact ⟨h.1, h.2, fun hm => hp (decide_eq_true hm)⟩

theorem noteOwnRequest_eq : policy.noteOwnRequest (some digest) = { policy with
  certRequested := (policy.noteOwnRequest (some digest)).certRequested
  incomingRequests :=
    policy.incomingRequests.discardRequest (truncate digest) } := by
  rw [noteOwnRequest]
  split
  · rfl
  · next hp =>
    rw [PeerRequestTracker.discardRequest, erase_of_not_mem fun hm => hp (decide_eq_true hm)]

theorem exec_includeCertificate_of_digest
  (hdigest : calculateDigest P provider.ownCertificate = some digest) (msg : SecuredMessage) :
  (includeCertificate P provider.ownCertificate msg).exec policy =
    (.ok (msg.setSigner (.certificate [provider.ownCertificate])), policy) := by
  rw [includeCertificate, copyCertificate_of_digest hdigest]
  rfl

section Cam

variable (hdigest : calculateDigest P provider.ownCertificate = some digest) (msg : SecuredMessage)

include hdigest

theorem exec_prepareCamSigner_of_suffices (h : DigestSuffices now digest policy) :
  (prepareCamSigner provider now msg).exec policy =
    (.ok (msg.setSigner (.digest digest), false), policy) := by
  rw [prepareCamSigner, hdigest]
  refine (exec_bind_ok rfl).trans ?_
  refine (exec_bind_ok rfl).trans ?_
  rw [noteOwnRequest_of_suffices h, if_pos ⟨h.1, h.2.1⟩]
  rfl

theorem exec_prepareCamSigner_of_not_suffices (h : ¬DigestSuffices now digest policy) :
  (prepareCamSigner provider now msg).exec policy =
    (.ok (msg.setSigner (.certificate [provider.ownCertificate]), true),
      { policy with
        camNextCertificate := now + 950000
        certRequested := false
        incomingRequests :=
          policy.incomingRequests.discardRequest (truncate digest) }) := by
  rw [prepareCamSigner, hdigest]
  refine (exec_bind_ok rfl).trans ?_
  refine (exec_bind_ok rfl).trans ?_
  rw [if_neg fun hn => h (suffices_of_noteOwnRequest hn)]
  refine (exec_bind_ok rfl).trans ?_
  refine (exec_bind_ok (exec_includeCertificate_of_digest hdigest msg)).trans ?_
  rw [noteOwnRequest_eq]
  have ht : now + 1000000 - 50000 = now + 950000 := by omega
  rw [← ht]
  rfl

end Cam

theorem copy_of_nextRequested {cache : CertificateCache P}
  {ids : List HashedId3} {cert : Certificate} (h : (nextRequested cache ids).1 = some cert) :
  copyCertificate P cert = some cert := by
  induction ids with
  | nil => cases h
  | cons id rest ih =>
    rw [nextRequested] at h
    split at h
    · next found hf =>
      split at h
      · cases h
        exact CertificateCache.copy_of_lookupShort hf
      · exact ih h
    · exact ih h

def attach (requested : Option Certificate) (msg : SecuredMessage) : SecuredMessage :=
  match requested with
  | none => msg
  | some cert => msg.modifyTbs fun tbs =>
    { tbs with requestedCertificate := some cert }

theorem exec_provideRequested_eq (msg : SecuredMessage) :
  (provideRequested provider msg).exec policy = (.ok (attach (nextRequested provider.cache
        policy.incomingRequests.fifo).1 msg),
      { policy with incomingRequests := { policy.incomingRequests with
          fifo := (nextRequested provider.cache policy.incomingRequests.fifo).2 } }) := by
  refine (exec_bind_ok rfl).trans ?_
  refine (exec_bind_ok rfl).trans ?_
  cases hf : (nextRequested provider.cache policy.incomingRequests.fifo).1 with
  | none => rfl
  | some cert =>
    dsimp only
    rw [copy_of_nextRequested hf]
    rfl

section Prepared

variable (hdigest : calculateDigest P provider.ownCertificate = some digest) (msg : BlankMessage)

include hdigest

theorem exec_prepareCam_of_suffices (h : DigestSuffices now digest policy) :
  ∃ message, (prepareCam provider now msg.message).exec policy = (.ok message, { policy with
        incomingRequests := { policy.incomingRequests with
          fifo := (nextRequested provider.cache policy.incomingRequests.fifo).2 }
        outgoingRequests := policy.outgoingRequests.all.2 }) ∧
    message.signer = some (.digest digest) ∧
    message.attached = (nextRequested provider.cache policy.incomingRequests.fifo).1 := by
  refine ⟨?sent, ?exec, ?message⟩
  case exec =>
    refine (exec_bind_ok (exec_prepareCamSigner_of_suffices hdigest _ h)).trans ?_
    refine (exec_bind_ok rfl).trans ?_
    refine (exec_bind_ok rfl).trans ?_
    exact exec_provideRequested_eq _
  case message =>
    dsimp only
    have hb := msg.blank
    cases (nextRequested provider.cache policy.incomingRequests.fifo).1 with
    | none => exact ⟨rfl, hb⟩
    | some cert => exact ⟨rfl, rfl⟩

theorem exec_prepareCam_of_not_suffices (h : ¬DigestSuffices now digest policy) :
  ∃ message, (prepareCam provider now msg.message).exec policy = (.ok message, { policy with
        camNextCertificate := now + 950000
        certRequested := false
        incomingRequests := policy.incomingRequests.discardRequest (truncate digest)
        outgoingRequests := policy.outgoingRequests.all.2 }) ∧
    message.signer = some (.certificate [provider.ownCertificate]) ∧
    message.attached = none := by
  refine ⟨?sent, ?exec, ?message⟩
  case exec =>
    refine (exec_bind_ok (exec_prepareCamSigner_of_not_suffices hdigest _ h)).trans ?_
    refine (exec_bind_ok rfl).trans ?_
    refine (exec_bind_ok rfl).trans ?_
    rfl
  case message => exact ⟨rfl, msg.blank⟩

end Prepared

theorem exec_prepareHeader_of_ne (hdigest : calculateDigest P provider.ownCertificate = some digest)
  {packing : Packing} {fix : PositionFixWithAltitude} {request : SignRequest}
  (h : request.itsAid ≠ aidCa) (msg : SecuredMessage) :
  ∃ message, (prepareHeader packing provider now fix request msg).exec
    policy = (.ok message, policy) := by
  unfold prepareHeader
  dsimp only
  rw [if_neg h]
  split
  · exact ⟨_, exec_bind_ok (exec_includeCertificate_of_digest hdigest _)⟩
  split
  · split
    · exact ⟨_, rfl⟩
    · exact ⟨_, rfl⟩
  · exact ⟨_, exec_includeCertificate_of_digest hdigest _⟩

end DefaultSignHeaderPolicy

structure PeerRequest where
  serial : Nat
  id : HashedId3
  deriving DecidableEq

structure Turn where
  request : PeerRequest
  held : List Certificate

namespace Turn

variable {P : Platform}

def answer (P : Platform) (turn : Turn) : Option Certificate :=
  (CertificateCache.named P turn.request.id turn.held).filter isCaCertificate

def next (P : Platform) (held : List Certificate) : List PeerRequest → List Turn × List PeerRequest
  | [] => ([], [])
  | request :: rest =>
    if (answer P ⟨request, held⟩).isSome then ([⟨request, held⟩], rest)
    else (⟨request, held⟩ :: (next P held rest).1, (next P held rest).2)

theorem next_split (held : List Certificate) (waiting : List PeerRequest) :
  waiting = (next P held waiting).1.map request ++ (next P held waiting).2 := by
  induction waiting with
  | nil => rfl
  | cons first rest ih =>
    rw [next]
    split
    · rfl
    · exact congrArg (first :: ·) ih

theorem next_nextRequested {cache : CertificateCache P} (h : cache.Indexed)
  (waiting : List PeerRequest) :
  (next P cache.held waiting).1.filterMap (answer P) =
      (DefaultSignHeaderPolicy.nextRequested cache (waiting.map PeerRequest.id)).1.toList ∧
    (next P cache.held waiting).2.map PeerRequest.id =
      (DefaultSignHeaderPolicy.nextRequested cache (waiting.map PeerRequest.id)).2 := by
  induction waiting with
  | nil => exact ⟨rfl, rfl⟩
  | cons first rest ih =>
    rw [next, map_cons, DefaultSignHeaderPolicy.nextRequested, h.lookupShort_eq]
    have ha : answer P ⟨first, cache.held⟩ = (CertificateCache.named P first.id cache.held).filter
          isCaCertificate := rfl
    cases hn : CertificateCache.named P first.id cache.held with
    | none =>
      rw [hn, Option.filter_none] at ha
      rw [ha]
      simpa [ha] using ih
    | some cert =>
      rw [hn] at ha
      by_cases hca : isCaCertificate cert
      · rw [Option.filter_some, if_pos hca] at ha
        simp [ha, hca]
      · rw [Option.filter_some, if_neg hca] at ha
        simpa [ha, hca] using ih

end Turn

inductive Removal where
  | discarded
  | evicted
  | own

structure Requests where
  accepted : List PeerRequest
  waiting : List PeerRequest
  turns : List Turn
  removed : List (PeerRequest × Removal)

namespace Requests

variable {P : Platform} {log : Requests}

def lane (log : Requests) : Lane PeerRequest :=
  ⟨log.accepted, log.waiting, log.turns.map Turn.request, log.removed.map Prod.fst⟩

def drop (id : HashedId3) (why : Removal) (log : Requests) : Requests :=
  { log with
    waiting := log.waiting.filter fun request => request.id ≠ id
    removed := log.removed ++ (log.waiting.filter fun request => request.id = id).map (·, why) }

def makeRoom (log : Requests) : Requests :=
  if 16 ≤ log.waiting.length then
    { log with
      waiting := log.waiting.drop 1
      removed := log.removed ++ (log.waiting.take 1).map (·, .evicted) }
  else log

def append (id : HashedId3) (log : Requests) : Requests :=
  { log with
    accepted := log.accepted ++ [⟨log.accepted.length, id⟩]
    waiting := log.waiting ++ [⟨log.accepted.length, id⟩] }

def enqueue (id : HashedId3) (log : Requests) : Requests :=
  if ∃ request ∈ log.waiting, request.id = id then log else log.makeRoom.append id

def takeTurns (P : Platform) (held : List Certificate) (log : Requests) : Requests :=
  { log with
    waiting := (Turn.next P held log.waiting).2
    turns := log.turns ++ (Turn.next P held log.waiting).1 }

theorem turns_enqueue (log : Requests) (id : HashedId3) : (log.enqueue id).turns = log.turns := by
  simp only [enqueue, makeRoom, append]
  split_ifs <;> rfl

def OwnNamed (own : HashedId3) (log : Requests) : Prop :=
  ∀ request, (request, Removal.own) ∈ log.removed → request.id = own

theorem OwnNamed.drop {own : HashedId3} (h : log.OwnNamed own) (id : HashedId3)
  {why : Removal} (hw : why = .own → id = own) :
  (log.drop id why).OwnNamed own := by
  intro request hm
  rcases mem_append.1 hm with ho | hn
  · exact h request ho
  · obtain ⟨gone, hg, heq⟩ := mem_map.1 hn
    cases heq
    exact (of_decide_eq_true (mem_filter.1 hg).2).trans (hw rfl)

theorem OwnNamed.enqueue {own : HashedId3} (h : log.OwnNamed own)
  (id : HashedId3) : (log.enqueue id).OwnNamed own := by
  simp only [Requests.enqueue, makeRoom, append]
  split_ifs with hp hfull
  · exact h
  · intro request hm
    refine h request ((mem_append.1 hm).resolve_right fun hn => ?_)
    obtain ⟨_, -, heq⟩ := mem_map.1 hn
    cases heq
  · exact h

structure Sound (log : Requests) : Prop where
  once : (log.waiting.map PeerRequest.id).Nodup
  accounted : log.lane.Accounted
  numbered : log.accepted.map PeerRequest.serial = List.range log.accepted.length

namespace Sound

theorem remove (h : log.Sound) {kept gone : List PeerRequest} (hk : kept.Sublist log.waiting)
  (ha : (kept ++ gone).Perm log.waiting) (why : Removal) :
  Sound { log with
    waiting := kept
    removed := log.removed ++ gone.map (·, why) } := by
  refine ⟨h.once.sublist (hk.map _), ?_, h.numbered⟩
  have hl := h.accounted.remove hk ha
  simpa [Lane.remove, lane, Function.comp_def] using hl

theorem drop (h : log.Sound) (id : HashedId3) (why : Removal) : (log.drop id why).Sound := by
  refine h.remove filter_sublist ?_ why
  have hs := filter_append_perm (fun request : PeerRequest => decide (request.id ≠ id)) log.waiting
  simpa using hs

theorem makeRoom (h : log.Sound) : log.makeRoom.Sound := by
  rw [Requests.makeRoom]
  split
  · refine h.remove (drop_sublist 1 _) ?_ .evicted
    exact perm_append_comm.trans (by rw [take_append_drop])
  · exact h

theorem append (h : log.Sound) {id : HashedId3}
  (hn : id ∉ log.waiting.map PeerRequest.id) : (log.append id).Sound := by
  refine ⟨?_, h.accounted.join _, ?_⟩
  · show ((log.waiting ++ [_]).map PeerRequest.id).Nodup
    rw [map_append, map_singleton, ← concat_eq_append, nodup_concat]
    exact ⟨hn, h.once⟩
  · show (log.accepted ++ [_]).map PeerRequest.serial = range (log.accepted ++ [_]).length
    rw [map_append, h.numbered, length_append, length_singleton, range_succ]
    rfl

theorem enqueue (h : log.Sound) (id : HashedId3) : (log.enqueue id).Sound := by
  rw [Requests.enqueue]
  split
  · exact h
  next hn =>
  refine h.makeRoom.append fun hm => hn (mem_map.1 ?_)
  rw [Requests.makeRoom] at hm
  split at hm
  · exact (drop_sublist 1 _).map _ |>.subset hm
  · exact hm

theorem takeTurns (h : log.Sound) (held : List Certificate) : (log.takeTurns P held).Sound := by
  have hs := Turn.next_split (P := P) held log.waiting
  refine ⟨?_, ?_, h.numbered⟩
  · refine h.once.sublist (List.Sublist.map _ ?_)
    conv_rhs => rw [hs]
    exact sublist_append_right _ _
  · have hl := h.accounted.deliverAll hs
    simpa [Lane.deliverAll, lane, Requests.takeTurns] using hl

theorem nodup_turns (h : log.Sound) : (log.turns.map Turn.request).Nodup := by
  refine List.Nodup.sublist h.accounted.delivered_sublist ?_
  refine List.Nodup.of_map PeerRequest.serial ?_
  exact h.numbered ▸ nodup_range

end Sound

def tracker (log : Requests) : PeerRequestTracker := ⟨log.waiting.map PeerRequest.id, 16⟩

theorem tracker_drop (h : log.Sound) (id : HashedId3) (why : Removal) :
  (log.drop id why).tracker = log.tracker.discardRequest id := by
  rw [PeerRequestTracker.discardRequest_of_nodup h.once]
  simp [tracker, drop, filter_map, Function.comp_def]

theorem tracker_enqueue (id : HashedId3) :
  (log.enqueue id).tracker = log.tracker.addRequest id := by
  have hiff : log.tracker.isPending id ↔ ∃ request ∈ log.waiting, request.id = id :=
    decide_eq_true_iff.trans mem_map
  rw [enqueue, PeerRequestTracker.addRequest]
  by_cases hp : ∃ request ∈ log.waiting, request.id = id
  · rw [if_pos hp, if_pos (hiff.2 hp)]
  rw [if_neg hp, if_neg fun h => hp (hiff.1 h)]
  have hl : log.tracker.fifo.length = log.waiting.length := length_map _
  rw [hl, makeRoom]
  split
  · simp [append, tracker, *]
  · simp [append, tracker, *]

theorem tracker_takeTurns {cache : CertificateCache P} (h : cache.Indexed) :
  (log.takeTurns P cache.held).tracker = { log.tracker with
    fifo := (DefaultSignHeaderPolicy.nextRequested cache log.tracker.fifo).2 } := by
  rw [tracker, takeTurns, (Turn.next_nextRequested h log.waiting).2]
  rfl

end Requests

structure Signer (P : Platform) where
  own : Certificate
  digest : HashedId8
  calculated : calculateDigest P own = some digest

structure Cam where
  time : Int
  message : SecuredMessage

def Cam.Full (own : Certificate) (cam : Cam) : Prop :=
  cam.message.signer = some (.certificate [own])

/-- The policy at work. All CAMs that were signed are remembered, and whether
`requestCertificate` has been called since the last one. -/
structure HeaderUse (P : Platform) where
  policy : DefaultSignHeaderPolicy
  cache : CertificateCache P
  now : Int
  cams : List Cam
  asked : Bool
  log : Requests

namespace HeaderUse

variable {P : Platform} {packing : Packing} {signer : Signer P} {s : HeaderUse P}

inductive Action where
  | advance (duration : Nat)
  | sign (fix : PositionFixWithAltitude) (request : SignRequest) (msg : BlankMessage)
  | requestCertificate
  | requestUnrecognizedCertificate (id : HashedId8)
  | enqueueP2pRequest (id : HashedId3)
  | discardP2pRequest (id : HashedId3)
  | store (cert : Certificate)
  | announce (digest : HashedId8)

def init (P : Platform) (start : Int) : HeaderUse P :=
  ⟨.create start, .empty, start, [], false, ⟨[], [], [], []⟩⟩

def prepare (packing : Packing) (signer : Signer P) (s : HeaderUse P)
  (fix : PositionFixWithAltitude) (request : SignRequest) (msg : BlankMessage) :
  Except Unit SecuredMessage × DefaultSignHeaderPolicy :=
  (DefaultSignHeaderPolicy.prepareHeader packing ⟨signer.own, s.cache⟩ s.now
    fix request msg.message).exec s.policy

def note (signer : Signer P) (message : SecuredMessage) (s : HeaderUse P) : HeaderUse P :=
  { s with
    cams := s.cams ++ [⟨s.now, message⟩]
    asked := false
    log := if message.signer = some (.certificate [signer.own]) then
        s.log.drop (truncate signer.digest) .own
      else s.log.takeTurns P s.cache.held }

def sign (packing : Packing) (signer : Signer P) (s : HeaderUse P)
  (fix : PositionFixWithAltitude) (request : SignRequest) (msg : BlankMessage) : HeaderUse P :=
  let (prepared, policy) := prepare packing signer s fix request msg
  match prepared with
  | .error _ => { s with policy }
  | .ok message =>
    if request.itsAid = aidCa then note signer message { s with policy }
    else { s with policy }

def step (packing : Packing) (signer : Signer P) (s : HeaderUse P) : Action → HeaderUse P
  | .advance duration => { s with now := s.now + duration }
  | .sign fix request msg => s.sign packing signer fix request msg
  | .requestCertificate =>
    { s with policy := s.policy.requestCertificate, asked := true }
  | .requestUnrecognizedCertificate id =>
    { s with policy := s.policy.requestUnrecognizedCertificate id }
  | .enqueueP2pRequest id =>
    { s with
      policy := s.policy.enqueueP2pRequest id
      log := s.log.enqueue id }
  | .discardP2pRequest id =>
    { s with
      policy := s.policy.discardP2pRequest id
      log := s.log.drop id .discarded }
  | .store cert => { s with cache := s.cache.store cert }
  | .announce digest => { s with cache := (s.cache.announce digest).1 }

def Due (signer : Signer P) (s : HeaderUse P) : Prop :=
  (∀ cam ∈ s.cams, cam.Full signer.own → cam.time + 950000 ≤ s.now) ∨ s.asked = true ∨
    truncate signer.digest ∈ s.log.waiting.map PeerRequest.id

structure Sound (signer : Signer P) (s : HeaderUse P) : Prop where
  past : ∀ cam ∈ s.cams, cam.time ≤ s.now
  spaced : ∀ cam ∈ s.cams, cam.Full signer.own → cam.time + 950000 ≤ s.policy.camNextCertificate
  latest : s.policy.camNextCertificate ≤ s.now ∨ ∃ cam ∈ s.cams,
    cam.Full signer.own ∧ s.policy.camNextCertificate = cam.time + 950000
  asked : s.policy.certRequested = s.asked
  queue : s.policy.incomingRequests = s.log.tracker
  log : s.log.Sound
  indexed : s.cache.Indexed
  answers : s.cams.filterMap (·.message.attached) = s.log.turns.filterMap (Turn.answer P)
  digests : ∀ cam ∈ s.cams, cam.message.attached.isSome →
    cam.message.signer = some (.digest signer.digest)
  others : ∀ turn ∈ s.log.turns, turn.request.id ≠ truncate signer.digest
  own : s.log.OwnNamed (truncate signer.digest)

theorem sign_of_prepare {fix : PositionFixWithAltitude} {request : SignRequest}
  {msg : BlankMessage} {message : SecuredMessage} {policy : DefaultSignHeaderPolicy}
  (h : s.prepare packing signer fix request msg = (.ok message, policy)) :
  s.sign packing signer fix request msg =
    if request.itsAid = aidCa then note signer message { s with policy }
    else { s with policy } := by
  rw [sign, h]

theorem sign_of_ne (fix : PositionFixWithAltitude) {request : SignRequest}
  (hca : request.itsAid ≠ aidCa) (msg : BlankMessage) :
  s.sign packing signer fix request msg = s := by
  obtain ⟨message, hex⟩ :=
    @DefaultSignHeaderPolicy.exec_prepareHeader_of_ne P ⟨signer.own, s.cache⟩
      s.now s.policy signer.digest signer.calculated packing fix request hca msg.message
  rw [sign_of_prepare hex, if_neg hca]

namespace Sound

variable (h : s.Sound signer)

include h

theorem due_iff : s.Due signer ↔
  ¬DefaultSignHeaderPolicy.DigestSuffices s.now signer.digest s.policy := by
  have hn : (∀ cam ∈ s.cams, cam.Full signer.own →
      cam.time + 950000 ≤ s.now) ↔ s.policy.camNextCertificate ≤ s.now := by
    refine ⟨fun hc => ?_, fun hle cam hcam hfull =>
      (h.spaced cam hcam hfull).trans hle⟩
    rcases h.latest with hle | ⟨cam, hcam, hfull, heq⟩
    · exact hle
    · exact heq ▸ hc cam hcam hfull
  rw [DefaultSignHeaderPolicy.DigestSuffices, Due, hn, h.asked, h.queue]
  simp only [not_and_or, not_lt, not_not, Bool.not_eq_false]
  rfl

section Signing

variable (fix : PositionFixWithAltitude) {request : SignRequest} (msg : BlankMessage)

variable (hca : request.itsAid = aidCa)

include hca

theorem prepare_of_due (hdue : s.Due signer) : ∃ message,
  s.prepare packing signer fix request msg = (.ok message, { s.policy with
    camNextCertificate := s.now + 950000
    certRequested := false
    incomingRequests := (s.log.drop (truncate signer.digest) .own).tracker
    outgoingRequests := s.policy.outgoingRequests.all.2 }) ∧
  message.signer = some (.certificate [signer.own]) ∧
  message.attached = none := by
  rw [prepare, DefaultSignHeaderPolicy.prepareHeader, if_pos hca,
    Requests.tracker_drop h.log, ← h.queue]
  exact @DefaultSignHeaderPolicy.exec_prepareCam_of_not_suffices P
    ⟨signer.own, s.cache⟩ s.now s.policy signer.digest signer.calculated
    (msg.stamped request.itsAid s.now) (h.due_iff.1 hdue)

theorem prepare_of_not_due (hdue : ¬s.Due signer) : ∃ message,
  s.prepare packing signer fix request msg = (.ok message, { s.policy with
    incomingRequests := (s.log.takeTurns P s.cache.held).tracker
    outgoingRequests := s.policy.outgoingRequests.all.2 }) ∧
  message.signer = some (.digest signer.digest) ∧
  message.attached.toList = (Turn.next P s.cache.held s.log.waiting).1.filterMap
      (Turn.answer P) := by
  rw [prepare, DefaultSignHeaderPolicy.prepareHeader, if_pos hca,
    Requests.tracker_takeTurns h.indexed, ← h.queue, (Turn.next_nextRequested h.indexed _).1]
  obtain ⟨message, hex, hs, ha⟩ :=
    @DefaultSignHeaderPolicy.exec_prepareCam_of_suffices P
      ⟨signer.own, s.cache⟩ s.now s.policy signer.digest signer.calculated
      (msg.stamped request.itsAid s.now) (not_not.1 fun hn => hdue (h.due_iff.2 hn))
  refine ⟨message, hex, hs, ?_⟩
  rw [ha, h.queue]
  rfl

theorem sign_of_due (hdue : s.Due signer) :
  (s.sign packing signer fix request msg).Sound signer := by
  obtain ⟨message, hp, hs, ha⟩ := @prepare_of_due P packing signer s h fix request msg hca hdue
  rw [sign_of_prepare hp, if_pos hca, note, if_pos hs]
  refine
    { past := ?_
      spaced := ?_
      latest := .inr ⟨⟨s.now, message⟩, by simp, hs, rfl⟩
      asked := rfl
      queue := rfl
      log := h.log.drop _ _
      indexed := h.indexed
      answers := ?_
      digests := ?_
      others := h.others
      own := h.own.drop _ fun _ => rfl }
  · exact forall_mem_append.2 ⟨h.past, by simp⟩
  · refine forall_mem_append.2 ⟨fun cam hc _ => ?_, by simp⟩
    exact Int.add_le_add_right (h.past cam hc) _
  · rw [filterMap_append, h.answers]
    simp [ha, Requests.drop]
  · refine forall_mem_append.2 ⟨h.digests, ?_⟩
    simp [ha]

theorem sign_of_not_due (hdue : ¬s.Due signer) :
  (s.sign packing signer fix request msg).Sound signer := by
  obtain ⟨message, hp, hs, hatt⟩ :=
    @prepare_of_not_due P packing signer s h fix request msg hca hdue
  have hdigest : message.signer ≠ some (.certificate [signer.own]) := by simp [hs]
  rw [sign_of_prepare hp, if_pos hca, note, if_neg hdigest]
  refine
    { past := ?_
      spaced := ?_
      latest := h.latest.imp_right fun ⟨cam, hc, hfull⟩ =>
        ⟨cam, mem_append_left _ hc, hfull⟩
      asked := h.asked.trans (Bool.eq_false_iff.2 fun ha => hdue (.inr (.inl ha)))
      queue := rfl
      log := h.log.takeTurns _
      indexed := h.indexed
      answers := ?_
      digests := ?_
      others := ?_
      own := h.own }
  · exact forall_mem_append.2 ⟨h.past, by simp⟩
  · refine forall_mem_append.2 ⟨h.spaced, ?_⟩
    simp [Cam.Full, hs]
  · rw [Requests.takeTurns, filterMap_append, filterMap_append, h.answers, ← hatt]
    cases hsent : message.attached <;> simp [hsent]
  · refine forall_mem_append.2 ⟨h.digests, ?_⟩
    simp [hs]
  · -- a request whose turn comes has waited
    refine forall_mem_append.2 ⟨h.others, fun turn ht hown => ?_⟩
    refine hdue (.inr (.inr (hown ▸ mem_map_of_mem ?_)))
    rw [Turn.next_split (P := P) s.cache.held s.log.waiting]
    exact mem_append_left _ (mem_map_of_mem ht)

end Signing

theorem step (act : Action) : (s.step packing signer act).Sound signer := by
  cases act with
  | advance dur =>
    refine { h with past := ?_, latest := ?_ }
    · intro cam hc
      exact (h.past cam hc).trans (Int.le_add_of_nonneg_right (by simp))
    · refine h.latest.imp_left fun hle => hle.trans ?_
      exact Int.le_add_of_nonneg_right (by simp)
  | sign fix request msg =>
    by_cases hca : request.itsAid = aidCa
    · by_cases hdue : s.Due signer
      · exact h.sign_of_due fix msg hca hdue
      · exact h.sign_of_not_due fix msg hca hdue
    · rw [HeaderUse.step, sign_of_ne fix hca msg]
      exact h
  | requestCertificate => exact { h with asked := rfl }
  | requestUnrecognizedCertificate id => exact { h with }
  | enqueueP2pRequest id =>
    have htur := s.log.turns_enqueue id
    refine { h with
      queue := ?_
      log := h.log.enqueue id
      answers := h.answers.trans (congrArg _ htur.symm)
      others := fun turn ht => h.others turn (htur ▸ ht)
      own := h.own.enqueue id }
    show s.policy.incomingRequests.addRequest id = _
    rw [h.queue]
    exact (Requests.tracker_enqueue id).symm
  | discardP2pRequest id =>
    refine { h with
      queue := ?_
      log := h.log.drop id _
      own := h.own.drop id nofun }
    show s.policy.incomingRequests.discardRequest id = _
    rw [h.queue]
    exact (Requests.tracker_drop h.log id _).symm
  | store cert => exact { h with indexed := h.indexed.store cert }
  | announce digest => exact { h with indexed := h.indexed.announce digest }

end Sound

theorem sound_init (start : Int) : (init P start).Sound signer where
  past := by simp [init]
  spaced := by simp [init]
  latest := .inl (Int.le_refl _)
  asked := rfl
  queue := rfl
  log := ⟨List.nodup_nil, Lane.Accounted.empty, rfl⟩
  indexed := .empty
  answers := rfl
  digests := by simp [init]
  others := by simp [init]
  own := by simp [init, Requests.OwnNamed]

/-- After any run: a CAM that is prepared now carries the full certificate if it is due, and else its
digest. The certificates that went with digests so far were requested. Turns come in the order of
acceptance, once to each request that neither waits nor was removed, never to one for our own
certificate. -/
theorem headers_of_run (packing : Packing) (signer : Signer P) (start : Int)
  (actions : List Action) :
  let s := run (step packing signer) (init P start) actions
  (∀ fix request msg, request.itsAid = aidCa → ∃ message,
    (s.prepare packing signer fix request msg).1 = .ok message ∧
    (s.Due signer → message.signer = some (.certificate [signer.own])) ∧
    (¬s.Due signer → message.signer = some (.digest signer.digest))) ∧
  (s.cams.filterMap (·.message.attached) = s.log.turns.filterMap (Turn.answer P)) ∧
  (∀ cam ∈ s.cams, cam.message.attached.isSome →
    cam.message.signer = some (.digest signer.digest)) ∧
  s.policy.incomingRequests.fifo = s.log.waiting.map PeerRequest.id ∧
  s.log.lane.Accounted ∧ (s.log.turns.map Turn.request).Nodup ∧
  (∀ turn ∈ s.log.turns, turn.request.id ≠ truncate signer.digest) ∧
  s.log.OwnNamed (truncate signer.digest) := by
  intro s
  have h : s.Sound signer := Run.always (fun _ act hs => hs.step act) (sound_init start)
  refine ⟨fun fix request msg hca => ?_, h.answers, h.digests,
    congrArg PeerRequestTracker.fifo h.queue, h.log.accounted, h.log.nodup_turns, h.others, h.own⟩
  by_cases hdue : s.Due signer
  · obtain ⟨message, hp, hsig, -⟩ :=
      @Sound.prepare_of_due P packing signer s h fix request msg hca hdue
    exact ⟨message, by rw [hp], fun _ => hsig, fun h => absurd hdue h⟩
  · obtain ⟨message, hp, hsig, -⟩ :=
      @Sound.prepare_of_not_due P packing signer s h fix request msg hca hdue
    exact ⟨message, by rw [hp], fun h => absurd h hdue, fun _ => hsig⟩

end HeaderUse

end Vanetza.Security.V3
