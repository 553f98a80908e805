import Vanetza.Security.V3.SignHeaderPolicy
import Vanetza.Security.V3.StraightVerify

/-!
# Requests in the header of a message

A message may ask for certificates, each named by the last three octets of its digest. The verify
service makes three octets of each element.
-/

namespace Vanetza.Security.V3

open Asn1 List

/-- `convert`: at most eight octets are copied to the front of `out`, which is
not initialized. -/
def convert (out : HashedId8) (input : ByteBuffer) : HashedId8 :=
  ⟨input.take 8 ++ out.toList.drop (min 8 input.length), by
    have hlength := out.toList_length
    rw [List.length_append, List.length_take, List.length_drop]
    omega⟩

/-- `get_inline_p2pcd_request`; `stack` is what `convert` finds in its result for
each element. -/
def SecuredMessage.getInlineP2pcdRequest (stack : Nat → HashedId8)
  (msg : SecuredMessage) : List HashedId3 :=
  match msg.signedData with
  | none => []
  | some data =>
    match data.tbsData.inlineP2pcdRequest with
    | none => []
    | some list => list.mapIdx fun i digest => truncate (convert (stack i) digest.toList)

def PolicyCall.enqueued : PolicyCall → Option HashedId3
  | .enqueueP2pRequest id => some id
  | .requestUnrecognizedCertificate _ => none
  | .requestCertificate => none
  | .discardP2pRequest _ => none

/-- The OER codec of messages: what it has encoded it decodes again. -/
structure MessageCodec where
  encode : SecuredMessage → Option ByteBuffer
  decode : ByteBuffer → Option SecuredMessage
  decode_encode : ∀ {msg buffer}, encode msg = some buffer → decode buffer = some msg

def MessageCodec.only (msg : SecuredMessage) : MessageCodec where
  encode message := if message = msg then some [] else none
  decode _ := some msg
  decode_encode := by
    intro message buffer h
    split at h
    · next heq => rw [heq]
    · cases h

namespace InlineRequests

def listed (msg : SecuredMessage) : List HashedId3 :=
  (msg.signedData.bind fun data => data.tbsData.inlineP2pcdRequest).getD []

theorem truncate_convert (out : HashedId8) (digest : HashedId3) :
  truncate (convert out digest.toList) = truncate out := by
  have hl := digest.toList_length
  apply List.Vector.toList_injective
  show (digest.toList.take 8 ++ out.toList.drop (min 8 digest.toList.length)).drop
    5 = out.toList.drop 5
  rw [hl, take_of_length_le (by omega), drop_append, hl,
    drop_eq_nil_of_le (by omega), nil_append, drop_drop]
  rfl

theorem getInlineP2pcdRequest_eq (stack : Nat → HashedId8) (msg : SecuredMessage) :
  msg.getInlineP2pcdRequest stack = (listed msg).mapIdx fun i _ => truncate (stack i) := by
  obtain ⟨version, signedData⟩ := msg
  cases signedData with
  | none => rfl
  | some data =>
    obtain ⟨hashId, ⟨psid, time, list, requested, remaining⟩, signer, sig⟩ := data
    cases list with
    | none => rfl
    | some list =>
      refine congrArg (list.mapIdx ·) ?_
      funext i digest
      exact truncate_convert (stack i) digest

theorem listed_setInlineP2pcdRequest {msg : SecuredMessage}
  (h : msg.isSigned = true) (requests : List HashedId3) :
  listed (msg.setInlineP2pcdRequest requests) = requests := by
  have hf : ∀ start : Option (List HashedId3),
      (requests.foldl (fun list id => some (list.getD [] ++ [id])) start).getD
        [] = start.getD [] ++ requests := by
    induction requests with
    | nil => intro start; simp
    | cons id rest ih =>
      intro start
      rw [foldl_cons, ih, Option.getD_some, append_assoc, singleton_append]
  obtain ⟨version, signedData⟩ := msg
  obtain ⟨data, rfl⟩ := Option.isSome_iff_exists.1 h
  refine (hf (data.tbsData.inlineP2pcdRequest.map fun _ => [])).trans ?_
  cases data.tbsData.inlineP2pcdRequest <;> rfl

theorem filterMap_handleP2p (P : Platform) {msg : SecuredMessage} (h : msg.itsAid = aidCa) :
  (StraightVerifyService.handleP2p P msg).filterMap PolicyCall.enqueued = listed msg := by
  unfold StraightVerifyService.handleP2p listed
  cases msg.signedData with
  | none => rfl
  | some data =>
    rw [Option.bind_some]
    dsimp only
    rw [if_pos (beq_iff_eq.2 h), filterMap_append, filterMap_map, filterMap_map]
    have hf : PolicyCall.enqueued ∘ PolicyCall.enqueueP2pRequest = some := rfl
    have hs : (PolicyCall.enqueued ∘ fun digest =>
        PolicyCall.discardP2pRequest (truncate digest)) = fun _ => none := rfl
    rw [hf, hs, filterMap_some, filterMap_none, append_nil]

end InlineRequests

namespace SecuredMessage

open InlineRequests

def ReturnsRequests (P : Platform) (codec : MessageCodec)
  (msg : SecuredMessage) (requests : List HashedId3) : Prop :=
  let message := msg.setInlineP2pcdRequest requests
  (∀ stack, message.getInlineP2pcdRequest stack = requests) ∧
    (∀ buffer decoded, codec.encode message = some buffer → codec.decode buffer = some decoded →
      ∀ stack, decoded.getInlineP2pcdRequest stack = requests) ∧
    (message.itsAid = aidCa → ∀ stack, message.getInlineP2pcdRequest stack =
      (StraightVerifyService.handleP2p P message).filterMap PolicyCall.enqueued)

theorem getInlineP2pcdRequest_set_iff {msg : SecuredMessage}
  (h : msg.isSigned = true) (reqs : List HashedId3) (stack : Nat → HashedId8) :
  (msg.setInlineP2pcdRequest reqs).getInlineP2pcdRequest stack = reqs ↔
    ∀ i id, reqs[i]? = some id → truncate (stack i) = id := by
  rw [getInlineP2pcdRequest_eq, listed_setInlineP2pcdRequest h]
  constructor
  · intro heq i id hid
    have hat := congrArg (·[i]?) heq
    simp only [getElem?_mapIdx, hid, Option.map_some] at hat
    exact Option.some.inj hat
  intro hs
  apply ext_getElem?
  intro i
  rw [getElem?_mapIdx]
  cases hid : reqs[i]? with
  | none => rfl
  | some id => exact congrArg some (hs i id hid)

/-- The getter returns the requests only if there are none. -/
theorem requests_returned_iff (P : Platform) (codec : MessageCodec)
  (msg : SecuredMessage) (h : msg.isSigned = true) (requests : List HashedId3) :
  ReturnsRequests P codec msg requests ↔ requests = [] := by
  constructor
  · intro hr
    cases requests with
    | nil => rfl
    | cons id rest =>
      -- two stacks that differ where the first request should be
      have hat : ∀ out : HashedId8, truncate out = id := fun out =>
        (getInlineP2pcdRequest_set_iff h _ fun _ => out).1 (hr.1 fun _ => out) 0 id rfl
      have hne : truncate (List.Vector.replicate 8 0) ≠
          truncate (List.Vector.replicate 8 1) := by decide
      exact absurd ((hat _).trans (hat _).symm) hne
  · rintro rfl
    have hl := listed_setInlineP2pcdRequest h []
    have hg : ∀ stack, (msg.setInlineP2pcdRequest []).getInlineP2pcdRequest stack = [] := by
      intro stack
      rw [getInlineP2pcdRequest_eq, hl]
      rfl
    refine ⟨hg, fun buf decoded henc hdec stack => ?_, fun ha stack => ?_⟩
    · rw [codec.decode_encode henc] at hdec
      rw [← Option.some.inj hdec]
      exact hg stack
    · rw [hg, filterMap_handleP2p P ha, hl]

def bareCam : SecuredMessage := ⟨3, some ⟨.sha256, ⟨36, none, none, none, []⟩, .nothing, .nothing⟩⟩

theorem request_read_as_zeros :
  (bareCam.setInlineP2pcdRequest [⟨[1, 2, 3], rfl⟩]).getInlineP2pcdRequest
    (fun _ => List.Vector.replicate 8 0) = [⟨[0, 0, 0], rfl⟩] := by
  decide

theorem no_request_returned :
  (MessageCodec.only bareCam).encode (bareCam.setInlineP2pcdRequest []) = some [] ∧
    ReturnsRequests (.ofTable [] (by decide)) (MessageCodec.only bareCam) bareCam [] :=
  ⟨by decide, (requests_returned_iff _ _ bareCam rfl []).2 rfl⟩

end SecuredMessage

end Vanetza.Security.V3
