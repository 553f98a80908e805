import Vanetza.Security.V2.RoundTrip

/-!
# Signing messages

Two services sign messages of protocol version 2 with a placeholder in the
trailer, whose length is signed. The straight service signs at once; the
deferred one puts a future into the trailer, and the signature is calculated
when the message is written.
-/

namespace Vanetza.Security.V2

open InputArchive Lib SecuredMessage

/-- The fields of `SignRequest` that signing looks at. -/
structure SignRequest where
  plainMessage : ChunkPacket
  itsAid : ItsAid

/-- What a sign service is made with: the header policy, and `sign_data` of the
backend for the own private key. -/
structure SignContext where
  prepareHeader : SignRequest → List HeaderField
  signData : ByteBuffer → EcdsaSignature

def signaturePlaceholder : EcdsaSignature :=
  let size := PublicKeyAlgorithm.ecdsaNistp256WithSha256.fieldSize
  ⟨.xCoordinateOnly (.replicate size 0), .replicate size 0⟩

def SignContext.unsigned (context : SignContext) (request : SignRequest) : SecuredMessage where
  headerFields := context.prepareHeader request
  trailerFields := []
  payload := ⟨.signed, .chunk request.plainMessage⟩

def SignContext.dataBuffer (context : SignContext) (request : SignRequest) :
  Except Exception ByteBuffer :=
  (context.unsigned request).convertForSigning [⟨⟨signaturePlaceholder⟩⟩]

def StraightSignService.sign (context : SignContext) (request : SignRequest) :
  Except Exception SecuredMessage := do
  let data ← context.dataBuffer request
  return { context.unsigned request with
    trailerFields := [⟨⟨context.signData data⟩⟩] }

/-- `get_length`: the coordinates only. -/
def EccPoint.getLength (point : EccPoint) : Nat := point.coordinates.length

structure EcdsaSignatureFuture where
  future : Except Exception EcdsaSignature
  placeholder : EcdsaSignature

namespace EcdsaSignatureFuture

def size (sig : EcdsaSignatureFuture) : Nat :=
  sig.placeholder.r.getLength + sig.placeholder.s.length

def get (sig : EcdsaSignatureFuture) : Except Exception EcdsaSignature := sig.future

end EcdsaSignatureFuture

structure DeferredMessage where
  unsigned : SecuredMessage
  signature : EcdsaSignatureFuture

namespace DeferredMessage

/-- `get_size` of the trailer: the type of the field, the algorithm and the
future. -/
def trailerSize (message : DeferredMessage) : Nat := 1 + (1 + message.signature.size)

def getSize (message : DeferredMessage) : Nat :=
  let header := getSizeList HeaderField.getSize message.unsigned.headerFields
  1 + header + lengthCodingSize header + message.trailerSize +
    lengthCodingSize message.trailerSize + message.unsigned.payload.getSize

def serialize (message : DeferredMessage) : Except Exception ByteBuffer := do
  let signed ← message.unsigned.serializeSigned
  let sig ← message.signature.get
  return signed ++ encodeLength message.trailerSize ++ TrailerField.serialize ⟨⟨sig⟩⟩

end DeferredMessage

/-- `DeferredSignService::sign`. The future has a copy of the message. -/
def DeferredSignService.sign (context : SignContext) (request : SignRequest) : DeferredMessage where
  unsigned := context.unsigned request
  signature :=
    { future := do
        let data ← context.dataBuffer request
        return context.signData data
      placeholder := signaturePlaceholder }

def SignContext.FieldSized (context : SignContext) : Prop :=
  ∀ data, ∃ x s, context.signData data = ⟨.xCoordinateOnly x, s⟩ ∧ x.length = 32 ∧ s.length = 32

def SignedAsReceived (data : ByteBuffer) (message : SecuredMessage) : Prop :=
  ∃ bytes received n input, message.serialize = .ok bytes ∧
    SecuredMessage.deserialize ⟨bytes, none⟩ = .ok ((received, n), input) ∧
    received.convertForSigning received.trailerFields = .ok data

variable {context : SignContext} {request : SignRequest}
  {message : SecuredMessage} {data : ByteBuffer}

theorem trailer_size (h : context.FieldSized) (data : ByteBuffer) :
  getSizeList TrailerField.getSize [⟨⟨context.signData data⟩⟩] = 67 := by
  obtain ⟨x, s, hsig, hx, hs⟩ := h data
  rw [hsig]
  simp [getSizeList, TrailerField.getSize, Signature.getSize,
    EcdsaSignature.getSize, EccPoint.getSize, EccPoint.coordinates, hx, hs]

theorem SecuredMessage.serializeSigned_received
  (h : message.payload.data.size .network .application = message.payload.data.bytes.length) :
  message.received.serializeSigned = message.serializeSigned := by
  have hp : message.received.payload.serialize = message.payload.serialize := by
    rw [Payload.serialize, Payload.serialize, h]
    rfl
  unfold serializeSigned
  rw [hp]
  rfl

theorem signedAsReceived (hc : context.FieldSized) (hd : context.dataBuffer request = .ok data)
  (hs : StraightSignService.sign context request = .ok message)
  (hl : message.WithinLimits) (hf : message.WellFormed) :
  SignedAsReceived data message := by
  obtain ⟨bytes, hser, -, hr⟩ := roundTrips_of_wellFormed hl hf
  have hr := hr []
  rw [List.append_nil] at hr
  refine ⟨bytes, message.received, message.getSize, ⟨[], none⟩, hser, hr, ?_⟩
  obtain ⟨data', hd', hm⟩ := bind_eq_ok_iff.1 hs
  cases hm
  unfold convertForSigning
  rw [serializeSigned_received hl.layers, ← hd]
  dsimp only [received]
  rw [trailer_size hc]
  rfl

theorem serialize_ne (hc : context.FieldSized)
  (hs : StraightSignService.sign context request = .ok message) :
  message.serialize ≠ (DeferredSignService.sign context request).serialize := by
  obtain ⟨data, hd, hm⟩ := bind_eq_ok_iff.1 hs
  cases hm
  obtain ⟨signed, hsgd, -⟩ := bind_eq_ok_iff.1 hd
  have hs' : serializeSigned
      { context.unsigned request with
        trailerFields := [⟨⟨context.signData data⟩⟩] } = .ok signed := hsgd
  have hg : (DeferredSignService.sign context request).signature.get =
      .ok (context.signData data) := by
    show (context.dataBuffer request >>= _) = _
    rw [hd]
    rfl
  have hde : (DeferredSignService.sign context request).unsigned.serializeSigned =
        .ok signed := hsgd
  have hstr : encodeLength 67 = [67] := by decide
  have hdef : encodeLength (DeferredSignService.sign context request).trailerSize =
        [66] := show encodeLength 66 = [66] by decide
  rw [serialize, DeferredMessage.serialize, hs', hg, hde, hdef]
  dsimp only
  rw [trailer_size hc, hstr]
  intro h
  have h := Except.ok.inj h
  simp only [List.append_assoc, List.append_cancel_left_eq] at h
  cases h

/-- The two services never produce messages that are written alike. Otherwise
the straight service signs what is received. -/
theorem sign_services_agree_iff (hcontext : context.FieldSized)
  (hdata : context.dataBuffer request = .ok data)
  (hsign : StraightSignService.sign context request = .ok message) :
  ((SignedAsReceived data message ∧ message.serialize =
      (DeferredSignService.sign context request).serialize) ↔ False) ∧
    (message.WithinLimits → message.WellFormed → SignedAsReceived data message) :=
  ⟨iff_of_false (fun h => serialize_ne hcontext hsign h.2) id,
    signedAsReceived hcontext hdata hsign⟩

def zeroContext : SignContext := ⟨fun _ => [], fun _ => signaturePlaceholder⟩

theorem zeroContext_signed_as_received : SignedAsReceived [2, 0, 1, 0, 67, 1]
    ⟨[], [⟨⟨signaturePlaceholder⟩⟩], ⟨.signed, .chunk .empty⟩⟩ := by
  have hc : zeroContext.FieldSized := fun _ => ⟨_, _, rfl, rfl, rfl⟩
  have hd : zeroContext.dataBuffer ⟨.empty, 36⟩ = .ok [2, 0, 1, 0, 67, 1] := rfl
  refine (sign_services_agree_iff hc hd rfl).2 ?_ ?_
  · refine ⟨by decide, by decide, by decide, ?_, nofun, rfl⟩
    intro before list after h
    cases before <;> cases h
  refine ⟨nofun, nofun, ?_⟩
  intro field hf
  obtain rfl := List.mem_singleton.1 hf
  exact ⟨rfl, rfl⟩

theorem zeroContext_trailers_differ : (StraightSignService.sign zeroContext ⟨.empty, 36⟩ >>=
      SecuredMessage.serialize) = .ok ([2, 0, 1, 0, 67, 1, 0, 0] ++ .replicate 64 0) ∧
  (DeferredSignService.sign zeroContext ⟨.empty, 36⟩).serialize =
    .ok ([2, 0, 1, 0, 66, 1, 0, 0] ++ .replicate 64 0) :=
  ⟨rfl, rfl⟩

end Vanetza.Security.V2
