import Vanetza.Geonet.HeaderSerialization
import Vanetza.Geonet.PacketForms
import Vanetza.Geonet.StepInvariants

/-!
# Indications of chunks and of octets

A packet reaches a router as objects or as octets, which are parsed and trimmed. For a PDU that is
not secured, both ways lead to the same headers, and to packets that are as long and have the same
octets above the network layer (`UpPacket.Alike`).
-/

namespace Vanetza.Geonet

open Security Lib Agree CohesivePacket IndicationContext BasicHeader

structure UpPacket.Alike (codec : Codec) (packet packet' : UpPacket) : Prop where
  size : packet.size codec .network .application = packet'.size codec .network .application
  payload : packet.duplicate.flat = packet'.duplicate.flat

variable {extended : HeaderVariant} {common : CommonHeader} {basic : BasicHeader}

namespace Router

variable {ρ τ : Type} {env : Environment ρ τ} {s t : Router ρ τ}
  {packet packet' : UpPacket} (hpacket : packet.Alike env.codec packet')

include hpacket

theorem updateSource_alike (source : LongPositionVector) :
  updateSource env source packet = updateSource env source packet' := by
  unfold updateSource
  rw [hpacket.size]

theorem processBeacon_alike (beacon : BeaconHeader) (ll : LinkLayer) :
  processBeacon env beacon packet ll = processBeacon env beacon packet' ll := by
  unfold processBeacon
  rw [updateSource_alike hpacket]

theorem processShb_alike (shb : ShbHeader) (ll : LinkLayer) :
  processShb env shb packet ll = processShb env shb.received packet' ll := by
  have hd : shb.received.dcc.getDccMco = shb.dcc.getDccMco := by
    obtain ⟨source, dcc⟩ := shb
    cases dcc with
    | raw field => rfl
    | mco field => exact congrArg some field.ofRaw_toRaw
  have hs : shb.received.sourcePosition = shb.sourcePosition := rfl
  unfold processShb
  rw [updateSource_alike hpacket, hd, hs]

theorem alike_processNew (s : Router ρ τ) {forward forward' : Action ρ τ Unit}
  (hf : ∀ s, Agree Alike (fun _ _ => True) forward forward' s s)
  (source : LongPositionVector) (hopLimit : UInt8) (ll : LinkLayer) (locteExists : Bool) :
  Agree Alike (fun _ _ => True) (processNew env source hopLimit packet ll locteExists forward)
    (processNew env source hopLimit packet' ll locteExists forward') s s := by
  unfold processNew
  simp only [Program.ite_bind, updateSource_alike hpacket]
  refine bind_same fun _ s => bind_same fun _ s =>
    bind_same fun _ s => bind_same fun _ s => get_bind ?_
  split
  · exact same _
  · exact hf s

theorem payload_alike {H A : Type} (pdu : ExtendedPdu H) (act : A) :
  (forwardingDuplicate pdu packet act).payload.flat =
    (forwardingDuplicate pdu packet' act).payload.flat := by
  unfold forwardingDuplicate
  dsimp only
  split
  · rfl
  · exact hpacket.payload

theorem alike_forwardTsb (s : Router ρ τ) (pdu : TsbPdu) :
  Agree Alike (fun _ _ => True) (forwardTsb env pdu packet) (forwardTsb env pdu packet') s s := by
  have hp := payload_alike hpacket pdu ()
  refine get_bind ?_
  split
  · refine alike_pushBcForwardBuffer rfl (congrArg BufferedPacket.tsb ?_)
    exact PendingPacket.flat_congr _ hp ()
  · exact alike_passDownForwarded hp rfl _ _

theorem alike_forwardGbc (s : Router ρ τ) (pdu : GbcPdu) (ll : LinkLayer) :
  Agree Alike (fun _ _ => True) (forwardGbc env pdu packet ll)
    (forwardGbc env pdu packet' ll) s s := by
  have hp := payload_alike hpacket pdu (GbcAction.select .forwarder (some ll))
  refine get_bind ?_
  split
  · refine alike_pushBcForwardBuffer rfl (congrArg BufferedPacket.gbc ?_)
    exact PendingPacket.flat_congr _ hp _
  · exact alike_processGbc hp s _ (some ll)

theorem alike_processTsb (s : Router ρ τ) (pdu : TsbPdu) (ll : LinkLayer) :
  Agree Alike Eq (processTsb env pdu packet ll) (processTsb env pdu packet' ll) s s := by
  rw [processTsb_eq, processTsb_eq]
  refine get_bind (bind_same fun duplicate s' => ?_)
  split
  · exact pure rfl rfl
  · refine bind (alike_processNew hpacket s' (alike_forwardTsb hpacket · pdu) _ _ _ _) ?_
    exact fun _ _ _ _ _ h => pure rfl h

theorem alike_forwardGeoBroadcast (s : Router ρ τ) (pdu : GbcPdu) (ll : LinkLayer) :
  Agree Alike Eq (forwardGeoBroadcast env pdu packet ll)
    (forwardGeoBroadcast env pdu packet' ll) s s := by
  refine bind_same fun destArea s => get_bind ?_
  have hr : ∀ (duplicate : Bool) (s' : Router ρ τ), Agree Alike Eq (if duplicate then pure none
      else do
        processNew env pdu.extended.sourcePosition pdu.basic.hopLimit packet ll
          (s.locationTable.hasEntry s.runtime.now
            pdu.extended.sourcePosition.gnAddr) (forwardGbc env pdu packet ll)
        pure (some (env.geodesy.insideOrAtBorder destArea s.localPositionVector.position)))
      (if duplicate then pure none
      else do
        processNew env pdu.extended.sourcePosition pdu.basic.hopLimit packet' ll
          (s.locationTable.hasEntry s.runtime.now
            pdu.extended.sourcePosition.gnAddr) (forwardGbc env pdu packet' ll)
        pure (some (env.geodesy.insideOrAtBorder destArea
          s.localPositionVector.position))) s' s' := by
    intro duplicate s'
    split
    · exact pure rfl rfl
    · refine bind (alike_processNew hpacket s' (alike_forwardGbc hpacket · pdu ll) _ _ _ _) ?_
      exact fun _ _ _ _ _ h => pure rfl h
  dsimp only
  split
  · exact bind_same hr
  · exact hr false s

omit hpacket in
theorem alike_decidePassUp (h : Alike s t) (withinDestination : Bool) (gbc : GeoBroadcastHeader) :
  Agree Alike Eq (decidePassUp env withinDestination gbc)
    (decidePassUp env withinDestination gbc) s t := by
  unfold decidePassUp
  dsimp only
  split
  · exact pure rfl h
  split
  · refine get_bind ?_
    rw [h.gbcMemory]
    refine bind (set ?_) fun _ _ _ _ _ h => pure rfl h
    exact congrArg (fun router : Router ρ τ => { router with gbcMemory :=
      (t.gbcMemory.remember (gbc.sourcePosition.gnAddr, gbc.sequenceNumber)).2 }) h
  · exact pure rfl h

theorem alike_processGeoBroadcast (s : Router ρ τ) (pdu : GbcPdu) (ll : LinkLayer) :
  Agree Alike Eq (processGeoBroadcast env pdu packet ll)
    (processGeoBroadcast env pdu packet' ll) s s := by
  rw [processGeoBroadcast_eq, processGeoBroadcast_eq]
  refine bind (alike_forwardGeoBroadcast hpacket s pdu ll) ?_
  rintro forwarded _ s' t' rfl h
  cases forwarded with
  | none => exact pure rfl h
  | some withinDestination => exact alike_decidePassUp h _ _

theorem alike_passUp (h : Alike s t) (ind : DataIndication) :
  Agree Alike (fun _ _ => True) (passUp env ind packet) (passUp env ind packet') s t := by
  unfold passUp
  split
  · refine alike_emit h ?_
    rw [Event.flat, Event.flat, hpacket.payload]
  · exact pure trivial h

omit hpacket in
theorem alike_deliver (s : Router ρ τ) {ctx ctx' : IndicationContext}
  (hind : ctx.servicePrimitive = ctx'.servicePrimitive)
  (hll : ctx.linkLayer = ctx'.linkLayer) (extended : HeaderVariant)
  (hpdu : ctx'.pdu = { ctx.pdu with extended := extended.received })
  (hpacket : ctx.finish.Alike env.codec ctx'.finish) :
  Agree Alike (fun _ _ => True) (deliver env ctx extended)
    (deliver env ctx' extended.received) s s := by
  have hp : Agree Alike Eq (processExtended env ctx ctx.finish extended)
      (processExtended env ctx' ctx'.finish extended.received) s s := by
    cases extended with
    | shb shb =>
      dsimp only [processExtended, HeaderVariant.received]
      rw [← hind, ← hll, processShb_alike hpacket]
      exact same _
    | tsb tsb =>
      dsimp only [processExtended, HeaderVariant.received]
      rw [← hind, ← hll, hpdu]
      refine bind (alike_processTsb hpacket s _ _) ?_
      rintro passedUp _ s' t' rfl h
      exact pure rfl h
    | gbc gbc =>
      dsimp only [processExtended, HeaderVariant.received]
      rw [← hind, ← hll, hpdu]
      refine bind_same fun dest s' => ?_
      refine bind (alike_processGeoBroadcast hpacket s' _ _) ?_
      rintro passedUp _ s' t' rfl h
      exact pure rfl h
    | beacon beacon =>
      dsimp only [processExtended, HeaderVariant.received]
      rw [← hind, ← hll, processBeacon_alike hpacket]
      exact same _
  refine bind hp ?_
  rintro ⟨passedUp, ind⟩ _ s' t' rfl h
  dsimp only
  split
  · exact alike_passUp hpacket h ind
  · exact pure trivial h

def indicatePlain (env : Environment ρ τ) (basic : BasicHeader)
  (common : CommonHeader) (rest : Action ρ τ Unit) : Action ρ τ Unit :=
  if basic.version.val ≠ env.mib.itsGnProtocolVersion.toNat then
    packetDropped .itsProtocolVersion
  else if basic.nextHeader = .common then
    if !env.mib.itsGnSecurity ∨ env.mib.itsGnSnDecapResultHandling = .nonStrict then
      if common.maximumHopLimit < basic.hopLimit then packetDropped .hopLimit
      else do
        refresh env
        rest
    else packetDropped .decapUnsuccessfulStrict
  else return

omit hpacket in
theorem alike_indicatePlain (s : Router ρ τ) (basic : BasicHeader)
  (common : CommonHeader) {rest rest' : Action ρ τ Unit}
  (hr : ∀ s, Agree Alike (fun _ _ => True) rest rest' s s) :
  Agree Alike (fun _ _ => True) (indicatePlain env basic common rest)
    (indicatePlain env basic common rest') s s := by
  unfold indicatePlain
  split
  · exact same _
  split
  · split
    · split
      · exact same _
      · exact bind_same fun _ s' => hr s'
    · exact same _
  · exact same _

def plainIndication (basic : BasicHeader) (common : CommonHeader) : DataIndication :=
  { remainingPacketLifetime := some basic.lifetime
    remainingHopLimit := some basic.hopLimit
    trafficClass := common.trafficClass
    upperProtocol := upperProtocol common.nextHeader }

omit hpacket in
theorem indicateBasic_plain {pdu₀ pdu₁ pdu₂ pdu₃ : Pdu} {ll : LinkLayer}
  {source₀ source₁ source₂ source₃ : HeaderSource}
  (hb : IndicationContext.parseBasic ⟨pdu₀, ll, {}, source₀⟩ =
    .ok (some basic, ⟨pdu₁, ll, {}, source₁⟩)) (hpl : basic.nextHeader ≠ .secured)
  (hc : ∀ sp, IndicationContext.parseCommon ⟨pdu₁, ll, sp, source₁⟩ =
    .ok (some common, ⟨pdu₂, ll, sp, source₂⟩))
  (hext : ∀ sp, IndicationContext.parseExtended common.headerType
    ⟨pdu₂, ll, sp, source₂⟩ = .ok (some extended, ⟨pdu₃, ll, sp, source₃⟩))
  (hs : common.payload.toNat = (IndicationContext.finish ⟨pdu₃, ll, plainIndication basic common,
      source₃⟩).size env.codec .transport .application) :
  indicateBasic env ⟨pdu₀, ll, {}, source₀⟩ = indicatePlain env basic common (deliver env
      ⟨pdu₃, ll, plainIndication basic common, source₃⟩ extended) := by
  unfold indicateBasic indicatePlain
  rw [hb, Program.ofExcept_ok_bind]
  dsimp only
  split
  · rfl
  split
  · split
    · unfold indicateCommon
      rw [hc, Program.ofExcept_ok_bind]
      dsimp only
      split
      · rfl
      unfold refresh
      rw [bind_assoc]
      refine bind_congr fun _ => bind_congr fun _ => ?_
      unfold indicateExtended
      rw [hext, Program.ofExcept_ok_bind]
      dsimp only
      refine (if_neg ?_).trans rfl
      exact not_not_intro hs
    · rfl
  · rfl

end Router

theorem LongPositionVector.length_serialize (lpv : LongPositionVector) :
  lpv.serialize.length = lengthBytes := by
  simp [serialize, Address.serialize, Timestamp.serialize, serializeInt32,
    length_toBigEndian, lengthBytes]

theorem HeaderVariant.length_serialize (header : HeaderVariant) :
  header.serialize.length = header.getLength := by
  cases header <;> simp [serialize, BeaconHeader.serialize,
    ShbHeader.serialize, TsbHeader.serialize, GeoBroadcastHeader.serialize,
    SequenceNumber.serialize, DccField.serialize, serializeInt32,
    length_toBigEndian, LongPositionVector.length_serialize, getLength] <;> omega

def Pdu.serializePlain (pdu : Pdu) : ByteBuffer :=
  pdu.basic.serialize ++ pdu.common.serialize ++ pdu.extended.serialize

theorem Pdu.length_serializePlain (codec : Codec) {pdu : Pdu} (h : pdu.secured = none) :
  pdu.serializePlain.length = pdu.getLength codec := by
  rw [serializePlain, List.length_append, List.length_append,
    HeaderVariant.length_serialize, ExtendedPdu.getLength, h]
  simp [serialize, Lifetime.serialize, CommonHeader.serialize,
    length_toBigEndian, lengthBytes, CommonHeader.lengthBytes]

def inOnePiece (pdu : Pdu) (payload : ByteBuffer) : CohesivePacket :=
  .ofBuffer (pdu.serializePlain ++ payload) .network

namespace IndicationContext

variable {pdu : Pdu} {ll : LinkLayer} {sp : DataIndication}
  {packet : CohesivePacket} {parser parser' : Parser}

theorem parseBasic_deserialize (h : parser.parseBasic = .ok (some basic, parser')) :
  parseBasic ⟨pdu, ll, sp, .deserialize packet parser⟩ = .ok (some basic,
      ⟨{ pdu with basic }, ll, sp, .deserialize packet parser'⟩) := by
  dsimp only [parseBasic]
  rw [h]
  rfl

theorem parseCommon_deserialize (h : parser.parseCommon = .ok (some common, parser')) :
  parseCommon ⟨pdu, ll, sp, .deserialize packet parser⟩ = .ok (some common,
      ⟨{ pdu with common }, ll, sp, .deserialize packet parser'⟩) := by
  dsimp only [parseCommon]
  rw [h]
  rfl

theorem parseExtended_deserialize {ht : HeaderType}
  (h : parser.parseExtended ht = .ok (some extended, parser')) :
  parseExtended ht ⟨pdu, ll, sp, .deserialize packet parser⟩ = .ok (some extended,
      ⟨{ pdu with extended }, ll, sp, .deserialize packet parser'⟩) := by
  dsimp only [parseExtended]
  rw [h]
  rfl

end IndicationContext

theorem UpPacket.upper_headed (headers payload : ByteBuffer) :
  (UpPacket.duplicate (.cohesive (.headed headers payload))).upper = payload := by
  have hl : osiLayerRange .transport .application =
    [.transport, .session, .presentation, .application] := rfl
  have hg : (UpPacket.duplicate (.cohesive (.headed headers payload))).upper =
      (osiLayerRange .transport .application).flatMap (headed headers payload).get := rfl
  have ha : ∀ layer : OsiLayer, 4 < layer.index → (headed headers payload).get layer = [] :=
    fun _ => headed_above headers payload
  rw [hg, hl, List.flatMap_cons, headed_transport,
    List.flatMap_cons, ha .session (by decide), List.flatMap_cons,
    ha .presentation (by decide), List.flatMap_cons, ha .application (by decide)]
  exact List.append_nil payload

namespace Router

variable {ρ τ : Type} {env : Environment ρ τ}

theorem indicate_chunk (env : Environment ρ τ) (packet : DownPacket) (ll : LinkLayer) {pdu : Pdu}
  (hn : packet.network = .pdu pdu) (hpl : pdu.basic.nextHeader ≠ .secured)
  (hp : pdu.common.payload.toNat = packet.upper.length) :
  indicate env (.chunk packet) ll = indicatePlain env pdu.basic pdu.common (deliver env
      ⟨pdu, ll, plainIndication pdu.basic pdu.common, .cast packet⟩ pdu.extended) := by
  have hc : ofChunk packet ll = .ok ⟨pdu, ll, {}, .cast packet⟩ := by
    rw [ofChunk, hn]
    rfl
  unfold indicate
  dsimp only
  rw [hc, Program.ofExcept_ok_bind]
  refine indicateBasic_plain rfl hpl (fun _ => rfl) (fun _ => rfl) ?_
  rw [hp]
  exact (packet.size_eq_upper env.codec).symm

theorem indicate_inOnePiece (env : Environment ρ τ) (pdu : Pdu)
  (payload : ByteBuffer) (ll : LinkLayer)
  (hpl : pdu.basic.nextHeader ≠ .secured) (hs : pdu.secured = none)
  (hm : pdu.extended.Matches pdu.common.headerType)
  (hp : pdu.common.payload.toNat = payload.length) :
  ∃ ctx : IndicationContext, indicate env (.cohesive (inOnePiece pdu payload)) ll =
      indicatePlain env pdu.basic pdu.common (deliver env ctx pdu.extended.received) ∧
    ctx.servicePrimitive = plainIndication pdu.basic pdu.common ∧ ctx.linkLayer = ll ∧
    ctx.pdu = { pdu with extended := pdu.extended.received } ∧
    ctx.finish = .cohesive (.headed pdu.serializePlain payload) := by
  have hl := Pdu.length_serializePlain env.codec hs
  rw [ExtendedPdu.getLength, hs] at hl
  dsimp only at hl
  have hg : (inOnePiece pdu payload).get .network = pdu.basic.serialize ++
      (pdu.common.serialize ++ (pdu.extended.serialize ++ payload)) := by
    rw [inOnePiece, get_ofBuffer, Pdu.serializePlain, List.append_assoc, List.append_assoc]
  -- each header is read back, and the rest is left to the next one
  have hb := Parser.parseBasic_written pdu.basic
    (pdu.common.serialize ++ (pdu.extended.serialize ++ payload))
  rw [← hg] at hb
  have hc := Parser.parseCommon_written pdu.common
    (pdu.extended.serialize ++ payload) (0 + lengthBytes)
  have hext := Parser.parseExtended_written hm payload (0 + lengthBytes + CommonHeader.lengthBytes)
  have hf : ∀ sp, finish ⟨{ pdu with extended := pdu.extended.received, secured := none }, ll, sp,
        .deserialize (inOnePiece pdu payload) ⟨⟨payload, none⟩,
          0 + lengthBytes + CommonHeader.lengthBytes + pdu.extended.getLength⟩⟩ =
      .cohesive (.headed pdu.serializePlain payload) := by
    intro sp
    have hcut : ((inOnePiece pdu payload).setBoundary .network
        (0 + lengthBytes + CommonHeader.lengthBytes + pdu.extended.getLength)) =
        .headed pdu.serializePlain payload := by
      rw [Nat.zero_add, ← hl]
      rfl
    dsimp only [finish]
    rw [hcut, trim_of_size_le]
    rw [headed_size_payload, hp]
  refine ⟨_, indicateBasic_plain (parseBasic_deserialize hb) hpl
    (fun _ => parseCommon_deserialize hc) (fun _ => parseExtended_deserialize hext) ?_,
    rfl, rfl, ?_, hf _⟩
  · rw [hf, hp]
    exact (headed_size_payload _ _).symm
  · rw [← hs]

/-- A PDU that is not secured is indicated alike with its payload in chunks and as octets: with an
exception both times or never, and with the same router afterwards when payloads are flattened. -/
theorem indicate_either_form (env : Environment ρ τ) (router : Router ρ τ)
  (ll : LinkLayer) (pdu : Pdu) (chunks : OsiLayer → ByteBuffer)
  (hplain : pdu.basic.nextHeader ≠ .secured) (hsecured : pdu.secured = none)
  (hmatch : pdu.extended.Matches pdu.common.headerType)
  (hpayload : pdu.common.payload.toNat = (DownPacket.upper ⟨.pdu pdu, chunks⟩).length) :
  let packet : DownPacket := ⟨.pdu pdu, chunks⟩
  let ofObjects := (indicate env (.chunk packet) ll).exec router
  let ofOctets := (indicate env (.cohesive (inOnePiece pdu packet.upper)) ll).exec router
  ofObjects.1 = ofOctets.1 ∧ ofObjects.2.flat = ofOctets.2.flat := by
  intro packet ofObjects ofOctets
  obtain ⟨ctx, hoct, hind, hll, hp, hf⟩ :=
    indicate_inOnePiece env pdu packet.upper ll hplain hsecured hmatch hpayload
  have ho := indicate_chunk env packet ll rfl hplain hpayload
  have hpacket : UpPacket.Alike env.codec (.chunk packet) ctx.finish := by
    rw [hf]
    refine ⟨?_, ?_⟩
    · have hs := packet.size_network env.codec
      rw [UpPacket.size, UpPacket.size, hs, headed_size,
        Pdu.length_serializePlain env.codec hsecured]
      rfl
    · refine DownPacket.flat_eq_iff.2 ?_
      rw [UpPacket.upper_headed]
      rfl
  have ha : Agree Alike (fun _ _ => True) (indicate env (.chunk packet) ll)
      (indicate env (.cohesive (inOnePiece pdu packet.upper)) ll) router router := by
    rw [ho, hoct]
    refine alike_indicatePlain router pdu.basic pdu.common fun s => ?_
    exact alike_deliver s hind.symm hll.symm pdu.extended hp hpacket
  have hout : Outcomes Alike (fun _ _ => True) ofObjects ofOctets := ha
  clear_value ofObjects ofOctets
  cases hout with
  | ok hval hst | error hst => exact ⟨rfl, hst⟩

def threeOctets : Pdu :=
  ⟨{ BasicHeader.default with nextHeader := .common },
    { CommonHeader.default with headerType := .tsbSingleHop, payload := 3 },
    .shb ⟨originPosition, .mco ⟨1, 2, 3⟩⟩, none⟩

def threeOctetsChunks (layer : OsiLayer) : ByteBuffer :=
  if layer = .transport then [1, 2]
  else if layer = .application then [3] else []

theorem shb_indicated_either_form :
  let packet : DownPacket := ⟨.pdu threeOctets, threeOctetsChunks⟩
  let env := SourceRouter.plainEnvironment
  let router := (SourceRouter.create env ⟨0, []⟩ () () .default).router
  let ll : LinkLayer := ⟨.replicate 6 1, cBroadcastMacAddress⟩
  ((indicate env.toEnvironment (.chunk packet) ll).exec router).2.flat =
    ((indicate env.toEnvironment (.cohesive (inOnePiece threeOctets [1, 2, 3]))
      ll).exec router).2.flat :=
  (indicate_either_form SourceRouter.plainEnvironment.toEnvironment _ _
    threeOctets threeOctetsChunks (by decide) rfl rfl rfl).2

end Router

end Vanetza.Geonet
