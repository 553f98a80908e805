import Vanetza.Geonet.Headers
import Vanetza.Security.VerifyService

/-!
# Parsing received packets

A received packet is one buffer that has to be parsed, or comes with its headers as objects already.
What a secured message has inside is again either of the two.
-/

namespace Vanetza.Geonet

open InputArchive Security Lib

structure Parser where
  input : Input ErrorCode
  readBytes : Nat

namespace Parser

def ofBuffer (bytes : ByteBuffer) : Parser := ⟨⟨bytes, none⟩, 0⟩

variable {α : Type}

def parse (header : Deserialize α) (length : Nat) (parser : Parser) :
  Except Exception (Option α × Parser) :=
  match header parser.input with
  | .ok (a, input) => return (some a, ⟨input, parser.readBytes + length⟩)
  | .error (.archive _) => return (none, parser)
  | .error e => throw e

def parseBasic : Parser → Except Exception (Option BasicHeader × Parser) :=
  parse BasicHeader.deserialize BasicHeader.lengthBytes

def parseCommon : Parser → Except Exception (Option CommonHeader × Parser) :=
  parse CommonHeader.deserialize CommonHeader.lengthBytes

def accept (parser : Parser) (message : SecuredMessage) (bytes : Nat)
  (input : Input ErrorCode) : Option SecuredMessage × Parser :=
  if 0 < bytes then (some message, ⟨input, parser.readBytes + bytes⟩)
  else (none, parser)

def parseSecured (codec : Codec) (parser : Parser) : Option SecuredMessage × Parser :=
  if parser.input.failure.isSome then (none, parser)
  else
    match parser.input.rest with
    | [] => (none, parser)
    | secFirstByte :: rest =>
      if secFirstByte < 3 then
        match V2.SecuredMessage.deserialize parser.input with
        | .ok ((message, bytes), input) => parser.accept (.v2 message) bytes input
        | .error _ => (none, parser)
      else if secFirstByte = 3 then
        -- a v3 message takes all there is
        match codec.decodeOer (secFirstByte :: rest) with
        | some message => parser.accept (.v3 message) (rest.length + 1) ⟨[], none⟩
        | none => (none, parser)
      else (none, parser)

def parseExtended (ht : HeaderType) (parser : Parser) :
  Except Exception (Option HeaderVariant × Parser) :=
  let length := LongPositionVector.lengthBytes
  if ht = .tsbSingleHop then
    parse (.shb <$> ShbHeader.deserialize) (4 + length) parser
  else if ht = .tsbMultiHop then
    parse (.tsb <$> TsbHeader.deserialize) (4 + length) parser
  else if ht = .geoBroadcastCircle ∨ ht = .geoBroadcastRect ∨ ht = .geoBroadcastElip then
    parse (.gbc <$> GeoBroadcastHeader.deserialize) (20 + length) parser
  else if ht = .beacon then
    parse (.beacon <$> BeaconHeader.deserialize) length parser
  else return (none, parser)

end Parser

inductive NetworkLayer where
  | octets (bytes : ByteBuffer)
  | pdu (pdu : Pdu)
  | securedPdu (common : CommonHeader) (extended : HeaderVariant)

namespace NetworkLayer

def size (codec : Codec) : NetworkLayer → Nat
  | .octets bytes => bytes.length
  | .pdu headers => headers.getLength codec
  | .securedPdu _ extended => CommonHeader.lengthBytes + extended.getLength

end NetworkLayer

/-- `ChunkPacket` as the router sees it: its network layer may hold headers,
and `chunks` has all other layers, which are byte buffers. -/
structure DownPacket where
  network : NetworkLayer
  chunks : OsiLayer → ByteBuffer

namespace DownPacket

def empty : DownPacket := ⟨.octets [], fun _ => []⟩

def size (codec : Codec) (packet : DownPacket) (first last : OsiLayer) : Nat :=
  ((osiLayerRange first last).map fun layer =>
    if layer = .network then packet.network.size codec
    else (packet.chunks layer).length).sum

def mergeUpper (packet other : DownPacket) : DownPacket :=
  { packet with chunks := fun layer =>
      if OsiLayer.transport.index ≤ layer.index then other.chunks layer
      else packet.chunks layer }

end DownPacket

inductive UpPacket where
  | chunk (packet : DownPacket)
  | cohesive (packet : CohesivePacket)

namespace UpPacket

def size (codec : Codec) : UpPacket → OsiLayer → OsiLayer → Nat
  | .chunk packet, first, last => packet.size codec first last
  | .cohesive packet, first, last => packet.size first last

/-- `duplicate`: the layers of a buffer become chunks. -/
def duplicate : UpPacket → DownPacket
  | .chunk packet => packet
  | .cohesive packet => ⟨.octets (packet.get .network), packet.get⟩

end UpPacket

structure LinkLayer where
  sender : MacAddress
  destination : MacAddress
  deriving DecidableEq

inductive UpperProtocol where
  | unknown
  | btpA
  | btpB
  | ipv6
  deriving DecidableEq

inductive TransportType where
  | guc
  | gac
  | gbc
  | tsb
  | shb
  deriving DecidableEq

/-- `DecapReport`; `none` is for a message neither signed nor encrypted. -/
abbrev DecapReport := Option VerificationReport

def isSuccessful (report : DecapReport) : Bool := report = some .success

structure DecapConfirm where
  plaintextPayload : UpPacket
  report : DecapReport
  itsAid : ItsAid
  permissions : ByteBuffer

/-- `DataIndication`. What the code leaves unset is zero or empty. -/
structure DataIndication where
  upperProtocol : UpperProtocol := .unknown
  transportType : TransportType := .guc
  destination : Option Area := none
  sourcePosition : ShortPositionVector := LongPositionVector.default.toShort
  securityReport : DecapReport := none
  itsAid : Option ItsAid := none
  permissions : Option ByteBuffer := none
  trafficClass : TrafficClass := ⟨0⟩
  remainingPacketLifetime : Option Lifetime := none
  remainingHopLimit : Option UInt8 := none
  deriving DecidableEq

inductive HeaderSource where
  | deserialize (packet : CohesivePacket) (parser : Parser)
  | cast (packet : DownPacket)
  | securedDeserialize (packet : CohesivePacket) (parser : Parser)
  | securedCast (packet : UpPacket)

structure IndicationContext where
  pdu : Pdu
  linkLayer : LinkLayer
  servicePrimitive : DataIndication := {}
  source : HeaderSource

namespace IndicationContext

def ofCohesive (packet : CohesivePacket) (linkLayer : LinkLayer) : IndicationContext where
  pdu := { basic := .default, common := .default
           extended := .beacon ⟨.default⟩, secured := none }
  linkLayer
  source := .deserialize packet (.ofBuffer (packet.get .network))

def ofChunk (packet : DownPacket) (linkLayer : LinkLayer) : Except Exception IndicationContext :=
  match packet.network with
  | .pdu pdu => return { pdu, linkLayer, source := .cast packet }
  | _ => throw (.runtimeError "Casting to Pdu failed")

def parseBasic (ctx : IndicationContext) :
  Except Exception (Option BasicHeader × IndicationContext) :=
  match ctx.source with
  | .deserialize packet parser => do
      let (basic, parser) ← parser.parseBasic
      return (basic, { ctx with
        pdu := { ctx.pdu with basic := basic.getD ctx.pdu.basic }
        source := .deserialize packet parser })
  | .cast _ => return (some ctx.pdu.basic, ctx)
  | _ => return (none, ctx)

private def withCommon (ctx : IndicationContext) (common : Option CommonHeader)
  (source : HeaderSource) : IndicationContext :=
  { ctx with
    pdu := { ctx.pdu with common := common.getD ctx.pdu.common }
    source }

def parseCommon (ctx : IndicationContext) :
  Except Exception (Option CommonHeader × IndicationContext) :=
  match ctx.source with
  | .deserialize packet parser => do
      let (common, parser) ← parser.parseCommon
      return (common, ctx.withCommon common (.deserialize packet parser))
  | .securedDeserialize packet parser => do
      let (common, parser) ← parser.parseCommon
      return (common, ctx.withCommon common (.securedDeserialize packet parser))
  | _ => return (some ctx.pdu.common, ctx)

def parseSecured (codec : Codec) (ctx : IndicationContext) :
  Option SecuredMessage × IndicationContext :=
  match ctx.source with
  | .deserialize packet parser =>
    let (message, parser) := parser.parseSecured codec
    (message, { ctx with
      pdu := { ctx.pdu with secured := message.or ctx.pdu.secured }
      source := .deserialize packet parser })
  | .cast _ => (ctx.pdu.secured, ctx)
  | _ => (none, ctx)

private def withExtended (ctx : IndicationContext)
  (extended : Option HeaderVariant) (source : HeaderSource) : IndicationContext :=
  { ctx with
    pdu := { ctx.pdu with extended := extended.getD ctx.pdu.extended }
    source }

def parseExtended (ht : HeaderType) (ctx : IndicationContext) :
  Except Exception (Option HeaderVariant × IndicationContext) :=
  match ctx.source with
  | .deserialize packet parser => do
      let (extended, parser) ← parser.parseExtended ht
      return (extended, ctx.withExtended extended (.deserialize packet parser))
  | .securedDeserialize packet parser => do
      let (extended, parser) ← parser.parseExtended ht
      return (extended, ctx.withExtended extended (.securedDeserialize packet parser))
  | _ => return (some ctx.pdu.extended, ctx)

def finish (ctx : IndicationContext) : UpPacket :=
  match ctx.source with
  | .deserialize packet parser =>
    .cohesive ((packet.setBoundary .network parser.readBytes).trim .transport
      ctx.pdu.common.payload.toNat)
  | .cast packet => .chunk packet
  | .securedDeserialize packet parser =>
    .cohesive (packet.setBoundary .network parser.readBytes)
  | .securedCast packet => packet

def mergePayload (codec : Codec) (payload : DownPacket) : UpPacket → UpPacket
  | .chunk packet => .chunk (packet.mergeUpper payload)
  | .cohesive _ =>
    let buffer :=
      .replicate (payload.size codec .physical .application) 0 ++
      (osiLayerRange .transport .application).flatMap payload.chunks
    .cohesive (.ofBuffer buffer .transport)

/-- `IndicationContextSecuredDeserialize` and `IndicationContextSecuredCast` -/
def ofSecured (codec : Codec) (parent : IndicationContext) :
  UpPacket → Except Exception IndicationContext
  | .cohesive packet => return { parent with
      source := .securedDeserialize packet (.ofBuffer (packet.get .network)) }
  | .chunk packet =>
    match packet.network with
    | .securedPdu common extended => return { parent with
        pdu := { parent.pdu with common, extended }
        source := .securedCast (mergePayload codec packet parent.finish) }
    | _ => throw (.runtimeError "Casting to SecuredPdu failed")

end IndicationContext

end Vanetza.Geonet
