import Vanetza.Dcc.FlowControl
import Vanetza.Geonet.CbfPacketBuffer
import Vanetza.Geonet.LocationTable
import Vanetza.Lib.Program

/-!
# Forwarding

The state of a router, and the part of it that sends packets: the forwarding
algorithms, what becomes of a pending packet, and the way down to the link
layer.
-/

namespace Vanetza.Geonet

open Security

inductive UnicastForwarding where
  | unspecified
  | greedy
  | cbf
  deriving DecidableEq

inductive BroadcastForwarding where
  | unspecified
  | simple
  | cbf
  | advanced
  deriving DecidableEq

inductive AddrConfMethod where
  | auto
  | managed
  | anonymous
  deriving DecidableEq

inductive SecurityDecapHandling where
  | strict
  | nonStrict
  deriving DecidableEq

/-- `ManagementInformationBase`, as far as it is read here. -/
structure Mib where
  itsGnLocalAddrConfMethod : AddrConfMethod
  itsGnProtocolVersion : UInt32
  itsGnIfType : InterfaceType
  itsGnSecurity : Bool
  itsGnSnDecapResultHandling : SecurityDecapHandling
  itsGnBeaconServiceRetransmitTimer : ℚ
  itsGnBeaconServiceMaxJitter : ℚ
  itsGnDPLLength : UInt32
  itsGnMaxPacketDataRate : UInt32
  itsGnMaxPacketDataRateEmaBeta : ℚ
  itsGnNonAreaForwardingAlgorithm : UnicastForwarding
  itsGnAreaForwardingAlgorithm : BroadcastForwarding
  itsGnCbfMinTime : ℚ
  itsGnCbfMaxTime : ℚ
  itsGnDefaultMaxCommunicationRange : ℚ
  itsGnBroadcastCBFDefSectorAngle : ℚ
  vanetzaCbfMaxCounter : Nat
  vanetzaMultiHopDuplicateAddressDetection : Bool
  vanetzaNeighbourFlagExpiry : Int
  vanetzaGbcMemoryCapacity : Nat
  vanetzaGbcPassUpOutsideDestination : Bool

def Mib.default : Mib where
  itsGnLocalAddrConfMethod := .managed
  itsGnProtocolVersion := 1
  itsGnIfType := .itsG5
  itsGnSecurity := false
  itsGnSnDecapResultHandling := .strict
  itsGnBeaconServiceRetransmitTimer := 3
  itsGnBeaconServiceMaxJitter := 3 / 4
  itsGnDPLLength := 8
  itsGnMaxPacketDataRate := 100
  itsGnMaxPacketDataRateEmaBeta := 9 / 10
  itsGnNonAreaForwardingAlgorithm := .greedy
  itsGnAreaForwardingAlgorithm := .cbf
  itsGnCbfMinTime := 1 / 1000
  itsGnCbfMaxTime := 1 / 10
  itsGnDefaultMaxCommunicationRange := 1000
  itsGnBroadcastCBFDefSectorAngle := 30
  vanetzaCbfMaxCounter := 1
  vanetzaMultiHopDuplicateAddressDetection := false
  vanetzaNeighbourFlagExpiry := 0
  vanetzaGbcMemoryCapacity := 0
  vanetzaGbcPassUpOutsideDestination := false

structure Geodesy where
  distance : GeodeticPosition → GeodeticPosition → ℚ
  insideOrAtBorder : Area → GeodeticPosition → Bool
  /-- Arc cosine; `none` where it is not a number. -/
  acos : ℚ → Option ℚ

structure RandomGen (ρ : Type) where
  macAddress : ρ → MacAddress × ρ
  jitter : ρ → ℚ × ρ

/-- A security entity with state `τ`. Encapsulation may fail without an
exception. -/
structure SecurityEntity (τ : Type) where
  decapsulatePacket : SecuredMessage → τ → Except Exception DecapConfirm × τ
  encapsulatePacket : DownPacket → ItsAid → ByteBuffer → τ →
    Except Exception (Option SecuredMessage) × τ

structure Environment (ρ τ : Type) where
  mib : Mib
  codec : Codec
  geodesy : Geodesy
  random : RandomGen ρ
  securityEntity : Option (SecurityEntity τ)
  hasTransport : UpperProtocol → Bool

inductive PacketDropReason where
  | parseBasicHeader
  | parseCommonHeader
  | parseSecuredHeader
  | parseExtendedHeader
  | itsProtocolVersion
  | decapUnsuccessfulNonStrict
  | decapUnsuccessfulStrict
  | hopLimit
  | payloadSize
  | securityEntityMissing
  | packetSize
  | internalError
  deriving DecidableEq

inductive ForwardingStopReason where
  | hopLimit
  | sourcePdr
  | senderPdr
  | outsideDestinationArea
  deriving DecidableEq

/-- `dcc::DataRequest`; the lifetime is in microseconds. -/
structure DccDataRequest where
  source : MacAddress
  destination : MacAddress
  dccProfile : Dcc.Profile
  lifetime : Int
  deriving DecidableEq

inductive Event where
  | packetDropped (reason : PacketDropReason)
  | forwardingStopped (reason : ForwardingStopReason)
  | passUp (indication : DataIndication) (packet : UpPacket)
  | passDown (request : DccDataRequest) (packet : DownPacket)

structure Router (ρ τ : Type) where
  runtime : Runtime Scope
  locationTable : LocationTable
  bcForwardBuffer : PacketBuffer BufferedPacket
  ucForwardBuffer : PacketBuffer BufferedPacket
  cbfBuffer : CbfPacketBuffer
  localPositionVector : LongPositionVector
  gbcMemory : GbcMemory
  randomGen : ρ
  security : τ
  events : List Event

abbrev Action (ρ τ α : Type) := Lib.Program Exception (Router ρ τ) α

namespace Router

variable {ρ τ : Type} (env : Environment ρ τ)

def emit (event : Event) : Action ρ τ Unit :=
  modify fun router => { router with events := router.events ++ [event] }

def packetDropped (reason : PacketDropReason) : Action ρ τ Unit := emit (.packetDropped reason)

def forwardingStopped (reason : ForwardingStopReason) : Action ρ τ Unit :=
  emit (.forwardingStopped reason)

def resetBeaconTimer : Action ρ τ Unit :=
  modify fun router =>
    let (jitter, randomGen) := env.random.jitter router.randomGen
    let nextBeacon := clockCast (env.mib.itsGnBeaconServiceRetransmitTimer +
      jitter * env.mib.itsGnBeaconServiceMaxJitter)
    { router with
      randomGen
      runtime := (router.runtime.cancel .router).schedule
        (router.runtime.now + nextBeacon) .router }

def passDown (request : DccDataRequest) (pdu : Pdu) (payload : DownPacket) : Action ρ τ Unit := do
  if pdu.secured.isSome then
    if pdu.basic.nextHeader ≠ .secured then
      throw (.runtimeError "PDU with secured message but Secured not set in basic header")
    if 0 < payload.size env.codec .transport .application then
      throw (.runtimeError "PDU with secured message and illegal upper layer payload")
  else
    if pdu.basic.nextHeader = .secured then
      throw (.runtimeError "PDU without secured message but Secured set in basic header")
  emit (.passDown request { payload with network := .pdu pdu })

def mapTcOntoProfile (tc : TrafficClass) : Dcc.Profile :=
  match tc.tcId with
  | 0 => .dp0
  | 1 => .dp1
  | 2 => .dp2
  | _ => .dp3

def dccRequest (router : Router ρ τ) (destination : MacAddress)
  (dccProfile : Dcc.Profile) (pdu : Pdu) : DccDataRequest where
  source := router.localPositionVector.gnAddr.mid
  destination
  dccProfile
  lifetime := clockCast pdu.basic.lifetime.decode

def passDownOwn (destination : MacAddress) (pdu : Pdu) (payload : DownPacket) :
  Action ρ τ Unit := do
  let profile := mapTcOntoProfile pdu.common.trafficClass
  passDown env (dccRequest (← get) destination profile pdu) pdu payload

def passDownForwarded (destination : MacAddress) (pdu : Pdu)
  (payload : DownPacket) : Action ρ τ Unit := do
  passDown env (dccRequest (← get) destination .dp3 pdu) pdu payload

/-- `encap_packet`: the PDU with a secured message, and a payload that has
nothing left in the upper layers; or nothing. -/
def encapPacket (itsAid : ItsAid) (ssp : ByteBuffer) (pdu : Pdu)
  (payload : DownPacket) : Action ρ τ (Option (Pdu × DownPacket)) := do
  match env.securityEntity with
  | none => return none
  | some entity =>
    let plainMessage := DownPacket.mergeUpper ⟨.securedPdu pdu.common pdu.extended, fun _ => []⟩
      payload
    let router ← get
    let (confirm, security) := entity.encapsulatePacket plainMessage itsAid ssp router.security
    set { router with security }
    match ← MonadExcept.ofExcept confirm with
    | some message => return some ({ pdu with secured := some message }, payload.mergeUpper .empty)
    | none => return none

def secureOwn (ctrl : ControlInfo) (pdu : Pdu) (payload : DownPacket) :
  Action ρ τ (Option (Pdu × DownPacket)) :=
  if env.mib.itsGnSecurity then
    encapPacket env ctrl.itsAid ctrl.permissions pdu payload
  else return some (pdu, payload)

def transmitShb (packet : PendingPacket ShbHeader ControlInfo) : Action ρ τ Unit := do
  -- update position before actual transmission
  let extended :=
    { packet.pdu.extended with sourcePosition := (← get).localPositionVector }
  let pdu := (packet.pdu.withExtended extended).toPdu
  match ← secureOwn env packet.action pdu packet.payload with
  | none => return
  | some (pdu, payload) =>
    passDownOwn env cBroadcastMacAddress pdu payload
    resetBeaconTimer env

/-- `transmit` of a topologically scoped broadcast of another station. -/
def transmitTsb (packet : PendingPacket TsbHeader Unit) : Action ρ τ Unit :=
  passDownForwarded env cBroadcastMacAddress packet.pdu.toPdu packet.payload

def transmitGbc (transmit : GbcTransmit) (pdu : GbcPdu) (payload : DownPacket)
  (mac : MacAddress) : Action ρ τ Unit := do
  match transmit with
  | .source ctrl =>
    let extended :=
      { pdu.extended with sourcePosition := (← get).localPositionVector }
    let pdu := (pdu.withExtended extended).toPdu
    match ← secureOwn env ctrl pdu payload with
    | none => return
    | some (pdu, payload) => passDownOwn env mac pdu payload
  | .forwarder => passDownForwarded env mac pdu.toPdu payload
  | .noop => return

abbrev PendingPacketForwarding := PendingPacket GeoBroadcastHeader GbcTransmit

inductive NextHop where
  | transmit (packet : PendingPacketForwarding) (mac : MacAddress)
  | discarded
  | buffered

def NextHop.process : NextHop → Action ρ τ Unit
  | .transmit packet mac => transmitGbc env packet.action packet.pdu packet.payload mac
  | .discarded => return
  | .buffered => return

def pushBcForwardBuffer (data : BufferedPacket) : Action ρ τ Unit :=
  modify fun router => { router with
    bcForwardBuffer := (router.bcForwardBuffer.push
      (BufferedPacket.data env.codec) data router.runtime.now).2 }

def mostForward (dest : GeodeticPosition) (own : ℚ)
  (neighbours : List LocationTableEntry) : Option MacAddress × ℚ :=
  neighbours.foldl (fun best neighbour =>
    match neighbour.positionVector with
    | none => best
    | some pv =>
      let dist := env.geodesy.distance dest pv.position
      if dist < best.2 then (some neighbour.linkLayerAddress, dist)
      else best) (none, own)

def greedyForwarding (packet : PendingPacketForwarding) : Action ρ τ NextHop := do
  let router ← get
  let dest := packet.pdu.extended.position
  let own := env.geodesy.distance dest router.localPositionVector.position
  match (mostForward env dest own (router.locationTable.neighbours router.runtime.now)).1 with
  | some mfrAddr => return .transmit packet mfrAddr
  | none =>
    if packet.pdu.common.trafficClass.storeCarryForward then
      pushBcForwardBuffer env (.gbc { packet with action := .greedy packet.action })
      return .buffered
    else return .transmit packet cBroadcastMacAddress

def contend (packet : PendingPacketForwarding) (sender : MacAddress) : CbfPacket :=
  ⟨{ packet with action := .broadcast packet.action }, sender⟩

def gbcIdentifier (pdu : GbcPdu) : CbfPacketIdentifier :=
  (pdu.extended.sourcePosition.gnAddr, pdu.extended.sequenceNumber)

def cbfAdd (packet : CbfPacket) (timeout : ℚ) : Action ρ τ Unit :=
  modify fun router =>
    let (cbfBuffer, runtime) := router.cbfBuffer.add env.codec packet
      (clockCast timeout) router.runtime
    { router with cbfBuffer, runtime }

def cbfRemove (id : CbfPacketIdentifier) : Action ρ τ Bool := do
  let router ← get
  let (removed, cbfBuffer, runtime) := router.cbfBuffer.remove env.codec id router.runtime
  set { router with cbfBuffer, runtime }
  return removed

def timeoutCbf (prog : ℚ) : ℚ :=
  let distMax := env.mib.itsGnDefaultMaxCommunicationRange
  let toCbfMin := env.mib.itsGnCbfMinTime
  let toCbfMax := env.mib.itsGnCbfMaxTime
  if distMax < prog then toCbfMin
  else if 0 < prog then toCbfMax + (toCbfMin - toCbfMax) / distMax * prog
  else toCbfMax

def getPosition (router : Router ρ τ) (mac : MacAddress) : Option LongPositionVector :=
  router.locationTable.getPosition router.runtime.now mac

def timeoutCbfOf (router : Router ρ τ) (sender : MacAddress) : ℚ :=
  match router.getPosition sender with
  | some pv =>
    if pv.positionAccuracyIndicator then
      timeoutCbf env (env.geodesy.distance pv.position router.localPositionVector.position)
    else env.mib.itsGnCbfMaxTime
  | none => env.mib.itsGnCbfMaxTime

def nonAreaContentionBasedForwarding (packet : PendingPacketForwarding) :
  Option MacAddress → Action ρ τ NextHop
  -- immediately broadcast packet if it is originating from local router
  | none => return .transmit packet cBroadcastMacAddress
  | some sender => do
      if ← cbfRemove env (gbcIdentifier packet.pdu) then
        return .discarded
      else
        let router ← get
        let destination ← MonadExcept.ofExcept
          (packet.pdu.extended.destination packet.pdu.common.headerType)
        match (router.getPosition sender).filter (·.positionAccuracyIndicator) with
        | some pv =>
          let distSender := env.geodesy.distance destination.position pv.position
          let distLocal := env.geodesy.distance destination.position
            router.localPositionVector.position
          if distLocal < distSender then
            cbfAdd env (contend packet sender) (timeoutCbf env (distSender - distLocal))
            return .buffered
          else return .discarded
        | none =>
          cbfAdd env (contend packet sender) env.mib.itsGnCbfMaxTime
          return .buffered

def areaContentionBasedForwarding (packet : PendingPacketForwarding) :
  Option MacAddress → Action ρ τ NextHop
  | none => return .transmit packet cBroadcastMacAddress
  | some sender => do
      let id := gbcIdentifier packet.pdu
      if ← cbfRemove env id then return .discarded
      let router ← get
      if env.mib.vanetzaCbfMaxCounter ≤ router.cbfBuffer.counter.count router.runtime.now id then
        return .discarded
      cbfAdd env (contend packet sender) (timeoutCbfOf env router sender)
      return .buffered

def outsideSectorialContentionArea (router : Router ρ τ) (sender forwarder : MacAddress) : Bool :=
  match router.getPosition sender, router.getPosition forwarder with
  | some pvSender, some pvForwarder =>
    let distance := env.geodesy.distance
    let here := router.localPositionVector.position
    let distR := distance pvSender.position here
    let distF := distance pvForwarder.position pvSender.position
    let distRf := distance pvForwarder.position here
    let angleFsr :=
      if 0 < distR ∧ 0 < distF then
        env.geodesy.acos ((distRf * distRf - distR * distR - distF * distF) / (-2 * distR * distF))
      else some 0
    !(decide (distR < distF) && decide (distF < env.mib.itsGnDefaultMaxCommunicationRange) &&
      angleFsr.any fun angle =>
        angle < env.mib.itsGnBroadcastCBFDefSectorAngle)
  | _, _ => true

def duplicatePending (packet : PendingPacketForwarding) : PendingPacketForwarding :=
  { packet with payload := if packet.pdu.secured.isSome then .empty else packet.payload }

def areaAdvancedForwarding (packet : PendingPacketForwarding) :
  Option LinkLayer → Action ρ τ NextHop
  | none => return .transmit packet cBroadcastMacAddress
  | some ll => do
      let id := gbcIdentifier packet.pdu
      let router ← get
      match router.cbfBuffer.find id with
      | some cbfPacket =>
        -- the counter is exceeded, or the forwarder is in the sector
        if env.mib.vanetzaCbfMaxCounter ≤ router.cbfBuffer.counter.count router.runtime.now id ∨
            !outsideSectorialContentionArea env router cbfPacket.sender ll.sender then
          let _ ← cbfRemove env id
          return .discarded
        else
          let timeout := clockCast (timeoutCbfOf env router ll.sender)
          set { router with cbfBuffer := router.cbfBuffer.update id timeout router.runtime }
          return .buffered
      | none =>
        if ll.destination = router.localPositionVector.gnAddr.mid then
          -- continue with greedy forwarding
          let nh ← greedyForwarding env (duplicatePending packet)
          -- avoid a second broadcast
          let contending := match nh with
            | .transmit _ mac =>
              if mac = cBroadcastMacAddress then
                { packet with action := .noop }
              else packet
            | _ => packet
          cbfAdd env (contend contending ll.sender) env.mib.itsGnCbfMaxTime
          return nh
        else
          cbfAdd env (contend packet ll.sender) (timeoutCbfOf env router ll.sender)
          return .buffered

def forwardingAlgorithmSelection (packet : PendingPacketForwarding)
  (ll : Option LinkLayer) : Action ρ τ NextHop := do
  let destination ← MonadExcept.ofExcept
    (packet.pdu.extended.destination packet.pdu.common.headerType)
  let router ← get
  if env.geodesy.insideOrAtBorder destination router.localPositionVector.position then
    match env.mib.itsGnAreaForwardingAlgorithm with
    | .unspecified | .simple => return .transmit packet cBroadcastMacAddress
    | .cbf => areaContentionBasedForwarding env packet (ll.map (·.sender))
    | .advanced => areaAdvancedForwarding env packet ll
  else
    -- packets from senders inside the area are not meant for other forwarding
    let pvSe := ll.bind fun ll => router.getPosition ll.sender
    if pvSe.any fun pv => pv.positionAccuracyIndicator &&
        env.geodesy.insideOrAtBorder destination pv.position then
      forwardingStopped .outsideDestinationArea
      return .discarded
    else
      match env.mib.itsGnNonAreaForwardingAlgorithm with
      | .unspecified | .greedy => greedyForwarding env packet
      | .cbf => nonAreaContentionBasedForwarding env packet (ll.map (·.sender))

def processGbc (packet : PendingPacket GeoBroadcastHeader GbcAction) : Action ρ τ Unit := do
  match packet.action with
  | .select transmit ll =>
    let nh ← forwardingAlgorithmSelection env { packet with action := transmit } ll
    nh.process env
  | .greedy transmit =>
    let nh ← greedyForwarding env { packet with action := transmit }
    nh.process env
  | .broadcast transmit => transmitGbc env transmit packet.pdu packet.payload cBroadcastMacAddress

def processBuffered : BufferedPacket → Action ρ τ Unit
  | .shb packet => transmitShb env packet
  | .tsb packet => transmitTsb env packet
  | .gbc packet => processGbc env packet

def flushBroadcastForwardingBuffer : Action ρ τ Unit := do
  let router ← get
  let (flushed, bcForwardBuffer) := router.bcForwardBuffer.flush
    (BufferedPacket.data env.codec) router.runtime.now
  set { router with bcForwardBuffer }
  flushed.forM (processBuffered env)

def flushUnicastForwardingBuffer : Action ρ τ Unit := do
  let router ← get
  let (flushed, ucForwardBuffer) := router.ucForwardBuffer.flush
    (BufferedPacket.data env.codec) router.runtime.now
  set { router with ucForwardBuffer }
  flushed.forM (processBuffered env)

end Router

end Vanetza.Geonet
