import Vanetza.Geonet.Forwarding

/-!
# Indications

What a router does with a received packet: `indicate` parses one header after the other, has secured
messages decapsulated, and leaves the rest to the operations for the extended header.
-/

namespace Vanetza.Geonet

open Security

namespace Router

variable {ρ τ : Type} (env : Environment ρ τ)

/-- `detect_duplicate_address`: only with automatic configuration a conflict
makes the router choose another address. -/
def detectDuplicateAddress (source : Address) (sender : MacAddress) : Action ρ τ Unit := do
  if env.mib.itsGnLocalAddrConfMethod = .auto then
    let router ← get
    let localAddr := router.localPositionVector.gnAddr
    if source = localAddr ∨ sender = localAddr.mid then
      let (mid, randomGen) := env.random.macAddress router.randomGen
      set { router with
        randomGen
        localPositionVector := { router.localPositionVector with
          gnAddr := { localAddr with mid } } }

/-- `detect_duplicate_packet`; creates an entry for the source. -/
def detectDuplicatePacket (addrSo : Address) (sn : SequenceNumber) : Action ρ τ Bool := do
  let router ← get
  let now := router.runtime.now
  let table := router.locationTable.getValue now (.create now) addrSo.mid
  let known := (table.getDataPtr addrSo.mid).bind (·.value.duplicatePacketList)
  let dpl := known.getD ⟨env.mib.itsGnDPLLength.toNat, []⟩
  let (isDuplicate, dpl) := dpl.check sn
  set { router with locationTable := table.modify addrSo.mid fun entry =>
          { entry with duplicatePacketList := some dpl } }
  return isDuplicate

def modifyEntry (source : Address)
  (f : LocationTableEntry → LocationTableEntry) : Action ρ τ Unit :=
  modify fun router => { router with
    locationTable := router.locationTable.modify source.mid f }

def updateSource (pv : LongPositionVector) (packet : UpPacket) : Action ρ τ Unit := do
  modify fun router => { router with
    locationTable := router.locationTable.update router.runtime.now pv }
  let now := (← get).runtime.now
  let packetSize := packet.size env.codec .network .application
  modifyEntry pv.gnAddr fun entry =>
    entry.updatePdr now packetSize env.mib.itsGnMaxPacketDataRateEmaBeta

def setNeighbour (source : Address) : Action ρ τ Unit := do
  let now := (← get).runtime.now
  modifyEntry source fun entry =>
    entry.setNeighbourFor now true env.mib.vanetzaNeighbourFlagExpiry

def forwardingStop (router : Router ρ τ) (hopLimit : UInt8)
  (source : Address) (ll : LinkLayer) : Option ForwardingStopReason :=
  let limit : ℚ := env.mib.itsGnMaxPacketDataRate.toNat * 1000
  let now := router.runtime.now
  if hopLimit ≤ 1 then some .hopLimit
  else if env.mib.itsGnMaxPacketDataRate < 0xffffffff then
    if (router.locationTable.getDataPtr source.mid).any
        (·.value.pdrExceeds limit) then some .sourcePdr
    else if (router.locationTable.getValuePtr now ll.sender).any
        (·.pdrExceeds limit) then some .senderPdr
    else none
  else none

/-- `create_forwarding_duplicate`, with one hop less. The payload of a secured
packet is in its secured message. -/
def forwardingDuplicate {H A : Type} (pdu : ExtendedPdu H) (packet : UpPacket)
  (action : A) : PendingPacket H A where
  pdu := { pdu with
    basic := { pdu.basic with hopLimit := pdu.basic.hopLimit - 1 } }
  payload := if pdu.secured.isSome then .empty else packet.duplicate
  action

def storeCarryForward (router : Router ρ τ) (common : CommonHeader) : Bool :=
  common.trafficClass.storeCarryForward && !router.locationTable.hasNeighbours router.runtime.now

/-- `process_extended` says whether the packet is passed up. -/
def processBeacon (beacon : BeaconHeader) (packet : UpPacket)
  (ll : LinkLayer) : Action ρ τ Bool := do
  detectDuplicateAddress env beacon.sourcePosition.gnAddr ll.sender
  updateSource env beacon.sourcePosition packet
  setNeighbour env beacon.sourcePosition.gnAddr
  return false

def processShb (shb : ShbHeader) (packet : UpPacket) (ll : LinkLayer) : Action ρ τ Bool := do
  detectDuplicateAddress env shb.sourcePosition.gnAddr ll.sender
  updateSource env shb.sourcePosition packet
  setNeighbour env shb.sourcePosition.gnAddr
  if env.mib.itsGnIfType = .itsG5 then
    match shb.dcc.getDccMco with
    | some dccMco =>
      let localUpdate := Timestamp.ofTimePoint (← get).runtime.now
      let sourceUpdate := shb.sourcePosition.timestamp
      modifyEntry shb.sourcePosition.gnAddr fun entry =>
        { entry with loctexG5 := some ⟨localUpdate, sourceUpdate, dccMco⟩ }
    | none => pure ()
  return true

def processTsb (pdu : TsbPdu) (packet : UpPacket) (ll : LinkLayer) : Action ρ τ Bool := do
  let tsb := pdu.extended
  let source := tsb.sourcePosition.gnAddr
  -- duplicate packet detection might silently create an entry
  let router ← get
  let locteExists := router.locationTable.hasEntry router.runtime.now source
  if ← detectDuplicatePacket env source tsb.sequenceNumber then return false
  if env.mib.vanetzaMultiHopDuplicateAddressDetection then
    detectDuplicateAddress env source ll.sender
  updateSource env tsb.sourcePosition packet
  if !locteExists then modifyEntry source (·.setNeighbour false)
  flushUnicastForwardingBuffer env
  match forwardingStop env (← get) pdu.basic.hopLimit source ll with
  | some reason => forwardingStopped reason
  | none =>
    let fwdPacket := forwardingDuplicate pdu packet ()
    if storeCarryForward (← get) pdu.common then
      pushBcForwardBuffer env (.tsb fwdPacket)
    else transmitTsb env fwdPacket
  return true

/-- `decide_pass_up`; without a memory duplicates are passed up. -/
def decidePassUp (withinDestination : Bool) (gbc : GeoBroadcastHeader) : Action ρ τ Bool := do
  let accept := withinDestination || env.mib.vanetzaGbcPassUpOutsideDestination
  if env.mib.vanetzaGbcMemoryCapacity = 0 then return accept
  else if accept then
    let router ← get
    let (known, gbcMemory) := router.gbcMemory.remember
      (gbc.sourcePosition.gnAddr, gbc.sequenceNumber)
    set { router with gbcMemory }
    return !known
  else return false

def detectsDuplicates (withinDestination : Bool) : Bool :=
  if withinDestination then
    env.mib.itsGnAreaForwardingAlgorithm = .unspecified ∨
      env.mib.itsGnAreaForwardingAlgorithm = .simple
  else
    env.mib.itsGnNonAreaForwardingAlgorithm = .unspecified ∨
      env.mib.itsGnNonAreaForwardingAlgorithm = .greedy

def processGeoBroadcast (pdu : GbcPdu) (packet : UpPacket) (ll : LinkLayer) : Action ρ τ Bool := do
  let gbc := pdu.extended
  let source := gbc.sourcePosition.gnAddr
  let destArea ← MonadExcept.ofExcept (gbc.destination pdu.common.headerType)
  let router ← get
  let locteExists := router.locationTable.hasEntry router.runtime.now source
  let withinDestination := env.geodesy.insideOrAtBorder destArea router.localPositionVector.position
  if detectsDuplicates env withinDestination then
    if ← detectDuplicatePacket env source gbc.sequenceNumber then return false
  if env.mib.vanetzaMultiHopDuplicateAddressDetection then
    detectDuplicateAddress env source ll.sender
  updateSource env gbc.sourcePosition packet
  if !locteExists then modifyEntry source (·.setNeighbour false)
  flushUnicastForwardingBuffer env
  match forwardingStop env (← get) pdu.basic.hopLimit source ll with
  | some reason => forwardingStopped reason
  | none =>
    let fwdPacket := forwardingDuplicate pdu packet (GbcAction.select .forwarder (some ll))
    if storeCarryForward (← get) pdu.common then
      pushBcForwardBuffer env (.gbc fwdPacket)
    else processGbc env fwdPacket
  decidePassUp env withinDestination gbc

def passUp (indication : DataIndication) (packet : UpPacket) : Action ρ τ Unit :=
  if env.hasTransport indication.upperProtocol then
    emit (.passUp indication packet)
  else return

def processExtended (ctx : IndicationContext) (packet : UpPacket) :
  HeaderVariant → Action ρ τ (Bool × DataIndication)
  | .shb shb => do
      let indication := { ctx.servicePrimitive with
        transportType := .shb, sourcePosition := shb.sourcePosition.toShort }
      return (← processShb env shb packet ctx.linkLayer, indication)
  | .tsb tsb => do
      let indication := { ctx.servicePrimitive with
        transportType := .tsb, sourcePosition := tsb.sourcePosition.toShort }
      return (← processTsb env (ctx.pdu.withExtended tsb) packet ctx.linkLayer, indication)
  | .gbc gbc => do
      let destination ← MonadExcept.ofExcept (gbc.destination ctx.pdu.common.headerType)
      let indication := { ctx.servicePrimitive with
        transportType := .gbc, sourcePosition := gbc.sourcePosition.toShort
        destination := some destination }
      return (← processGeoBroadcast env (ctx.pdu.withExtended gbc) packet ctx.linkLayer, indication)
  | .beacon beacon => do
      return (← processBeacon env beacon packet ctx.linkLayer, ctx.servicePrimitive)

def indicateExtended (ctx : IndicationContext) (common : CommonHeader) : Action ρ τ Unit := do
  let (extended, ctx) ← MonadExcept.ofExcept (ctx.parseExtended common.headerType)
  let packet := ctx.finish
  match extended with
  | none => packetDropped .parseExtendedHeader
  | some extended =>
    if common.payload.toNat ≠ packet.size env.codec .transport .application then
      packetDropped .payloadSize
    else
      let (passedUp, indication) ← processExtended env ctx packet extended
      if passedUp then passUp env indication packet

def upperProtocol (nextHeader : NextHeaderCommon) : UpperProtocol :=
  if nextHeader = .btpA then .btpA
  else if nextHeader = .btpB then .btpB
  else if nextHeader = .ipv6 then .ipv6
  else .unknown

def indicateCommon (ctx : IndicationContext) (basic : BasicHeader) : Action ρ τ Unit := do
  let (common, ctx) ← MonadExcept.ofExcept ctx.parseCommon
  match common with
  | none => packetDropped .parseCommonHeader
  | some common =>
    if common.maximumHopLimit < basic.hopLimit then packetDropped .hopLimit
    else
      let ctx := { ctx with servicePrimitive := { ctx.servicePrimitive with
        trafficClass := common.trafficClass
        upperProtocol := upperProtocol common.nextHeader } }
      modify fun router => { router with
        locationTable := router.locationTable.dropExpired router.runtime.now }
      flushBroadcastForwardingBuffer env
      indicateExtended env ctx common

def decapsulatePacket (entity : SecurityEntity τ) (message : SecuredMessage) :
  Action ρ τ DecapConfirm := do
  let router ← get
  let (confirm, security) := entity.decapsulatePacket message router.security
  set { router with security }
  MonadExcept.ofExcept confirm

def indicatePayload (ctx : IndicationContext) (basic : BasicHeader)
  (payload : UpPacket) : Action ρ τ Unit := do
  indicateCommon env (← MonadExcept.ofExcept (ctx.ofSecured env.codec payload)) basic

def indicateSecured (ctx : IndicationContext) (basic : BasicHeader) : Action ρ τ Unit := do
  let (securedMessage, ctx) := ctx.parseSecured env.codec
  match securedMessage with
  | none => packetDropped .parseSecuredHeader
  | some message =>
    match env.securityEntity with
    | none => packetDropped .securityEntityMissing
    | some entity =>
      let confirm ← decapsulatePacket entity message
      let ctx := { ctx with servicePrimitive := { ctx.servicePrimitive with
        securityReport := confirm.report
        itsAid := some confirm.itsAid
        permissions := some confirm.permissions } }
      if isSuccessful confirm.report then
        indicatePayload env ctx basic confirm.plaintextPayload
      else if env.mib.itsGnSnDecapResultHandling = .nonStrict then
        -- `empty` of a variant is never true, so there is always a payload
        indicatePayload env ctx basic confirm.plaintextPayload
      else packetDropped .decapUnsuccessfulStrict

def indicateBasic (ctx : IndicationContext) : Action ρ τ Unit := do
  let (basic, ctx) ← MonadExcept.ofExcept ctx.parseBasic
  match basic with
  | none => packetDropped .parseBasicHeader
  | some basic =>
    if basic.version.val ≠ env.mib.itsGnProtocolVersion.toNat then
      packetDropped .itsProtocolVersion
    else
      let ctx := { ctx with servicePrimitive := { ctx.servicePrimitive with
        remainingPacketLifetime := some basic.lifetime
        remainingHopLimit := some basic.hopLimit } }
      if basic.nextHeader = .secured then indicateSecured env ctx basic
      else if basic.nextHeader = .common then
        if !env.mib.itsGnSecurity ∨ env.mib.itsGnSnDecapResultHandling = .nonStrict then
          indicateCommon env { ctx with servicePrimitive :=
            { ctx.servicePrimitive with securityReport := none } } basic
        else packetDropped .decapUnsuccessfulStrict

def indicate (packet : UpPacket) (ll : LinkLayer) : Action ρ τ Unit := do
  match packet with
  | .cohesive cohesive => indicateBasic env (.ofCohesive cohesive ll)
  | .chunk chunk => indicateBasic env (← MonadExcept.ofExcept (IndicationContext.ofChunk chunk ll))

end Router

end Vanetza.Geonet
