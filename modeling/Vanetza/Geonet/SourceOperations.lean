import Vanetza.Geonet.Router

/-!
# Source operations

What a router does of its own accord: it sends packets that upper layers ask
for, repeats them, and sends beacons. `SourceRouter` has what only these
operations use, next to the router they share with received packets.
-/

namespace Vanetza.Geonet

open Security

/-- `DataRequest::Repetition`, in seconds -/
structure Repetition where
  interval : ℚ
  maximum : ℚ
  deriving DecidableEq

namespace Repetition

def decrementByOne (repetition : Repetition) : Repetition :=
  { repetition with
    maximum :=
      if 0 < repetition.maximum ∧ 0 < repetition.interval ∧
          repetition.interval < repetition.maximum then
        repetition.maximum - repetition.interval
      else 0 }

def hasFurtherRepetition (repetition : Repetition) : Bool :=
  0 < repetition.maximum ∧ 0 < repetition.interval ∧ repetition.interval ≤ repetition.maximum

end Repetition

structure DataRequest where
  upperProtocol : UpperProtocol
  communicationProfile : InterfaceType
  itsAid : ItsAid
  permissions : ByteBuffer
  maximumLifetime : Lifetime
  repetition : Option Repetition
  maxHopLimit : UInt32
  trafficClass : TrafficClass

structure DataRequestWithAddress extends DataRequest where
  destination : Address

structure DataRequestWithArea extends DataRequest where
  destination : Area

inductive DataRequestVariant where
  | guc (request : DataRequestWithAddress)
  | gbc (request : DataRequestWithArea)
  | gac (request : DataRequestWithArea)
  | shb (request : DataRequest)
  | tsb (request : DataRequest)

/-- Change the repetition of a request through `access_request`. -/
def DataRequestVariant.modifyRepetition (f : Option Repetition → Option Repetition) :
  DataRequestVariant → DataRequestVariant
  | .guc request => .guc { request with repetition := f request.repetition }
  | .gbc request => .gbc { request with repetition := f request.repetition }
  | .gac request => .gac { request with repetition := f request.repetition }
  | .shb request => .shb { request with repetition := f request.repetition }
  | .tsb request => .tsb { request with repetition := f request.repetition }

def DataRequest.controlInfo (request : DataRequest) : ControlInfo :=
  ⟨request.communicationProfile, request.itsAid, request.permissions⟩

/-- What source operations read of `ManagementInformationBase`, and its
constructor. -/
structure SourceMib where
  itsGnIsMobile : Bool
  itsGnPaiInterval : ℚ
  itsGnMaxSduSize : UInt32
  itsGnLifetimeLocTE : ℚ
  itsGnDefaultHopLimit : UInt32
  itsGnMaxPacketLifetime : Lifetime
  itsGnDefaultPacketLifetime : Lifetime
  itsGnMaxGeoAreaSize : ℚ
  itsGnMinPacketRepetitionInterval : ℚ
  itsGnUcForwardingPacketBufferSize : UInt32
  itsGnBcForwardingPacketBufferSize : UInt32
  itsGnCbfPacketBufferSize : UInt32
  itsGnDefaultTrafficClass : TrafficClass
  vanetzaDeferInitialBeacon : Int
  vanetzaDisableBeaconing : Bool
  vanetzaFadingCbfCounter : Bool
  vanetzaFadingCbfCounterLifetime : ℚ

/-- The values a `ManagementInformationBase` is constructed with. -/
def SourceMib.default : SourceMib where
  itsGnIsMobile := true
  itsGnPaiInterval := 80
  itsGnMaxSduSize := 1398
  itsGnLifetimeLocTE := 20
  itsGnDefaultHopLimit := 10
  itsGnMaxPacketLifetime := .set 3 6
  itsGnDefaultPacketLifetime := .set 2 6
  itsGnMaxGeoAreaSize := 10 * 1000 * 1000
  itsGnMinPacketRepetitionInterval := 1 / 10
  itsGnUcForwardingPacketBufferSize := 256
  itsGnBcForwardingPacketBufferSize := 1024
  itsGnCbfPacketBufferSize := 256
  itsGnDefaultTrafficClass := ⟨0⟩
  vanetzaDeferInitialBeacon := 0
  vanetzaDisableBeaconing := false
  vanetzaFadingCbfCounter := false
  vanetzaFadingCbfCounterLifetime := 4 * (1 / 10)

structure SourceEnvironment (ρ τ : Type) extends Environment ρ τ where
  sourceMib : SourceMib
  areaSize : Area → ℚ
  generateDccField : Int → DccField
  /-- For the contention buffer, see `CbfPacketBuffer.erasedDiffers`. -/
  erasedDiffers : Nat → Bool := fun _ => true

/-- What `update_position` reads of a `PositionFix`: degrees, metres, and metres
per second. Without a confidence the semi-major axis is infinite. -/
structure PositionFix where
  latitude : ℚ
  longitude : ℚ
  semiMajor : Option ℚ
  course : ℚ
  speed : ℚ

structure RepeatedRequest where
  node : Nat
  request : DataRequestVariant
  payload : DownPacket

structure SourceRouter (ρ τ : Type) where
  router : Router ρ τ
  localSequenceNumber : SequenceNumber
  repetitions : List RepeatedRequest
  nextNode : Nat
  callbacks : List Nat

abbrev SourceAction (ρ τ α : Type) := Lib.Program Exception (SourceRouter ρ τ) α

inductive ResultCode where
  | accepted
  | rejectedMaxSduSize
  | rejectedMaxLifetime
  | rejectedMinRepetitionInterval
  | rejectedUnsupportedTrafficClass
  | rejectedMaxGeoAreaSize
  | rejectedUnspecified
  deriving DecidableEq

/-- `operator ^=`: the last error is kept. -/
def ResultCode.combine (lhs rhs : ResultCode) : ResultCode := if rhs ≠ .accepted then rhs else lhs

namespace SourceRouter

variable {ρ τ : Type} (env : SourceEnvironment ρ τ)

def validateDataRequest (request : DataRequest) : ResultCode :=
  if env.sourceMib.itsGnMaxPacketLifetime.decode <
      request.maximumLifetime.decode then .rejectedMaxLifetime
  else if request.repetition.any fun repetition =>
      repetition.interval < env.sourceMib.itsGnMinPacketRepetitionInterval then
    .rejectedMinRepetitionInterval
  else .accepted

def validateDataRequestWithArea (request : DataRequestWithArea) : ResultCode :=
  if env.sourceMib.itsGnMaxGeoAreaSize < env.areaSize request.destination then
    .rejectedMaxGeoAreaSize
  else validateDataRequest env request.toDataRequest

def payloadSize (payload : DownPacket) : Nat := payload.size env.codec .physical .application

def validatePayload : Option DownPacket → ResultCode
  | none => .rejectedUnspecified
  | some payload =>
    if env.sourceMib.itsGnMaxSduSize.toNat < payloadSize env payload then
      .rejectedMaxSduSize
    else .accepted

def truncated (x : ℚ) : Int := x.num.tdiv x.den

/-- `std::round`, half away from zero -/
def rounded (x : ℚ) : Int := if 0 ≤ x then (x + 1 / 2).floor else -(-x + 1 / 2).floor

def basicHeader : BasicHeader where
  version := Fin.ofNat 16 env.mib.itsGnProtocolVersion.toNat
  nextHeader := .any
  reserved := 0
  lifetime := env.sourceMib.itsGnDefaultPacketLifetime
  hopLimit := env.sourceMib.itsGnDefaultHopLimit.toUInt8

def basicHeaderOf (request : DataRequest) : BasicHeader :=
  { basicHeader env with
    nextHeader := if env.mib.itsGnSecurity then .secured else .common
    lifetime := request.maximumLifetime
    hopLimit := request.maxHopLimit.toUInt8 }

def commonHeader : CommonHeader where
  nextHeader := .any
  reserved1 := 0
  headerType := .any
  trafficClass := env.sourceMib.itsGnDefaultTrafficClass
  flags := if env.sourceMib.itsGnIsMobile then 0x80 else 0x00
  payload := 0
  maximumHopLimit := env.sourceMib.itsGnDefaultHopLimit.toUInt8
  reserved2 := 0

def nextHeader : UpperProtocol → Except Exception NextHeaderCommon
  | .btpA => return .btpA
  | .btpB => return .btpB
  | .ipv6 => return .ipv6
  | .unknown => throw (.runtimeError "Unhandled upper protocol")

def commonHeaderOf (request : DataRequest) : Except Exception CommonHeader := do
  return { commonHeader env with
    nextHeader := ← nextHeader request.upperProtocol
    trafficClass := request.trafficClass
    maximumHopLimit := request.maxHopLimit.toUInt8 }

def gbcHeaderType (area : Area) : HeaderType :=
  match area.shape with
  | .circle _ => .geoBroadcastCircle
  | .rectangle _ _ => .geoBroadcastRect
  | .ellipse _ _ => .geoBroadcastElip

def distances : Shape → ℚ × ℚ
  | .circle r => (r, 0)
  | .rectangle a b => (a, b)
  | .ellipse a b => (a, b)

def geoBroadcastHeader (sequenceNumber : SequenceNumber)
  (sourcePosition : LongPositionVector) (area : Area) : GeoBroadcastHeader where
  sequenceNumber
  reserved1 := 0
  sourcePosition
  geoAreaPosLatitude := .ofInt (rounded (area.position.latitude * 10 ^ 7))
  geoAreaPosLongitude := .ofInt (rounded (area.position.longitude * 10 ^ 7))
  distanceA := .ofInt (truncated (distances area.shape).1)
  distanceB := .ofInt (truncated (distances area.shape).2)
  angle := .ofInt (truncated area.angle)
  reserved2 := 0

def within {α : Type} (action : Action ρ τ α) : SourceAction ρ τ α :=
  ExceptT.mk fun s =>
    ((action.exec s.router).1, { s with router := (action.exec s.router).2 })

def shbPdu (request : DataRequest) (common : CommonHeader) (size : Nat)
  (extended : ShbHeader) : ShbPdu where
  basic := { basicHeaderOf env request with hopLimit := 1 }
  common := { common with headerType := .tsbSingleHop, maximumHopLimit := 1
                          payload := .ofNat size }
  extended
  secured := none

def createShbPdu (request : DataRequest) (size : Nat) : SourceAction ρ τ ShbPdu := do
  let common ← MonadExcept.ofExcept (commonHeaderOf env request)
  let router := (← get).router
  return shbPdu env request common size ⟨router.localPositionVector,
    env.generateDccField router.runtime.now⟩

def createBeaconPdu (router : Router ρ τ) : ExtendedPdu BeaconHeader where
  basic := { basicHeader env with hopLimit := 1 }
  common := { commonHeader env with headerType := .beacon, maximumHopLimit := 1 }
  extended := ⟨router.localPositionVector⟩
  secured := none

def gbcPdu (request : DataRequestWithArea) (common : CommonHeader)
  (size : Nat) (extended : GeoBroadcastHeader) : GbcPdu where
  basic := basicHeaderOf env request.toDataRequest
  common := { common with headerType := gbcHeaderType request.destination
                          payload := .ofNat size }
  extended
  secured := none

/-- `create_gbc_pdu`; takes a sequence number. -/
def createGbcPdu (request : DataRequestWithArea) (size : Nat) : SourceAction ρ τ GbcPdu := do
  let common ← MonadExcept.ofExcept (commonHeaderOf env request.toDataRequest)
  let s ← get
  set { s with localSequenceNumber := ⟨s.localSequenceNumber.number + 1⟩ }
  return gbcPdu env request common size (geoBroadcastHeader
    s.localSequenceNumber s.router.localPositionVector request.destination)

/-- `Repeater::add`, if the request is to be repeated at all. -/
def addRepetition (request : DataRequestVariant)
  (repetition : Option Repetition) (payload : DownPacket) : SourceAction ρ τ Unit :=
  match repetition with
  | none => return
  | some repetition =>
    if repetition.hasFurtherRepetition then
      modify fun s =>
        let nextRepetition := s.router.runtime.now + clockCast repetition.interval
        { s with
          repetitions := ⟨s.nextNode, request, payload⟩ :: s.repetitions
          nextNode := s.nextNode + 1
          callbacks := s.callbacks ++ [s.nextNode]
          router := { s.router with
            runtime := s.router.runtime.schedule nextRepetition .repeater } }
    else return

def dispatch (trafficClass : TrafficClass) (packet : BufferedPacket) : Action ρ τ Unit := do
  let router ← get
  if trafficClass.storeCarryForward && !router.locationTable.hasNeighbours router.runtime.now then
    Router.pushBcForwardBuffer env.toEnvironment packet
  else Router.processBuffered env.toEnvironment packet

def requestShb (request : DataRequest) (payload : DownPacket) : SourceAction ρ τ Unit := do
  addRepetition (.shb request) request.repetition payload
  let pdu ← createShbPdu env request (payloadSize env payload)
  within (dispatch env request.trafficClass (.shb ⟨pdu, payload, request.controlInfo⟩))

def requestGbc (request : DataRequestWithArea) (payload : DownPacket) : SourceAction ρ τ Unit := do
  addRepetition (.gbc request) request.repetition payload
  let pdu ← createGbcPdu env request (payloadSize env payload)
  within (dispatch env request.trafficClass
    (.gbc ⟨pdu, payload, .select (.source request.controlInfo) none⟩))

def confirm (payload : Option DownPacket) : DataRequestVariant → ResultCode
  | .shb request => ResultCode.combine (.combine .accepted (validateDataRequest env request))
      (validatePayload env payload)
  | .gbc request => ResultCode.combine
      (.combine .accepted (validateDataRequestWithArea env request))
      (validatePayload env payload)
  | .guc _ => .rejectedUnspecified
  | .gac _ => .rejectedUnspecified
  | .tsb _ => .rejectedUnspecified

def execute : DataRequestVariant → Option DownPacket → SourceAction ρ τ Unit
  | .shb request, some payload => requestShb env request payload
  | .gbc request, some payload => requestGbc env request payload
  | _, _ => return

def request (request : DataRequestVariant) (payload : Option DownPacket) :
  SourceAction ρ τ ResultCode := do
  let result := confirm env payload request
  if result = .accepted then execute env request payload
  return result

/-- The beginning of `Repeater::trigger`: what is left of a repetition that was
due at some time. -/
def remainingRepetition (now invocation : Int)
  (repetition : Option Repetition) : Option Repetition :=
  (repetition.map fun repetition =>
      let decremented := repetition.decrementByOne
      { decremented with
        maximum := decremented.maximum - (now - invocation) / 10 ^ 6 }).filter
    (·.hasFurtherRepetition)

/-- `Repeater::trigger` of a repetition. An exception leaves it in the list. -/
def triggerRepetition (node : Nat) (invocation : Int) : SourceAction ρ τ Unit := do
  let s ← get
  match s.repetitions.find? fun repeated => repeated.node = node with
  | none => return
  | some repeated =>
    let _ ← request env (repeated.request.modifyRepetition
      (remainingRepetition s.router.runtime.now invocation))
      (some repeated.payload)
    modify fun s => { s with
      repetitions := s.repetitions.eraseP fun repeated =>
        repeated.node = node }

def gnMgmt : ItsAid := 141

def beaconWith (router : Router ρ τ) (nextHeader : NextHeaderBasic) : Pdu :=
  let created := createBeaconPdu env router
  { created.withExtended (.beacon created.extended) with
    basic := { created.basic with nextHeader } }

def secureBeacon (router : Router ρ τ) : Action ρ τ (Option (Pdu × DownPacket)) :=
  if env.mib.itsGnSecurity then
    Router.encapPacket env.toEnvironment gnMgmt [] (beaconWith env router .secured) .empty
  else return some (beaconWith env router .common, .empty)

def onBeaconTimerExpired : Action ρ τ Unit := do
  let router ← get
  if env.sourceMib.vanetzaDisableBeaconing then return
  else if router.localPositionVector.timestamp = ⟨0⟩ then
    Router.resetBeaconTimer env.toEnvironment
  else
    match ← secureBeacon env router with
    | none => return
    | some (pdu, payload) =>
      Router.passDownOwn env.toEnvironment cBroadcastMacAddress pdu payload
      Router.resetBeaconTimer env.toEnvironment

def onCbfTimerExpired : Action ρ τ Unit := do
  let router ← get
  let (packets, cbfBuffer, runtime) := router.cbfBuffer.flush env.codec router.runtime
  set { router with cbfBuffer, runtime }
  packets.forM (Router.processGbc env.toEnvironment)

def updatePosition (positionFix : PositionFix) : Action ρ τ Unit :=
  modify fun router => { router with
    localPositionVector := { router.localPositionVector with
      timestamp := .ofTimePoint router.runtime.now
      latitude := .ofInt (truncated (positionFix.latitude * 10 ^ 7))
      longitude := .ofInt (truncated (positionFix.longitude * 10 ^ 7))
      speed :=
        if env.sourceMib.itsGnIsMobile then
          Fin.ofNat 32768 (truncated (positionFix.speed * 100) % 32768).toNat
        else 0
      heading :=
        if env.sourceMib.itsGnIsMobile then
          .ofInt (truncated (positionFix.course * 10))
        else 0
      positionAccuracyIndicator := positionFix.semiMajor.any fun semiMajor =>
        semiMajor * 2 < env.sourceMib.itsGnPaiInterval } }

def createCbfCounter : CbfCounter :=
  if env.sourceMib.vanetzaFadingCbfCounter then
    .fading (.empty (clockCast env.sourceMib.vanetzaFadingCbfCounterLifetime))
  else .contending []

def scheduleInitialBeacon (runtime : Runtime Scope) (randomGen : ρ) : Runtime Scope × ρ :=
  if env.sourceMib.vanetzaDisableBeaconing then (runtime, randomGen)
  else if 0 < env.sourceMib.vanetzaDeferInitialBeacon then
    -- defer initial beacon by given duration plus jitter
    let (jitter, randomGen) := env.random.jitter randomGen
    ((runtime.cancel .router).schedule (runtime.now + (env.sourceMib.vanetzaDeferInitialBeacon +
        clockCast (jitter * env.mib.itsGnBeaconServiceMaxJitter))) .router,
      randomGen)
  else ((runtime.cancel .router).schedule runtime.now .router, randomGen)

def create (runtime : Runtime Scope) (randomGen : ρ) (security : τ)
  (address : Address) : SourceRouter ρ τ where
  router := {
    runtime := (scheduleInitialBeacon env runtime randomGen).1
    locationTable := .empty (clockCast env.sourceMib.itsGnLifetimeLocTE)
    bcForwardBuffer := .create (env.sourceMib.itsGnBcForwardingPacketBufferSize * 1024).toUInt64
    ucForwardBuffer := .create (env.sourceMib.itsGnUcForwardingPacketBufferSize * 1024).toUInt64
    cbfBuffer := .create (createCbfCounter env)
      (env.sourceMib.itsGnCbfPacketBufferSize * 1024).toUInt64 env.erasedDiffers
    localPositionVector := { LongPositionVector.default with gnAddr := address }
    gbcMemory := ⟨max 1 env.mib.vanetzaGbcMemoryCapacity, []⟩
    randomGen := (scheduleInitialBeacon env runtime randomGen).2
    security
    events := [] }
  localSequenceNumber := ⟨0⟩
  repetitions := []
  nextNode := 0
  callbacks := []

inductive Input where
  | elapse (duration : Nat)
  | request (request : DataRequestVariant) (payload : Option DownPacket)
  | indicate (packet : UpPacket) (ll : LinkLayer)
  | updatePosition (positionFix : PositionFix)
  | callback (index : Nat)

def popped (s : SourceRouter ρ τ) (index : Nat) : SourceRouter ρ τ :=
  { s with router := { s.router with runtime := { s.router.runtime with
      queue := s.router.runtime.queue.eraseIdx index } } }

def repeaterPlace (s : SourceRouter ρ τ) (index : Nat) : Nat :=
  ((s.router.runtime.queue.take index).filter fun entry =>
    entry.2 = Scope.repeater).length

def invoke (deadline : Int) (place : Nat) : Scope → SourceAction ρ τ Unit
  | .router => within (onBeaconTimerExpired env)
  | .cbfBuffer => within (onCbfTimerExpired env)
  | .repeater => do
      let s ← get
      set { s with callbacks := s.callbacks.eraseIdx place }
      match s.callbacks[place]? with
      | none => return
      | some node => triggerRepetition env node deadline

def callback (index : Nat) : SourceAction ρ τ Unit := do
  let s ← get
  match s.router.runtime.queue[index]? with
  | none => return
  | some (deadline, scope) =>
    if s.router.runtime.now < deadline then return
    else do
      set (s.popped index)
      invoke env deadline (s.repeaterPlace index) scope

def perform : Input → SourceAction ρ τ Unit
  | .elapse duration => modify fun s => { s with
      router := { s.router with
        runtime := { s.router.runtime with
          now := s.router.runtime.now + duration } } }
  | .request request payload => discard (SourceRouter.request env request payload)
  | .indicate packet ll => within (Router.indicate env.toEnvironment packet ll)
  | .updatePosition positionFix => within (updatePosition env positionFix)
  | .callback index => callback env index

def step (s : SourceRouter ρ τ) (input : Input) : SourceRouter ρ τ := ((perform env input).exec s).2

def plainEnvironment : SourceEnvironment Unit Unit where
  mib := .default
  codec := ⟨fun _ => none, fun _ => 0⟩
  geodesy := ⟨fun _ _ => 0, fun _ _ => true, fun _ => none⟩
  random := ⟨fun _ => (.replicate 6 0, ()), fun _ => (0, ())⟩
  securityEntity := none
  hasTransport _ := true
  sourceMib := .default
  areaSize _ := 0
  generateDccField _ := .raw 0

def gbcIndication (hopLimit sequenceNumber : UInt8) : Input :=
  .indicate (.cohesive (.ofBuffer ([0x11, 0, 0x1a, hopLimit] ++
      [0x10, 0x40, 0, 0, 0, 0, 10, 0] ++ [0, sequenceNumber] ++
      .replicate 42 0) .network))
    ⟨.replicate 6 1, cBroadcastMacAddress⟩

end SourceRouter

end Vanetza.Geonet
