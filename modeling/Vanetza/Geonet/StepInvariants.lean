import Vanetza.Geonet.Reception

/-!
# Invariants of a router, step by step

What is kept by forwarding is kept by everything else a router does: by the processing of received
packets, by requests and repetitions, and by its timers.
-/

namespace Vanetza.Geonet

open Security Lib Keeps

def HeaderVariant.transportType : HeaderVariant → TransportType
  | .beacon _ => .guc
  | .gbc _ => .gbc
  | .shb _ => .shb
  | .tsb _ => .tsb

def Traffic.Receives (T : Traffic) (ctx : IndicationContext) : HeaderVariant → Prop
  | .tsb tsb => 1 < ctx.pdu.basic.hopLimit →
      let fwd := Router.forwardingDuplicate (ctx.pdu.withExtended tsb) ctx.finish ()
      T.tsb fwd.pdu fwd.payload
  | .gbc gbc => 1 < ctx.pdu.basic.hopLimit →
      let fwd := Router.forwardingDuplicate (ctx.pdu.withExtended gbc) ctx.finish ()
      T.forwarded fwd.pdu fwd.payload
  | .shb _ => True
  | .beacon _ => True

variable {α : Type}

namespace Router

variable {ρ τ : Type} (env : Environment ρ τ)

def processNew (source : LongPositionVector) (hopLimit : UInt8)
  (packet : UpPacket) (ll : LinkLayer) (locteExists : Bool)
  (forward : Action ρ τ Unit) : Action ρ τ Unit := do
  if env.mib.vanetzaMultiHopDuplicateAddressDetection then
    detectDuplicateAddress env source.gnAddr ll.sender
  else pure ()
  updateSource env source packet
  if !locteExists then modifyEntry source.gnAddr (·.setNeighbour false)
  else pure ()
  flushUnicastForwardingBuffer env
  let router ← get
  match forwardingStop env router hopLimit source.gnAddr ll with
  | some reason => forwardingStopped reason
  | none => forward

def forwardTsb (pdu : TsbPdu) (packet : UpPacket) : Action ρ τ Unit := do
  let fwdPacket := forwardingDuplicate pdu packet ()
  let router ← get
  if storeCarryForward router pdu.common then
    pushBcForwardBuffer env (.tsb fwdPacket)
  else transmitTsb env fwdPacket

def forwardGbc (pdu : GbcPdu) (packet : UpPacket) (ll : LinkLayer) : Action ρ τ Unit := do
  let fwdPacket := forwardingDuplicate pdu packet (GbcAction.select .forwarder (some ll))
  let router ← get
  if storeCarryForward router pdu.common then
    pushBcForwardBuffer env (.gbc fwdPacket)
  else processGbc env fwdPacket

/-- All of `processGeoBroadcast` but the decision to pass up: whether the router
is at the destination, or nothing for a duplicate. -/
def forwardGeoBroadcast (pdu : GbcPdu) (packet : UpPacket) (ll : LinkLayer) :
  Action ρ τ (Option Bool) := do
  let gbc := pdu.extended
  let source := gbc.sourcePosition.gnAddr
  let destArea ← MonadExcept.ofExcept (gbc.destination pdu.common.headerType)
  let router ← get
  let locteExists := router.locationTable.hasEntry router.runtime.now source
  let withinDestination := env.geodesy.insideOrAtBorder destArea router.localPositionVector.position
  let duplicate ←
    if detectsDuplicates env withinDestination then
      detectDuplicatePacket env source gbc.sequenceNumber
    else pure false
  if duplicate then return none
  else do
    processNew env gbc.sourcePosition pdu.basic.hopLimit packet ll locteExists
      (forwardGbc env pdu packet ll)
    return some withinDestination

section Equations

variable {env}

theorem processNew_bind (source : LongPositionVector) (hopLimit : UInt8)
  (packet : UpPacket) (ll : LinkLayer) (locteExists : Bool)
  (forward : Action ρ τ Unit) (f : PUnit → Action ρ τ α) :
  processNew env source hopLimit packet ll locteExists forward >>= f = (do
    if env.mib.vanetzaMultiHopDuplicateAddressDetection then
      detectDuplicateAddress env source.gnAddr ll.sender
    else pure ()
    updateSource env source packet
    if !locteExists then modifyEntry source.gnAddr (·.setNeighbour false)
    else pure ()
    flushUnicastForwardingBuffer env
    let router ← get
    match forwardingStop env router hopLimit source.gnAddr ll with
    | some reason => forwardingStopped reason >>= f
    | none => forward >>= f) := by
  simp only [processNew, Program.ite_bind, bind_assoc]
  refine bind_congr fun _ => bind_congr fun _ => bind_congr fun _ =>
    bind_congr fun _ => bind_congr fun router => ?_
  split <;> rfl

theorem forwardTsb_bind (pdu : TsbPdu) (packet : UpPacket) (f : PUnit → Action ρ τ α) :
  forwardTsb env pdu packet >>= f = (do
    let router ← get
    if storeCarryForward router pdu.common then
      pushBcForwardBuffer env (.tsb (forwardingDuplicate pdu packet ())) >>= f
    else transmitTsb env (forwardingDuplicate pdu packet ()) >>= f) := by
  rw [forwardTsb, bind_assoc]
  refine bind_congr fun router => ?_
  split <;> rfl

theorem forwardGbc_bind (pdu : GbcPdu) (packet : UpPacket) (ll : LinkLayer)
  (f : PUnit → Action ρ τ α) :
  forwardGbc env pdu packet ll >>= f = (do
    let fwdPacket := forwardingDuplicate pdu packet (GbcAction.select .forwarder (some ll))
    let router ← get
    if storeCarryForward router pdu.common then
      pushBcForwardBuffer env (.gbc fwdPacket) >>= f
    else processGbc env fwdPacket >>= f) := by
  rw [forwardGbc, bind_assoc]
  refine bind_congr fun router => ?_
  split <;> rfl

theorem processTsb_eq (pdu : TsbPdu) (packet : UpPacket) (ll : LinkLayer) :
  processTsb env pdu packet ll = (do
    let source := pdu.extended.sourcePosition
    let router ← get
    let locteExists := router.locationTable.hasEntry router.runtime.now source.gnAddr
    let duplicate ← detectDuplicatePacket env source.gnAddr pdu.extended.sequenceNumber
    if duplicate then return false
    else do
      processNew env source pdu.basic.hopLimit packet ll locteExists (forwardTsb env pdu packet)
      return true) := by
  have hn (locteExists : Bool) :
      (processNew env pdu.extended.sourcePosition pdu.basic.hopLimit packet ll
        locteExists (forwardTsb env pdu packet) >>= fun _ => pure true) = _ :=
    processNew_bind ..
  simp only [forwardTsb_bind] at hn
  unfold processTsb
  refine bind_congr fun router => bind_congr fun duplicate => ?_
  cases duplicate with
  | true => rfl
  | false => exact (hn _).symm

theorem processGeoBroadcast_eq (pdu : GbcPdu) (packet : UpPacket) (ll : LinkLayer) :
  processGeoBroadcast env pdu packet ll = (do
    let forwarded ← forwardGeoBroadcast env pdu packet ll
    match forwarded with
    | none => return false
    | some withinDestination =>
      decidePassUp env withinDestination pdu.extended) := by
  have hn (locteExists withinDestination : Bool) :
      (processNew env pdu.extended.sourcePosition pdu.basic.hopLimit packet ll
        locteExists (forwardGbc env pdu packet ll) >>= fun _ =>
          decidePassUp env withinDestination pdu.extended) = _ :=
    processNew_bind ..
  simp only [forwardGbc_bind, Program.ite_bind] at hn
  unfold processGeoBroadcast forwardGeoBroadcast
  simp only [Program.ite_bind, bind_assoc]
  refine bind_congr fun destArea => bind_congr fun router => ?_
  split
  · rw [bind_assoc]
    refine bind_congr fun duplicate => ?_
    cases duplicate with
    | true => rfl
    | false =>
      simp only [Bool.false_eq_true, if_false, bind_assoc, pure_bind]
      exact (hn _ _).symm
  · simp only [Bool.false_eq_true, if_false, bind_assoc, pure_bind]
    exact (hn _ _).symm

end Equations

variable {router : Router ρ τ} {packet : UpPacket} {ll : LinkLayer}

section Processing

variable {env} {T : Traffic} {I : Router ρ τ → Prop} (hI : Kept T env I)

include hI in
theorem keeps_aside {f : Router ρ τ → Router ρ τ} (hf : ∀ r, (f r).runtime = r.runtime ∧
    (f r).bcForwardBuffer = r.bcForwardBuffer ∧ (f r).ucForwardBuffer = r.ucForwardBuffer ∧
    (f r).cbfBuffer = r.cbfBuffer ∧ (f r).gbcMemory = r.gbcMemory ∧ (f r).events = r.events) :
  Keeps I T.raises (modify f) fun _ => True := by
  refine modify fun r hr => ?_
  obtain ⟨hrt, hbc, huc, hc, hm, hev⟩ := hf r
  exact hI.aside hr hrt hbc huc hc hm hev

include hI in
theorem keeps_detectDuplicateAddress (source : Address) (sender : MacAddress) :
  Keeps I T.raises (detectDuplicateAddress env source sender) fun _ => True := by
  unfold detectDuplicateAddress
  split
  · refine bind get fun router hr => ?_
    dsimp only
    split
    · exact set (hI.aside hr rfl rfl rfl rfl rfl rfl)
    · exact pure trivial
  · exact pure trivial

include hI in
theorem keeps_detectDuplicatePacket (source : Address) (sn : SequenceNumber) :
  Keeps I T.raises (detectDuplicatePacket env source sn) fun _ => True :=
  Keeps.bind Keeps.get fun _ hr =>
    Keeps.bind (Keeps.set (hI.aside hr rfl rfl rfl rfl rfl rfl)) fun _ _ =>
      Keeps.pure trivial

include hI in
theorem keeps_modifyEntry (source : Address) (f : LocationTableEntry → LocationTableEntry) :
  Keeps I T.raises (modifyEntry source f) fun _ => True :=
  keeps_aside hI fun _ => ⟨rfl, rfl, rfl, rfl, rfl, rfl⟩

include hI in
theorem keeps_updateSource (pv : LongPositionVector) (packet : UpPacket) :
  Keeps I T.raises (updateSource env pv packet) fun _ => True := by
  refine bind (keeps_aside hI fun _ => ⟨rfl, rfl, rfl, rfl, rfl, rfl⟩) fun _ _ => ?_
  exact bind get fun _ _ => keeps_modifyEntry hI _ _

include hI in
theorem keeps_setNeighbour (source : Address) :
  Keeps I T.raises (setNeighbour env source) fun _ => True :=
  Keeps.bind Keeps.get fun _ _ => keeps_modifyEntry hI _ _

include hI in
theorem keeps_processBeacon (beacon : BeaconHeader) (packet : UpPacket) (ll : LinkLayer) :
  Keeps I T.raises (processBeacon env beacon packet ll) fun passedUp => passedUp = false :=
  Keeps.bind (keeps_detectDuplicateAddress hI _ _) fun _ _ =>
    Keeps.bind (keeps_updateSource hI _ _) fun _ _ =>
      Keeps.bind (keeps_setNeighbour hI _) fun _ _ => Keeps.pure rfl

include hI in
theorem keeps_processShb (shb : ShbHeader) (packet : UpPacket) (ll : LinkLayer) :
  Keeps I T.raises (processShb env shb packet ll) fun _ => True := by
  refine bind (keeps_detectDuplicateAddress hI _ _) fun _ _ => ?_
  refine bind (keeps_updateSource hI _ _) fun _ _ => ?_
  refine bind (keeps_setNeighbour hI _) fun _ _ => ?_
  dsimp only
  split
  · split
    · exact bind get fun _ _ =>
        bind (keeps_modifyEntry hI _ _) fun _ _ => pure trivial
    · exact pure trivial
  · exact pure trivial

variable {hopLimit : UInt8}

theorem hopLimit_of_forwardingStop {source : Address}
  (h : forwardingStop env router hopLimit source ll = none) :
  1 < hopLimit := by
  unfold forwardingStop at h
  dsimp only at h
  split at h
  · cases h
  · next hl => exact UInt8.not_le.1 hl

variable (hT : T.Forwards env)

include hI hT in
theorem keeps_processNew {forward : Action ρ τ Unit}
  (hf : 1 < hopLimit → Keeps I T.raises forward fun _ => True)
  (source : LongPositionVector) (packet : UpPacket) (ll : LinkLayer) (locteExists : Bool) :
  Keeps I T.raises (processNew env source hopLimit packet ll locteExists
    forward) fun _ => True := by
  have hw : ∀ {c : Prop} [Decidable c] {x : Action ρ τ Unit}, (Keeps I T.raises x fun _ => True) →
      Keeps I T.raises (if c then x else pure ()) fun _ => True := by
    intro c _ x hx
    split
    · exact hx
    · exact pure trivial
  unfold processNew
  simp only [Program.ite_bind]
  refine bind (hw (keeps_detectDuplicateAddress hI _ _)) fun _ _ => ?_
  refine bind (keeps_updateSource hI _ _) fun _ _ => ?_
  refine bind (hw (keeps_modifyEntry hI _ _)) fun _ _ => ?_
  refine bind (keeps_flushUnicastForwardingBuffer hT hI) fun _ _ => ?_
  refine bind get fun router _ => ?_
  split
  · exact keeps_emit hI trivial
  · next hs => exact hf (hopLimit_of_forwardingStop hs)

include hI hT in
theorem keeps_processTsb (pdu : TsbPdu) (packet : UpPacket) (h : 1 < pdu.basic.hopLimit →
    T.tsb (forwardingDuplicate pdu packet ()).pdu
      (forwardingDuplicate pdu packet ()).payload) (ll : LinkLayer) :
  Keeps I T.raises (processTsb env pdu packet ll) fun _ => True := by
  rw [processTsb_eq]
  refine bind get fun router _ => ?_
  refine bind (keeps_detectDuplicatePacket hI _ _) fun duplicate _ => ?_
  split
  · exact pure trivial
  refine bind (keeps_processNew hI hT (fun hl => ?_) _ _ _ _) fun _ _ => pure trivial
  refine bind get fun router _ => ?_
  split
  · exact keeps_pushBcForwardBuffer hI (.tsb _) (h hl)
  · exact keeps_transmitTsb hT hI (h hl)

include hI hT in
theorem keeps_forwardGeoBroadcast {pdu : GbcPdu} (h : 1 < pdu.basic.hopLimit →
    T.forwarded (forwardingDuplicate pdu packet ()).pdu
      (forwardingDuplicate pdu packet ()).payload) (ll : LinkLayer) :
  Keeps I T.raises (forwardGeoBroadcast env pdu packet ll) fun _ => True := by
  refine bind (keeps_destination hT _ _) fun destArea _ => ?_
  refine bind get fun router _ => ?_
  have hf : 1 < pdu.basic.hopLimit →
      Keeps I T.raises (forwardGbc env pdu packet ll) fun _ => True := by
    intro hl
    refine bind get fun router _ => ?_
    split
    · exact keeps_pushBcForwardBuffer hI (.gbc _) (h hl)
    · exact keeps_processGbc hT hI (h hl)
  have hr : ∀ duplicate : Bool, Keeps I T.raises (
      if duplicate then pure none
      else do
        processNew env pdu.extended.sourcePosition pdu.basic.hopLimit packet ll
          (router.locationTable.hasEntry router.runtime.now
            pdu.extended.sourcePosition.gnAddr) (forwardGbc env pdu packet ll)
        pure (some (env.geodesy.insideOrAtBorder destArea
          router.localPositionVector.position))) fun _ => True := by
    intro duplicate
    split
    · exact pure trivial
    · exact bind (keeps_processNew hI hT hf _ _ _ _) fun _ _ => pure trivial
  dsimp only
  split
  · exact bind (keeps_detectDuplicatePacket hI _ _) fun duplicate _ => hr duplicate
  · exact hr false

def KeptByMemory (I : Router ρ τ → Prop) : Prop :=
  ∀ r id, I r → I { r with gbcMemory := (r.gbcMemory.remember id).2 }

theorem keeps_decidePassUp (hm : KeptByMemory I)
  (withinDestination : Bool) (gbc : GeoBroadcastHeader) :
  Keeps I T.raises (decidePassUp env withinDestination gbc) fun _ => True := by
  unfold decidePassUp
  dsimp only
  split
  · exact pure trivial
  split
  · refine bind get fun router hr => ?_
    exact bind (set (hm router _ hr)) fun _ _ =>
      pure trivial
  · exact pure trivial

include hI hT in
theorem keeps_processGeoBroadcast (hm : KeptByMemory I) (pdu : GbcPdu) (packet : UpPacket)
  (h : 1 < pdu.basic.hopLimit → T.forwarded (forwardingDuplicate pdu packet ()).pdu
      (forwardingDuplicate pdu packet ()).payload) (ll : LinkLayer) :
  Keeps I T.raises (processGeoBroadcast env pdu packet ll) fun _ => True := by
  rw [processGeoBroadcast_eq]
  refine bind (keeps_forwardGeoBroadcast hI hT h ll) fun forwarded _ => ?_
  cases forwarded with
  | none => exact pure trivial
  | some withinDestination => exact keeps_decidePassUp hm _ _

end Processing

structure Delivers (T : Traffic) (I : Router ρ τ → Prop)
  (ctx : IndicationContext) (extended : HeaderVariant) : Prop where
  receives : T.Receives ctx extended
  memory : extended.transportType = .gbc → KeptByMemory I
  up : ∀ indication : DataIndication, indication.transportType = extended.transportType →
      T.up indication ctx.finish

section Indications

variable {env} {T : Traffic} {I : Router ρ τ → Prop} (hI : Kept T env I)
  (hT : T.Forwards env) {ctx : IndicationContext} {extended : HeaderVariant}

include hI hT in
theorem keeps_processExtended (hr : T.Receives ctx extended)
  (hm : extended.transportType = .gbc → KeptByMemory I) :
  Keeps I T.raises (processExtended env ctx ctx.finish extended) fun out =>
    out.1 = true → out.2.transportType = extended.transportType := by
  cases extended with
  | shb shb =>
    exact bind (keeps_processShb hI _ _ _) fun _ _ =>
      pure fun _ => rfl
  | tsb tsb =>
    exact bind (keeps_processTsb hI hT (ctx.pdu.withExtended tsb)
      ctx.finish hr _) fun _ _ => pure fun _ => rfl
  | gbc gbc =>
    refine bind (keeps_destination hT _ _) fun dest _ => ?_
    exact bind (keeps_processGeoBroadcast hI hT (hm rfl)
      (ctx.pdu.withExtended gbc) ctx.finish hr _) fun _ _ =>
        pure fun _ => rfl
  | beacon beacon =>
    refine bind (keeps_processBeacon hI _ _ _) fun passedUp hp => ?_
    refine pure fun htrue => ?_
    cases hp.symm.trans htrue

include hI in
theorem keeps_passUp {ind : DataIndication} (h : T.up ind packet) :
  Keeps I T.raises (passUp env ind packet) fun _ => True := by
  unfold passUp
  split
  · exact keeps_emit hI h
  · exact pure trivial

include hI hT in
theorem keeps_deliver (h : Delivers T I ctx extended) :
  Keeps I T.raises (deliver env ctx extended) fun _ => True := by
  refine bind (keeps_processExtended hI hT h.receives h.memory) fun out ho => ?_
  obtain ⟨passedUp, ind⟩ := out
  dsimp only
  split
  · next hp => exact keeps_passUp hI (h.up ind (ho hp))
  · exact pure trivial

include hI hT in
theorem keeps_refresh : Keeps I T.raises (refresh env) fun _ => True :=
  Keeps.bind (keeps_aside hI fun _ => ⟨rfl, rfl, rfl, rfl, rfl, rfl⟩)
    fun _ _ => keeps_flushBroadcastForwardingBuffer hT hI

include hI hT in
theorem keeps_indicateHeard {common : CommonHeader} (hdel : ∀ extended ctx',
    heardExtended env ctx common = some (extended, ctx') →
      Keeps I T.raises (deliver env ctx' extended) fun _ => True) :
  Keeps I T.raises (indicateHeard env ctx common) fun _ => True := by
  refine bind (keeps_refresh hI hT) fun _ _ => ?_
  refine ofExec fun router _ => ?_
  rcases exec_indicateExtended env ctx common router with
    ⟨-, reason, hex⟩ | ⟨extended, ctx', hhd, hex⟩
  · have hd : T.Reports (.packetDropped reason) := trivial
    exact ⟨_, keeps_emit hI hd, hex⟩
  · exact ⟨_, hdel extended ctx' hhd, hex⟩

include hI in
theorem kept_of_onlyDrops {router' : Router ρ τ} (h : OnlyDrops router router')
  (hr : I router) : I router' := by
  obtain ⟨security, drops, rfl, hd⟩ := h
  induction drops using List.reverseRecOn with
  | nil => exact hI.aside hr rfl rfl rfl rfl rfl (List.append_nil _)
  | append_singleton drops event ih =>
    obtain ⟨reason, rfl⟩ := hd event (by simp)
    have hb := ih fun event hev => hd event (by simp [hev])
    rw [← List.append_assoc]
    exact hI.event hb trivial

include hI hT in
theorem kept_indicate (hr : I router) (hdel : ∀ extended ctx security,
    received env router.security packet ll = some (extended, ctx, security) →
      Keeps I T.raises (deliver env ctx extended) fun _ => True) :
  I ((indicate env packet ll).exec router).2 ∧
    ∀ e, ((indicate env packet ll).exec router).1 = .error e →
      T.raises e := by
  rcases exec_indicate env packet ll router with
    ⟨-, hd, hra⟩ | ⟨common, ctx, security, hhd, hex⟩
  · refine ⟨kept_of_onlyDrops hI hd hr, fun e he => ?_⟩
    rcases hra e he with ho | hen
    · exact hT.raisesOther ho
    · exact hT.raisesEntity hen
  have hkp := keeps_indicateHeard hI hT fun extended ctx' hext =>
    hdel extended ctx' security (received_of_heard hhd hext)
  have hr' : I { router with security } := hI.aside hr rfl rfl rfl rfl rfl rfl
  rw [hex]
  exact ⟨hkp.state hr', fun e he => hkp.throws hr' he⟩

end Indications

end Router

structure Traffic.Sources {ρ τ : Type} (T : Traffic) (env : SourceEnvironment ρ τ) : Prop
  extends T.Forwards env.toEnvironment where
  repeated : ∀ {request payload} (f : Option Repetition → Option Repetition),
    T.wanted request payload → T.wanted (request.modifyRepetition f) payload
  createdShb : ∀ {request payload common} (extended : ShbHeader), T.wanted (.shb request) payload →
    SourceRouter.commonHeaderOf env request = .ok common →
    T.shb (SourceRouter.shbPdu env request common
      (SourceRouter.payloadSize env payload) extended) payload
  createdGbc : ∀ {request payload common} (sn : SequenceNumber)
    (source : LongPositionVector), T.wanted (.gbc request) payload →
    SourceRouter.commonHeaderOf env request.toDataRequest = .ok common →
    T.own (SourceRouter.gbcPdu env request common (SourceRouter.payloadSize env payload)
      (SourceRouter.geoBroadcastHeader sn source request.destination)) payload
  beaconDown : ∀ (router : Router ρ τ) {secured},
    (if env.mib.itsGnSecurity then ∃ message, secured =
        ({ SourceRouter.beaconWith env router .secured with
            secured := some message }, DownPacket.empty.mergeUpper .empty)
      else secured = (SourceRouter.beaconWith env router .common, .empty)) →
    T.down secured.1 secured.2

structure SourceKept {ρ τ : Type} (T : Traffic) (env : SourceEnvironment ρ τ)
  (I : Router ρ τ → Prop) : Prop extends Kept T env.toEnvironment I where
  elapse : ∀ {r} (duration : Nat), I r → I { r with
    runtime := { r.runtime with now := r.runtime.now + duration } }
  repeater : ∀ {r} (deadline : Int), I r → I { r with
    runtime := r.runtime.schedule deadline .repeater }

namespace SourceRouter

variable {ρ τ : Type} {env : SourceEnvironment ρ τ} {T : Traffic} {I : Router ρ τ → Prop}

def Holds (T : Traffic) (I : Router ρ τ → Prop) (s : SourceRouter ρ τ) : Prop :=
  I s.router ∧ ∀ repeated ∈ s.repetitions, T.wanted repeated.request repeated.payload

section Own

variable (hI : Kept T env.toEnvironment I) (hT : T.Sources env)

include hI hT in
theorem keeps_dispatch (trafficClass : TrafficClass) (packet : BufferedPacket)
  (h : T.Allows packet) :
  Keeps I T.raises (dispatch env trafficClass packet) fun _ => True := by
  refine bind get fun router _ => ?_
  split
  · exact Router.keeps_pushBcForwardBuffer hI packet h
  · exact Router.keeps_processBuffered hT.toForwards hI h

include hI hT in
theorem keeps_onBeaconTimerExpired : Keeps I T.raises (onBeaconTimerExpired env) fun _ => True := by
  refine bind get fun router _ => ?_
  split
  · exact pure trivial
  split
  · exact Router.keeps_resetBeaconTimer hI
  have hs : Keeps I T.raises (secureBeacon env router) fun secured =>
      ∀ out ∈ secured, T.down out.1 out.2 := by
    unfold secureBeacon
    split
    · next hsec =>
      refine (Router.keeps_encapPacket hT.toForwards hI _ _ _
        _).weaken fun secured h out ho => hT.beaconDown router ?_
      rw [if_pos hsec]
      exact h out ho
    · next hsec =>
      refine pure ?_
      rintro _ ⟨⟩
      refine hT.beaconDown router ?_
      rw [if_neg hsec]
  refine bind hs fun secured hd => ?_
  cases secured with
  | none => exact pure trivial
  | some out =>
    exact bind (Router.keeps_passDownOwn hT.toForwards hI _ (hd out rfl)) fun _ _ =>
        Router.keeps_resetBeaconTimer hI

include hI hT in
theorem keeps_onCbfTimerExpired : Keeps I T.raises (onCbfTimerExpired env) fun _ => True :=
  Keeps.bind Keeps.get fun _ hr =>
    Keeps.bind (Keeps.set (hI.cbfFlush hr).1) fun _ _ =>
      Keeps.forM fun packet hp =>
        Router.keeps_processGbc hT.toForwards hI ((hI.cbfFlush hr).2 packet hp)

include hI in
theorem keeps_updatePosition (positionFix : PositionFix) :
  Keeps I T.raises (updatePosition env positionFix) fun _ => True :=
  Router.keeps_aside hI fun _ => ⟨rfl, rfl, rfl, rfl, rfl, rfl⟩

end Own

section Source

variable (hI : SourceKept T env I) (hT : T.Sources env)

theorem keeps_within {act : Action ρ τ α} {Q : α → Prop} (h : Keeps I T.raises act Q) :
  Keeps (Holds T I) T.raises (within act) Q where
  state hs := ⟨h.state hs.1, hs.2⟩
  returns hs := h.returns hs.1
  throws hs := h.throws hs.1

include hT in
theorem keeps_commonHeaderOf (request : DataRequest) :
  Keeps (Holds T I) T.raises (MonadExcept.ofExcept
    (commonHeaderOf env request) : SourceAction ρ τ CommonHeader)
    fun common => commonHeaderOf env request = .ok common := by
  refine ofExcept (fun _ h => h) fun e he => hT.raisesOther ?_
  unfold commonHeaderOf at he
  cases hp : request.upperProtocol <;> rw [hp] at he <;> cases he
  decide

variable {payload : DownPacket} {request : DataRequestVariant}

include hI in
theorem keeps_addRepetition (h : T.wanted request payload) (rep : Option Repetition) :
  Keeps (Holds T I) T.raises (addRepetition request rep payload) fun _ => True := by
  unfold addRepetition
  cases rep with
  | none => exact pure trivial
  | some rep =>
    dsimp only
    split
    · exact modify fun s hs => ⟨hI.repeater _ hs.1, List.forall_mem_cons.2 ⟨h, hs.2⟩⟩
    · exact pure trivial

include hI hT in
theorem keeps_requestShb {request : DataRequest} (h : T.wanted (.shb request) payload) :
  Keeps (Holds T I) T.raises (requestShb env request payload) fun _ => True := by
  refine bind (keeps_addRepetition hI h _) fun _ _ => ?_
  have hc : Keeps (Holds T I) T.raises (createShbPdu env request (payloadSize env payload))
      fun pdu => T.shb pdu payload := by
    refine bind (keeps_commonHeaderOf hT request) fun common hcom => ?_
    exact bind get fun s _ =>
      pure (hT.createdShb _ h hcom)
  exact bind hc fun pdu hp =>
    keeps_within (keeps_dispatch hI.toKept hT _ (.shb _) hp)

include hI hT in
theorem keeps_requestGbc {request : DataRequestWithArea} (h : T.wanted (.gbc request) payload) :
  Keeps (Holds T I) T.raises (requestGbc env request payload) fun _ => True := by
  refine bind (keeps_addRepetition hI h _) fun _ _ => ?_
  have hc : Keeps (Holds T I) T.raises (createGbcPdu env request (payloadSize env payload))
      fun pdu => T.own pdu payload := by
    refine bind (keeps_commonHeaderOf hT _) fun common hcom => ?_
    refine bind get fun s hs => ?_
    exact bind (set hs) fun _ _ =>
      pure (hT.createdGbc _ _ h hcom)
  exact bind hc fun pdu hp =>
    keeps_within (keeps_dispatch hI.toKept hT _ (.gbc _) hp)

include hI hT in
theorem keeps_request {payload : Option DownPacket}
  (h : ∀ given, payload = some given → T.wanted request given) :
  Keeps (Holds T I) T.raises (SourceRouter.request env request payload) fun _ => True := by
  unfold SourceRouter.request
  simp only [Program.ite_bind]
  refine bind (Q := fun _ => True) ?_ fun _ _ => pure trivial
  split
  · unfold execute
    split
    · exact keeps_requestShb hI hT (h _ rfl)
    · exact keeps_requestGbc hI hT (h _ rfl)
    · exact pure trivial
  · exact pure trivial

include hI hT in
theorem keeps_triggerRepetition (node : Nat) (invocation : Int) :
  Keeps (Holds T I) T.raises (triggerRepetition env node invocation) fun _ => True := by
  refine bind get fun s hs => ?_
  split
  · exact pure trivial
  next rep hf =>
  have hw := hs.2 rep (List.mem_of_find?_eq_some hf)
  refine bind (keeps_request hI hT ?_) fun _ _ => ?_
  · rintro _ ⟨⟩
    exact hT.repeated _ hw
  · exact modify fun s hs => ⟨hs.1, fun rep hm =>
      hs.2 rep (List.mem_of_mem_eraseP hm)⟩

include hI hT in
theorem keeps_invoke (due : Int) (place : Nat) (scope : Scope) :
  Keeps (Holds T I) T.raises (invoke env due place scope) fun _ => True := by
  cases scope with
  | router => exact keeps_within (keeps_onBeaconTimerExpired hI.toKept hT)
  | cbfBuffer => exact keeps_within (keeps_onCbfTimerExpired hI.toKept hT)
  | repeater =>
    refine bind get fun s hs => ?_
    refine bind (set hs) fun _ _ => ?_
    split
    · exact pure trivial
    · exact keeps_triggerRepetition hI hT _ _

end Source

section Steps

variable (hI : SourceKept T env I) (hT : T.Sources env) {s : SourceRouter ρ τ}

theorem exec_callback_eq (env : SourceEnvironment ρ τ) (s : SourceRouter ρ τ) (index : Nat) :
  (callback env index).exec s = (match s.router.runtime.queue[index]? with
    | none => pure ()
    | some (due, scope) =>
      if s.router.runtime.now < due then pure ()
      else do
        set (s.popped index)
        invoke env due (s.repeaterPlace index) scope :
    SourceAction ρ τ Unit).exec s := rfl

theorem exec_callback_due (env : SourceEnvironment ρ τ)
  {s : SourceRouter ρ τ} {index : Nat} {due : Int} {scope : Scope}
  (hent : s.router.runtime.queue[index]? = some (due, scope)) (hdue : due ≤ s.router.runtime.now) :
  (callback env index).exec s = (invoke env due (s.repeaterPlace index) scope).exec
      (s.popped index) := by
  rw [exec_callback_eq, hent]
  dsimp only
  rw [if_neg (not_lt.2 hdue)]
  rfl

theorem exec_callback (env : SourceEnvironment ρ τ) (s : SourceRouter ρ τ) (index : Nat) :
  (callback env index).exec s = (.ok (), s) ∨ ∃ due scope,
      s.router.runtime.queue[index]? = some (due, scope) ∧ due ≤ s.router.runtime.now ∧
      (callback env index).exec s = (invoke env due (s.repeaterPlace index) scope).exec
          (s.popped index) := by
  cases hent : s.router.runtime.queue[index]? with
  | none =>
    rw [exec_callback_eq, hent]
    exact .inl rfl
  | some entry =>
    obtain ⟨due, scope⟩ := entry
    by_cases hdue : s.router.runtime.now < due
    · rw [exec_callback_eq, hent]
      dsimp only
      rw [if_pos hdue]
      exact .inl rfl
    · exact .inr ⟨due, scope, rfl, not_lt.1 hdue, exec_callback_due env hent (not_lt.1 hdue)⟩

def delivered (env : SourceEnvironment ρ τ) (s : SourceRouter ρ τ) :
  Input → Option (HeaderVariant × IndicationContext × τ)
  | .indicate packet ll => Router.received env.toEnvironment s.router.security packet ll
  | _ => none

structure Admissible (T : Traffic) (env : SourceEnvironment ρ τ)
  (I : Router ρ τ → Prop) (s : SourceRouter ρ τ) (input : Input) : Prop where
  delivers : ∀ extended ctx security, delivered env s input = some (extended, ctx, security) →
      Router.Delivers T I ctx extended
  wanted : ∀ request payload, input = .request request (some payload) → T.wanted request payload
  popped : ∀ index deadline scope, input = .callback index →
    s.router.runtime.queue[index]? = some (deadline, scope) →
    deadline ≤ s.router.runtime.now → I (s.popped index).router

include hI hT in
theorem holds_perform {input : Input} (hs : Holds T I s) (h : Admissible T env I s input) :
  Holds T I ((perform env input).exec s).2 ∧
    ∀ e, ((perform env input).exec s).1 = .error e → T.raises e := by
  have hkp : ∀ {x : SourceAction ρ τ Unit} {s' : SourceRouter ρ τ},
      Holds T I s' → (Keeps (Holds T I) T.raises x fun _ => True) →
      Holds T I (x.exec s').2 ∧ ∀ e, (x.exec s').1 = .error e → T.raises e :=
    fun hs' hx => ⟨hx.state hs', fun _ he => hx.throws hs' he⟩
  cases input with
  | elapse dur => exact ⟨⟨hI.elapse dur hs.1, hs.2⟩, by rintro e ⟨⟩⟩
  | request request payload =>
    refine hkp hs (bind (keeps_request hI hT fun given hg => ?_) fun _ _ => pure trivial)
    subst hg
    exact h.wanted request given rfl
  | indicate packet ll =>
    have hind := Router.kept_indicate hI.toKept hT.toForwards hs.1 fun extended ctx security hr =>
        Router.keeps_deliver hI.toKept hT.toForwards (h.delivers extended ctx security hr)
    exact ⟨⟨hind.1, hs.2⟩, hind.2⟩
  | updatePosition positionFix =>
    exact hkp hs (keeps_within (keeps_updatePosition hI.toKept positionFix))
  | callback index =>
    have hex : (perform env (.callback index)).exec s = (callback env index).exec s := rfl
    rw [hex]
    rcases exec_callback env s index with
      hid | ⟨due, scope, hent, hdue, hex⟩
    · rw [hid]
      exact ⟨hs, by rintro e ⟨⟩⟩
    · rw [hex]
      exact hkp ⟨h.popped index due scope rfl hent hdue, hs.2⟩ (keeps_invoke hI hT _ _ scope)

end Steps

end SourceRouter

namespace Traffic

def any (up : DataIndication → UpPacket → Prop) : Traffic where
  wanted _ _ := True
  shb _ _ := True
  tsb _ _ := True
  own _ _ := True
  forwarded _ _ := True
  down _ _ := True
  up
  raises _ := True

variable (up : DataIndication → UpPacket → Prop)

theorem gbc_any (transmit : GbcTransmit) (pdu : GbcPdu) (payload : DownPacket) :
  (any up).gbc transmit pdu payload := by
  cases transmit <;> trivial

theorem allows_any (packet : BufferedPacket) : (any up).Allows packet := by
  cases packet with
  | shb packet | tsb packet => trivial
  | gbc packet => exact gbc_any up _ _ _

theorem sources_any {ρ τ : Type} (env : SourceEnvironment ρ τ) : (any up).Sources env where
  duplicate _ := gbc_any up _ _ _
  shbDown _ _ _ _ := trivial
  ownDown _ _ _ _ := trivial
  tsbDown _ := trivial
  forwardedDown _ := trivial
  sendable _ := .inr fun _ _ => trivial
  raisesOther _ := trivial
  raisesEntity _ := trivial
  repeated _ _ := trivial
  createdShb _ _ _ := trivial
  createdGbc _ _ _ _ := trivial
  beaconDown _ _ _ := trivial

theorem receives_any (ctx : IndicationContext) (extended : HeaderVariant) :
  (any up).Receives ctx extended := by
  cases extended with
  | shb shb => trivial
  | tsb tsb | gbc gbc => exact fun _ => trivial
  | beacon beacon => trivial

end Traffic

end Vanetza.Geonet
