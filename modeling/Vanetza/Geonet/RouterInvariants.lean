import Vanetza.Geonet.SourceOperations

/-!
# Invariants of a router

Whatever a router does, it does by a few kinds of changes: it puts packets into
its buffers and takes them out again, asks the runtime for callbacks, and calls
what is above and below it. Everything else is of no importance to what becomes
of a packet.
-/

namespace Vanetza.Geonet

open Security Lib

def GbcAction.transmit : GbcAction → GbcTransmit
  | .select transmit _ => transmit
  | .greedy transmit => transmit
  | .broadcast transmit => transmit

structure Traffic where
  wanted : DataRequestVariant → DownPacket → Prop
  shb : ShbPdu → DownPacket → Prop
  tsb : TsbPdu → DownPacket → Prop
  own : GbcPdu → DownPacket → Prop
  forwarded : GbcPdu → DownPacket → Prop
  down : Pdu → DownPacket → Prop
  up : DataIndication → UpPacket → Prop
  raises : Exception → Prop

namespace Traffic

variable (T : Traffic)

def gbc : GbcTransmit → GbcPdu → DownPacket → Prop
  | .source _ => T.own
  | .forwarder => T.forwarded
  | .noop => fun _ _ => True

def Allows : BufferedPacket → Prop
  | .shb packet => T.shb packet.pdu packet.payload
  | .tsb packet => T.tsb packet.pdu packet.payload
  | .gbc packet => T.gbc packet.action.transmit packet.pdu packet.payload

def Reports : Event → Prop
  | .packetDropped _ => True
  | .forwardingStopped _ => True
  | .passUp indication packet => T.up indication packet
  | .passDown _ packet => ∃ pdu payload, T.down pdu payload ∧
      packet = { payload with network := .pdu pdu }

def Hop : Router.NextHop → Prop
  | .transmit packet _ => T.gbc packet.action packet.pdu packet.payload
  | .discarded => True
  | .buffered => True

end Traffic

namespace Router

variable {ρ τ : Type}

def Sendable (codec : Codec) (pdu : Pdu) (payload : DownPacket) : Prop :=
  if pdu.secured.isSome then pdu.basic.nextHeader = .secured ∧
    payload.size codec .transport .application = 0
  else pdu.basic.nextHeader ≠ .secured

def passDownErrors : List Exception :=
  [.runtimeError "PDU with secured message but Secured not set in basic header",
    .runtimeError "PDU with secured message and illegal upper layer payload",
    .runtimeError "PDU without secured message but Secured set in basic header"]

def EntityRaises (env : Environment ρ τ) (e : Exception) : Prop :=
  ∃ entity, env.securityEntity = some entity ∧
    ((∃ message state, (entity.decapsulatePacket message state).1 = .error e) ∨
      ∃ packet aid ssp state, (entity.encapsulatePacket packet aid ssp state).1 = .error e)

def Secures (env : Environment ρ τ) (pdu : Pdu) (payload : DownPacket)
  (secured : Pdu × DownPacket) : Prop :=
  if env.mib.itsGnSecurity then
    ∃ message, secured = ({ pdu with secured := some message }, payload.mergeUpper .empty)
  else secured = (pdu, payload)

end Router

open Router

structure Traffic.Forwards {ρ τ : Type} (T : Traffic) (env : Environment ρ τ) : Prop where
  duplicate : ∀ {transmit pdu payload}, T.gbc transmit pdu payload →
    T.gbc transmit pdu (if pdu.secured.isSome then .empty else payload)
  shbDown : ∀ {pdu payload} (source : LongPositionVector) {secured}, T.shb pdu payload →
    Secures env (pdu.withExtended { pdu.extended with
      sourcePosition := source }).toPdu payload secured →
    T.down secured.1 secured.2
  ownDown : ∀ {pdu payload} (source : LongPositionVector) {secured}, T.own pdu payload →
    Secures env (pdu.withExtended { pdu.extended with
      sourcePosition := source }).toPdu payload secured →
    T.down secured.1 secured.2
  tsbDown : ∀ {pdu payload}, T.tsb pdu payload → T.down pdu.toPdu payload
  forwardedDown : ∀ {pdu payload}, T.forwarded pdu payload → T.down pdu.toPdu payload
  sendable : ∀ {pdu payload}, T.down pdu payload →
    Sendable env.codec pdu payload ∨ ∀ e ∈ passDownErrors, T.raises e
  raisesOther : ∀ {e}, e ∉ passDownErrors → T.raises e
  raisesEntity : ∀ {e}, EntityRaises env e → T.raises e

structure Kept {ρ τ : Type} (T : Traffic) (env : Environment ρ τ)
  (I : Router ρ τ → Prop) : Prop where
  aside : ∀ {r r' : Router ρ τ}, I r → r'.runtime = r.runtime →
    r'.bcForwardBuffer = r.bcForwardBuffer →
    r'.ucForwardBuffer = r.ucForwardBuffer → r'.cbfBuffer = r.cbfBuffer →
    r'.gbcMemory = r.gbcMemory → r'.events = r.events → I r'
  timer : ∀ {r} (deadline : Int), I r → I { r with
    runtime := (r.runtime.cancel .router).schedule deadline .router }
  event : ∀ {r event}, I r → T.Reports event → I { r with events := r.events ++ [event] }
  bcPush : ∀ {r packet}, I r → T.Allows packet → I { r with
    bcForwardBuffer := (r.bcForwardBuffer.push
      (BufferedPacket.data env.codec) packet r.runtime.now).2 }
  bcFlush : ∀ {r}, I r →
    let flushed := r.bcForwardBuffer.flush (BufferedPacket.data env.codec) r.runtime.now
    I { r with bcForwardBuffer := flushed.2 } ∧ ∀ packet ∈ flushed.1, T.Allows packet
  ucFlush : ∀ {r}, I r →
    let flushed := r.ucForwardBuffer.flush (BufferedPacket.data env.codec) r.runtime.now
    I { r with ucForwardBuffer := flushed.2 } ∧ ∀ packet ∈ flushed.1, T.Allows packet
  cbfAdd : ∀ {r packet} (timeout : Int), I r → T.Allows (.gbc packet.packet) →
    let added := r.cbfBuffer.add env.codec packet timeout r.runtime
    I { r with cbfBuffer := added.1, runtime := added.2 }
  cbfRemove : ∀ {r} (id : CbfPacketIdentifier), I r →
    let removed := r.cbfBuffer.remove env.codec id r.runtime
    I { r with cbfBuffer := removed.2.1, runtime := removed.2.2 }
  cbfUpdate : ∀ {r} (id : CbfPacketIdentifier) (timeout : Int), I r →
    I { r with cbfBuffer := r.cbfBuffer.update id timeout r.runtime }
  cbfFlush : ∀ {r}, I r →
    let flushed := r.cbfBuffer.flush env.codec r.runtime
    I { r with cbfBuffer := flushed.2.1, runtime := flushed.2.2 } ∧
      ∀ packet ∈ flushed.1, T.Allows (.gbc packet)

namespace Router

variable {ρ τ : Type} {env : Environment ρ τ} {T : Traffic} {I : Router ρ τ → Prop}

section Down

theorem keeps_emit (hI : Kept T env I) {event : Event} (h : T.Reports event) :
  Keeps I T.raises (emit event) fun _ => True :=
  Keeps.modify fun _ hr => hI.event hr h

theorem keeps_resetBeaconTimer (hI : Kept T env I) :
  Keeps I T.raises (resetBeaconTimer env) fun _ => True :=
  Keeps.modify fun _ hr => hI.aside (hI.timer _ hr) rfl rfl rfl rfl rfl rfl

theorem passDown_cases (env : Environment ρ τ) (req : DccDataRequest)
  (pdu : Pdu) (payload : DownPacket) :
  passDown env req pdu payload = emit (.passDown req { payload with network := .pdu pdu }) ∨
    ¬ Sendable env.codec pdu payload ∧
      ∃ e ∈ passDownErrors, passDown env req pdu payload = throw e := by
  unfold passDown Sendable
  by_cases hs : pdu.secured.isSome
  · rw [if_pos hs, if_pos hs]
    by_cases hh : pdu.basic.nextHeader = .secured
    · rw [if_neg (not_not_intro hh)]
      by_cases hp : 0 < payload.size env.codec .transport .application
      · rw [if_pos hp]
        exact .inr ⟨fun h => hp.ne' h.2, _, by decide, rfl⟩
      · rw [if_neg hp]
        exact .inl rfl
    · rw [if_pos hh]
      exact .inr ⟨fun h => hh h.1, _, by decide, rfl⟩
  · rw [if_neg hs, if_neg hs]
    by_cases hh : pdu.basic.nextHeader = .secured
    · rw [if_pos hh]
      exact .inr ⟨not_not_intro hh, _, by decide, rfl⟩
    · rw [if_neg hh]
      exact .inl rfl

variable (hT : T.Forwards env) (hI : Kept T env I)

variable {payload : DownPacket} {pdu : Pdu}

include hT hI in
theorem keeps_passDown (req : DccDataRequest) (h : T.down pdu payload) :
  Keeps I T.raises (passDown env req pdu payload) fun _ => True := by
  rcases passDown_cases env req pdu payload with
    heq | ⟨hu, e, he, heq⟩ <;> rw [heq]
  · exact keeps_emit hI ⟨pdu, payload, h, rfl⟩
  refine Keeps.throw ?_
  rcases hT.sendable h with hs | hr
  · exact absurd hs hu
  · exact hr e he

include hT hI in
theorem keeps_passDownOwn (dest : MacAddress) (h : T.down pdu payload) :
  Keeps I T.raises (passDownOwn env dest pdu payload) fun _ => True :=
  Keeps.bind Keeps.get fun _ _ => keeps_passDown hT hI _ h

include hT hI in
theorem keeps_passDownForwarded (dest : MacAddress) (h : T.down pdu payload) :
  Keeps I T.raises (passDownForwarded env dest pdu payload) fun _ => True :=
  Keeps.bind Keeps.get fun _ _ => keeps_passDown hT hI _ h

include hT hI in
theorem keeps_encapPacket (itsAid : ItsAid) (ssp : ByteBuffer) (pdu : Pdu) (payload : DownPacket) :
  Keeps I T.raises (encapPacket env itsAid ssp pdu payload) fun secured =>
    ∀ out ∈ secured, ∃ message, out =
      ({ pdu with secured := some message }, payload.mergeUpper .empty) := by
  unfold encapPacket
  split
  · exact Keeps.pure fun _ hn => by cases hn
  next entity hent =>
  refine Keeps.bind Keeps.get fun router hr => ?_
  refine Keeps.bind (Keeps.set (hI.aside hr rfl rfl rfl rfl rfl rfl)) fun _ _ => ?_
  refine Keeps.bind (Keeps.ofExcept (Q := fun _ => True)
    (fun _ _ => trivial) fun e he => hT.raisesEntity
      ⟨entity, hent, .inr ⟨_, _, _, _, he⟩⟩) fun confirm _ => ?_
  cases confirm with
  | none => exact Keeps.pure fun _ hn => by cases hn
  | some message =>
    refine Keeps.pure ?_
    rintro _ ⟨⟩
    exact ⟨message, rfl⟩

include hT hI in
theorem keeps_secureOwn (ctrl : ControlInfo) (pdu : Pdu) (payload : DownPacket) :
  Keeps I T.raises (secureOwn env ctrl pdu payload) fun secured =>
    ∀ out ∈ secured, Secures env pdu payload out := by
  unfold secureOwn
  split
  · next hs =>
    refine (keeps_encapPacket hT hI _ _ pdu payload).weaken fun secured h out ho => ?_
    rw [Secures, if_pos hs]
    exact h out ho
  next hs =>
  refine Keeps.pure ?_
  rintro _ ⟨⟩
  rw [Secures, if_neg hs]

include hT hI in
theorem keeps_transmitShb {packet : PendingPacket ShbHeader ControlInfo}
  (h : T.shb packet.pdu packet.payload) :
  Keeps I T.raises (transmitShb env packet) fun _ => True := by
  refine Keeps.bind Keeps.get fun router _ => ?_
  refine Keeps.bind (keeps_secureOwn hT hI _ _ _) fun secured hs => ?_
  cases secured with
  | none => exact Keeps.pure trivial
  | some out =>
    have hd := hT.shbDown _ h (hs out rfl)
    exact Keeps.bind (keeps_passDownOwn hT hI _ hd) fun _ _ =>
      keeps_resetBeaconTimer hI

include hT hI in
theorem keeps_transmitTsb {packet : PendingPacket TsbHeader Unit}
  (h : T.tsb packet.pdu packet.payload) :
  Keeps I T.raises (transmitTsb env packet) fun _ => True :=
  keeps_passDownForwarded hT hI _ (hT.tsbDown h)

include hT hI in
theorem keeps_transmitGbc {transmit : GbcTransmit} {pdu : GbcPdu}
  (mac : MacAddress) (h : T.gbc transmit pdu payload) :
  Keeps I T.raises (transmitGbc env transmit pdu payload mac) fun _ => True := by
  cases transmit with
  | source ctrl =>
    refine Keeps.bind Keeps.get fun router _ => ?_
    refine Keeps.bind (keeps_secureOwn hT hI _ _ _) fun secured hs => ?_
    cases secured with
    | none => exact Keeps.pure trivial
    | some out => exact keeps_passDownOwn hT hI _ (hT.ownDown _ h (hs out rfl))
  | forwarder => exact keeps_passDownForwarded hT hI _ (hT.forwardedDown h)
  | noop => exact Keeps.pure trivial

include hT hI in
theorem keeps_nextHop {nh : NextHop} (h : T.Hop nh) :
  Keeps I T.raises (nh.process env) fun _ => True := by
  cases nh with
  | transmit packet mac => exact keeps_transmitGbc hT hI mac h
  | discarded | buffered => exact Keeps.pure trivial

end Down

section Forwarding

variable (hT : T.Forwards env) (hI : Kept T env I)

include hI in
theorem keeps_pushBcForwardBuffer (packet : BufferedPacket) (h : T.Allows packet) :
  Keeps I T.raises (pushBcForwardBuffer env packet) fun _ => True :=
  Keeps.modify fun _ hr => hI.bcPush hr h

include hI in
theorem keeps_cbfAdd {packet : CbfPacket} (tmo : ℚ) (h : T.Allows (.gbc packet.packet)) :
  Keeps I T.raises (cbfAdd env packet tmo) fun _ => True :=
  Keeps.modify fun _ hr => hI.cbfAdd _ hr h

include hI in
theorem keeps_cbfRemove (id : CbfPacketIdentifier) :
  Keeps I T.raises (cbfRemove env id) fun _ => True :=
  Keeps.bind Keeps.get fun _ hr =>
    Keeps.bind (Keeps.set (hI.cbfRemove id hr)) fun _ _ => Keeps.pure trivial

include hT in
theorem keeps_destination (gbc : GeoBroadcastHeader) (ht : HeaderType) :
  Keeps I T.raises (MonadExcept.ofExcept (gbc.destination ht) :
    Action ρ τ Area) fun _ => True := by
  refine Keeps.ofExcept (fun _ _ => trivial) fun e he => hT.raisesOther ?_
  unfold GeoBroadcastHeader.destination at he
  split at he
  · cases he
  split at he
  · cases he
  split at he
  · cases he
  · cases he
    decide

variable (packet : PendingPacketForwarding) (h : T.gbc packet.action packet.pdu packet.payload)

include hI h in
theorem keeps_greedyForwarding : Keeps I T.raises (greedyForwarding env packet) T.Hop := by
  refine Keeps.bind Keeps.get fun router _ => ?_
  dsimp only
  split
  · exact Keeps.pure h
  · split
    · exact Keeps.bind (keeps_pushBcForwardBuffer hI (.gbc _) h) fun _ _ => Keeps.pure trivial
    · exact Keeps.pure h

include hI h in
theorem keeps_contend (sender : MacAddress) (tmo : ℚ) : Keeps I T.raises (do
    cbfAdd env (contend packet sender) tmo
    return .buffered) T.Hop :=
  Keeps.bind (keeps_cbfAdd hI tmo h) fun _ _ => Keeps.pure trivial

include hT hI h in
theorem keeps_nonAreaContentionBasedForwarding (sender : Option MacAddress) :
  Keeps I T.raises (nonAreaContentionBasedForwarding env packet sender) T.Hop := by
  cases sender with
  | none => exact Keeps.pure h
  | some sender =>
    refine Keeps.bind (keeps_cbfRemove hI _) fun removed _ => ?_
    split
    · exact Keeps.pure trivial
    refine Keeps.bind Keeps.get fun router _ => ?_
    refine Keeps.bind (keeps_destination hT _ _) fun dest _ => ?_
    split
    · dsimp only
      split
      · exact keeps_contend hI packet h _ _
      · exact Keeps.pure trivial
    · exact keeps_contend hI packet h _ _

include hI h in
theorem keeps_areaContentionBasedForwarding (sender : Option MacAddress) :
  Keeps I T.raises (areaContentionBasedForwarding env packet sender) T.Hop := by
  cases sender with
  | none => exact Keeps.pure h
  | some sender =>
    refine Keeps.bind (keeps_cbfRemove hI _) fun removed _ => ?_
    split
    · exact Keeps.pure trivial
    refine Keeps.bind Keeps.get fun router _ => ?_
    split
    · exact Keeps.pure trivial
    · exact keeps_contend hI packet h _ _

include hT hI h in
theorem keeps_areaAdvancedForwarding (ll : Option LinkLayer) :
  Keeps I T.raises (areaAdvancedForwarding env packet ll) T.Hop := by
  cases ll with
  | none => exact Keeps.pure h
  | some ll =>
    refine Keeps.bind Keeps.get fun router hr => ?_
    split
    · split
      · exact Keeps.bind (keeps_cbfRemove hI _) fun _ _ => Keeps.pure trivial
      · exact Keeps.bind (Keeps.set (hI.cbfUpdate _ _ hr)) fun _ _ =>
          Keeps.pure trivial
    split
    · refine Keeps.bind (keeps_greedyForwarding hI (duplicatePending packet)
          (hT.duplicate h)) fun nh hnh => ?_
      -- the packet contends in any case, if only for nothing
      refine Keeps.bind (keeps_cbfAdd hI _ ?_) fun _ _ => Keeps.pure hnh
      cases nh with
      | transmit _ mac =>
        by_cases hm : mac = cBroadcastMacAddress
        · simp only [hm, if_true]
          exact trivial
        · simp only [if_neg hm]
          exact h
      | discarded | buffered => exact h
    · exact keeps_contend hI packet h _ _

include hT hI h in
theorem keeps_forwardingAlgorithmSelection (ll : Option LinkLayer) :
  Keeps I T.raises (forwardingAlgorithmSelection env packet ll) T.Hop := by
  refine Keeps.bind (keeps_destination hT _ _) fun dest _ => ?_
  refine Keeps.bind Keeps.get fun router _ => ?_
  split
  · split
    · exact Keeps.pure h
    · exact Keeps.pure h
    · exact keeps_areaContentionBasedForwarding hI packet h _
    · exact keeps_areaAdvancedForwarding hT hI packet h ll
  · dsimp only
    split
    · exact Keeps.bind (keeps_emit hI trivial) fun _ _ => Keeps.pure trivial
    split
    · exact keeps_greedyForwarding hI packet h
    · exact keeps_greedyForwarding hI packet h
    · exact keeps_nonAreaContentionBasedForwarding hT hI packet h _

end Forwarding

section Pending

variable (hT : T.Forwards env) (hI : Kept T env I)

include hT hI in
theorem keeps_processGbc {packet : PendingPacket GeoBroadcastHeader GbcAction}
  (h : T.gbc packet.action.transmit packet.pdu packet.payload) :
  Keeps I T.raises (processGbc env packet) fun _ => True := by
  obtain ⟨pdu, payload, action⟩ := packet
  cases action with
  | select transmit ll =>
    exact Keeps.bind (keeps_forwardingAlgorithmSelection hT hI
      ⟨pdu, payload, transmit⟩ h ll) fun nh hnh => keeps_nextHop hT hI hnh
  | greedy transmit =>
    exact Keeps.bind (keeps_greedyForwarding hI ⟨pdu, payload, transmit⟩ h)
      fun nh hnh => keeps_nextHop hT hI hnh
  | broadcast transmit => exact keeps_transmitGbc hT hI _ h

include hT hI in
theorem keeps_processBuffered {packet : BufferedPacket} (h : T.Allows packet) :
  Keeps I T.raises (processBuffered env packet) fun _ => True := by
  cases packet with
  | shb packet => exact keeps_transmitShb hT hI h
  | tsb packet => exact keeps_transmitTsb hT hI h
  | gbc packet => exact keeps_processGbc hT hI h

include hT hI in
theorem keeps_flushBroadcastForwardingBuffer :
  Keeps I T.raises (flushBroadcastForwardingBuffer env) fun _ => True :=
  Keeps.bind Keeps.get fun _ hr =>
    Keeps.bind (Keeps.set (hI.bcFlush hr).1) fun _ _ =>
      Keeps.forM fun packet hp =>
        keeps_processBuffered hT hI ((hI.bcFlush hr).2 packet hp)

include hT hI in
theorem keeps_flushUnicastForwardingBuffer :
  Keeps I T.raises (flushUnicastForwardingBuffer env) fun _ => True :=
  Keeps.bind Keeps.get fun _ hr =>
    Keeps.bind (Keeps.set (hI.ucFlush hr).1) fun _ _ =>
      Keeps.forM fun packet hp =>
        keeps_processBuffered hT hI ((hI.ucFlush hr).2 packet hp)

end Pending

end Router

end Vanetza.Geonet
