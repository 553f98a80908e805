import Vanetza.Geonet.Router
import Vanetza.Lib.Agreement

/-!
# Packets in chunks and packets in one piece

A router does not look into the payload of what it forwards; it only asks how long it is. `flat`
puts all octets of a payload into one layer, wherever a router keeps a payload or hands one out.
-/

namespace Vanetza.Geonet

open Security Lib Agree

namespace DownPacket

def upper (packet : DownPacket) : ByteBuffer :=
  (osiLayerRange .transport .application).flatMap packet.chunks

def flat (packet : DownPacket) : DownPacket :=
  ⟨.octets [], fun layer => if layer = .transport then packet.upper else []⟩

theorem size_eq_upper (codec : Codec) (pkt : DownPacket) :
  pkt.size codec .transport .application = pkt.upper.length := by
  simp [size, upper, osiLayerRange, osiLayers, OsiLayer.index]

theorem size_network (codec : Codec) (pkt : DownPacket) :
  pkt.size codec .network .application = pkt.network.size codec + pkt.upper.length := by
  simp [size, upper, osiLayerRange, osiLayers, OsiLayer.index]

theorem upper_flat (pkt : DownPacket) : pkt.flat.upper = pkt.upper := by
  simp [upper, flat, osiLayerRange, osiLayers, OsiLayer.index]

theorem flat_eq_iff {pkt pkt' : DownPacket} :
  pkt.flat = pkt'.flat ↔ pkt.upper = pkt'.upper := by
  constructor
  · intro h
    rw [← upper_flat, h, upper_flat]
  · intro h
    rw [flat, flat, h]

theorem size_flat (codec : Codec) (pkt : DownPacket) :
  pkt.flat.size codec .transport .application = pkt.size codec .transport .application := by
  rw [size_eq_upper, size_eq_upper, upper_flat]

end DownPacket

def PendingPacket.flat {H A : Type} (packet : PendingPacket H A) : PendingPacket H A :=
  { packet with payload := packet.payload.flat }

theorem PendingPacket.flat_congr {H A : Type} (pdu : ExtendedPdu H)
  {payload payload' : DownPacket} (h : payload.flat = payload'.flat)
  (act : A) : flat ⟨pdu, payload, act⟩ = flat ⟨pdu, payload', act⟩ :=
  congrArg (fun payload => PendingPacket.mk pdu payload act) h

theorem PendingPacket.length_flat {H A : Type} [ExtendedHeader H]
  (codec : Codec) (pkt : PendingPacket H A) :
  pkt.flat.length codec = pkt.length codec :=
  congrArg (_ + ·) (DownPacket.size_flat codec pkt.payload)

namespace PacketBuffer

variable {D : Type} {ops : BufferData D} {g : D → D}

def mapNode (g : D → D) (node : BufferNode D) : BufferNode D :=
  { node with data := g node.data }

def map (g : D → D) (buffer : PacketBuffer D) : PacketBuffer D :=
  { buffer with nodes := buffer.nodes.map (mapNode g) }

theorem size_mapNode (hl : ∀ data, ops.length (g data) = ops.length data)
  (node : BufferNode D) : size ops (mapNode g node) = size ops node :=
  congrArg UInt64.ofNat (hl node.data)

theorem dropExpired_map (hl : ∀ data, ops.length (g data) = ops.length data) (now : Int)
  (buf : PacketBuffer D) :
  (buf.map g).dropExpired ops now = (buf.dropExpired ops now).map g := by
  have hexp : ∀ node, isExpired now (mapNode g node) = isExpired now node := fun _ => rfl
  unfold dropExpired map
  simp only [List.filter_map, List.foldl_map, size_mapNode hl, Function.comp_def, hexp]

theorem dropHeads_map (hl : ∀ data, ops.length (g data) = ops.length data)
  (cap bytes : UInt64) (nodes : List (BufferNode D)) (stored : UInt64) :
  dropHeads ops cap bytes (nodes.map (mapNode g)) stored =
    ((dropHeads ops cap bytes nodes stored).1.map (mapNode g),
      (dropHeads ops cap bytes nodes stored).2) := by
  induction nodes generalizing stored with
  | nil => rfl
  | cons node rest ih =>
    rw [List.map_cons, dropHeads, dropHeads, size_mapNode hl, ih]
    split
    · rfl
    · rfl

theorem push_map (hl : ∀ data, ops.length (g data) = ops.length data)
  (hlif : ∀ data, (ops.reduceLifetime 0 (g data)).1 = (ops.reduceLifetime 0 data).1)
  (data : D) (now : Int) (buf : PacketBuffer D) :
  ((buf.map g).push ops (g data) now).2 = (buf.push ops data now).2.map g := by
  unfold push
  dsimp only
  rw [dropExpired_map hl, hl]
  have hn : ((buf.dropExpired ops now).map g).nodes =
    (buf.dropExpired ops now).nodes.map (mapNode g) := rfl
  rw [hn, dropHeads_map hl]
  have hc : ((buf.dropExpired ops now).map g).capacity = (buf.dropExpired ops now).capacity := rfl
  have hs : ((buf.dropExpired ops now).map g).stored = (buf.dropExpired ops now).stored := rfl
  rw [hc, hs]
  split
  · rw [hlif]
    simp [map, mapNode]
  · rfl

end PacketBuffer

def BufferedPacket.flat : BufferedPacket → BufferedPacket
  | .shb packet => .shb packet.flat
  | .tsb packet => .tsb packet.flat
  | .gbc packet => .gbc packet.flat

theorem BufferedPacket.length_flat (codec : Codec) (packet : BufferedPacket) :
  (data codec).length packet.flat = (data codec).length packet := by
  cases packet with
  | shb packet | tsb packet | gbc packet => exact packet.length_flat codec

theorem BufferedPacket.lifetime_flat (codec : Codec) (pkt : BufferedPacket) :
  ((data codec).reduceLifetime 0 pkt.flat).1 = ((data codec).reduceLifetime 0 pkt).1 := by
  cases pkt <;> rfl

def CbfPacket.flat (cbf : CbfPacket) : CbfPacket :=
  { cbf with packet := cbf.packet.flat }

theorem CbfPacket.length_flat (codec : Codec) (cbf : CbfPacket) :
  cbf.flat.length codec = cbf.length codec :=
  congrArg UInt64.ofNat (cbf.packet.length_flat codec)

namespace CbfPacketBuffer

def flat (buffer : CbfPacketBuffer) : CbfPacketBuffer :=
  { buffer with packets := buffer.packets.map CbfPacket.flat }

theorem dropHeads_flat (codec : Codec) (packets : List CbfPacket) (buf : CbfPacketBuffer) :
  dropHeads codec (packets.map CbfPacket.flat) buf.flat = (dropHeads codec packets buf).flat := by
  induction packets generalizing buf with
  | nil => rfl
  | cons pkt rest ih =>
    rw [List.map_cons, dropHeads, dropHeads]
    have hfull : buf.flat.capacityBytes < buf.flat.storedBytes ↔
      buf.capacityBytes < buf.storedBytes := Iff.rfl
    by_cases h : buf.capacityBytes < buf.storedBytes
    · rw [if_pos h, if_pos (hfull.2 h), ← ih, CbfPacket.length_flat]
      rfl
    · rw [if_neg h, if_neg (hfull.not.2 h)]
      rfl

theorem reschedule_flat (buf room added : CbfPacketBuffer) (rt : Runtime Scope) :
    (if buf.flat.firstChanged room.flat added.flat then
        (added.flat, added.flat.scheduleTimer rt)
      else (added.flat, rt)) =
      Prod.map flat id (if buf.firstChanged room added then
        (added, added.scheduleTimer rt) else (added, rt)) := by
  have hc : buf.flat.firstChanged room.flat added.flat = buf.firstChanged room added := rfl
  rw [hc]
  split
  · rfl
  · rfl

theorem add_flat (codec : Codec) (buf : CbfPacketBuffer)
  (pkt : CbfPacket) (tmo : Int) (rt : Runtime Scope) :
  buf.flat.add codec pkt.flat tmo rt = (buf.add codec pkt tmo rt).map flat id := by
  unfold add
  split
  · rfl
  have hr : dropHeads codec buf.flat.packets { buf.flat with
      storedBytes := buf.flat.storedBytes + pkt.length codec } =
        (dropHeads codec buf.packets { buf with
          storedBytes := buf.storedBytes + pkt.length codec }).flat :=
    dropHeads_flat codec buf.packets { buf with storedBytes := buf.storedBytes + pkt.length codec }
  dsimp only
  rw [CbfPacket.length_flat, hr]
  generalize dropHeads codec buf.packets { buf with
    storedBytes := buf.storedBytes + pkt.length codec } = room
  by_cases hkn : room.timers.any fun timer => timer.id = pkt.identifier
  · have hkn' : room.flat.timers.any fun timer =>
      timer.id = pkt.flat.identifier := hkn
    rw [if_pos hkn, if_pos hkn']
    exact reschedule_flat buf room { room with storedBytes := room.storedBytes - pkt.length codec } rt
  have hkn' : ¬ room.flat.timers.any fun timer =>
    timer.id = pkt.flat.identifier := hkn
  rw [if_neg hkn, if_neg hkn']
  have hp : room.flat.packets ++ [pkt.flat] = (room.packets ++ [pkt]).map CbfPacket.flat := by
    rw [List.map_append]
    rfl
  rw [hp]
  exact reschedule_flat buf room { room with
    packets := room.packets ++ [pkt]
    timers := insertTimer ⟨rt.now + tmo, rt.now, pkt.identifier, room.nextNode⟩ room.timers
    nextNode := room.nextNode + 1
    counter := room.counter.add rt.now pkt.identifier } rt

end CbfPacketBuffer

def Event.flat : Event → Event
  | .packetDropped reason => .packetDropped reason
  | .forwardingStopped reason => .forwardingStopped reason
  | .passUp indication packet =>
    .passUp indication (.chunk packet.duplicate.flat)
  | .passDown request packet =>
    .passDown request { packet.flat with network := packet.network }

namespace Router

variable {ρ τ : Type}

def flat (router : Router ρ τ) : Router ρ τ :=
  { router with
    bcForwardBuffer := router.bcForwardBuffer.map BufferedPacket.flat
    ucForwardBuffer := router.ucForwardBuffer.map BufferedPacket.flat
    cbfBuffer := router.cbfBuffer.flat
    events := router.events.map Event.flat }

def Alike (router router' : Router ρ τ) : Prop := router.flat = router'.flat

instance : Std.Refl (Alike : Router ρ τ → Router ρ τ → Prop) := ⟨fun _ => rfl⟩

variable {env : Environment ρ τ} {s t : Router ρ τ}

theorem Alike.runtime (h : Alike s t) : s.runtime = t.runtime := by
  have hf : s.flat.runtime = t.flat.runtime := congrArg _ h
  exact hf

theorem Alike.localPositionVector (h : Alike s t) :
  s.localPositionVector = t.localPositionVector := by
  have hf : s.flat.localPositionVector = t.flat.localPositionVector := congrArg _ h
  exact hf

theorem Alike.gbcMemory (h : Alike s t) : s.gbcMemory = t.gbcMemory := by
  have hf : s.flat.gbcMemory = t.flat.gbcMemory := congrArg _ h
  exact hf

theorem alike_emit (h : Alike s t) {event event' : Event} (hev : event.flat = event'.flat) :
  Agree Alike (fun _ _ => True) (emit event) (emit event') s t := by
  refine modify ?_
  have heve : s.events.map Event.flat = t.events.map Event.flat := congrArg Router.events h
  have ha : (s.events ++ [event]).map Event.flat = (t.events ++ [event']).map Event.flat := by
    rw [List.map_append, List.map_append, heve, List.map_singleton, List.map_singleton, hev]
  exact congrArg₂ (fun router events => { router with events }) h ha

theorem alike_pushBcForwardBuffer (h : Alike s t)
  {pkt pkt' : BufferedPacket} (hpkt : pkt.flat = pkt'.flat) :
  Agree Alike (fun _ _ => True) (pushBcForwardBuffer env pkt)
    (pushBcForwardBuffer env pkt') s t := by
  refine modify ?_
  have hb : s.bcForwardBuffer.map BufferedPacket.flat = t.bcForwardBuffer.map BufferedPacket.flat :=
    congrArg Router.bcForwardBuffer h
  have hn : s.runtime.now = t.runtime.now := by rw [h.runtime]
  have hp : (s.bcForwardBuffer.push (BufferedPacket.data env.codec) pkt
        s.runtime.now).2.map BufferedPacket.flat =
      (t.bcForwardBuffer.push (BufferedPacket.data env.codec) pkt'
        t.runtime.now).2.map BufferedPacket.flat := by
    rw [← PacketBuffer.push_map (BufferedPacket.length_flat env.codec)
        (BufferedPacket.lifetime_flat env.codec),
      ← PacketBuffer.push_map (BufferedPacket.length_flat env.codec)
        (BufferedPacket.lifetime_flat env.codec), hb, hpkt, hn]
  exact congrArg₂ (fun router bcForwardBuffer =>
    { router with bcForwardBuffer }) h hp

theorem alike_cbfAdd (h : Alike s t) {pkt pkt' : CbfPacket} (hp : pkt.flat = pkt'.flat) (tmo : ℚ) :
  Agree Alike (fun _ _ => True) (cbfAdd env pkt tmo) (cbfAdd env pkt' tmo) s t := by
  refine modify ?_
  have hb : s.cbfBuffer.flat = t.cbfBuffer.flat := congrArg Router.cbfBuffer h
  have ha : (s.cbfBuffer.add env.codec pkt (clockCast tmo)
        s.runtime).map CbfPacketBuffer.flat id = (t.cbfBuffer.add env.codec pkt' (clockCast tmo)
        t.runtime).map CbfPacketBuffer.flat id := by
    rw [← CbfPacketBuffer.add_flat, ← CbfPacketBuffer.add_flat, hb, hp, h.runtime]
  exact congrArg₂ (fun (router : Router ρ τ) added =>
    { router with cbfBuffer := added.1, runtime := added.2 }) h ha

inductive NextHop.Alike : NextHop → NextHop → Prop
  | transmit (pdu : GbcPdu) {payload payload' : DownPacket} (mac : MacAddress)
      (hpayload : payload.flat = payload'.flat) :
      Alike (.transmit ⟨pdu, payload, .forwarder⟩ mac) (.transmit ⟨pdu, payload', .forwarder⟩ mac)
  | discarded : Alike .discarded .discarded
  | buffered : Alike .buffered .buffered

section Payloads

variable {payload payload' : DownPacket} (hpayload : payload.flat = payload'.flat)

include hpayload

theorem alike_passDown (h : Alike s t) (req : DccDataRequest) (pdu : Pdu) :
  Agree Alike (fun _ _ => True) (passDown env req pdu payload)
    (passDown env req pdu payload') s t := by
  have hs : payload.size env.codec .transport .application =
      payload'.size env.codec .transport .application := by
    rw [← payload.size_flat, hpayload, payload'.size_flat]
  have hev : (Event.passDown req { payload with network := .pdu pdu }).flat =
      (Event.passDown req { payload' with network := .pdu pdu }).flat := by
    have hup := DownPacket.flat_eq_iff.1 hpayload
    have hf := DownPacket.flat_eq_iff.2
      (show ({ payload with network := .pdu pdu } : DownPacket).upper =
        ({ payload' with network := .pdu pdu } : DownPacket).upper from hup)
    rw [Event.flat, Event.flat, hf]
  unfold passDown
  rw [hs]
  by_cases hsec : pdu.secured.isSome
  · rw [if_pos hsec, if_pos hsec]
    by_cases hh : pdu.basic.nextHeader = .secured
    · rw [if_neg (not_not_intro hh), if_neg (not_not_intro hh)]
      by_cases hemp : 0 < payload'.size env.codec .transport .application
      · rw [if_pos hemp, if_pos hemp]
        exact throw _ h
      · rw [if_neg hemp, if_neg hemp]
        exact alike_emit h hev
    · rw [if_pos hh, if_pos hh]
      exact throw _ h
  · rw [if_neg hsec, if_neg hsec]
    by_cases hh : pdu.basic.nextHeader = .secured
    · rw [if_pos hh, if_pos hh]
      exact throw _ h
    · rw [if_neg hh, if_neg hh]
      exact alike_emit h hev

theorem alike_passDownForwarded (h : Alike s t) (dest : MacAddress) (pdu : Pdu) :
  Agree Alike (fun _ _ => True) (passDownForwarded env dest pdu payload)
    (passDownForwarded env dest pdu payload') s t := by
  have hr : dccRequest s dest .dp3 pdu = dccRequest t dest .dp3 pdu := by
    rw [dccRequest, dccRequest, h.localPositionVector]
  refine get_bind ?_
  rw [hr]
  exact alike_passDown hpayload h _ pdu

theorem alike_greedyForwarding (s : Router ρ τ) (pdu : GbcPdu) : Agree Alike NextHop.Alike
    (greedyForwarding env ⟨pdu, payload, .forwarder⟩)
    (greedyForwarding env ⟨pdu, payload', .forwarder⟩) s s := by
  refine get_bind ?_
  dsimp only
  split
  · exact pure (.transmit pdu _ hpayload) rfl
  split
  · refine bind (alike_pushBcForwardBuffer rfl ?_) ?_
    · exact congrArg BufferedPacket.gbc
        (PendingPacket.flat_congr pdu hpayload (GbcAction.greedy .forwarder))
    · exact fun _ _ s' t' _ h => pure .buffered h
  · exact pure (.transmit pdu _ hpayload) rfl

theorem alike_contend (env : Environment ρ τ) (h : Alike s t) (pdu : GbcPdu)
  (transmit : GbcTransmit) (sender : MacAddress) (tmo : ℚ) :
  Agree Alike (fun _ _ => True) (cbfAdd env (contend ⟨pdu, payload, transmit⟩ sender) tmo)
    (cbfAdd env (contend ⟨pdu, payload', transmit⟩ sender) tmo) s t := by
  have hp := PendingPacket.flat_congr pdu hpayload (GbcAction.broadcast transmit)
  have hc : (contend ⟨pdu, payload, transmit⟩ sender).flat =
    (contend ⟨pdu, payload', transmit⟩ sender).flat := congrArg (CbfPacket.mk · sender) hp
  exact alike_cbfAdd h hc tmo

theorem alike_contention (s : Router ρ τ) (pdu : GbcPdu) (sender : MacAddress) (tmo : ℚ) :
  Agree Alike NextHop.Alike (do
      cbfAdd env (contend ⟨pdu, payload, .forwarder⟩ sender) tmo
      return .buffered)
    (do
      cbfAdd env (contend ⟨pdu, payload', .forwarder⟩ sender) tmo
      return .buffered) s s :=
  Agree.bind (alike_contend hpayload env rfl pdu .forwarder sender tmo)
    fun _ _ _ _ _ h => Agree.pure .buffered h

theorem alike_nonAreaContentionBasedForwarding (s : Router ρ τ) (pdu : GbcPdu)
  (sender : Option MacAddress) :
  Agree Alike NextHop.Alike (nonAreaContentionBasedForwarding env ⟨pdu, payload, .forwarder⟩ sender)
    (nonAreaContentionBasedForwarding env ⟨pdu, payload', .forwarder⟩ sender) s s := by
  cases sender with
  | none => exact pure (.transmit pdu _ hpayload) rfl
  | some sender =>
    refine bind_same fun removed s' => ?_
    split
    · exact pure .discarded rfl
    refine get_bind (bind_same fun dest s'' => ?_)
    dsimp only
    split
    · split
      · exact alike_contention hpayload s'' pdu sender _
      · exact pure .discarded rfl
    · exact alike_contention hpayload s'' pdu sender _

theorem alike_areaContentionBasedForwarding (s : Router ρ τ) (pdu : GbcPdu)
  (sender : Option MacAddress) :
  Agree Alike NextHop.Alike (areaContentionBasedForwarding env ⟨pdu, payload, .forwarder⟩ sender)
    (areaContentionBasedForwarding env ⟨pdu, payload', .forwarder⟩ sender) s s := by
  cases sender with
  | none => exact pure (.transmit pdu _ hpayload) rfl
  | some sender =>
    refine bind_same fun removed s' => ?_
    split
    · exact pure .discarded rfl
    refine get_bind ?_
    split
    · exact pure .discarded rfl
    · exact alike_contention hpayload s' pdu sender _

theorem alike_areaAdvancedForwarding (s : Router ρ τ) (pdu : GbcPdu) (ll : Option LinkLayer) :
  Agree Alike NextHop.Alike (areaAdvancedForwarding env ⟨pdu, payload, .forwarder⟩ ll)
    (areaAdvancedForwarding env ⟨pdu, payload', .forwarder⟩ ll) s s := by
  cases ll with
  | none => exact pure (.transmit pdu _ hpayload) rfl
  | some ll =>
    refine get_bind ?_
    dsimp only
    split
    · split
      · exact bind_same fun _ s' => pure .discarded rfl
      · exact bind_same fun _ s' => pure .buffered rfl
    split
    · have hd : (if pdu.secured.isSome then DownPacket.empty
          else payload).flat = (if pdu.secured.isSome then DownPacket.empty
            else payload').flat := by
        split
        · rfl
        · exact hpayload
      refine bind (alike_greedyForwarding hd s pdu) ?_
      intro nh nh' s' t' hnh halk
      -- the packet contends in any case, if only for nothing
      have hc := fun transmit => alike_contend hpayload env halk pdu
        transmit ll.sender env.mib.itsGnCbfMaxTime
      cases hnh with
      | transmit pdu' mac hsent =>
        dsimp only
        split
        · exact bind (hc .noop) fun _ _ _ _ _ h => pure (.transmit pdu' mac hsent) h
        · exact bind (hc .forwarder) fun _ _ _ _ _ h => pure (.transmit pdu' mac hsent) h
      | discarded => exact bind (hc .forwarder) fun _ _ _ _ _ h => pure .discarded h
      | buffered => exact bind (hc .forwarder) fun _ _ _ _ _ h => pure .buffered h
    · exact alike_contention hpayload s pdu ll.sender _

theorem alike_forwardingAlgorithmSelection (s : Router ρ τ) (pdu : GbcPdu) (ll : Option LinkLayer) :
  Agree Alike NextHop.Alike (forwardingAlgorithmSelection env ⟨pdu, payload, .forwarder⟩ ll)
    (forwardingAlgorithmSelection env ⟨pdu, payload', .forwarder⟩ ll) s s := by
  refine bind_same fun dest s' => get_bind ?_
  split
  · split
    · exact pure (.transmit pdu _ hpayload) rfl
    · exact pure (.transmit pdu _ hpayload) rfl
    · exact alike_areaContentionBasedForwarding hpayload s' pdu _
    · exact alike_areaAdvancedForwarding hpayload s' pdu ll
  · dsimp only
    split
    · exact bind_same fun _ s'' => pure .discarded rfl
    split
    · exact alike_greedyForwarding hpayload s' pdu
    · exact alike_greedyForwarding hpayload s' pdu
    · exact alike_nonAreaContentionBasedForwarding hpayload s' pdu _

theorem alike_processGbc (s : Router ρ τ) (pdu : GbcPdu) (ll : Option LinkLayer) :
  Agree Alike (fun _ _ => True) (processGbc env ⟨pdu, payload, .select .forwarder ll⟩)
    (processGbc env ⟨pdu, payload', .select .forwarder ll⟩) s s := by
  refine bind (alike_forwardingAlgorithmSelection hpayload s pdu ll) ?_
  intro nh nh' s' t' hnh halk
  cases hnh with
  | transmit pdu' mac hsent => exact alike_passDownForwarded hsent halk mac pdu'.toPdu
  | discarded | buffered => exact pure trivial halk

end Payloads

end Router

end Vanetza.Geonet
