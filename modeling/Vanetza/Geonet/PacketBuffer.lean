import Vanetza.Geonet.IndicationContext

/-!
# Pending packets and the forwarding buffers

A pending packet is a PDU with its payload and what is to be done with it. In
the code the latter is a closure over the router; here the closures the router
makes are named, and the router says what each of them does.
-/

namespace Vanetza.Geonet

inductive InterfaceType where
  | unspecified
  | itsG5
  | lteV2x
  deriving DecidableEq

/-- `ControlInfo`: what a data request wants its packet to be sent with. -/
structure ControlInfo where
  communicationProfile : InterfaceType
  itsAid : Security.ItsAid
  permissions : ByteBuffer
  deriving DecidableEq

inductive GbcTransmit where
  | source (ctrl : ControlInfo)
  | forwarder
  | noop
  deriving DecidableEq

inductive GbcAction where
  | select (transmit : GbcTransmit) (ll : Option LinkLayer)
  | greedy (transmit : GbcTransmit)
  | broadcast (transmit : GbcTransmit)
  deriving DecidableEq

class ExtendedHeader (H : Type) where
  toVariant : H → HeaderVariant

instance : ExtendedHeader ShbHeader := ⟨.shb⟩
instance : ExtendedHeader TsbHeader := ⟨.tsb⟩
instance : ExtendedHeader GeoBroadcastHeader := ⟨.gbc⟩

def ExtendedPdu.toPdu {H : Type} [ExtendedHeader H] (pdu : ExtendedPdu H) : Pdu :=
  pdu.withExtended (ExtendedHeader.toVariant pdu.extended)

structure PendingPacket (H A : Type) where
  pdu : ExtendedPdu H
  payload : DownPacket
  action : A

def clockCast (seconds : ℚ) : Int :=
  let microseconds := seconds * 10 ^ 6
  microseconds.num.tdiv microseconds.den

namespace PendingPacket

variable {H A : Type}

def length [ExtendedHeader H] (codec : Codec) (packet : PendingPacket H A) : Nat :=
  packet.pdu.toPdu.getLength codec + packet.payload.size codec .transport .application

def withLifetime (packet : PendingPacket H A) (lifetime : Lifetime) : PendingPacket H A :=
  { packet with pdu := { packet.pdu with
      basic := { packet.pdu.basic with lifetime } } }

def reduceLifetime (queuingTime : Int) (packet : PendingPacket H A) : Int × PendingPacket H A :=
  let packetLifetime := clockCast packet.pdu.basic.lifetime.decode
  if queuingTime ≤ 0 then (packetLifetime, packet)
  else if queuingTime < packetLifetime then
    let remaining := packetLifetime - queuingTime
    (remaining, packet.withLifetime (.encode (remaining / 10 ^ 6)))
  else (0, packet.withLifetime .zero)

end PendingPacket

/-- `PendingPacketBufferData` for each kind of packet. -/
inductive BufferedPacket where
  | shb (packet : PendingPacket ShbHeader ControlInfo)
  | tsb (packet : PendingPacket TsbHeader Unit)
  | gbc (packet : PendingPacket GeoBroadcastHeader GbcAction)

structure BufferData (D : Type) where
  length : D → Nat
  reduceLifetime : Int → D → Int × D

def BufferedPacket.data (codec : Codec) : BufferData BufferedPacket where
  length
    | .shb packet => packet.length codec
    | .tsb packet => packet.length codec
    | .gbc packet => packet.length codec
  reduceLifetime d
    | .shb packet => Prod.map id .shb (packet.reduceLifetime d)
    | .tsb packet => Prod.map id .tsb (packet.reduceLifetime d)
    | .gbc packet => Prod.map id .gbc (packet.reduceLifetime d)

structure BufferNode (D : Type) where
  bufferedSince : Int
  expiresAt : Int
  data : D

structure PacketBuffer (D : Type) where
  nodes : List (BufferNode D)
  capacity : UInt64
  stored : UInt64

namespace PacketBuffer

variable {D : Type} (ops : BufferData D)

def create (capacity : UInt64) : PacketBuffer D := ⟨[], capacity, 0⟩

def size (node : BufferNode D) : UInt64 := .ofNat (ops.length node.data)

def isExpired (now : Int) (node : BufferNode D) : Bool := node.expiresAt < now

def dropExpired (now : Int) (buffer : PacketBuffer D) : PacketBuffer D where
  nodes := buffer.nodes.filter fun node => !isExpired now node
  capacity := buffer.capacity
  stored := (buffer.nodes.filter (isExpired now)).foldl
    (fun stored node => stored - size ops node) buffer.stored

/-- The loop of `drop`: drop from the head until there is room. -/
def dropHeads (capacity bytes : UInt64) :
  List (BufferNode D) → UInt64 → List (BufferNode D) × UInt64
  | [], stored => ([], stored)
  | node :: rest, stored =>
    if capacity - stored < bytes then
      dropHeads capacity bytes rest (stored - size ops node)
    else (node :: rest, stored)

def push (data : D) (now : Int) (buffer : PacketBuffer D) : Bool × PacketBuffer D :=
  let bytes : UInt64 := .ofNat (ops.length data)
  let buffer := buffer.dropExpired ops now
  let (nodes, stored) := dropHeads ops buffer.capacity bytes buffer.nodes buffer.stored
  if bytes ≤ buffer.capacity - stored then
    let node := ⟨now, now + (ops.reduceLifetime 0 data).1, data⟩
    (true, ⟨nodes ++ [node], buffer.capacity, stored + bytes⟩)
  else (false, ⟨nodes, buffer.capacity, stored⟩)

def flush (now : Int) (buffer : PacketBuffer D) : List D × PacketBuffer D :=
  ((buffer.nodes.filter fun node => !isExpired now node).map fun node =>
      (ops.reduceLifetime (now - node.bufferedSince) node.data).2,
    ⟨[], buffer.capacity, 0⟩)

variable {ops}

theorem dropHeads_subset {cap bytes stored : UInt64} {nodes : List (BufferNode D)} :
  (dropHeads ops cap bytes nodes stored).1 ⊆ nodes := by
  induction nodes generalizing stored with
  | nil => exact List.Subset.refl []
  | cons node rest ih =>
    rw [dropHeads]
    split
    · exact List.subset_cons_of_subset node ih
    · exact List.Subset.refl _

theorem mem_push {data : D} {now : Int} {buf : PacketBuffer D}
  {node : BufferNode D} (h : node ∈ (buf.push ops data now).2.nodes) :
  node ∈ buf.nodes ∨ node = ⟨now, now + (ops.reduceLifetime 0 data).1, data⟩ := by
  have hk : ∀ {cap bytes stored : UInt64}, node ∈ (dropHeads ops
      cap bytes (buf.dropExpired ops now).nodes stored).1 → node ∈ buf.nodes := fun hm =>
    List.mem_of_mem_filter (dropHeads_subset hm)
  unfold push at h
  dsimp only at h
  split at h
  · rcases List.mem_append.1 h with h | h
    · exact .inl (hk h)
    · exact .inr (List.mem_singleton.1 h)
  · exact .inl (hk h)

theorem mem_flush {now : Int} {buf : PacketBuffer D} {data : D}
  (h : data ∈ (buf.flush ops now).1) : ∃ node ∈ buf.nodes, now ≤ node.expiresAt ∧
    data = (ops.reduceLifetime (now - node.bufferedSince) node.data).2 := by
  obtain ⟨node, hn, rfl⟩ := List.mem_map.1 h
  obtain ⟨hm, hexp⟩ := List.mem_filter.1 hn
  refine ⟨node, hm, ?_, rfl⟩
  simpa [isExpired] using hexp

end PacketBuffer

end Vanetza.Geonet
