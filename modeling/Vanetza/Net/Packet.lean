import Mathlib
import Vanetza.Common.ByteBuffer

/-!
# Packets

A packet is either put together layer by layer (`ChunkPacket`) or one buffer
that is cut into layers (`CohesivePacket`). A cohesive packet keeps the place
where each layer ends; setting one boundary leaves all others where they are.
-/

namespace Vanetza

inductive OsiLayer where
  | physical
  | link
  | network
  | transport
  | session
  | presentation
  | application
  deriving DecidableEq

/-- `layer_index`, from 1. -/
def OsiLayer.index : OsiLayer → Fin 8
  | .physical => 1
  | .link => 2
  | .network => 3
  | .transport => 4
  | .session => 5
  | .presentation => 6
  | .application => 7

def osiLayers : List OsiLayer :=
  [.physical, .link, .network, .transport, .session, .presentation, .application]

def osiLayerRange (first last : OsiLayer) : List OsiLayer :=
  osiLayers.filter fun layer =>
    decide (first.index ≤ layer.index ∧ layer.index ≤ last.index)

/-- `ByteBufferConvertible`. The object behind it is asked for its `size()` and is
written by `convert` on its own, so that the two may differ. -/
structure ByteBufferConvertible where
  size : Nat
  octets : ByteBuffer
  deriving DecidableEq

structure ChunkPacket where
  layer : OsiLayer → ByteBufferConvertible

namespace ChunkPacket

def empty : ChunkPacket := ⟨fun _ => ⟨0, []⟩⟩

def size (packet : ChunkPacket) (first last : OsiLayer) : Nat :=
  ((osiLayerRange first last).map fun layer => (packet.layer layer).size).sum

/-- `serialize`: all layers, from the bottom. -/
def bytes (packet : ChunkPacket) : ByteBuffer :=
  osiLayers.flatMap fun layer => (packet.layer layer).octets

end ChunkPacket

/-- `iterators i` is the offset at which layer `i` ends; layer 0 is the start
of the buffer. -/
structure CohesivePacket where
  buffer : ByteBuffer
  iterators : Fin 8 → Nat

namespace CohesivePacket

def ofBuffer (buffer : ByteBuffer) (layer : OsiLayer) : CohesivePacket :=
  ⟨buffer, fun i => if i < layer.index then 0 else buffer.length⟩

def size (packet : CohesivePacket) (first last : OsiLayer) : Nat :=
  packet.iterators last.index - packet.iterators (first.index - 1)

def setBoundary (packet : CohesivePacket) (layer : OsiLayer) (bytes : Nat) : CohesivePacket :=
  { packet with iterators := fun i =>
      if i = layer.index then packet.iterators (layer.index - 1) + bytes
      else packet.iterators i }

def trim (packet : CohesivePacket) (layer : OsiLayer) (bytes : Nat) : CohesivePacket :=
  if packet.size layer .application > bytes then
    let cut := packet.iterators (layer.index - 1) + bytes
    { packet with iterators := fun i =>
        if layer.index - 1 ≤ i ∧ cut < packet.iterators i then cut
        else packet.iterators i }
  else packet

def get (packet : CohesivePacket) (layer : OsiLayer) : ByteBuffer :=
  (packet.buffer.take (packet.iterators layer.index)).drop (packet.iterators (layer.index - 1))

def headed (headers payload : ByteBuffer) : CohesivePacket :=
  (ofBuffer (headers ++ payload) .network).setBoundary .network headers.length

theorem get_ofBuffer (buffer : ByteBuffer) : (ofBuffer buffer .network).get .network = buffer := by
  simp [get, ofBuffer, OsiLayer.index]

theorem trim_of_size_le {packet : CohesivePacket} {layer : OsiLayer}
  {bytes : Nat} (h : packet.size layer .application ≤ bytes) :
  packet.trim layer bytes = packet :=
  if_neg (not_lt.2 h)

variable (headers payload : ByteBuffer)

theorem headed_size_payload :
  (headed headers payload).size .transport .application = payload.length := by
  simp [size, headed, setBoundary, ofBuffer, OsiLayer.index]

theorem headed_size : (headed headers payload).size .network .application =
  headers.length + payload.length := by
  simp [size, headed, setBoundary, ofBuffer, OsiLayer.index]

theorem headed_transport : (headed headers payload).get .transport = payload := by
  have ht : (headers ++ payload).take (headers.length + payload.length) =
      headers ++ payload := List.take_of_length_le (by simp)
  have hg : (headed headers payload).get .transport = ((headers ++
      payload).take (headers ++ payload).length).drop headers.length := by
    simp [get, headed, setBoundary, ofBuffer, OsiLayer.index]
  rw [hg, List.length_append, ht, List.drop_left]

theorem headed_above {layer : OsiLayer} (h : 4 < layer.index) :
  (headed headers payload).get layer = [] := by
  cases layer <;> simp [get, headed, setBoundary, ofBuffer, OsiLayer.index] at *

end CohesivePacket

inductive PacketVariant where
  | chunk (packet : ChunkPacket)
  | cohesive (packet : CohesivePacket)

namespace PacketVariant

def size : PacketVariant → OsiLayer → OsiLayer → Nat
  | .chunk packet, first, last => packet.size first last
  | .cohesive packet, first, last => packet.size first last

/-- `serialize`: the whole buffer of a cohesive packet, whatever its layer
boundaries say. -/
def bytes : PacketVariant → ByteBuffer
  | .chunk packet => packet.bytes
  | .cohesive packet => packet.buffer

end PacketVariant

end Vanetza
