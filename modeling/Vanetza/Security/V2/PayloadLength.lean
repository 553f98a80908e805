import Vanetza.Net.CohesivePacketRuns
import Vanetza.Security.V2.SignService

/-!
# How long a payload is

The length that precedes a payload counts its layers, the octets that follow are those of the
packet's `serialize`. For a packet in chunks the two come from different members of each layer's
object, for a packet in one piece from its boundaries and from its buffer. So there is a condition
for either kind: every layer has to know its own length, or nothing may have been cut off at the end.
-/

namespace Vanetza

open Lib List

namespace PacketVariant

def layer : PacketVariant → OsiLayer → ByteBuffer
  | .chunk packet, layer => (packet.layer layer).octets
  | .cohesive packet, layer => packet.get layer

end PacketVariant

namespace CohesivePacket

variable {packet : CohesivePacket}

end CohesivePacket

end Vanetza
