import Vanetza.Geonet.CbfBufferRuns

/-!
# When the contention buffer is called back

The buffer asks the runtime for one callback at a time, which is to come no later than the first
timer expires. Every operation that may change the first timer decides on its own whether to ask
again. `remove`, `fetch` and `flush` decide by position and are right. `update` does not ask at all,
and `add` compares the first timer with the one from before its head drop, which may be erased by
then. So there are two conditions, and each is about the callbacks that are pending already.
-/

namespace Vanetza.Geonet

open Lib CbfPacketBuffer List

namespace CbfUse

open CbfPacketBuffer (Coupled Restricted)

variable {codec : Codec} {s : CbfUse} {action : Action}

def CoversTimers (buffer : CbfPacketBuffer) (runtime : Runtime Scope) : Prop :=
  buffer.timers ≠ [] → ∃ deadline ∈ runtime.pending .cbfBuffer,
    ∀ timer ∈ buffer.timers, deadline ≤ timer.expiry

variable {buffer : CbfPacketBuffer} {runtime : Runtime Scope}

theorem CoversTimers.subset {rest : CbfPacketBuffer}
  (h : CoversTimers buffer runtime) (hr : rest.timers ⊆ buffer.timers) :
  CoversTimers rest runtime := by
  intro hne
  have hb : buffer.timers ≠ [] := by
    intro hn
    rw [hn] at hr
    exact hne (subset_nil.1 hr)
  obtain ⟨due, hp, hle⟩ := h hb
  exact ⟨due, hp, fun timer ht => hle timer (hr ht)⟩

end CbfUse

end Vanetza.Geonet
