import Vanetza.Common.Serialization
import Vanetza.Geonet.IndicationContext
import Vanetza.Lib.Run

/-!
# Dispatching by port

`PortDispatcher` reads the BTP header in front of a payload, shows the packet to every promiscuous
hook and hands it to the handler of its destination port. Handlers and hooks are known by their
identity, and they register nothing while a packet is indicated.
-/

namespace Vanetza.Btp

open CohesivePacket Geonet InputArchive Lib Lib.Decoder List

structure HeaderA where
  destinationPort : UInt16
  sourcePort : UInt16

structure HeaderB where
  destinationPort : UInt16
  destinationPortInfo : UInt16

def lengthBytes : Nat := 4

variable {α η χ : Type}

/-- Both headers are two numbers in network byte order. -/
def deserialize (make : UInt16 → UInt16 → α) : Deserialize α := do
  let first ← loadUInt16
  let second ← loadUInt16
  return make first second

def serialize (first second : UInt16) : ByteBuffer :=
  toBigEndian 2 first.toNat ++ toBigEndian 2 second.toNat

/-- A buffer is cut behind the header; a packet made of chunks stays as it is. -/
def parseBtp (make : UInt16 → UInt16 → α) : UpPacket → Except Exception (α × UpPacket)
  | .cohesive packet => do
    let (hdr, _) ← deserialize make ⟨packet.get .transport, none⟩
    return (hdr, .cohesive (packet.setBoundary .transport lengthBytes))
  | .chunk packet => do
    let (hdr, _) ← deserialize make ⟨packet.chunks .transport, none⟩
    return (hdr, .chunk packet)

def parseBtpA : UpPacket → Except Exception (HeaderA × UpPacket) := parseBtp HeaderA.mk

def parseBtpB : UpPacket → Except Exception (HeaderB × UpPacket) := parseBtp HeaderB.mk

structure DataIndication where
  sourcePort : Option UInt16
  destinationPort : UInt16
  destinationPortInfo : Option UInt16
  destination : Option Area
  itsAid : Option Security.ItsAid
  permissions : Option ByteBuffer
  sourcePosition : ShortPositionVector
  trafficClass : TrafficClass
  remainingPacketLifetime : Option Lifetime

namespace DataIndication

def ofPorts (ind : Geonet.DataIndication) (destinationPort : UInt16)
  (sourcePort destinationPortInfo : Option UInt16) : DataIndication :=
  { ind with sourcePort, destinationPort, destinationPortInfo }

def ofA (ind : Geonet.DataIndication) (btp : HeaderA) : DataIndication :=
  ofPorts ind btp.destinationPort (some btp.sourcePort) none

def ofB (ind : Geonet.DataIndication) (btp : HeaderB) : DataIndication :=
  ofPorts ind btp.destinationPort none (some btp.destinationPortInfo)

end DataIndication

def parseBtpHeader (gnInd : Geonet.DataIndication) (packet : UpPacket) :
  Except Exception (Option DataIndication × UpPacket) :=
  match gnInd.upperProtocol with
  | .btpA => do
    let (hdr, packet) ← parseBtpA packet
    return (some (.ofA gnInd hdr), packet)
  | .btpB => do
    let (hdr, packet) ← parseBtpB packet
    return (some (.ofB gnInd hdr), packet)
  | _ => return (none, packet)

/-- `m_interactive_handlers` is the map for `true`. A port without an entry and one whose entry is
null have no handler. -/
structure PortDispatcher (η χ : Type) where
  handlers : Bool → UInt16 → Option η := fun _ _ => none
  promiscuousHooks : List χ := []

inductive Call (η χ : Type) where
  | tapPacket (packet : UpPacket) (ind : DataIndication) (hook : χ)
  | indicate (packet : UpPacket) (ind : DataIndication) (handler : η)
  | undispatched (gnInd : Geonet.DataIndication) (ind : Option DataIndication)

inductive Registration (η χ : Type) where
  | setHandler (interactive : Bool) (port : UInt16) (handler : Option η)
  | addPromiscuousHook (hook : Option χ)
  | removePromiscuousHook (hook : χ)

namespace Registration

abbrev setInteractiveHandler : UInt16 → Option η → Registration η χ := setHandler true

abbrev setNonInteractiveHandler : UInt16 → Option η → Registration η χ := setHandler false

end Registration

namespace PortDispatcher

variable [DecidableEq χ]

def addPromiscuousHook (d : PortDispatcher η χ) : Option χ → PortDispatcher η χ
  | some hook => if hook ∈ d.promiscuousHooks then d
    else { d with promiscuousHooks := d.promiscuousHooks ++ [hook] }
  | none => d

def register (d : PortDispatcher η χ) : Registration η χ → PortDispatcher η χ
  | .setHandler interactive port handler =>
    let ports := Function.update (d.handlers interactive) port handler
    { d with handlers := Function.update d.handlers interactive ports }
  | .addPromiscuousHook hook => d.addPromiscuousHook hook
  | .removePromiscuousHook hook =>
    { d with promiscuousHooks := d.promiscuousHooks.filter (· ≠ hook) }

def indicate (d : PortDispatcher η χ) (gnInd : Geonet.DataIndication) (packet : UpPacket) :
  Except Exception (List (Call η χ)) := do
  let (btpInd, packet) ← parseBtpHeader gnInd packet
  match btpInd with
  | some ind =>
    let taps := d.promiscuousHooks.map (Call.tapPacket packet ind)
    match d.handlers ind.sourcePort.isSome ind.destinationPort with
    | some handler => return taps ++ [.indicate packet ind handler]
    | none => return taps ++ [.undispatched gnInd (some ind)]
  | none => return [.undispatched gnInd none]

end PortDispatcher

theorem deserialize_written (make : UInt16 → UInt16 → α) (first second : UInt16)
  (rest : ByteBuffer) :
  deserialize make ⟨serialize first second ++ rest, none⟩ =
    .ok (make first second, ⟨rest, none⟩) := by
  have h : Recognizes (deserialize make) _ :=
    recognizes_uint16.bind_written fun first =>
      recognizes_uint16.bind_written fun second => Recognizes.pure (make first second)
  refine h.complete rest ⟨first, _, ⟨second, [], ⟨rfl, rfl⟩, rfl⟩, ?_⟩
  rw [serialize, append_nil]

def cut (headers : ByteBuffer) (first second : UInt16) (payload : ByteBuffer) : CohesivePacket :=
  (headed headers (serialize first second ++ payload)).setBoundary .transport lengthBytes

variable (headers payload : ByteBuffer) (first second : UInt16)

theorem get_cut : let packet := cut headers first second payload
  packet.get .network = headers ∧ packet.get .transport = serialize first second ∧
    packet.get .session = payload := by
  have hl : lengthBytes = (serialize first second).length := by simp [serialize, lengthBytes]
  simp [CohesivePacket.get, cut, hl, headed, setBoundary, ofBuffer, OsiLayer.index, take_append,
    drop_append]

theorem parseBtp_headed (make : UInt16 → UInt16 → α) :
  parseBtp make (.cohesive (.headed headers (serialize first second ++ payload))) =
    .ok (make first second, .cohesive (cut headers first second payload)) := by
  rw [parseBtp, headed_transport, deserialize_written]
  rfl

namespace PortDispatcher

theorem indicate_parsed {gnInd : Geonet.DataIndication} {packet after : UpPacket}
  {ind : DataIndication} (d : PortDispatcher η χ)
  (h : parseBtpHeader gnInd packet = .ok (some ind, after)) :
  d.indicate gnInd packet = .ok (d.promiscuousHooks.map (.tapPacket after ind) ++
    [(d.handlers ind.sourcePort.isSome ind.destinationPort).elim (.undispatched gnInd (some ind))
      (.indicate after ind)]) := by
  rw [indicate, h]
  dsimp only [Bind.bind, Except.bind]
  cases d.handlers ind.sourcePort.isSome ind.destinationPort <;> rfl

variable [DecidableEq χ] {d : PortDispatcher η χ}

def assigned (interactive : Bool) (port : UInt16) : Registration η χ → Option (Option η)
  | .setHandler i p handler => if i = interactive ∧ p = port then some handler else none
  | _ => none

def listens (hook : χ) : Registration η χ → Option Bool
  | .addPromiscuousHook added => if added = some hook then some true else none
  | .removePromiscuousHook removed => if removed = hook then some false else none
  | _ => none

variable (r : Registration η χ)

theorem handlers_register (interactive : Bool) (port : UInt16) :
  (d.register r).handlers interactive port =
    (assigned interactive port r).getD (d.handlers interactive port) := by
  cases r with
  | addPromiscuousHook added =>
    cases added with
    | none => rfl
    | some added =>
      rw [register, addPromiscuousHook]
      split <;> rfl
  | removePromiscuousHook removed => rfl
  | setHandler i p handler =>
    simp only [register, assigned, Function.update_apply]
    grind

theorem mem_hooks_register (hook : χ) :
  decide (hook ∈ (d.register r).promiscuousHooks) =
    (listens hook r).getD (decide (hook ∈ d.promiscuousHooks)) := by
  cases r with
  | addPromiscuousHook added =>
    cases added with
    | none => rfl
    | some added =>
      rw [register, addPromiscuousHook, listens]
      split_ifs <;> simp_all [eq_comm]
  | removePromiscuousHook removed =>
    rw [register, listens]
    split_ifs <;> simp_all [eq_comm]
  | setHandler i p handler => rfl

theorem nodup_register (h : d.promiscuousHooks.Nodup) : (d.register r).promiscuousHooks.Nodup := by
  cases r with
  | addPromiscuousHook added =>
    cases added with
    | none => exact h
    | some added =>
      rw [register, addPromiscuousHook]
      split
      · exact h
      · next hm => exact concat_eq_append ▸ h.concat hm
  | removePromiscuousHook removed => exact h.filter _
  | setHandler i p handler => exact h

variable (history : List (Registration η χ))

theorem handlers_run (interactive : Bool) (port : UInt16) :
  handlers (run register ({} : PortDispatcher η χ) history) interactive port =
    latest (assigned interactive port) none history :=
  Run.latest_run (handlers · interactive port)
    (fun _ r => handlers_register r interactive port) _ _

theorem mem_hooks_run (hook : χ) :
  hook ∈ promiscuousHooks (run register ({} : PortDispatcher η χ) history) ↔
    latest (listens hook) false history = true := by
  have h := Run.latest_run (fun d : PortDispatcher η χ => decide (hook ∈ d.promiscuousHooks))
    (fun _ r => mem_hooks_register r hook) {} history
  exact decide_eq_true_iff.symm.trans (Bool.eq_iff_iff.1 h)

theorem nodup_run : (promiscuousHooks (run register ({} : PortDispatcher η χ) history)).Nodup :=
  @Run.always _ _ _ (fun d : PortDispatcher η χ => d.promiscuousHooks.Nodup)
    (fun _ r h => nodup_register r h) _ _ nodup_nil

/-- Whatever was registered before, a payload that the router passes up is shown once to each hook
that is listening, and then it goes to the handler that was set last for its kind and port, with
the header cut off. If there is no handler, it is reported as undispatched. -/
theorem dispatched_as_registered (gnInd : Geonet.DataIndication) (interactive : Bool)
  (hbtp : gnInd.upperProtocol = if interactive then .btpA else .btpB) :
  let ind : DataIndication :=
    if interactive then .ofA gnInd ⟨first, second⟩ else .ofB gnInd ⟨first, second⟩
  ∃ (after : CohesivePacket) (hooks : List χ), after.get .network = headers ∧
    after.get .transport = serialize first second ∧ after.get .session = payload ∧
    hooks.Nodup ∧ (∀ hook, hook ∈ hooks ↔ latest (listens hook) false history = true) ∧
    (run register {} history).indicate gnInd
        (.cohesive (.headed headers (serialize first second ++ payload))) =
      .ok (hooks.map (.tapPacket (.cohesive after) ind) ++
        [(latest (assigned interactive first) none history).elim
          (.undispatched gnInd (some ind)) (.indicate (.cohesive after) ind)]) := by
  intro ind
  obtain ⟨hn, ht, hs⟩ := get_cut headers payload first second
  refine ⟨_, _, hn, ht, hs, nodup_run history, mem_hooks_run history, ?_⟩
  have hp : parseBtpHeader gnInd (.cohesive (.headed headers (serialize first second ++ payload))) =
      .ok (some ind, .cohesive (cut headers first second payload)) := by
    rw [parseBtpHeader, hbtp]
    have hm {α : Type} := parseBtp_headed headers payload first second (α := α)
    cases interactive with
    | true => exact congrArg (· >>= _) (hm HeaderA.mk)
    | false => exact congrArg (· >>= _) (hm HeaderB.mk)
  have hk : ind.sourcePort.isSome = interactive ∧ ind.destinationPort = first := by
    cases interactive <;> exact ⟨rfl, rfl⟩
  rw [indicate_parsed _ hp, hk.1, hk.2, handlers_run]

theorem dispatched_to_port_2001 :
  ∃ calls, (run register ({} : PortDispatcher Nat Nat) [.setNonInteractiveHandler 2001 (some 7)]).indicate
    { upperProtocol := .btpB } (.cohesive (.headed [] (serialize 2001 0 ++ [42]))) = .ok calls := by
  obtain ⟨_, _, -, -, -, -, -, h⟩ :=
    dispatched_as_registered [] [42] 2001 0 ([.setNonInteractiveHandler 2001 (some 7)] :
      List (Registration Nat Nat)) { upperProtocol := .btpB } false rfl
  exact ⟨_, h⟩

end PortDispatcher

end Vanetza.Btp
