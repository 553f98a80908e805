import Vanetza.Geonet.Forwarding

/-!
# Greedy forwarding makes progress

A router unicasts a packet if one of its neighbours is closer to the destination than itself, and
then to one that is closest.
-/

namespace Vanetza.Geonet.Router

open Lib List

variable {ρ τ : Type}

def towards (env : Environment ρ τ) (dest : GeodeticPosition) (neighbour : LocationTableEntry) :
  Option ℚ :=
  neighbour.positionVector.map fun pv => env.geodesy.distance dest pv.position

structure Foremost (env : Environment ρ τ) (dest : GeodeticPosition) (own : ℚ)
  (neighbours : List LocationTableEntry) (neighbour : LocationTableEntry) (dist : ℚ) : Prop where
  mem : neighbour ∈ neighbours
  known : towards env dest neighbour = some dist
  closer : dist < own
  minimal : ∀ other ∈ neighbours, ∀ d ∈ towards env dest other, dist ≤ d

section Loop

variable (env : Environment ρ τ) (dest : GeodeticPosition) (own : ℚ)
  {neighbours : List LocationTableEntry} {last : LocationTableEntry}

theorem mostForward_append_none (h : towards env dest last = none) :
  mostForward env dest own (neighbours ++ [last]) = mostForward env dest own neighbours := by
  have hpv : last.positionVector = none := Option.map_eq_none_iff.1 h
  simp [mostForward, foldl_append, hpv]

theorem mostForward_append_some {dist : ℚ} (h : towards env dest last = some dist) :
  mostForward env dest own (neighbours ++ [last]) =
    if dist < (mostForward env dest own neighbours).2 then (some last.linkLayerAddress, dist)
    else mostForward env dest own neighbours := by
  obtain ⟨pv, hpv, rfl⟩ := Option.map_eq_some_iff.1 h
  rw [mostForward, foldl_append, foldl_cons, hpv]
  rfl

theorem mostForward_spec (neighbours : List LocationTableEntry) :
  (mostForward env dest own neighbours = (none, own) ∧
    ∀ other ∈ neighbours, ∀ d ∈ towards env dest other, own ≤ d) ∨
  ∃ neighbour dist, Foremost env dest own neighbours neighbour dist ∧
    mostForward env dest own neighbours = (some neighbour.linkLayerAddress, dist) := by
  induction neighbours using reverseRecOn with
  | nil => exact .inl ⟨rfl, by simp⟩
  | append_singleton neighbours last ih =>
    have hm : ∀ {bound : ℚ}, (∀ other ∈ neighbours, ∀ d ∈ towards env dest other, bound ≤ d) →
        (∀ d ∈ towards env dest last, bound ≤ d) →
        ∀ other ∈ neighbours ++ [last], ∀ d ∈ towards env dest other, bound ≤ d := by
      intro bound ho hlast other hoth
      rcases mem_append.1 hoth with hoth | hoth
      · exact ho other hoth
      · rw [mem_singleton.1 hoth]
        exact hlast
    cases ht : towards env dest last with
    | none =>
      rw [mostForward_append_none env dest own ht]
      rcases ih with ⟨hn, hf⟩ | ⟨neighbour, best, hb, hfnd⟩
      · exact .inl ⟨hn, hm hf (by simp [ht])⟩
      · exact .inr ⟨neighbour, best, ⟨mem_append_left _ hb.mem, hb.known, hb.closer,
          hm hb.minimal (by simp [ht])⟩, hfnd⟩
    | some dist =>
      rw [mostForward_append_some env dest own ht]
      rcases ih with ⟨hn, hf⟩ | ⟨neighbour, best, hb, hfnd⟩
      · rw [hn]
        by_cases hlt : dist < own
        · refine .inr ⟨last, dist, ⟨by simp, ht, hlt, ?_⟩, if_pos hlt⟩
          exact hm (fun other hoth d hd => hlt.le.trans (hf other hoth d hd)) (by simp [ht])
        · exact .inl ⟨if_neg hlt, hm hf (by simpa [ht] using hlt)⟩
      · rw [hfnd]
        by_cases hlt : dist < best
        · refine .inr ⟨last, dist, ⟨by simp, ht, hlt.trans hb.closer, ?_⟩, if_pos hlt⟩
          exact hm (fun other hoth d hd => hlt.le.trans (hb.minimal other hoth d hd)) (by simp [ht])
        · exact .inr ⟨neighbour, best, ⟨mem_append_left _ hb.mem, hb.known, hb.closer,
            hm hb.minimal (by simpa [ht] using hlt)⟩, if_neg hlt⟩

end Loop

theorem greedyForwarding_cases (env : Environment ρ τ) (router : Router ρ τ)
  (pkt : PendingPacketForwarding) :
  let dest := pkt.pdu.extended.position
  let own := env.geodesy.distance dest router.localPositionVector.position
  let neighbours := router.locationTable.neighbours router.runtime.now
  let out := ((greedyForwarding env pkt).exec router).1
  (∃ neighbour dist, Foremost env dest own neighbours neighbour dist ∧
    out = .ok (.transmit pkt neighbour.linkLayerAddress)) ∨
  (∀ other ∈ neighbours, ∀ d ∈ towards env dest other, own ≤ d) ∧
    (out = .ok .buffered ∨ out = .ok (.transmit pkt cBroadcastMacAddress)) := by
  intro dest own neighbours out
  have ho : out = _ := congrArg Prod.fst (Program.exec_bind_ok rfl)
  dsimp only at ho
  rcases mostForward_spec env dest own neighbours with
    ⟨hn, hf⟩ | ⟨neighbour, dist, hb, hfnd⟩
  · refine .inr ⟨hf, ?_⟩
    rw [show mostForward env pkt.pdu.extended.position _ _ = _ from hn] at ho
    rw [ho]
    dsimp only
    split
    · exact .inl rfl
    · exact .inr rfl
  · refine .inl ⟨neighbour, dist, hb, ?_⟩
    rw [show mostForward env pkt.pdu.extended.position _ _ = _ from hfnd] at ho
    exact ho

inductive Hop (ρ τ : Type) (distance : GeodeticPosition → GeodeticPosition → ℚ)
  (position : MacAddress → GeodeticPosition) (dest : GeodeticPosition)
  (sender receiver : MacAddress) : Prop
  | unicast (env : Environment ρ τ) (router : Router ρ τ) (packet sent : PendingPacketForwarding)
      (hdistance : env.geodesy.distance = distance)
      (hown : router.localPositionVector.position = position sender)
      (htrue : ∀ entry ∈ router.locationTable.neighbours router.runtime.now,
        ∀ pv ∈ entry.positionVector, pv.position = position entry.linkLayerAddress)
      (hdest : packet.pdu.extended.position = dest)
      (hunicast : receiver ≠ cBroadcastMacAddress)
      (hsent : ((greedyForwarding env packet).exec router).1 = .ok (.transmit sent receiver))

theorem Hop.closer {distance : GeodeticPosition → GeodeticPosition → ℚ}
  {pos : MacAddress → GeodeticPosition} {dest : GeodeticPosition}
  {sender receiver : MacAddress} (h : Hop ρ τ distance pos dest sender receiver) :
  distance dest (pos receiver) < distance dest (pos sender) := by
  obtain ⟨env, router, pkt, sent, rfl, hown, htrue, rfl, hunicast, hsent⟩ := h
  rcases greedyForwarding_cases env router pkt with
    ⟨neighbour, dist, hb, hg⟩ | ⟨-, hbuf | hbr⟩
  · obtain ⟨-, rfl⟩ := NextHop.transmit.inj (Except.ok.inj (hsent.symm.trans hg))
    obtain ⟨pv, hpv, rfl⟩ := Option.map_eq_some_iff.1 hb.known
    rw [← hown, ← htrue neighbour hb.mem pv hpv]
    exact hb.closer
  · cases hsent.symm.trans hbuf
  · exact absurd (NextHop.transmit.inj (Except.ok.inj (hsent.symm.trans hbr))).2 hunicast

theorem greedy_forwarding (ρ τ : Type) :
  (∀ (env : Environment ρ τ) (router : Router ρ τ) (packet : PendingPacketForwarding),
    let dest := packet.pdu.extended.position
    let own := env.geodesy.distance dest router.localPositionVector.position
    let neighbours := router.locationTable.neighbours router.runtime.now
    let out := ((greedyForwarding env packet).exec router).1
    ((∃ neighbour ∈ neighbours, ∃ d ∈ towards env dest neighbour, d < own) →
      ∃ neighbour dist, Foremost env dest own neighbours neighbour dist ∧
        out = .ok (.transmit packet neighbour.linkLayerAddress)) ∧
    (¬(∃ neighbour ∈ neighbours, ∃ d ∈ towards env dest neighbour, d < own) →
      out = .ok .buffered ∨ out = .ok (.transmit packet cBroadcastMacAddress))) ∧
  ∀ (distance : GeodeticPosition → GeodeticPosition → ℚ)
    (position : MacAddress → GeodeticPosition) (dest : GeodeticPosition)
    (chain : List MacAddress), chain.IsChain (Hop ρ τ distance position dest) →
    (chain.map fun station => distance dest (position station)).Pairwise (· > ·) ∧ chain.Nodup := by
  refine ⟨fun env router packet => ?_, fun distance position dest chain hc => ?_⟩
  · intro dest own neighbours out
    rcases greedyForwarding_cases env router packet with
      hb | ⟨hf, ho⟩
    · refine ⟨fun _ => hb, fun hn => ?_⟩
      obtain ⟨neighbour, dist, hb, -⟩ := hb
      exact absurd ⟨neighbour, hb.mem, dist, hb.known, hb.closer⟩ hn
    · refine ⟨?_, fun _ => ho⟩
      intro ⟨neighbour, hm, d, hd, hlt⟩
      exact absurd hlt (not_lt.2 (hf neighbour hm d hd))
  · have hp : chain.Pairwise fun sender receiver =>
        distance dest (position sender) > distance dest (position receiver) :=
      isChain_iff_pairwise.1 (hc.imp fun _ _ hop => hop.closer)
    refine ⟨pairwise_map.2 hp, hp.imp fun hlt heq => ?_⟩
    rw [heq] at hlt
    exact lt_irrefl _ hlt

end Vanetza.Geonet.Router
