import Vanetza.Geonet.IndicationContext
import Vanetza.Security.V2.Exactness

/-!
# What the parser makes of secured messages

The parser of the router looks at the message and the number of octets that it gets from the
deserializer, not at the state of the archive. So messages go on to the security entity although a
limit was exceeded.
-/

namespace Vanetza.Security.V2

def Demand.keyLimit : Demand := ⟨fun _ _ => True, (· ≤ 512)⟩

namespace SecuredMessage

theorem wire_head {D : Dialect} {out : SecuredMessage × Nat} {w : ByteBuffer}
  (h : wire D out w) : 0 < out.2 ∧ w.head? = some 2 := by
  obtain ⟨message, total⟩ := out
  obtain ⟨size, header, counted, fields, pay, data, trailer, trailers, -, -,
    -, -, -, -, -, -, -, -, rfl, rfl⟩ := h
  refine ⟨?_, rfl⟩
  dsimp only
  omega

def empty : SecuredMessage := ⟨[], [], ⟨.unsecured, .cohesive (.ofBuffer [] .network)⟩⟩

theorem wire_empty {D : Dialect} (h : D.message 3 3) : wire D (empty, 5) [2, 0, 0, 0, 0] := by
  have hz : Announces 0 [0] := ⟨0, by decide, by decide, rfl⟩
  exact ⟨0, [0], 0, [], [0], [], [0], [], hz, by decide, ⟨le_rfl, rfl, rfl⟩,
    hz, by decide, rfl, hz, by decide, Lib.Format.each_nil.2 rfl, h, rfl,
    rfl⟩

end SecuredMessage

end Vanetza.Security.V2

namespace Vanetza.Geonet

open InputArchive Security Lib

namespace Parser

variable {codec : Codec} {parser parser' : Parser} {message : SecuredMessage}

theorem accept_eq_some {message' : SecuredMessage} {bytes : Nat} {input : Input ErrorCode}
  (h : parser.accept message' bytes input = (some message, parser')) :
  0 < bytes ∧ message = message' ∧ parser' = ⟨input, parser.readBytes + bytes⟩ := by
  unfold accept at h
  split at h
  · next hp =>
    cases h
    exact ⟨hp, rfl, rfl⟩
  · cases h

theorem parseSecured_eq_some (h : parser.parseSecured codec = (some message, parser')) :
  parser.input.failure = none ∧ ((∃ m bytes, message = .v2 m ∧ parser.input.rest.head? ≠ some 3 ∧
        V2.SecuredMessage.deserialize parser.input = .ok ((m, bytes), parser'.input) ∧
        parser'.readBytes = parser.readBytes + bytes) ∨
      ((∃ m, message = .v3 m) ∧ parser.input.rest.head? = some 3 ∧
        parser'.input.failure = none)) := by
  unfold parseSecured at h
  split at h
  · cases h
  next hg =>
  refine ⟨Option.not_isSome_iff_eq_none.1 hg, ?_⟩
  split at h
  · cases h
  next first rest hre =>
  rw [hre]
  split at h
  · next hf =>
    split at h
    · next m bytes input hr =>
      obtain ⟨-, rfl, rfl⟩ := accept_eq_some h
      refine .inl ⟨m, bytes, rfl, ?_, hr, rfl⟩
      rintro ⟨⟩
      exact absurd hf (by decide)
    · cases h
  · split at h
    · next hf =>
      split at h
      · next m hd =>
        obtain ⟨-, rfl, rfl⟩ := accept_eq_some h
        exact .inr ⟨⟨m, rfl⟩, congrArg some hf, rfl⟩
      · cases h
    · cases h

theorem parseSecured_v2 {m : V2.SecuredMessage} {n : Nat} {bytes rest : ByteBuffer}
  (h : V2.SecuredMessage.deserialize ⟨bytes, none⟩ =
    .ok ((m, n), ⟨rest, none⟩)) (codec : Codec) (readBytes : Nat) :
  parseSecured codec ⟨⟨bytes, none⟩, readBytes⟩ =
    (some (.v2 m), ⟨⟨rest, none⟩, readBytes + n⟩) := by
  obtain ⟨w, hw, hbs⟩ := (V2.audits_securedMessage .none).recognizes.sound h
  obtain ⟨hp, hh⟩ := V2.SecuredMessage.wire_head hw
  cases w with
  | nil => cases hh
  | cons first w =>
    cases hh
    subst hbs
    unfold parseSecured
    dsimp only [Option.isSome]
    rw [if_neg (by decide), List.cons_append]
    dsimp only
    rw [if_pos (by decide), ← List.cons_append, h]
    dsimp only [accept]
    rw [if_pos hp]

/-- A message is handed on with a good archive and no key left out exactly if
it is within the limits. Messages of version 3 have none. -/
theorem secured_within_limits_iff (h : parser.parseSecured codec = (some message, parser')) :
  (parser'.input.failure = none ∧ ∀ m, message = .v2 m →
      V2.SecuredMessage.meets .keyLimit parser.input) ↔
    (parser.input.rest.head? = some 3 ∨ ∃ out w rest,
      V2.SecuredMessage.wire V2.Demand.keyLimit.dialect out w ∧ parser.input.rest = w ++ rest) := by
  have ha := V2.audits_securedMessage .keyLimit
  obtain ⟨⟨bytes, _⟩, readBytes⟩ := parser
  obtain ⟨⟨rest', failure⟩, readBytes'⟩ := parser'
  obtain ⟨rfl, ⟨m, n, rfl, hh, hr, -⟩ | ⟨⟨m, rfl⟩, hh, hg⟩⟩ := parseSecured_eq_some h
  · dsimp only at hr hh ⊢
    rw [or_iff_right hh]
    constructor
    · rintro ⟨rfl, hmt⟩
      obtain ⟨w, hw, rfl⟩ := ha.recognizes.sound hr
      exact ⟨(m, n), w, rest', (ha.meets rest' hw).1 (hmt m rfl), rfl⟩
    rintro ⟨out, w, rest, hw, rfl⟩
    have hany := ha.within hw
    rw [ha.recognizes.complete rest hany] at hr
    cases hr
    exact ⟨rfl, fun _ _ => (ha.meets _ hany).2 hw⟩
  · exact iff_of_true ⟨hg, fun m' h => nomatch h⟩ (.inl hh)

theorem secured_empty_within_limits :
  V2.SecuredMessage.meets .keyLimit ⟨[2, 0, 0, 0, 0], none⟩ := by
  have h : parseSecured ⟨fun _ => none, fun _ => 0⟩ (.ofBuffer [2, 0, 0, 0, 0]) =
        (some (.v2 .empty), ⟨⟨[], none⟩, 5⟩) := rfl
  have hw := V2.SecuredMessage.wire_empty (D := V2.Demand.keyLimit.dialect) trivial
  exact ((secured_within_limits_iff h).2 (.inr ⟨_, _, [], hw, rfl⟩)).2 _ rfl

/-- A header that is announced with 1025 octets is left out, and the message
is handed on. -/
theorem secured_excessive_header : ∃ message parser', parseSecured ⟨fun _ => none, fun _ => 0⟩
      (.ofBuffer [2, 0x84, 0x01, 0, 0, 0]) = (some message, parser') ∧ parser'.readBytes = 5 ∧
    parser'.input.failure = some .excessiveLength :=
  ⟨.v2 .empty, ⟨⟨[], some .excessiveLength⟩, 5⟩, rfl, rfl, rfl⟩

end Parser

def IndicationContext.EndsBefore (ctx : IndicationContext) (rest : ByteBuffer) : Prop :=
  ∃ packet parser, ctx.source = .deserialize packet parser ∧
    parser.readBytes ≤ (packet.get .network).length ∧
    (packet.setBoundary .network parser.readBytes).get .network ++ rest = packet.get .network

theorem get_setBoundary {pkt : CohesivePacket} {layer : OsiLayer} {n : Nat}
  (h : n ≤ (pkt.get layer).length) :
  (pkt.setBoundary layer n).get layer = (pkt.get layer).take n := by
  have hl : layer.index - 1 ≠ layer.index := by cases layer <;> decide
  unfold CohesivePacket.get CohesivePacket.setBoundary at *
  dsimp only at *
  rw [if_pos rfl, if_neg hl]
  rw [List.drop_take, List.drop_take, List.take_take]
  rw [List.drop_take, List.length_take] at h
  congr 1
  omega

variable {bytes rest : ByteBuffer} {message : V2.SecuredMessage} {n : Nat}

theorem endsBefore_of_size (h : V2.SecuredMessage.deserialize ⟨bytes, none⟩ =
    .ok ((message, n), ⟨rest, none⟩)) (hn : n = bytes.length - rest.length) (codec : Codec)
  {ctx : IndicationContext} {pkt : CohesivePacket} {before : ByteBuffer}
  (hs : ctx.source = .deserialize pkt ⟨⟨bytes, none⟩, before.length⟩)
  (hp : pkt.get .network = before ++ bytes) :
  (ctx.parseSecured codec).2.EndsBefore rest := by
  obtain ⟨w, -, rfl⟩ := (V2.audits_securedMessage .none).recognizes.sound h
  rw [List.length_append, Nat.add_sub_cancel] at hn
  have hins : before.length + n ≤ (pkt.get .network).length := by
    rw [hp, List.length_append, List.length_append]
    omega
  refine ⟨pkt, ⟨⟨rest, none⟩, before.length + n⟩, ?_, hins, ?_⟩
  · unfold IndicationContext.parseSecured
    rw [hs]
    dsimp only
    rw [Parser.parseSecured_v2 h]
  · dsimp only
    rw [get_setBoundary hins, hp, hn, List.take_length_add_append,
      List.take_left, List.append_assoc]

/-- The size of a message and all sizes that count in a list are right, and so
is the boundary the router sets, exactly if the message is written in the exact
dialect. -/
theorem secured_sizes_exact_iff (h : V2.SecuredMessage.deserialize ⟨bytes, none⟩ =
    .ok ((message, n), ⟨rest, none⟩)) :
  (n = bytes.length - rest.length ∧ V2.SecuredMessage.meets .exactCalls ⟨bytes, none⟩ ∧
      ∀ (codec : Codec) (ctx : IndicationContext) (packet : CohesivePacket) (before : ByteBuffer),
        ctx.source = .deserialize packet ⟨⟨bytes, none⟩, before.length⟩ →
        packet.get .network = before ++ bytes → (ctx.parseSecured codec).2.EndsBefore rest) ↔
    ∃ out w tail, V2.SecuredMessage.wire .exact out w ∧ bytes = w ++ tail := by
  have ha := V2.audits_securedMessage .exactCalls
  obtain ⟨w, hw, hbs⟩ := ha.recognizes.sound h
  have hl : bytes.length - rest.length = w.length := by
    rw [hbs, List.length_append, Nat.add_sub_cancel]
  constructor
  · rintro ⟨hn, hmt, -⟩
    rw [hbs] at hmt
    refine ⟨(message, n), w, rest, ?_, hbs⟩
    exact (V2.tight_securedMessage message n w).2 ⟨(ha.meets rest hw).1 hmt, hn.trans hl⟩
  rintro ⟨⟨message', n'⟩, w', tail, hex, hbs'⟩
  obtain ⟨hw', hn'⟩ := (V2.tight_securedMessage message' n' w').1 hex
  have hr := ha.recognizes.complete tail (ha.within hw')
  rw [← hbs', h] at hr
  cases hr
  have hn : n = bytes.length - rest.length := by
    rw [hn', hbs', List.length_append, Nat.add_sub_cancel]
  refine ⟨hn, ?_, fun codec ctx packet before hs hpkt =>
    endsBefore_of_size h hn codec hs hpkt⟩
  rw [hbs']
  exact (ha.meets rest (ha.within hw')).2 hw'

theorem secured_empty_sizes_exact :
  V2.SecuredMessage.meets .exactCalls ⟨[2, 0, 0, 0, 0, 7], none⟩ := by
  have h : V2.SecuredMessage.deserialize ⟨[2, 0, 0, 0, 0, 7], none⟩ =
      .ok ((.empty, 5), ⟨[7], none⟩) := rfl
  have hw := V2.SecuredMessage.wire_empty (D := .exact) rfl
  exact ((secured_sizes_exact_iff h).2 ⟨_, _, [7], hw, rfl⟩).2.1

/-- The empty header is announced with two octets, of which one is counted. -/
theorem secured_size_wide_length : ∃ message n rest, V2.SecuredMessage.deserialize
      ⟨[2, 0x80, 0, 0, 0, 0], none⟩ = .ok ((message, n), ⟨rest, none⟩) ∧
    n ≠ [2, 0x80, 0, 0, 0, 0].length - rest.length :=
  ⟨.empty, 5, [], rfl, by decide⟩

end Vanetza.Geonet
