import Vanetza.Geonet.Decapsulation
import Vanetza.Geonet.RouterInvariants

/-!
# What is read of a received packet

`indicate` goes through a packet header by header and drops it at the first one that is not to its
liking. Until it has the common header it changes nothing but the state of the security entity, so
what it reads depends on that state and on the packet only.
-/

namespace Vanetza.Geonet

open Security Lib InputArchive Decoder Program

def IsArchive (e : Exception) : Prop := ∃ what, e = .archive what

section Raises

theorem raises_octets (n : Nat) : Raises (loadOctets n) IsArchive := Raises.octets ⟨_, rfl⟩ n

theorem raises_binary (n : Nat) : Raises (loadBinary n) IsArchive := (raises_octets n).map _

theorem raises_byte : Raises loadByte IsArchive := (raises_octets 1).map _

theorem raises_uint16 : Raises loadUInt16 IsArchive := (raises_binary 2).map _

theorem raises_uint32 : Raises loadUInt32 IsArchive := (raises_binary 4).map _

theorem raises_int32 : Raises loadInt32 IsArchive := raises_uint32.map _

theorem raises_basicHeader : Raises BasicHeader.deserialize IsArchive :=
  raises_byte.bind fun _ => raises_byte.bind fun _ => raises_byte.bind fun _ =>
    raises_byte.bind fun _ => Raises.pure _

theorem raises_commonHeader : Raises CommonHeader.deserialize IsArchive :=
  raises_byte.bind fun _ => raises_byte.bind fun _ => raises_byte.bind fun _ =>
    raises_byte.bind fun _ => raises_uint16.bind fun _ =>
      raises_byte.bind fun _ => raises_byte.bind fun _ => Raises.pure _

theorem raises_longPositionVector : Raises LongPositionVector.deserialize IsArchive := by
  have ha : Raises Address.deserialize IsArchive :=
    raises_uint16.bind fun _ => (raises_octets 6).bind fun _ => Raises.pure _
  have ht : Raises Timestamp.deserialize IsArchive := raises_uint32.map _
  exact ha.bind fun _ => ht.bind fun _ =>
    raises_int32.bind fun _ => raises_int32.bind fun _ =>
      raises_uint16.bind fun _ => raises_uint16.bind fun _ => Raises.pure _

theorem raises_shbHeader : Raises ShbHeader.deserialize IsArchive :=
  raises_longPositionVector.bind fun _ => raises_uint32.bind fun _ =>
    Raises.pure _

theorem raises_sequenceNumber : Raises SequenceNumber.deserialize IsArchive := raises_uint16.map _

theorem raises_tsbHeader : Raises TsbHeader.deserialize IsArchive :=
  raises_sequenceNumber.bind fun _ => raises_uint16.bind fun _ =>
    raises_longPositionVector.bind fun _ => Raises.pure _

theorem raises_geoBroadcastHeader : Raises GeoBroadcastHeader.deserialize IsArchive :=
  raises_sequenceNumber.bind fun _ => raises_uint16.bind fun _ =>
    raises_longPositionVector.bind fun _ => raises_int32.bind fun _ =>
      raises_int32.bind fun _ => raises_uint16.bind fun _ =>
        raises_uint16.bind fun _ => raises_uint16.bind fun _ =>
          raises_uint16.bind fun _ => Raises.pure _

end Raises

namespace Parser

variable {α : Type}

theorem parse_ok {header : Deserialize α} (h : Raises header IsArchive)
  (length : Nat) (parser : Parser) :
  ∃ out, parser.parse header length = .ok out := by
  unfold parse
  split
  · exact ⟨_, rfl⟩
  · exact ⟨_, rfl⟩
  · next e herr hoth =>
    obtain ⟨what, rfl⟩ := h _ _ hoth
    exact absurd rfl (herr what)

theorem parseBasic_ok (parser : Parser) : ∃ out, parser.parseBasic = .ok out :=
  parse_ok raises_basicHeader _ _

theorem parseCommon_ok (parser : Parser) : ∃ out, parser.parseCommon = .ok out :=
  parse_ok raises_commonHeader _ _

theorem parseExtended_ok (ht : HeaderType) (parser : Parser) :
  ∃ out, parser.parseExtended ht = .ok out := by
  unfold parseExtended
  split
  · exact parse_ok (raises_shbHeader.map _) _ _
  split
  · exact parse_ok (raises_tsbHeader.map _) _ _
  split
  · exact parse_ok (raises_geoBroadcastHeader.map _) _ _
  · split
    · exact parse_ok (raises_longPositionVector.map _ |>.map _) _ _
    · exact ⟨_, rfl⟩

end Parser

namespace IndicationContext

variable (ctx : IndicationContext)

theorem parseBasic_ok : ∃ out, ctx.parseBasic = .ok out := by
  unfold parseBasic
  split
  · next packet parser _ =>
    obtain ⟨out, h⟩ := parser.parseBasic_ok
    rw [h]
    exact ⟨_, rfl⟩
  · exact ⟨_, rfl⟩
  · exact ⟨_, rfl⟩

theorem parseCommon_ok : ∃ out, ctx.parseCommon = .ok out := by
  unfold parseCommon
  split
  · next packet parser _ =>
    obtain ⟨out, h⟩ := parser.parseCommon_ok
    rw [h]
    exact ⟨_, rfl⟩
  · next packet parser _ =>
    obtain ⟨out, h⟩ := parser.parseCommon_ok
    rw [h]
    exact ⟨_, rfl⟩
  · exact ⟨_, rfl⟩

theorem parseExtended_ok (ht : HeaderType) : ∃ out, ctx.parseExtended ht = .ok out := by
  unfold parseExtended
  split
  · next packet parser _ =>
    obtain ⟨out, h⟩ := parser.parseExtended_ok ht
    rw [h]
    exact ⟨_, rfl⟩
  · next packet parser _ =>
    obtain ⟨out, h⟩ := parser.parseExtended_ok ht
    rw [h]
    exact ⟨_, rfl⟩
  · exact ⟨_, rfl⟩

end IndicationContext

namespace Router

variable {ρ τ : Type} (env : Environment ρ τ)

def heardCommon (security : τ) (ctx : IndicationContext)
  (basic : BasicHeader) : Option (CommonHeader × IndicationContext × τ) :=
  match ctx.parseCommon with
  | .ok (some common, ctx) =>
    if common.maximumHopLimit < basic.hopLimit then none
    else some (common, { ctx with
      servicePrimitive := { ctx.servicePrimitive with
        trafficClass := common.trafficClass
        upperProtocol := upperProtocol common.nextHeader } }, security)
  | _ => none

def heardSecured (security : τ) (ctx : IndicationContext)
  (basic : BasicHeader) : Option (CommonHeader × IndicationContext × τ) :=
  match ctx.parseSecured env.codec, env.securityEntity with
  | (some message, ctx), some entity =>
    match (entity.decapsulatePacket message security).1 with
    | .error _ => none
    | .ok confirm =>
      if isSuccessful confirm.report ∨ env.mib.itsGnSnDecapResultHandling = .nonStrict then
        match IndicationContext.ofSecured env.codec { ctx with
            servicePrimitive := { ctx.servicePrimitive with
              securityReport := confirm.report
              itsAid := some confirm.itsAid
              permissions := some confirm.permissions } }
            confirm.plaintextPayload with
        | .ok ctx => heardCommon (entity.decapsulatePacket message security).2 ctx basic
        | .error _ => none
      else none
  | _, _ => none

def heardBasic (security : τ) (ctx : IndicationContext) :
  Option (CommonHeader × IndicationContext × τ) :=
  match ctx.parseBasic with
  | .ok (some basic, ctx) =>
    if basic.version.val ≠ env.mib.itsGnProtocolVersion.toNat then none
    else
      let ctx := { ctx with servicePrimitive := { ctx.servicePrimitive with
        remainingPacketLifetime := some basic.lifetime
        remainingHopLimit := some basic.hopLimit } }
      if basic.nextHeader = .secured then heardSecured env security ctx basic
      else if basic.nextHeader = .common ∧ (!env.mib.itsGnSecurity ∨
          env.mib.itsGnSnDecapResultHandling = .nonStrict) then
        heardCommon security { ctx with servicePrimitive :=
          { ctx.servicePrimitive with securityReport := none } } basic
      else none
  | _ => none

def heard (security : τ) (packet : UpPacket) (ll : LinkLayer) :
  Option (CommonHeader × IndicationContext × τ) :=
  match packet with
  | .cohesive cohesive => heardBasic env security (.ofCohesive cohesive ll)
  | .chunk chunk =>
    match IndicationContext.ofChunk chunk ll with
    | .ok ctx => heardBasic env security ctx
    | .error _ => none

def heardExtended (ctx : IndicationContext) (common : CommonHeader) :
  Option (HeaderVariant × IndicationContext) :=
  match ctx.parseExtended common.headerType with
  | .ok (some extended, ctx) =>
    if common.payload.toNat ≠ ctx.finish.size env.codec .transport .application then none
    else some (extended, ctx)
  | _ => none

def received (security : τ) (packet : UpPacket) (ll : LinkLayer) :
  Option (HeaderVariant × IndicationContext × τ) := do
  let (common, ctx, security) ← heard env security packet ll
  let (extended, ctx) ← heardExtended env ctx common
  return (extended, ctx, security)

def refresh : Action ρ τ Unit := do
  modify fun router => { router with
    locationTable := router.locationTable.dropExpired router.runtime.now }
  flushBroadcastForwardingBuffer env

def indicateHeard (ctx : IndicationContext) (common : CommonHeader) : Action ρ τ Unit := do
  refresh env
  indicateExtended env ctx common

def deliver (ctx : IndicationContext) (extended : HeaderVariant) : Action ρ τ Unit := do
  let (passedUp, indication) ← processExtended env ctx ctx.finish extended
  if passedUp then passUp env indication ctx.finish

def TurnedDown (router : Router ρ τ) (out : Except Exception Unit × Router ρ τ) : Prop :=
  OnlyDrops router out.2 ∧ ∀ e, out.1 = .error e → e ∉ passDownErrors ∨ EntityRaises env e

variable {env} {router : Router ρ τ} {ctx : IndicationContext}
  {basic : BasicHeader} {common : CommonHeader}

variable {extended : HeaderVariant} {security security' : τ} {packet : UpPacket}
  {ll : LinkLayer} {ctx' : IndicationContext}

theorem heard_of_received (h : received env security packet ll = some (extended, ctx', security')) :
  ∃ common ctx, heard env security packet ll = some (common, ctx, security') ∧
    heardExtended env ctx common = some (extended, ctx') := by
  unfold received at h
  obtain ⟨⟨common, ctx, security''⟩, hhd, h⟩ := Option.bind_eq_some_iff.1 h
  obtain ⟨⟨extended', ctx''⟩, hext, h⟩ := Option.bind_eq_some_iff.1 h
  cases h
  exact ⟨common, ctx, hhd, hext⟩

theorem received_of_heard (hhd : heard env security packet ll = some (common, ctx, security'))
  (hext : heardExtended env ctx common = some (extended, ctx')) :
  received env security packet ll = some (extended, ctx', security') := by
  rw [received, hhd]
  dsimp only [Option.bind_eq_bind, Option.bind]
  rw [hext]
  rfl

theorem turnedDown_dropped (reason : PacketDropReason) :
  TurnedDown env router ((packetDropped reason).exec router) :=
  ⟨stays_packetDropped reason, by rintro e ⟨⟩⟩

theorem TurnedDown.of_security {out : Except Exception Unit × Router ρ τ}
  (h : TurnedDown env { router with security } out) :
  TurnedDown env router out := by
  refine ⟨trans_of OnlyDrops ?_ h.1, h.2⟩
  exact ⟨security, [], by simp, by simp⟩

theorem exec_indicateCommon (env : Environment ρ τ) (security : τ)
  (ctx : IndicationContext) (basic : BasicHeader) (router : Router ρ τ) :
  (heardCommon security ctx basic = none ∧
      TurnedDown env router ((indicateCommon env ctx basic).exec router)) ∨
    ∃ common ctx', heardCommon security ctx basic = some (common, ctx', security) ∧
      (indicateCommon env ctx basic).exec router = (indicateHeard env ctx' common).exec router := by
  obtain ⟨⟨parsed, ctx'⟩, hp⟩ := ctx.parseCommon_ok
  have hex : (MonadExcept.ofExcept ctx.parseCommon :
      Action ρ τ _).exec router = (.ok (parsed, ctx'), router) := by
    rw [hp]
    rfl
  unfold heardCommon indicateCommon
  rw [exec_bind_ok hex, hp]
  cases parsed with
  | none => exact .inl ⟨rfl, turnedDown_dropped _⟩
  | some common =>
    dsimp only
    split
    · exact .inl ⟨rfl, turnedDown_dropped _⟩
    · exact .inr ⟨common, _, rfl, rfl⟩

theorem exec_indicatePayload (env : Environment ρ τ) (security : τ)
  (ctx : IndicationContext) (basic : BasicHeader) (pay : UpPacket) (router : Router ρ τ) :
  (TurnedDown env router ((indicatePayload env ctx basic pay).exec router) ∧
    ∀ ctx', ctx.ofSecured env.codec pay = .ok ctx' → heardCommon security ctx' basic = none) ∨
  ∃ ctx' common ctx'', ctx.ofSecured env.codec pay = .ok ctx' ∧
    heardCommon security ctx' basic = some (common, ctx'', security) ∧
    (indicatePayload env ctx basic pay).exec router =
      (indicateHeard env ctx'' common).exec router := by
  unfold indicatePayload
  cases hsec : ctx.ofSecured env.codec pay with
  | error e =>
    refine .inl ⟨⟨refl_of OnlyDrops router, ?_⟩, by rintro ctx' ⟨⟩⟩
    rintro _ ⟨⟩
    refine .inl ?_
    unfold IndicationContext.ofSecured at hsec
    split at hsec
    · cases hsec
    split at hsec
    · cases hsec
    · cases hsec
      decide
  | ok ctx' =>
    have hex : (MonadExcept.ofExcept (.ok ctx') :
        Action ρ τ IndicationContext).exec router = (.ok ctx', router) := rfl
    rw [exec_bind_ok hex]
    rcases exec_indicateCommon env security ctx' basic router with
      ⟨hn, ht⟩ | ⟨common, ctx'', hs, hhd⟩
    · refine .inl ⟨ht, ?_⟩
      rintro _ ⟨⟩
      exact hn
    · exact .inr ⟨ctx', common, ctx'', rfl, hs, hhd⟩

theorem exec_indicateSecured (env : Environment ρ τ) (ctx : IndicationContext)
  (basic : BasicHeader) (router : Router ρ τ) :
  (heardSecured env router.security ctx basic = none ∧
      TurnedDown env router ((indicateSecured env ctx basic).exec router)) ∨
    ∃ common ctx' security, heardSecured env router.security ctx basic =
        some (common, ctx', security) ∧ (indicateSecured env ctx basic).exec router =
        (indicateHeard env ctx' common).exec { router with security } := by
  unfold heardSecured indicateSecured
  rcases hprs : ctx.parseSecured env.codec with ⟨parsed, ctx'⟩
  cases parsed with
  | none => exact .inl ⟨rfl, turnedDown_dropped _⟩
  | some msg =>
    cases hent : env.securityEntity with
    | none => exact .inl ⟨rfl, turnedDown_dropped _⟩
    | some entity =>
      dsimp only
      have hex : (decapsulatePacket entity msg : Action ρ τ _).exec
          router = _ := exec_decapsulatePacket entity msg
      cases hd : (entity.decapsulatePacket msg router.security).1 with
      | error e =>
        rw [hd] at hex
        rw [exec_bind_error hex]
        refine .inl ⟨rfl, ⟨(entity.decapsulatePacket msg
          router.security).2, [], by simp, by simp⟩, ?_⟩
        rintro _ ⟨⟩
        exact .inr ⟨entity, hent, .inl ⟨msg, _, hd⟩⟩
      | ok confirm =>
        rw [hd] at hex
        rw [exec_bind_ok hex]
        dsimp only
        -- a packet that is let through is let through either way
        have hp := exec_indicatePayload env
          (entity.decapsulatePacket msg router.security).2 { ctx' with
          servicePrimitive := { ctx'.servicePrimitive with
            securityReport := confirm.report
            itsAid := some confirm.itsAid
            permissions := some confirm.permissions } } basic
          confirm.plaintextPayload { router with security :=
            (entity.decapsulatePacket msg router.security).2 }
        by_cases hl : isSuccessful confirm.report = true ∨
            env.mib.itsGnSnDecapResultHandling = .nonStrict
        · rw [if_pos hl]
          have hite : ∀ {α : Type} {x y : α}, (if isSuccessful confirm.report = true then x
                else if env.mib.itsGnSnDecapResultHandling = .nonStrict
                  then x else y) = x := by
            intro α x y
            rcases hl with h | h
            · rw [if_pos h]
            · rw [if_pos h, ite_self]
          rw [hite]
          rcases hp with ⟨ht, hn⟩ | ⟨ctx'', common, ctx''', hsec, hs, hhd⟩
          · refine .inl ⟨?_, ht.of_security⟩
            split
            · next hsec => exact hn _ hsec
            · rfl
          · refine .inr ⟨common, ctx''', _, ?_, hhd⟩
            rw [hsec]
            exact hs
        · rw [if_neg hl]
          obtain ⟨hr, hstr⟩ := not_or.1 hl
          rw [if_neg hr, if_neg hstr]
          exact .inl ⟨rfl, (turnedDown_dropped _).of_security⟩

theorem exec_indicateBasic (env : Environment ρ τ) (ctx : IndicationContext) (router : Router ρ τ) :
  (heardBasic env router.security ctx = none ∧
      TurnedDown env router ((indicateBasic env ctx).exec router)) ∨
    ∃ common ctx' security, heardBasic env router.security ctx = some (common, ctx', security) ∧
      (indicateBasic env ctx).exec router =
        (indicateHeard env ctx' common).exec { router with security } := by
  obtain ⟨⟨parsed, ctx'⟩, hp⟩ := ctx.parseBasic_ok
  have hex : (MonadExcept.ofExcept ctx.parseBasic :
      Action ρ τ _).exec router = (.ok (parsed, ctx'), router) := by
    rw [hp]
    rfl
  unfold heardBasic indicateBasic
  rw [exec_bind_ok hex, hp]
  cases parsed with
  | none => exact .inl ⟨rfl, turnedDown_dropped _⟩
  | some basic =>
    dsimp only
    split
    · exact .inl ⟨rfl, turnedDown_dropped _⟩
    split
    · exact exec_indicateSecured env _ basic router
    by_cases hc : basic.nextHeader = .common
    · rw [if_pos hc]
      by_cases hpl : (!env.mib.itsGnSecurity) = true ∨
          env.mib.itsGnSnDecapResultHandling = .nonStrict
      · have hb := And.intro hc hpl
        rw [if_pos hb, if_pos hpl]
        rcases exec_indicateCommon env router.security _ basic router with
          h | ⟨common, ctx'', hs, hhd⟩
        · exact .inl h
        · exact .inr ⟨common, ctx'', router.security, hs, hhd⟩
      · rw [if_neg hpl, if_neg fun (h : basic.nextHeader = .common ∧ _) =>
          hpl h.2]
        exact .inl ⟨rfl, turnedDown_dropped _⟩
    · rw [if_neg hc, if_neg fun (h : basic.nextHeader = .common ∧ _) => hc h.1]
      exact .inl ⟨rfl, refl_of OnlyDrops router, by rintro e ⟨⟩⟩

theorem exec_indicate (env : Environment ρ τ) (packet : UpPacket)
  (ll : LinkLayer) (router : Router ρ τ) :
  (heard env router.security packet ll = none ∧
      TurnedDown env router ((indicate env packet ll).exec router)) ∨
    ∃ common ctx security, heard env router.security packet ll = some (common, ctx, security) ∧
      (indicate env packet ll).exec router =
        (indicateHeard env ctx common).exec { router with security } := by
  cases packet with
  | cohesive cohesive => exact exec_indicateBasic env _ router
  | chunk chunk =>
    unfold heard indicate
    dsimp only
    cases hc : IndicationContext.ofChunk chunk ll with
    | error e =>
      refine .inl ⟨rfl, refl_of OnlyDrops router, ?_⟩
      rintro _ ⟨⟩
      refine .inl ?_
      unfold IndicationContext.ofChunk at hc
      split at hc
      · cases hc
      · cases hc
        decide
    | ok ctx =>
      have hex : (MonadExcept.ofExcept (.ok ctx) :
          Action ρ τ IndicationContext).exec router = (.ok ctx, router) :=
        rfl
      rw [exec_bind_ok hex]
      exact exec_indicateBasic env ctx router

theorem exec_indicateExtended (env : Environment ρ τ)
  (ctx : IndicationContext) (common : CommonHeader) (router : Router ρ τ) :
  (heardExtended env ctx common = none ∧ ∃ reason, (indicateExtended env ctx common).exec router =
        (packetDropped reason).exec router) ∨
    ∃ extended ctx', heardExtended env ctx common = some (extended, ctx') ∧
      (indicateExtended env ctx common).exec router = (deliver env ctx' extended).exec router := by
  obtain ⟨⟨parsed, ctx'⟩, hp⟩ := ctx.parseExtended_ok common.headerType
  have hex : (MonadExcept.ofExcept (ctx.parseExtended common.headerType) :
      Action ρ τ _).exec router = (.ok (parsed, ctx'), router) := by
    rw [hp]
    rfl
  unfold heardExtended indicateExtended
  rw [exec_bind_ok hex, hp]
  cases parsed with
  | none => exact .inl ⟨rfl, _, rfl⟩
  | some extended =>
    dsimp only
    split
    · exact .inl ⟨rfl, _, rfl⟩
    · exact .inr ⟨extended, ctx', rfl, rfl⟩

theorem exec_indicate_received (env : Environment ρ τ) {router : Router ρ τ}
  {ctx : IndicationContext} (h : received env router.security packet ll =
    some (extended, ctx, security)) :
  (indicate env packet ll).exec router = (do
    refresh env
    deliver env ctx extended : Action ρ τ Unit).exec { router with security } := by
  obtain ⟨common, ctx', hhd, hext⟩ := heard_of_received h
  have hd : indicateExtended env ctx' common = deliver env ctx extended := by
    refine ext fun r => ?_
    rcases exec_indicateExtended env ctx' common r with
      ⟨hn, -⟩ | ⟨extended', ctx'', hs, hex⟩
    · cases hn.symm.trans hext
    · cases hs.symm.trans hext
      exact hex
  rcases exec_indicate env packet ll router with
    ⟨hn, -⟩ | ⟨common', ctx'', security', hs, hex⟩
  · cases hn.symm.trans hhd
  · cases hs.symm.trans hhd
    rw [hex, indicateHeard, hd]

end Router

end Vanetza.Geonet
