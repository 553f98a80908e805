import Vanetza.Geonet.Router
import Vanetza.Lib.Returns

/-!
# Nothing happens before decapsulation succeeds

With security enabled and strict handling, everything a router does with a
received packet waits for the security entity's verdict. Before it, and after a
bad one, the router calls its drop hook at most.
-/

namespace Vanetza.Geonet

open Security Lib

def OnlyDrops {ρ τ : Type} (before after : Router ρ τ) : Prop :=
  ∃ security drops, after = { before with security, events := before.events ++ drops } ∧
      ∀ event ∈ drops, ∃ reason, event = .packetDropped reason

section OnlyDrops

variable {ρ τ : Type}

instance : IsPreorder (Router ρ τ) OnlyDrops where
  refl router := ⟨router.security, [], by simp, by simp⟩
  trans := by
    rintro first _ _ ⟨security, drops, rfl, hdrops⟩ ⟨security', drops', rfl, hdrops'⟩
    refine ⟨security', drops ++ drops', by simp, fun event hmem => ?_⟩
    exact (List.mem_append.1 hmem).elim (hdrops event) (hdrops' event)

variable {router : Router ρ τ}

theorem stays_packetDropped (reason : PacketDropReason) :
  Stays OnlyDrops (Router.packetDropped reason : Action ρ τ Unit) router :=
  ⟨router.security, [.packetDropped reason], rfl, by simp⟩

theorem exec_decapsulatePacket (entity : SecurityEntity τ) (msg : SecuredMessage) :
  (Router.decapsulatePacket entity msg : Action ρ τ _).exec router =
    ((entity.decapsulatePacket msg router.security).1,
      { router with
        security :=
          (entity.decapsulatePacket msg router.security).2 }) :=
  Program.exec_ofExcept _ _

theorem stays_decapsulatePacket (entity : SecurityEntity τ) (msg : SecuredMessage) :
  Stays OnlyDrops (Router.decapsulatePacket entity msg : Action ρ τ _) router := by
  rw [Stays, exec_decapsulatePacket]
  exact ⟨(entity.decapsulatePacket msg router.security).2, [], by simp, by simp⟩

end OnlyDrops

namespace Router

variable {ρ τ : Type} {env : Environment ρ τ} {router : Router ρ τ}
  {ctx : IndicationContext} {basic : BasicHeader}

def DecapSucceeds (env : Environment ρ τ) (router : Router ρ τ) (message : SecuredMessage) : Prop :=
  ∃ entity confirm, env.securityEntity = some entity ∧
    (entity.decapsulatePacket message router.security).1 = .ok confirm ∧
    isSuccessful confirm.report = true

theorem stays_indicateSecured (hs : env.mib.itsGnSnDecapResultHandling = .strict)
  (h : ∀ msg, (ctx.parseSecured env.codec).1 = some msg → ¬ DecapSucceeds env router msg) :
  Stays OnlyDrops (indicateSecured env ctx basic) router := by
  unfold indicateSecured
  rcases hp : ctx.parseSecured env.codec with ⟨parsed, ctx'⟩
  cases parsed with
  | none => exact stays_packetDropped _
  | some msg =>
    have hf := h msg (by rw [hp])
    cases hent : env.securityEntity with
    | none => exact stays_packetDropped _
    | some entity =>
      refine Stays.bind (stays_decapsulatePacket entity msg) fun confirm router' hex => ?_
      rw [exec_decapsulatePacket] at hex
      have hr : ¬ isSuccessful confirm.report = true := fun hsuc =>
        hf ⟨entity, confirm, hent, (Prod.mk.inj hex).1, hsuc⟩
      rw [if_neg hr, if_neg (by simp [hs])]
      exact stays_packetDropped _

theorem parseSecured_servicePrimitive {codec : Codec} (indication : DataIndication) :
  (({ ctx with servicePrimitive := indication } :
    IndicationContext).parseSecured codec).1 = (ctx.parseSecured codec).1 := by
  unfold IndicationContext.parseSecured
  cases ctx.source <;> rfl

theorem stays_indicateBasic (hsec : env.mib.itsGnSecurity = true)
  (hstr : env.mib.itsGnSnDecapResultHandling = .strict)
  (h : ∀ basic ctx' msg, ctx.parseBasic = .ok (some basic, ctx') → basic.nextHeader = .secured →
    (ctx'.parseSecured env.codec).1 = some msg → ¬ DecapSucceeds env router msg) :
  Stays OnlyDrops (indicateBasic env ctx) router := by
  refine Stays.ofExcept_bind fun ⟨parsed, ctx'⟩ hp => ?_
  cases parsed with
  | none => exact stays_packetDropped _
  | some basic =>
    dsimp only
    split
    · exact stays_packetDropped _
    split
    · next hs =>
      refine stays_indicateSecured hstr fun msg hm => ?_
      rw [parseSecured_servicePrimitive] at hm
      exact h basic ctx' msg hp hs hm
    split
    · -- packets without security are for other settings
      rw [if_neg (by simp [hsec, hstr])]
      exact stays_packetDropped _
    · exact Stays.pure ()

def parserOf (packet : CohesivePacket) : Parser := .ofBuffer (packet.get .network)

def NotSecured (packet : CohesivePacket) : Prop :=
  ∀ basic parser, (parserOf packet).parseBasic = .ok (some basic, parser) →
    basic.nextHeader ≠ .secured

def SecuredUnparsable (codec : Codec) (packet : CohesivePacket) : Prop :=
  ∀ basic parser, (parserOf packet).parseBasic = .ok (some basic, parser) →
    (parser.parseSecured codec).1 = none

def DecapUnsuccessful (env : Environment ρ τ) (router : Router ρ τ)
  (packet : CohesivePacket) : Prop :=
  ∀ basic parser message, (parserOf packet).parseBasic = .ok (some basic, parser) →
    (parser.parseSecured env.codec).1 = some message → ¬ DecapSucceeds env router message

theorem parseBasic_ofCohesive {pkt : CohesivePacket} {ll : LinkLayer} {ctx' : IndicationContext}
  (h : (IndicationContext.ofCohesive pkt ll).parseBasic = .ok (some basic, ctx')) :
  ∃ parser, (parserOf pkt).parseBasic = .ok (some basic, parser) ∧
    ∀ codec, (ctx'.parseSecured codec).1 = (parser.parseSecured codec).1 := by
  obtain ⟨⟨parsed, parser⟩, hp, h⟩ := bind_eq_ok_iff.1 h
  obtain ⟨rfl, rfl⟩ := Prod.mk.inj (Except.ok.inj h)
  exact ⟨parser, hp, fun _ => rfl⟩

/-- With strict handling, a packet that is not secured, that cannot be parsed
or that does not decapsulate is dropped without a trace. -/
theorem indicate_drops_unverified (packet : CohesivePacket) (ll : LinkLayer)
  (hsecurity : env.mib.itsGnSecurity = true)
  (hstrict : env.mib.itsGnSnDecapResultHandling = .strict)
  (h : NotSecured packet ∨ SecuredUnparsable env.codec packet ∨
    DecapUnsuccessful env router packet) :
  OnlyDrops router ((indicate env (.cohesive packet) ll).exec router).2 := by
  refine stays_indicateBasic hsecurity hstrict fun basic ctx' msg hb hsec hmes => ?_
  obtain ⟨parser, hp, hprs⟩ := parseBasic_ofCohesive hb
  rw [hprs] at hmes
  rcases h with h | h | h
  · exact absurd hsec (h basic parser hp)
  · cases hmes.symm.trans (h basic parser hp)
  · exact h basic parser msg hp hmes

def distrustfulEntity : SecurityEntity Nat where
  decapsulatePacket _ asked := (.ok ⟨.chunk .empty, some .falseSignature, 0, []⟩, asked + 1)
  encapsulatePacket _ _ _ asked := (.ok none, asked)

def strictEnvironment : Environment Unit Nat where
  mib := { Mib.default with itsGnSecurity := true }
  codec := ⟨fun _ => none, fun _ => 0⟩
  geodesy := ⟨fun _ _ => 0, fun _ _ => true, fun _ => none⟩
  random := ⟨fun _ => (.replicate 6 0, ()), fun _ => (0, ())⟩
  securityEntity := some distrustfulEntity
  hasTransport _ := true

def idleRouter : Router Unit Nat where
  runtime := ⟨0, [(3000000, .router)]⟩
  locationTable := .empty 20000000
  bcForwardBuffer := .create 1048576
  ucForwardBuffer := .create 262144
  cbfBuffer := .create (.contending []) 262144 fun _ => true
  localPositionVector := .default
  gbcMemory := ⟨1, []⟩
  randomGen := ()
  security := 0
  events := []

def forgedPacket : CohesivePacket := .ofBuffer ([0x12, 0, 5, 1] ++ [2, 0, 0, 0, 0]) .network

theorem distrusted_unsuccessful :
  DecapUnsuccessful strictEnvironment idleRouter forgedPacket := by
  rintro basic parser msg - - ⟨entity, confirm, ⟨⟩, ⟨⟩, ⟨⟩⟩

def forgedLink : LinkLayer := ⟨.replicate 6 1, cBroadcastMacAddress⟩

theorem forged_packet_drops : OnlyDrops idleRouter
    ((indicate strictEnvironment (.cohesive forgedPacket) forgedLink).exec idleRouter).2 ∧
  ((indicate strictEnvironment (.cohesive forgedPacket) forgedLink).exec
    idleRouter).2.security = 1 :=
  ⟨indicate_drops_unverified forgedPacket forgedLink rfl rfl
    (.inr (.inr distrusted_unsuccessful)), by decide +kernel⟩

end Router

end Vanetza.Geonet
