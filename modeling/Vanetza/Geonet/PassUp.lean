import Vanetza.Geonet.StepInvariants
import Vanetza.Lib.RecencyQueue

/-!
# Passing up geo-broadcasts once

With a memory for geo-broadcasts a router passes up only what the memory does
not know. The decision comes last, after the packet has been forwarded, or not,
and only a packet that gets so far is remembered.
-/

namespace Vanetza.Geonet

open Security Lib Router GbcMemory

namespace GbcMemory

variable (memory : GbcMemory) (id : CbfPacketIdentifier)

theorem remember_identifiers : (memory.remember id).2.identifiers =
    RecencyQueue.remember memory.capacity memory.identifiers id := by
  unfold remember RecencyQueue.remember
  split
  · simp only [List.erase_eq_eraseP, beq_eq_decide]
  · rfl

theorem remember_capacity : (memory.remember id).2.capacity = memory.capacity := by
  unfold remember
  split <;> rfl

theorem remember_known : (memory.remember id).1 = decide (id ∈ memory.identifiers) := by
  unfold remember
  split
  · next h => exact (decide_eq_true h).symm
  · next h => exact (decide_eq_false h).symm

def rememberAll (ids : List CbfPacketIdentifier) : GbcMemory :=
  ids.foldl (fun memory id => (memory.remember id).2) memory

theorem rememberAll_eq (ids : List CbfPacketIdentifier) : memory.rememberAll ids = ⟨memory.capacity,
    RecencyQueue.rememberAll memory.capacity memory.identifiers ids⟩ := by
  induction ids generalizing memory with
  | nil => rfl
  | cons id ids ih =>
    have hc : memory.rememberAll (id :: ids) = (memory.remember id).2.rememberAll ids := rfl
    rw [hc, ih, remember_capacity, remember_identifiers]
    rfl

end GbcMemory

def GeoBroadcastHeader.identifier (gbc : GeoBroadcastHeader) : CbfPacketIdentifier :=
  (gbc.sourcePosition.gnAddr, gbc.sequenceNumber)

namespace Router

variable {ρ τ : Type} (env : Environment ρ τ)

def undecided (ctx : IndicationContext) (gbc : GeoBroadcastHeader) : Action ρ τ (Option Bool) := do
  refresh env
  let _ ← MonadExcept.ofExcept (gbc.destination ctx.pdu.common.headerType)
  forwardGeoBroadcast env (ctx.pdu.withExtended gbc) ctx.finish ctx.linkLayer

def decided (gbc : GeoBroadcastHeader) (indication : DataIndication)
  (packet : UpPacket) : Option Bool → Action ρ τ Unit
  | none => return
  | some withinDestination => do
      if ← decidePassUp env withinDestination gbc then
        passUp env indication packet

variable {env}

theorem refresh_deliver_gbc (env : Environment ρ τ) (ctx : IndicationContext)
  (gbc : GeoBroadcastHeader) :
  ∃ ind : DataIndication, ind.transportType = .gbc ∧
    (do refresh env; deliver env ctx (.gbc gbc) : Action ρ τ Unit) =
      undecided env ctx gbc >>= decided env gbc ind ctx.finish := by
  have hr : ∀ {f g : PUnit → Action ρ τ Unit}, f ⟨⟩ = g ⟨⟩ →
      refresh env >>= f = refresh env >>= g := fun h =>
    bind_congr fun _ => h
  cases hd : gbc.destination ctx.pdu.common.headerType with
  | error e =>
    refine ⟨{ ctx.servicePrimitive with transportType := .gbc }, rfl, ?_⟩
    rw [undecided, bind_assoc]
    refine hr ?_
    simp only [deliver, processExtended, hd]
    rfl
  | ok destination =>
    refine ⟨{ ctx.servicePrimitive with
      transportType := .gbc, sourcePosition := gbc.sourcePosition.toShort
      destination := some destination }, rfl, ?_⟩
    rw [undecided, bind_assoc]
    refine hr ?_
    simp only [deliver, processExtended, hd,
      Program.ofExcept_ok_bind, processGeoBroadcast_eq, bind_assoc, pure_bind]
    refine bind_congr fun forwarded => ?_
    cases forwarded with
    | none | some withinDestination => rfl

end Router

def Event.isGbcPassUp : Event → Bool
  | .passUp indication _ => indication.transportType = .gbc
  | _ => false

namespace Router

def gbcPassUps (router : Router ρ τ) : Nat := router.events.countP Event.isGbcPassUp

def Undecided (memory : GbcMemory) (passUps : Nat) (router : Router ρ τ) : Prop :=
  router.gbcMemory = memory ∧ router.gbcPassUps = passUps

def upOther (indication : DataIndication) (_ : UpPacket) : Prop := indication.transportType ≠ .gbc

theorem gbcPassUps_of_events {router router' : Router ρ τ} (h : router'.events = router.events) :
  router'.gbcPassUps = router.gbcPassUps := by
  rw [gbcPassUps, h, gbcPassUps]

theorem kept_undecided (env : SourceEnvironment ρ τ) (memory : GbcMemory) (passUps : Nat) :
  SourceKept (.any upOther) env (Undecided memory passUps : Router ρ τ → Prop) where
  aside hr _ _ _ _ hmry heven := ⟨hmry.trans hr.1, (gbcPassUps_of_events heven).trans hr.2⟩
  timer _ hr := hr
  event {r event} hr hrep := by
    refine ⟨hr.1, ?_⟩
    have ho : event.isGbcPassUp = false := by
      cases event with
      | passUp ind pkt => exact decide_eq_false hrep
      | packetDropped reason | forwardingStopped reason
      | passDown req pkt => rfl
    rw [gbcPassUps, List.countP_append, List.countP_singleton, ho]
    exact hr.2
  bcPush hr _ := hr
  bcFlush hr := ⟨hr, fun _ _ => Traffic.allows_any _ _⟩
  ucFlush hr := ⟨hr, fun _ _ => Traffic.allows_any _ _⟩
  cbfAdd _ hr _ := hr
  cbfRemove _ hr := hr
  cbfUpdate _ _ hr := hr
  cbfFlush hr := ⟨hr, fun _ _ => Traffic.allows_any _ _⟩
  elapse _ hr := hr
  repeater _ hr := hr

theorem keeps_undecided (env : SourceEnvironment ρ τ) (memory : GbcMemory)
  (passUps : Nat) (ctx : IndicationContext) (gbc : GeoBroadcastHeader) :
  Keeps (Undecided memory passUps) (fun _ => True)
    (undecided env.toEnvironment ctx gbc : Action ρ τ (Option Bool)) fun _ => True := by
  have hI := (kept_undecided env memory passUps).toKept
  have hT := (Traffic.sources_any upOther env).toForwards
  refine Keeps.bind (keeps_refresh hI hT) fun _ _ => ?_
  refine Keeps.bind (keeps_destination hT _ _) fun _ _ => ?_
  exact keeps_forwardGeoBroadcast hI hT (fun _ => trivial) _

theorem exec_decided (hm : env.mib.vanetzaGbcMemoryCapacity ≠ 0)
  (gbc : GeoBroadcastHeader) (ind : DataIndication)
  (pkt : UpPacket) (withinDestination : Bool) (router : Router ρ τ) :
  let after := ((decided env gbc ind pkt (some withinDestination)).exec router).2
  after = router ∨ after.gbcMemory = (router.gbcMemory.remember gbc.identifier).2 ∧
      ((router.gbcMemory.remember gbc.identifier).1 = true → after.events = router.events) := by
  intro after
  have ha : after = ((do
      if ← decidePassUp env withinDestination gbc then
        passUp env ind pkt : Action ρ τ Unit).exec router).2 := rfl
  unfold decidePassUp at ha
  rw [if_neg hm] at ha
  by_cases hacc : (withinDestination || env.mib.vanetzaGbcPassUpOutsideDestination) = true
  · right
    have hask : after = ((
        if (!(router.gbcMemory.remember gbc.identifier).1) = true then
          passUp env ind pkt
        else pure () : Action ρ τ Unit).exec { router with
          gbcMemory := (router.gbcMemory.remember gbc.identifier).2 }).2 := by
      rw [ha, if_pos hacc]
      rfl
    cases hkn : (router.gbcMemory.remember gbc.identifier).1 with
    | true =>
      rw [hask, hkn]
      exact ⟨rfl, fun _ => rfl⟩
    | false =>
      refine ⟨?_, by rintro ⟨⟩⟩
      rw [hask, hkn]
      have hp : ∀ r : Router ρ τ, ((passUp env ind pkt).exec r).2.gbcMemory = r.gbcMemory := by
        intro r
        unfold passUp
        split <;> rfl
      exact hp _
  · left
    rw [ha, if_neg hacc]
    rfl

end Router

namespace SourceRouter

variable {ρ τ : Type} (env : SourceEnvironment ρ τ)

def Submits (s : SourceRouter ρ τ) (input : Input) (id : CbfPacketIdentifier) : Prop :=
  ∃ gbc ctx security withinDestination router,
    delivered env s input = some (.gbc gbc, ctx, security) ∧
    gbc.identifier = id ∧
    (Router.undecided env.toEnvironment ctx gbc).exec
      { s.router with security } = (.ok (some withinDestination), router)

def deliveredGbc (s : SourceRouter ρ τ) (input : Input) : Option CbfPacketIdentifier :=
  match delivered env s input with
  | some (.gbc gbc, _, _) => some gbc.identifier
  | _ => none

def PassesUp (s : SourceRouter ρ τ) (input : Input) (id : CbfPacketIdentifier) : Prop :=
  deliveredGbc env s input = some id ∧ s.router.gbcPassUps < (step env s input).router.gbcPassUps

instance (s : SourceRouter ρ τ) (input : Input) (id : CbfPacketIdentifier) :
  Decidable (PassesUp env s input id) :=
  inferInstanceAs (Decidable (_ ∧ _))

variable {env}

theorem undecided_step {s : SourceRouter ρ τ} {input : Input} (h : ∀ gbc ctx security,
    delivered env s input ≠ some (.gbc gbc, ctx, security)) :
  (step env s input).router.gbcMemory = s.router.gbcMemory ∧
    (step env s input).router.gbcPassUps = s.router.gbcPassUps := by
  have ha : Admissible (.any upOther) env
      (Router.Undecided s.router.gbcMemory s.router.gbcPassUps) s input :=
    { delivers := by
        intro ext ctx security hd
        have hk : ext.transportType ≠ .gbc := by
          intro hg
          cases ext with
          | gbc gbc => exact h gbc ctx security hd
          | shb shb | tsb tsb | beacon beacon => cases hg
        refine ⟨Traffic.receives_any _ _ _, fun hg => absurd hg hk, ?_⟩
        intro ind ht
        exact fun ho => hk (ht.symm.trans ho)
      wanted := fun _ _ _ => trivial
      popped := fun _ _ _ _ _ _ => ⟨rfl, rfl⟩ }
  exact (holds_perform (kept_undecided env _ _)
    (Traffic.sources_any upOther env) ⟨⟨rfl, rfl⟩, fun _ _ => trivial⟩ ha).1.1

theorem memory_step (hm : env.mib.vanetzaGbcMemoryCapacity ≠ 0)
  (s : SourceRouter ρ τ) (input : Input) :
  (step env s input).router.gbcMemory = s.router.gbcMemory ∧
      (step env s input).router.gbcPassUps = s.router.gbcPassUps ∨
    ∃ id, Submits env s input id ∧ (step env s input).router.gbcMemory =
        (s.router.gbcMemory.remember id).2 ∧
      ((s.router.gbcMemory.remember id).1 = true →
        (step env s input).router.gbcPassUps = s.router.gbcPassUps) := by
  by_cases hg : ∃ gbc ctx security, delivered env s input = some (.gbc gbc, ctx, security)
  · obtain ⟨gbc, ctx, security, hdel⟩ := hg
    obtain ⟨pkt, ll, rfl⟩ : ∃ pkt ll, input = .indicate pkt ll := by
      cases input with
      | indicate pkt ll => exact ⟨pkt, ll, rfl⟩
      | elapse dur | request req pay | updatePosition positionFix
      | callback index => cases hdel
    obtain ⟨ind, -, hd⟩ := refresh_deliver_gbc env.toEnvironment ctx gbc
    have hstep : (step env s (.indicate pkt ll)).router =
        ((undecided env.toEnvironment ctx gbc >>=
          decided env.toEnvironment gbc ind ctx.finish).exec { s.router with security }).2 := by
      rw [← hd, ← exec_indicate_received _ hdel]
      rfl
    have hk : Router.Undecided s.router.gbcMemory s.router.gbcPassUps
        ((undecided env.toEnvironment ctx gbc).exec { s.router with security }).2 :=
      (keeps_undecided env _ _ ctx gbc).state ⟨rfl, rfl⟩
    rcases hex : (undecided env.toEnvironment ctx gbc).exec
        { s.router with security } with ⟨e | (_ | withinDestination), router⟩
    · rw [Program.exec_bind_error hex] at hstep
      rw [hex] at hk
      rw [hstep]
      exact .inl hk
    · rw [Program.exec_bind_ok hex] at hstep
      rw [hex] at hk
      rw [hstep]
      exact .inl hk
    rw [Program.exec_bind_ok hex] at hstep
    rw [hex] at hk
    obtain ⟨hs, hc⟩ := hk
    rw [hstep, ← hs, ← hc]
    rcases exec_decided hm gbc ind ctx.finish withinDestination router with hu | ⟨hr, hkn⟩
    · rw [hu]
      exact .inl ⟨rfl, rfl⟩
    · refine .inr ⟨gbc.identifier, ⟨gbc, ctx, security, withinDestination,
        router, hdel, rfl, hex⟩, hr, fun h => ?_⟩
      exact gbcPassUps_of_events (hkn h)
  · left
    exact undecided_step fun gbc ctx security hdel =>
      hg ⟨gbc, ctx, security, hdel⟩

theorem PassesUp.remembers (hmry : env.mib.vanetzaGbcMemoryCapacity ≠ 0)
  {s : SourceRouter ρ τ} {input : Input} {id : CbfPacketIdentifier} (h : PassesUp env s input id) :
  id ∉ s.router.gbcMemory.identifiers ∧ (step env s input).router.gbcMemory =
      (s.router.gbcMemory.remember id).2 := by
  obtain ⟨hid, hc⟩ := h
  rcases memory_step hmry s input with
    ⟨-, hs⟩ | ⟨id, hsub, hr, hkn⟩
  · exact absurd hs hc.ne'
  obtain ⟨gbc, ctx, security, _, _, hd, rfl, -⟩ := hsub
  rw [deliveredGbc, hd] at hid
  obtain rfl := Option.some.inj hid
  refine ⟨fun hm => hc.ne' (hkn ?_), hr⟩
  rw [remember_known]
  exact decide_eq_true hm

theorem memory_run (hm : env.mib.vanetzaGbcMemoryCapacity ≠ 0)
  (s : SourceRouter ρ τ) (inputs : List Input) :
  ∃ ids : List CbfPacketIdentifier, (run (step env) s inputs).router.gbcMemory =
      s.router.gbcMemory.rememberAll ids ∧
    ∀ id ∈ ids, ∃ before input, before ++ [input] <+: inputs ∧
      Submits env (run (step env) s before) input id := by
  induction inputs generalizing s with
  | nil => exact ⟨[], rfl, by simp⟩
  | cons input inputs ih =>
    obtain ⟨ids, hr, hids⟩ := ih (step env s input)
    have hl : ∀ id ∈ ids, ∃ before input', before ++ [input'] <+: input :: inputs ∧
          Submits env (run (step env) s before) input' id := by
      intro id hid
      obtain ⟨before, input', hp, hsub⟩ := hids id hid
      exact ⟨input :: before, input', (List.prefix_cons_inj input).2 hp, hsub⟩
    rcases memory_step hm s input with
      ⟨hs, -⟩ | ⟨id, hsub, hrem, -⟩
    · rw [hs] at hr
      exact ⟨ids, hr, hl⟩
    · rw [hrem] at hr
      refine ⟨id :: ids, hr, List.forall_mem_cons.2 ⟨?_, hl⟩⟩
      exact ⟨[], input, List.prefix_append [input] inputs, hsub⟩

/-- Two pass-ups of one geo-broadcast have as many other geo-broadcasts between
them, submitted to the decision, as the memory has room for. -/
theorem passed_up_again (hmemory : 1 ≤ env.mib.vanetzaGbcMemoryCapacity)
  (runtime : Runtime Scope) (randomGen : ρ) (security : τ)
  (address : Address) (before between : List Input) (first second : Input)
  (id : CbfPacketIdentifier) (hfirst : PassesUp env (run (step env)
    (create env runtime randomGen security address) before) first id)
  (hsecond : PassesUp env (run (step env) (create env runtime randomGen security address)
    (before ++ first :: between)) second id) :
  ∃ others : Finset CbfPacketIdentifier, id ∉ others ∧
    env.mib.vanetzaGbcMemoryCapacity ≤ others.card ∧
    ∀ other ∈ others, ∃ earlier input, earlier ++ [input] <+: between ∧
      Submits env (run (step env) (create env runtime randomGen security address)
        (before ++ first :: earlier)) input other := by
  have hne := Nat.one_le_iff_ne_zero.1 hmemory
  have hl : ∀ earlier, run (step env) (create env runtime randomGen security address)
      (before ++ first :: earlier) = run (step env) (step env (run (step env)
        (create env runtime randomGen security address) before) first)
        earlier := fun earlier => Run.append _ _ before (first :: earlier)
  simp only [hl] at hsecond ⊢
  obtain ⟨earlierIds, hbef, -⟩ := memory_run hne
    (create env runtime randomGen security address) before
  generalize run (step env) (create env runtime randomGen security address) before = s at *
  -- the memory is a queue of recent packets all along
  have hc : s.router.gbcMemory.capacity = env.mib.vanetzaGbcMemoryCapacity := by
    rw [hbef, rememberAll_eq]
    exact Nat.max_eq_right hmemory
  have hb : RecencyQueue.Bounded env.mib.vanetzaGbcMemoryCapacity
      s.router.gbcMemory.identifiers := by
    rw [← hc, hbef, rememberAll_eq]
    exact RecencyQueue.bounded_nil.rememberAll (Nat.le_max_left 1 _) _
  obtain ⟨ids, hbet, hids⟩ := memory_run hne (step env s first) between
  obtain ⟨-, hr⟩ := hfirst.remembers hne
  obtain ⟨hf, -⟩ := hsecond.remembers hne
  rw [hbet, rememberAll_eq, hr, remember_capacity, remember_identifiers, hc] at hf
  refine ⟨ids.toFinset.erase id, Finset.notMem_erase _ _,
    RecencyQueue.forgotten_after hmemory hb id ids hf, ?_⟩
  intro other ho
  exact hids other (List.mem_toFinset.1 (Finset.mem_of_mem_erase ho))

def forgetfulEnvironment : SourceEnvironment Unit Unit :=
  { plainEnvironment with
    mib := { Mib.default with vanetzaGbcMemoryCapacity := 1 } }

def forgetfulRouter : SourceRouter Unit Unit := create forgetfulEnvironment ⟨0, []⟩ () () .default

theorem passed_up_again_after_other : ∃ others : Finset CbfPacketIdentifier,
    (.default, ⟨7⟩) ∉ others ∧ 1 ≤ others.card ∧
    ∀ other ∈ others, ∃ earlier input, earlier ++ [input] <+: [gbcIndication 1 8] ∧
      Submits forgetfulEnvironment (run (step forgetfulEnvironment)
        forgetfulRouter ([] ++ gbcIndication 1 7 :: earlier)) input other := by
  have hr : 1 ≤ forgetfulEnvironment.mib.vanetzaGbcMemoryCapacity := by decide
  have hf : PassesUp forgetfulEnvironment (run (step forgetfulEnvironment)
      forgetfulRouter []) (gbcIndication 1 7) (.default, ⟨7⟩) := by
    decide +kernel
  have hs : PassesUp forgetfulEnvironment (run (step forgetfulEnvironment)
      forgetfulRouter ([] ++ [gbcIndication 1 7, gbcIndication 1 8]))
      (gbcIndication 1 7) (.default, ⟨7⟩) := by decide +kernel
  exact passed_up_again hr ⟨0, []⟩ () () .default [] [gbcIndication 1 8]
    (gbcIndication 1 7) (gbcIndication 1 7) (.default, ⟨7⟩) hf hs

end SourceRouter

end Vanetza.Geonet
