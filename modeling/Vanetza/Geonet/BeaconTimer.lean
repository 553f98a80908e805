import Vanetza.Geonet.StepInvariants

/-!
# The beacon timer

A router that sends beacons always waits for the next one: the callback of the
timer sends a beacon and starts the timer again, and so does every single-hop
broadcast. Nothing else touches the timer, so there is one callback in the
runtime, or none.
-/

namespace Vanetza.Geonet

open Security Lib Router Vanetza.Runtime Program

def beacons (runtime : Runtime Scope) : Nat := (runtime.pending .router).length

section Beacons

variable {runtime : Runtime Scope}

theorem beacons_restart (runtime : Runtime Scope) (due : Int) :
  beacons ((runtime.cancel .router).schedule due .router) = 1 := by
  rw [beacons, pending_schedule_self, pending_cancel_self]
  rfl

theorem beacons_without {index : Nat} {due : Int} {scope : Scope}
  (h : runtime.queue[index]? = some (due, scope)) :
  beacons runtime = beacons (runtime.without index) +
    if scope = .router then 1 else 0 := by
  by_cases hs : scope = .router
  · subst hs
    rw [if_pos rfl, beacons, pending_eq h, beacons,
      pending_without, List.length_append, List.length_append]
    rfl
  · rw [if_neg hs, beacons, beacons, pending_without_of_ne h hs]
    rfl

end Beacons

theorem kept_beacons {ρ τ : Type} {P : Nat → Prop} (hP : P 1) (env : SourceEnvironment ρ τ) :
  SourceKept (.any fun _ _ => True) env fun r : Router ρ τ => P (beacons r.runtime) where
  aside hr hrt _ _ _ _ _ := by
    rw [hrt]
    exact hr
  timer deadline _ := by
    rw [beacons_restart]
    exact hP
  event hr _ := hr
  bcPush hr _ := hr
  bcFlush hr := ⟨hr, fun _ _ => Traffic.allows_any _ _⟩
  ucFlush hr := ⟨hr, fun _ _ => Traffic.allows_any _ _⟩
  cbfAdd timeout hr _ := by
    dsimp only
    rw [beacons, CbfPacketBuffer.pending_add (by decide)]
    exact hr
  cbfRemove id hr := by
    dsimp only
    rw [beacons, CbfPacketBuffer.pending_remove (by decide)]
    exact hr
  cbfUpdate _ _ hr := hr
  cbfFlush hr := by
    refine ⟨?_, fun _ _ => Traffic.allows_any _ _⟩
    rw [CbfPacketBuffer.flush, beacons, CbfPacketBuffer.pending_scheduleTimer (by decide)]
    exact hr
  elapse _ hr := hr
  repeater deadline hr := by
    rw [beacons, pending_schedule_of_ne (by decide)]
    exact hr

namespace SourceRouter

variable {ρ τ : Type} (env : SourceEnvironment ρ τ)

def BeaconPending (s : SourceRouter ρ τ) : Prop :=
  ∃ deadline, (deadline, Scope.router) ∈ s.router.runtime.queue

def beaconMessage (router : Router ρ τ) : DownPacket :=
  DownPacket.mergeUpper ⟨.securedPdu (beaconWith env router .secured).common
    (beaconWith env router .secured).extended, fun _ => []⟩ .empty

def BeaconGoesOut (router : Router ρ τ) : Prop :=
  router.localPositionVector.timestamp = ⟨0⟩ ∨ env.mib.itsGnSecurity = false ∨
    ∃ entity message, env.securityEntity = some entity ∧
      (entity.encapsulatePacket (beaconMessage env router) gnMgmt []
        router.security).1 = .ok (some message)

def BeaconsGoOut (s : SourceRouter ρ τ) (input : Input) : Prop :=
  ∀ index deadline, input = .callback index →
    s.router.runtime.queue[index]? = some (deadline, .router) →
    deadline ≤ s.router.runtime.now → BeaconGoesOut env s.router

variable {env} {s : SourceRouter ρ τ}

theorem beaconPending_iff : BeaconPending s ↔ 0 < beacons s.router.runtime := by
  rw [beacons, List.length_pos_iff_exists_mem]
  refine exists_congr fun due => ?_
  simp [pending, deadlines]

theorem beacons_resetBeaconTimer (router : Router ρ τ) :
  beacons ((Router.resetBeaconTimer env.toEnvironment).exec router).2.runtime = 1 :=
  beacons_restart _ _

theorem beacons_passDownOwn {pdu : Pdu} {pay : DownPacket}
  (h : Router.Sendable env.codec pdu pay) (router : Router ρ τ) :
  beacons ((do
    Router.passDownOwn env.toEnvironment cBroadcastMacAddress pdu pay
    Router.resetBeaconTimer env.toEnvironment : Action ρ τ Unit).exec router).2.runtime = 1 := by
  have hsent : ∃ event, (passDownOwn env.toEnvironment
      cBroadcastMacAddress pdu pay).exec router = (emit event).exec router := by
    have hex : (passDownOwn env.toEnvironment cBroadcastMacAddress pdu
        pay).exec router = (passDown env.toEnvironment _ pdu pay).exec router := rfl
    rw [hex]
    rcases passDown_cases env.toEnvironment _ pdu pay with
      hem | ⟨hu, -⟩
    · exact ⟨_, congrArg (exec · router) hem⟩
    · exact absurd h hu
  obtain ⟨event, hsent⟩ := hsent
  rw [exec_bind_ok hsent]
  exact beacons_resetBeaconTimer _

theorem exec_onBeaconTimerExpired (hen : env.sourceMib.vanetzaDisableBeaconing = false)
  {router : Router ρ τ} (hp : router.localPositionVector.timestamp ≠ ⟨0⟩) :
  (onBeaconTimerExpired env).exec router = (do
    match ← secureBeacon env router with
    | none => return
    | some (pdu, pay) =>
      Router.passDownOwn env.toEnvironment cBroadcastMacAddress pdu pay
      Router.resetBeaconTimer env.toEnvironment : Action ρ τ Unit).exec router := by
  have hex : (onBeaconTimerExpired env).exec router =
      (if env.sourceMib.vanetzaDisableBeaconing = true then pure ()
        else if router.localPositionVector.timestamp = ⟨0⟩ then
          resetBeaconTimer env.toEnvironment
        else do
          match ← secureBeacon env router with
          | none => return
          | some (pdu, pay) =>
            passDownOwn env.toEnvironment cBroadcastMacAddress pdu pay
            resetBeaconTimer env.toEnvironment :
        Action ρ τ Unit).exec router := rfl
  rw [hex, hen, if_neg Bool.false_ne_true, if_neg hp]

theorem exec_secureBeacon (hs : env.mib.itsGnSecurity = true)
  {entity : SecurityEntity τ} (hen : env.securityEntity = some entity)
  {router : Router ρ τ} {confirm security}
  (hc : entity.encapsulatePacket (beaconMessage env router) gnMgmt []
    router.security = (confirm, security)) :
  (secureBeacon env router).exec router = (confirm.map fun message => message.map fun message =>
        ({ beaconWith env router .secured with secured := some message },
          DownPacket.empty.mergeUpper .empty),
      { router with security }) := by
  rw [secureBeacon, if_pos hs, encapPacket, hen]
  refine (exec_bind_ok (show (get : Action ρ τ _).exec router =
    (.ok router, router) from rfl)).trans ?_
  unfold beaconMessage at hc
  rw [hc]
  rcases confirm with e | (_ | message) <;> rfl

theorem beacons_onBeaconTimerExpired (hen : env.sourceMib.vanetzaDisableBeaconing = false)
  {router : Router ρ τ} (hn : beacons router.runtime = 0) :
  0 < beacons ((onBeaconTimerExpired env).exec router).2.runtime ↔ BeaconGoesOut env router := by
  by_cases hp : router.localPositionVector.timestamp = ⟨0⟩
  · have hex : (onBeaconTimerExpired env).exec router =
        (if env.sourceMib.vanetzaDisableBeaconing = true then pure ()
          else if router.localPositionVector.timestamp = ⟨0⟩ then
            resetBeaconTimer env.toEnvironment
          else _ : Action ρ τ Unit).exec router := rfl
    rw [hex, hen, if_neg Bool.false_ne_true, if_pos hp, beacons_resetBeaconTimer]
    exact ⟨fun _ => .inl hp, fun _ => Nat.one_pos⟩
  · rw [exec_onBeaconTimerExpired hen hp]
    cases hsec : env.mib.itsGnSecurity with
    | false =>
      have hs : (secureBeacon env router).exec router =
          (.ok (some (beaconWith env router .common, .empty)), router) := by
        rw [secureBeacon, hsec]
        rfl
      rw [exec_bind_ok hs]
      refine ⟨fun _ => .inr (.inl hsec), fun _ => ?_⟩
      refine Nat.lt_of_lt_of_eq Nat.one_pos (beacons_passDownOwn ?_ _).symm
      rw [Router.Sendable]
      exact (by decide : NextHeaderBasic.common ≠ .secured)
    | true =>
      have hg : BeaconGoesOut env router ↔ ∃ entity msg, env.securityEntity = some entity ∧
          (entity.encapsulatePacket (beaconMessage env router) gnMgmt []
            router.security).1 = .ok (some msg) := by
        rw [BeaconGoesOut, or_iff_right hp, or_iff_right (by rw [hsec]; decide)]
      rw [hg]
      cases hent : env.securityEntity with
      | none =>
        have hs : (secureBeacon env router).exec router = (.ok none, router) := by
          rw [secureBeacon, if_pos hsec, encapPacket, hent]
          rfl
        rw [exec_bind_ok hs]
        refine ⟨fun h => absurd h (Nat.not_lt.2 hn.le), ?_⟩
        rintro ⟨entity, msg, ⟨⟩, -⟩
      | some entity =>
        obtain ⟨⟨confirm, security⟩, hc⟩ :
            ∃ confirm, entity.encapsulatePacket (beaconMessage env router)
              gnMgmt [] router.security = confirm := ⟨_, rfl⟩
        have hs := exec_secureBeacon hsec hent hc
        have hf := congrArg Prod.fst hc
        rcases confirm with e | (_ | msg)
        · rw [exec_bind_error hs]
          refine ⟨fun h => absurd h (Nat.not_lt.2 hn.le), ?_⟩
          rintro ⟨entity', msg, ⟨⟩, hok⟩
          cases hf.symm.trans hok
        · rw [exec_bind_ok hs]
          refine ⟨fun h => absurd h (Nat.not_lt.2 hn.le), ?_⟩
          rintro ⟨entity', msg, ⟨⟩, hok⟩
          cases hf.symm.trans hok
        rw [exec_bind_ok hs]
        refine ⟨fun _ => ⟨entity, msg, rfl, hf⟩, fun _ => ?_⟩
        refine Nat.lt_of_lt_of_eq Nat.one_pos (beacons_passDownOwn ?_ _).symm
        exact ⟨rfl, rfl⟩

theorem beacons_step {P : Nat → Prop} (hP : P 1) (hs : P (beacons s.router.runtime)) {input : Input}
  (hp : ∀ index due scope, input = .callback index →
    s.router.runtime.queue[index]? = some (due, scope) → due ≤ s.router.runtime.now →
    P (beacons (s.popped index).router.runtime)) :
  P (beacons (step env s input).router.runtime) := by
  have ha : Admissible (.any fun _ _ => True) env (fun r => P (beacons r.runtime)) s input :=
    { delivers := fun _ _ _ _ =>
        ⟨Traffic.receives_any _ _ _, fun _ _ _ hr => hr, fun _ _ => trivial⟩
      wanted := fun _ _ _ => trivial
      popped := hp }
  exact (holds_perform (kept_beacons hP env) (Traffic.sources_any _ env)
    ⟨hs, fun _ _ => trivial⟩ ha).1.1

def AtMostOne (s : SourceRouter ρ τ) : Prop := beacons s.router.runtime ≤ 1

theorem atMostOne_step (ho : AtMostOne s) (input : Input) : AtMostOne (step env s input) := by
  refine beacons_step (P := (· ≤ 1)) le_rfl ho fun index due scope _ hent _ => ?_
  have her := beacons_without hent
  exact Nat.le_trans (Nat.le_of_add_right_le her.ge) ho

theorem beaconPending_step (hen : env.sourceMib.vanetzaDisableBeaconing = false)
  (hone : AtMostOne s) (hp : BeaconPending s) (input : Input) :
  BeaconPending (step env s input) ↔ BeaconsGoOut env s input := by
  have hc : beacons s.router.runtime = 1 := Nat.le_antisymm hone (beaconPending_iff.1 hp)
  by_cases hdue : ∃ index due, input = .callback index ∧
      s.router.runtime.queue[index]? = some (due, .router) ∧ due ≤ s.router.runtime.now
  · obtain ⟨index, due, rfl, hent, hle⟩ := hdue
    have hn : beacons (s.popped index).router.runtime = 0 := by
      have her := beacons_without hent
      rw [if_pos rfl, hc] at her
      exact (Nat.succ.inj her).symm
    have hstep : step env s (.callback index) =
        ((within (onBeaconTimerExpired env)).exec (s.popped index)).2 :=
      congrArg Prod.snd (exec_callback_due env hent hle)
    rw [hstep, beaconPending_iff]
    refine (beacons_onBeaconTimerExpired hen hn).trans ?_
    constructor
    · rintro ho index' due' ⟨⟩ - -
      exact ho
    · intro ho
      exact ho index due rfl hent hle
  · refine iff_of_true (beaconPending_iff.2 ?_) ?_
    · refine Nat.lt_of_lt_of_eq Nat.one_pos (Eq.symm ?_)
      refine beacons_step (P := (· = 1)) rfl hc fun index due scope hinp hent hle => ?_
      have hs : scope ≠ .router := by
        rintro rfl
        exact hdue ⟨index, due, hinp, hent, hle⟩
      have her := beacons_without hent
      rw [if_neg hs, hc] at her
      exact her.symm
    · intro index due hinp hent hle
      exact absurd ⟨index, due, hinp, hent, hle⟩ hdue

theorem beacons_create (hen : env.sourceMib.vanetzaDisableBeaconing = false)
  (runtime : Runtime Scope) (randomGen : ρ) (security : τ) (address : Address) :
  beacons (create env runtime randomGen security address).router.runtime = 1 := by
  rw [create, scheduleInitialBeacon, hen, if_neg Bool.false_ne_true]
  split
  · exact beacons_restart _ _
  · exact beacons_restart _ _

/-- A router that sends beacons waits for the next one in every state of a run,
if and only if every beacon that is due during the run goes out. -/
theorem beacon_pending_iff (henabled : env.sourceMib.vanetzaDisableBeaconing = false)
  (runtime : Runtime Scope) (randomGen : ρ) (security : τ)
  (address : Address) (inputs : List Input) :
  (∀ before, before <+: inputs → BeaconPending
      (run (step env) (create env runtime randomGen security address) before)) ↔
    RunMeets (step env) (BeaconsGoOut env)
      (create env runtime randomGen security address) inputs := by
  have hc := beacons_create henabled runtime randomGen security address
  have hkp : ∀ s input, True → AtMostOne s → AtMostOne (step env s input) :=
    fun s input _ ho => atMostOne_step ho input
  have hstep : ∀ s input, True → AtMostOne s → BeaconPending s →
      (BeaconPending (step env s input) ↔ BeaconsGoOut env s input) :=
    fun s input _ ho hpnd =>
      beaconPending_step henabled ho hpnd input
  refine Run.goesThrough_iff hkp hstep hc.le (beaconPending_iff.2 ?_)
    (Run.meets_of_forall (fun _ _ => trivial) _ _)
  exact Nat.lt_of_lt_of_eq Nat.one_pos hc.symm

def hesitantEntity : SecurityEntity Nat where
  decapsulatePacket := distrustfulEntity.decapsulatePacket
  encapsulatePacket _ _ _ asked :=
    (.ok (if asked = 0 then none else some (.v3 ⟨3, none⟩)), asked + 1)

def hesitantEnvironment : SourceEnvironment Unit Nat where
  toEnvironment := { strictEnvironment with securityEntity := some hesitantEntity }
  sourceMib := .default
  areaSize _ := 0
  generateDccField _ := .raw 0

def silentRouter (asked : Nat) : SourceRouter Unit Nat :=
  create hesitantEnvironment ⟨1000, []⟩ () asked .default

def firstBeacon : List Input := [.updatePosition ⟨0, 0, none, 0, 0⟩, .callback 0]

theorem signed_beacon_pending :
  RunMeets (step hesitantEnvironment) (BeaconsGoOut hesitantEnvironment)
      (silentRouter 1) firstBeacon ∧ ∀ before, before <+: firstBeacon →
      BeaconPending (run (step hesitantEnvironment) (silentRouter 1) before) := by
  have hmt : RunMeets (step hesitantEnvironment)
      (BeaconsGoOut hesitantEnvironment) (silentRouter 1) firstBeacon := by
    refine ⟨?_, ?_, trivial⟩
    · rintro _ _ ⟨⟩
    · rintro _ _ - - -
      exact .inr (.inr ⟨hesitantEntity, _, rfl, rfl⟩)
  exact ⟨hmt, (beacon_pending_iff rfl _ _ _ _ _).2 hmt⟩

/-- The entity would sign the next beacon, but nobody is left to ask for it. -/
theorem unsigned_beacon_not_pending :
  let s := run (step hesitantEnvironment) (silentRouter 0) firstBeacon
  s.router.runtime.queue = [] ∧ ¬ BeaconPending s ∧ BeaconGoesOut hesitantEnvironment s.router := by
  have hemp : (run (step hesitantEnvironment) (silentRouter 0)
      firstBeacon).router.runtime.queue = [] := by decide +kernel
  refine ⟨hemp, ?_, .inr (.inr ⟨hesitantEntity, _, rfl, rfl⟩)⟩
  rintro ⟨due, hm⟩
  rw [hemp] at hm
  cases hm

end SourceRouter

end Vanetza.Geonet
