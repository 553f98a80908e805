import Vanetza.Geonet.LifetimeReduction
import Vanetza.Geonet.StepInvariants

/-!
# Repetition of requests

The repeater holds a request with what is left of its time and has the runtime
call back; the callback makes the request once more, which sets up the next
repetition.
-/

namespace Vanetza.Geonet

open Security Lib CbfPacketBuffer Vanetza.Runtime Program ResultCode

namespace Repetition

variable {repetition : Repetition}

theorem hasFurtherRepetition_iff : repetition.hasFurtherRepetition = true ↔ 0 < repetition.maximum ∧
    0 < repetition.interval ∧ repetition.interval ≤ repetition.maximum :=
  decide_eq_true_iff

def reduced (repetition : Repetition) (delay : Int) : Repetition :=
  { repetition with
    maximum := repetition.maximum - repetition.interval - delay / 10 ^ 6 }

theorem decrementByOne_eq (h : repetition.hasFurtherRepetition = true) :
  repetition.decrementByOne = { repetition with
    maximum := repetition.maximum - repetition.interval } := by
  obtain ⟨hm, hitv, hle⟩ := hasFurtherRepetition_iff.1 h
  unfold decrementByOne
  split
  · rfl
  next hl =>
  have heq : repetition.maximum = repetition.interval :=
    le_antisymm (not_lt.1 fun hlt => hl ⟨hm, hitv, hlt⟩) hle
  rw [heq, sub_self]

end Repetition

theorem SourceRouter.remainingRepetition_eq {repetition : Repetition}
  (h : repetition.hasFurtherRepetition = true) (now invocation : Int) :
  remainingRepetition now invocation (some repetition) =
    (some (repetition.reduced (now - invocation))).filter (·.hasFurtherRepetition) := by
  rw [remainingRepetition, Option.map_some, Repetition.decrementByOne_eq h, Repetition.reduced]
  push_cast
  rfl

theorem clockCast_le {seconds : ℚ} (h : 0 ≤ seconds) :
  (clockCast seconds : ℚ) ≤ seconds * 10 ^ 6 := by
  unfold clockCast
  dsimp only
  generalize hm : seconds * 10 ^ 6 = micros
  have hp : 0 ≤ micros := by rw [← hm]; positivity
  rw [Int.tdiv_eq_ediv_of_nonneg (Rat.num_nonneg.2 hp), ← Rat.floor_def']
  exact Int.floor_le micros

namespace DataRequestVariant

/-- The repetition of a request through `access_request`. -/
def repetition : DataRequestVariant → Option Repetition
  | .guc request => request.repetition
  | .gbc request => request.repetition
  | .gac request => request.repetition
  | .shb request => request.repetition
  | .tsb request => request.repetition

variable (request : DataRequestVariant)

theorem repetition_modify (f : Option Repetition → Option Repetition) :
  (request.modifyRepetition f).repetition = f request.repetition := by
  cases request <;> rfl

theorem modify_modify (f g : Option Repetition → Option Repetition) :
  (request.modifyRepetition f).modifyRepetition g = request.modifyRepetition (g ∘ f) := by
  cases request <;> rfl

theorem modify_const {repetition : Option Repetition} (h : request.repetition = repetition) :
  request.modifyRepetition (fun _ => repetition) = request := by
  subst h
  cases request <;> rfl

end DataRequestVariant

theorem ResultCode.combine_eq_accepted {lhs rhs : ResultCode} :
  lhs.combine rhs = .accepted ↔ lhs = .accepted ∧ rhs = .accepted := by
  unfold combine
  split
  · next h => exact iff_of_false h fun hb => h hb.2
  · next h => exact (and_iff_left (not_not.1 h)).symm

namespace SourceRouter

variable {ρ τ : Type} {env : SourceEnvironment ρ τ}

theorem validateDataRequest_iff {request : DataRequest} :
  validateDataRequest env request = .accepted ↔ request.maximumLifetime.decode ≤
        env.sourceMib.itsGnMaxPacketLifetime.decode ∧
      ∀ repetition ∈ request.repetition, env.sourceMib.itsGnMinPacketRepetitionInterval ≤
          repetition.interval := by
  unfold validateDataRequest
  split
  · next h => exact iff_of_false (by rintro ⟨⟩) fun hb => hb.1.not_gt h
  next hl =>
  rw [and_iff_right (not_lt.1 hl)]
  cases request.repetition with
  | none | some repetition => simp

theorem confirm_modify {pay : Option DownPacket}
  {request : DataRequestVariant} {repetition : Repetition}
  {f : Option Repetition → Option Repetition} (h : confirm env pay request = .accepted)
  (hre : request.repetition = some repetition)
  (hf : ∀ r, f request.repetition = some r → r.interval = repetition.interval) :
  confirm env pay (request.modifyRepetition f) = .accepted := by
  have hval : ∀ {base : DataRequest}, base.repetition = some repetition →
      (∀ r, f base.repetition = some r → r.interval = repetition.interval) →
      validateDataRequest env base = .accepted → validateDataRequest env
        { base with repetition := f base.repetition } = .accepted := by
    intro base hb hsame hv
    obtain ⟨hl, hitv⟩ := validateDataRequest_iff.1 hv
    refine validateDataRequest_iff.2 ⟨hl, fun r hr => ?_⟩
    rw [hsame r hr]
    exact hitv repetition hb
  cases request with
  | shb request =>
    obtain ⟨hc, hp⟩ := combine_eq_accepted.1 h
    refine combine_eq_accepted.2 ⟨?_, hp⟩
    obtain ⟨-, hv⟩ := combine_eq_accepted.1 hc
    exact combine_eq_accepted.2 ⟨rfl, hval hre hf hv⟩
  | gbc request =>
    obtain ⟨hc, hp⟩ := combine_eq_accepted.1 h
    refine combine_eq_accepted.2 ⟨?_, hp⟩
    obtain ⟨-, hv⟩ := combine_eq_accepted.1 hc
    refine combine_eq_accepted.2 ⟨rfl, ?_⟩
    unfold validateDataRequestWithArea at hv ⊢
    split at hv
    · cases hv
    · next ha =>
      rw [if_neg ha]
      exact hval hre hf hv
  | guc request | gac request | tsb request => cases h

end SourceRouter

namespace Router

variable {ρ τ : Type}

def Still (pending : List Int) (now : Int) (r : Router ρ τ) : Prop :=
  r.runtime.pending .repeater = pending ∧ r.runtime.now = now

theorem kept_still (env : Environment ρ τ) (pending : List Int) (now : Int) :
  Kept (.any fun _ _ => True) env (Still pending now : Router ρ τ → Prop) where
  aside hr hrt _ _ _ _ _ := by
    unfold Still
    rw [hrt]
    exact hr
  timer deadline hr := by
    refine ⟨?_, hr.2⟩
    rw [pending_schedule_of_ne (by decide), pending_cancel_of_ne (by decide)]
    exact hr.1
  event hr _ := hr
  bcPush hr _ := hr
  bcFlush hr := ⟨hr, fun _ _ => Traffic.allows_any _ _⟩
  ucFlush hr := ⟨hr, fun _ _ => Traffic.allows_any _ _⟩
  cbfAdd timeout hr _ := by
    refine ⟨?_, add_now.trans hr.2⟩
    dsimp only
    rw [pending_add (by decide)]
    exact hr.1
  cbfRemove id hr := by
    refine ⟨?_, remove_now.trans hr.2⟩
    dsimp only
    rw [pending_remove (by decide)]
    exact hr.1
  cbfUpdate _ _ hr := hr
  cbfFlush hr := by
    refine ⟨⟨?_, scheduleTimer_now.trans hr.2⟩, fun _ _ => Traffic.allows_any _ _⟩
    dsimp only [flush]
    rw [pending_scheduleTimer (by decide)]
    exact hr.1

end Router

namespace SourceRouter

variable {ρ τ : Type} {env : SourceEnvironment ρ τ} {s : SourceRouter ρ τ}

def repeating (s : SourceRouter ρ τ) : List RepeatedRequest × Nat × List Nat × List Int × Int :=
  (s.repetitions, s.nextNode, s.callbacks, s.router.runtime.pending .repeater, s.router.runtime.now)

def SameRepeating (s s' : SourceRouter ρ τ) : Prop := s'.repeating = s.repeating

instance : IsPreorder (SourceRouter ρ τ) SameRepeating where
  refl _ := rfl
  trans _ _ _ h h' := h'.trans h

theorem stays_of_still {α : Type} {act : Action ρ τ α}
  (h : Router.Still (s.router.runtime.pending .repeater) s.router.runtime.now
    (act.exec s.router).2) : Stays SameRepeating (within act) s := by
  unfold Stays SameRepeating repeating
  have hex : ((within act).exec s).2 = { s with router := (act.exec s.router).2 } := rfl
  rw [hex, h.1, h.2]

theorem stays_within {α : Type} {act : Action ρ τ α} {E : Exception → Prop} {Q : α → Prop}
  (h : ∀ pending now, Keeps (Router.Still pending now) E act Q) :
  Stays SameRepeating (within act) s :=
  stays_of_still ((h _ _).state ⟨rfl, rfl⟩)

theorem stays_dispatch (trafficClass : TrafficClass) (pkt : BufferedPacket) :
  Stays SameRepeating (within (dispatch env trafficClass pkt)) s :=
  stays_within fun pending now => keeps_dispatch (Router.kept_still env.toEnvironment pending now)
    (Traffic.sources_any _ env) trafficClass pkt (Traffic.allows_any _ _)

theorem stays_createShbPdu (request : DataRequest) (size : Nat) :
  Stays SameRepeating (createShbPdu env request size) s :=
  Stays.ofExcept_bind fun _ _ => Stays.bind (refl_of SameRepeating s) fun _ _ _ => Stays.pure _

theorem stays_createGbcPdu (request : DataRequestWithArea) (size : Nat) :
  Stays SameRepeating (createGbcPdu env request size) s := by
  refine Stays.ofExcept_bind fun common _ => ?_
  exact refl_of SameRepeating s

def repeated (s : SourceRouter ρ τ) (request : DataRequestVariant)
  (payload : DownPacket) (interval : ℚ) : SourceRouter ρ τ :=
  { s with
    repetitions := ⟨s.nextNode, request, payload⟩ :: s.repetitions
    nextNode := s.nextNode + 1
    callbacks := s.callbacks ++ [s.nextNode]
    router := { s.router with runtime := (s.router.runtime.schedule
      (s.router.runtime.now + clockCast interval) .repeater) } }

def registered (s : SourceRouter ρ τ) (request : DataRequestVariant)
  (payload : DownPacket) : SourceRouter ρ τ :=
  match request.repetition.filter (·.hasFurtherRepetition) with
  | none => s
  | some repetition => s.repeated request payload repetition.interval

theorem exec_addRepetition (request : DataRequestVariant) (pay : DownPacket) :
  (addRepetition request request.repetition pay : SourceAction ρ τ Unit).exec s =
    (.ok (), s.registered request pay) := by
  unfold addRepetition registered
  cases request.repetition with
  | none => rfl
  | some repetition =>
    dsimp only
    cases hf : repetition.hasFurtherRepetition with
    | true =>
      rw [if_pos rfl, Option.filter_some_pos hf]
      rfl
    | false =>
      rw [if_neg Bool.false_ne_true, Option.filter_some_neg (by simp [hf])]
      rfl

theorem exec_registered {request : DataRequestVariant} {pay : DownPacket}
  {rest : SourceAction ρ τ Unit} (h : ∀ s, Stays SameRepeating rest s) :
  SameRepeating (s.registered request pay) ((do
    addRepetition request request.repetition pay
    rest : SourceAction ρ τ Unit).exec s).2 := by
  rw [exec_bind_ok (exec_addRepetition request pay)]
  exact h _

theorem exec_execute {request : DataRequestVariant} {pay : DownPacket}
  (h : confirm env (some pay) request = .accepted) :
  SameRepeating (s.registered request pay) ((execute env request (some pay)).exec s).2 := by
  cases request with
  | shb request =>
    exact exec_registered fun s => Stays.bind (stays_createShbPdu request _)
      fun pdu s' _ => stays_dispatch _ _
  | gbc request =>
    exact exec_registered fun s => Stays.bind (stays_createGbcPdu request _)
      fun pdu s' _ => stays_dispatch _ _
  | guc request | gac request | tsb request => cases h

theorem exec_request (env : SourceEnvironment ρ τ) (s : SourceRouter ρ τ)
  (request : DataRequestVariant) (pay : DownPacket) :
  SameRepeating (if confirm env (some pay) request = .accepted then
      s.registered request pay else s)
    ((SourceRouter.request env request (some pay)).exec s).2 := by
  unfold SourceRouter.request
  simp only [ite_bind]
  split
  · next h =>
    have hexe := exec_execute (s := s) h
    rcases hex : (execute env request (some pay)).exec s with
      ⟨e | _, s'⟩
    · rw [exec_bind_error hex]
      rw [hex] at hexe
      exact hexe
    · rw [exec_bind_ok hex]
      rw [hex] at hexe
      exact hexe
  · exact refl_of SameRepeating s

end SourceRouter

structure Repeater where
  now : Int
  repetitions : List RepeatedRequest
  nextNode : Nat
  callbacks : List (Int × Nat)

namespace Repeater

variable {ρ τ : Type} (env : SourceEnvironment ρ τ)

def register (r : Repeater) (request : DataRequestVariant) (payload : DownPacket) : Repeater :=
  if SourceRouter.confirm env (some payload) request = .accepted then
    match request.repetition.filter (·.hasFurtherRepetition) with
    | none => r
    | some repetition => { r with
        repetitions := ⟨r.nextNode, request, payload⟩ :: r.repetitions
        nextNode := r.nextNode + 1
        callbacks := r.callbacks ++ [(r.now + clockCast repetition.interval, r.nextNode)] }
  else r

def trigger (r : Repeater) (deadline : Int) (repeated : RepeatedRequest) : Repeater :=
  r.register env (repeated.request.modifyRepetition
    (SourceRouter.remainingRepetition r.now deadline)) repeated.payload

def erase (r : Repeater) (node : Nat) : Repeater :=
  { r with repetitions := r.repetitions.eraseP fun repeated =>
      repeated.node = node }

inductive Step (r : Repeater) : Option (Int × Nat) → Bool → Repeater → Prop
  | wait (raised : Bool) (later : Int) (h : r.now ≤ later) :
      Step r none raised { r with now := later }
  | add (raised : Bool) (request : DataRequestVariant) (payload : DownPacket) :
      Step r none raised (r.register env request payload)
  | stray (raised : Bool) {before after : List (Int × Nat)} {deadline : Int}
      {node : Nat} (hcallbacks : r.callbacks = before ++ (deadline, node) :: after)
      (hfound : r.repetitions.find? (fun repeated => repeated.node = node) = none) :
      Step r (some (deadline, node)) raised { r with callbacks := before ++ after }
  | fire (raised : Bool) {before after : List (Int × Nat)} {deadline : Int}
      {node : Nat} {repeated : RepeatedRequest}
      (hcallbacks : r.callbacks = before ++ (deadline, node) :: after)
      (hdue : deadline ≤ r.now)
      (hfound : r.repetitions.find? (fun repeated => repeated.node = node) = some repeated) :
      Step r (some (deadline, node)) raised
        (let triggered := trigger env { r with callbacks := before ++ after } deadline repeated
        if raised then triggered else triggered.erase node)

end Repeater

namespace SourceRouter

variable {ρ τ : Type} {env : SourceEnvironment ρ τ} {s : SourceRouter ρ τ}

def repeater (s : SourceRouter ρ τ) : Repeater where
  now := s.router.runtime.now
  repetitions := s.repetitions
  nextNode := s.nextNode
  callbacks := (s.router.runtime.pending .repeater).zip s.callbacks

def Aligned (s : SourceRouter ρ τ) : Prop :=
  (s.router.runtime.pending .repeater).length = s.callbacks.length

theorem SameRepeating.repeater {s' : SourceRouter ρ τ}
  (h : SameRepeating s s') : s'.repeater = s.repeater := by
  unfold SameRepeating repeating at h
  simp only [Prod.mk.injEq] at h
  obtain ⟨hr, hn, hc, hp, hnow⟩ := h
  unfold SourceRouter.repeater
  rw [hr, hn, hc, hp, hnow]

theorem SameRepeating.aligned {s' : SourceRouter ρ τ}
  (h : SameRepeating s s') (hs : Aligned s) : Aligned s' := by
  unfold SameRepeating repeating at h
  simp only [Prod.mk.injEq] at h
  obtain ⟨-, -, hc, hp, -⟩ := h
  unfold Aligned
  rw [hc, hp]
  exact hs

theorem aligned_repeated (hs : Aligned s) (request : DataRequestVariant)
  (pay : DownPacket) (interval : ℚ) :
  Aligned (s.repeated request pay interval) := by
  unfold Aligned repeated
  rw [pending_schedule_self, List.length_append, List.length_append, hs]
  rfl

theorem repeater_repeated (hs : Aligned s) (request : DataRequestVariant)
  (pay : DownPacket) (interval : ℚ) :
  (s.repeated request pay interval).repeater =
    { s.repeater with
      repetitions := ⟨s.nextNode, request, pay⟩ :: s.repetitions
      nextNode := s.nextNode + 1
      callbacks := s.repeater.callbacks ++
        [(s.router.runtime.now + clockCast interval, s.nextNode)] } := by
  unfold repeater repeated
  rw [pending_schedule_self, List.zip_append hs]
  rfl

theorem repeater_request (env : SourceEnvironment ρ τ) (hs : Aligned s)
  (request : DataRequestVariant) (payload : DownPacket) :
  let s' := ((SourceRouter.request env request (some payload)).exec s).2
  Aligned s' ∧ s'.repeater = s.repeater.register env request payload := by
  have hsa := exec_request env s request payload
  unfold Repeater.register
  split at hsa
  · next ha =>
    rw [if_pos ha]
    unfold registered at hsa
    split at hsa
    · exact ⟨hsa.aligned hs, hsa.repeater⟩
    · next repetition _ =>
      exact ⟨hsa.aligned (aligned_repeated hs _ _ _),
        hsa.repeater.trans (repeater_repeated hs _ _ _)⟩
  · next hr =>
    rw [if_neg hr]
    exact ⟨hsa.aligned hs, hsa.repeater⟩

def fires (s : SourceRouter ρ τ) : Input → Option (Int × Nat)
  | .callback index =>
    match s.router.runtime.queue[index]? with
    | some (deadline, .repeater) =>
      if s.router.runtime.now < deadline then none
      else s.callbacks[s.repeaterPlace index]?.map (deadline, ·)
    | _ => none
  | _ => none

def raises (env : SourceEnvironment ρ τ) (s : SourceRouter ρ τ) (input : Input) : Bool :=
  !((perform env input).exec s).1.isOk

def withoutCallback (s : SourceRouter ρ τ) (index : Nat) : SourceRouter ρ τ :=
  { s.popped index with
    callbacks := s.callbacks.eraseIdx (s.repeaterPlace index) }

theorem withoutCallback_spec (hs : Aligned s) {index : Nat} {due : Int} {node : Nat}
  (hent : s.router.runtime.queue[index]? = some (due, .repeater))
  (hn : s.callbacks[s.repeaterPlace index]? = some node) :
  Aligned (s.withoutCallback index) ∧ ∃ before after,
    s.repeater.callbacks = before ++ (due, node) :: after ∧
    (s.withoutCallback index).repeater = { s.repeater with callbacks := before ++ after } := by
  have hp := pending_eq hent
  have hw : (s.withoutCallback index).router.runtime.pending .repeater =
      _ := pending_without
  have hplc : (deadlines .repeater
      (s.router.runtime.queue.take index)).length = s.repeaterPlace index :=
    List.length_map _
  generalize deadlines .repeater (s.router.runtime.queue.take index) = before at hp hw hplc
  generalize deadlines .repeater (s.router.runtime.queue.drop (index + 1)) = after at hp hw
  -- the nodes are split at the same place
  obtain ⟨hlt, hg⟩ := List.getElem?_eq_some_iff.1 hn
  have hc : s.callbacks = s.callbacks.take (s.repeaterPlace index) ++
      node :: s.callbacks.drop (s.repeaterPlace index + 1) := by
    rw [← hg, List.getElem_cons_drop, List.take_append_drop]
  have her : (s.withoutCallback index).callbacks = s.callbacks.take (s.repeaterPlace index) ++
        s.callbacks.drop (s.repeaterPlace index + 1) :=
    List.eraseIdx_eq_take_drop_succ _ _
  have ht : before.length = (s.callbacks.take (s.repeaterPlace index)).length := by
    rw [hplc, List.length_take_of_le hlt.le]
  unfold Aligned at hs
  rw [hp, hc, List.length_append, List.length_append, List.length_cons, List.length_cons, ht] at hs
  refine ⟨?_, before.zip (s.callbacks.take (s.repeaterPlace index)),
    after.zip (s.callbacks.drop (s.repeaterPlace index + 1)), ?_, ?_⟩
  · unfold Aligned
    rw [hw, her, List.length_append, List.length_append, ht]
    omega
  · refine (congrArg₂ List.zip hp hc).trans ?_
    rw [List.zip_append ht]
    rfl
  · unfold repeater
    rw [hw, her, List.zip_append ht]
    rfl

theorem exec_triggerRepetition (env : SourceEnvironment ρ τ) (hs : Aligned s)
  (node : Nat) (due : Int) :
  let out := (triggerRepetition env node due).exec s
  Aligned out.2 ∧
    match s.repetitions.find? fun rep => rep.node = node with
    | none => out.2.repeater = s.repeater
    | some rep =>
      let triggered := s.repeater.trigger env due rep
      out.2.repeater =
        if (!out.1.isOk) then triggered else triggered.erase node := by
  intro out
  have ho : out = (match s.repetitions.find? fun rep =>
      rep.node = node with
    | none => pure ()
    | some rep => do
        let _ ← SourceRouter.request env (rep.request.modifyRepetition
          (remainingRepetition s.router.runtime.now due)) (some rep.payload)
        modify fun s => { s with
          repetitions := s.repetitions.eraseP fun rep =>
            rep.node = node } : SourceAction ρ τ Unit).exec s :=
    exec_bind_ok (show (get : SourceAction ρ τ _).exec s = (.ok s, s) from rfl)
  clear_value out
  subst ho
  cases s.repetitions.find? fun rep => rep.node = node with
  | none => exact ⟨hs, rfl⟩
  | some rep =>
    dsimp only
    obtain ⟨ha, hr⟩ := repeater_request env hs (rep.request.modifyRepetition
        (remainingRepetition s.router.runtime.now due)) rep.payload
    rcases hex : (SourceRouter.request env (rep.request.modifyRepetition
        (remainingRepetition s.router.runtime.now due))
      (some rep.payload)).exec s with ⟨e | result, s'⟩
    · rw [hex] at ha hr
      rw [exec_bind_error hex]
      exact ⟨ha, hr⟩
    rw [hex] at ha hr
    rw [exec_bind_ok hex]
    refine ⟨ha, ?_⟩
    exact congrArg (Repeater.erase · node) hr

theorem stays_indicate (pkt : UpPacket) (ll : LinkLayer) :
  Stays SameRepeating (within (Router.indicate env.toEnvironment pkt ll)) s := by
  have hI := Router.kept_still env.toEnvironment
    (s.router.runtime.pending .repeater) s.router.runtime.now
  have hT := (Traffic.sources_any (fun _ _ => True) env).toForwards
  refine stays_of_still (Router.kept_indicate hI hT ⟨rfl, rfl⟩ ?_).1
  intro ext ctx security _
  exact Router.keeps_deliver hI hT
    ⟨Traffic.receives_any _ _ _, fun _ _ _ hr => hr, fun _ _ => trivial⟩

theorem popped_same {index : Nat} {due : Int} {scope : Scope}
  (hent : s.router.runtime.queue[index]? = some (due, scope))
  (hs : scope ≠ .repeater) : SameRepeating s (s.popped index) := by
  have hp : (s.popped index).router.runtime.pending .repeater =
      s.router.runtime.pending .repeater :=
    pending_without_of_ne hent hs
  unfold SameRepeating repeating
  rw [hp]
  rfl

theorem exists_node (hs : Aligned s) {index : Nat} {due : Int}
  (hent : s.router.runtime.queue[index]? = some (due, .repeater)) :
  ∃ node, s.callbacks[s.repeaterPlace index]? = some node := by
  have hp : (deadlines .repeater
      (s.router.runtime.queue.take index)).length = s.repeaterPlace index :=
    List.length_map _
  have hl := hs
  unfold Aligned at hl
  rw [pending_eq hent, List.length_append, List.length_cons, hp] at hl
  have hlt : s.repeaterPlace index < s.callbacks.length := by omega
  exact ⟨_, List.getElem?_eq_getElem hlt⟩

theorem exec_callback_repeater {index : Nat} {due : Int} {node : Nat}
    (hent : s.router.runtime.queue[index]? = some (due, .repeater))
    (hdue : due ≤ s.router.runtime.now) (hn : s.callbacks[s.repeaterPlace index]? = some node) :
    (perform env (.callback index)).exec s =
      (triggerRepetition env node due).exec (s.withoutCallback index) := by
  refine (exec_callback_due env hent hdue).trans ?_
  have hg : (get : SourceAction ρ τ _).exec (s.popped index) =
    (.ok (s.popped index), s.popped index) := rfl
  have hset : (set (s.withoutCallback index) : SourceAction ρ τ _).exec
    (s.popped index) = (.ok ⟨⟩, s.withoutCallback index) := rfl
  have hp : (s.popped index).callbacks[s.repeaterPlace index]? = some node := hn
  unfold invoke
  refine (exec_bind_ok hg).trans ?_
  refine (exec_bind_ok hset).trans ?_
  rw [hp]

theorem exec_request_accepted {request : DataRequestVariant} {payload : Option DownPacket}
    (h : confirm env payload request = .accepted) :
    SourceRouter.request env request payload = do
      execute env request payload
      return .accepted := by
  rw [SourceRouter.request, h]
  rfl

theorem exec_trigger_accepted {node : Nat} {due : Int} {rep : RepeatedRequest}
    (hfound : s.repetitions.find? (fun rep => rep.node = node) = some rep)
    (hconfirm : confirm env (some rep.payload) (rep.request.modifyRepetition
      (remainingRepetition s.router.runtime.now due)) = .accepted) :
    (triggerRepetition env node due).exec s = (do
      execute env (rep.request.modifyRepetition
        (remainingRepetition s.router.runtime.now due)) (some rep.payload)
      modify fun s => { s with
        repetitions := s.repetitions.eraseP fun rep => rep.node = node } :
          SourceAction ρ τ Unit).exec s := by
  have hget : (get : SourceAction ρ τ _).exec s = (.ok s, s) := rfl
  refine (exec_bind_ok hget).trans ?_
  rw [hfound]
  dsimp only
  rw [exec_request_accepted hconfirm, bind_assoc]
  rfl

theorem repeater_callback (hs : Aligned s) {index : Nat} {due : Int}
  (hent : s.router.runtime.queue[index]? = some (due, .repeater))
  (hdue : due ≤ s.router.runtime.now) :
  Aligned (step env s (.callback index)) ∧
    Repeater.Step env s.repeater (fires s (.callback index)) (raises env s (.callback index))
      (step env s (.callback index)).repeater := by
  obtain ⟨node, hn⟩ := exists_node hs hent
  have hfir : fires s (.callback index) = some (due, node) := by
    rw [fires, hent]
    dsimp only
    rw [if_neg (not_lt.2 hdue), hn]
    rfl
  have hex := @exec_callback_repeater _ _ env s index due node hent hdue hn
  obtain ⟨ha, before, after, hc, hw⟩ := withoutCallback_spec hs hent hn
  obtain ⟨ho, hrep⟩ := exec_triggerRepetition env ha node due
  rw [hfir, raises, step, hex]
  refine ⟨ho, ?_⟩
  have hr : (s.withoutCallback index).repetitions = s.repeater.repetitions := rfl
  rw [hr, hw] at hrep
  split at hrep
  · next hf =>
    rw [hrep]
    exact .stray _ hc hf
  · next rep hf =>
    rw [hrep]
    exact .fire _ hc hdue hf

theorem repeater_step (hs : Aligned s) (input : Input) : Aligned (step env s input) ∧
    Repeater.Step env s.repeater (fires s input) (raises env s input)
      (step env s input).repeater := by
  -- a step that leaves the repeater alone is one that takes no time
  have hqt : ∀ {s' : SourceRouter ρ τ} {raised : Bool}, SameRepeating s s' → Aligned s' ∧
        Repeater.Step env s.repeater none raised s'.repeater := by
    intro s' raised hsa
    refine ⟨hsa.aligned hs, ?_⟩
    rw [hsa.repeater]
    exact .wait raised s.repeater.now le_rfl
  cases input with
  | elapse dur =>
    refine ⟨hs, .wait _ (s.router.runtime.now + dur) ?_⟩
    exact Int.le_add_of_nonneg_right (Int.natCast_nonneg dur)
  | request request pay =>
    have hstep : step env s (.request request pay) =
        ((SourceRouter.request env request pay).exec s).2 :=
      exec_discard_snd _ _
    rw [hstep]
    cases pay with
    | none =>
      refine hqt ?_
      unfold SourceRouter.request
      simp only [ite_bind]
      split
      · cases request <;> exact refl_of SameRepeating s
      · exact refl_of SameRepeating s
    | some pay =>
      obtain ⟨ha, hr⟩ := repeater_request env hs request pay
      refine ⟨ha, ?_⟩
      rw [hr]
      exact .add _ request pay
  | indicate pkt ll => exact hqt (stays_indicate pkt ll)
  | updatePosition positionFix =>
    exact hqt (stays_within fun pending now => keeps_updatePosition
      (Router.kept_still env.toEnvironment pending now) positionFix)
  | callback index =>
    cases hent : s.router.runtime.queue[index]? with
    | none =>
      have hid : (callback env index).exec s = (.ok (), s) := by
        rw [exec_callback_eq, hent]
        rfl
      have hstep : step env s (.callback index) = s := congrArg Prod.snd hid
      rw [hstep, fires, hent]
      exact hqt (refl_of SameRepeating s)
    | some entry =>
      obtain ⟨due, scope⟩ := entry
      by_cases hdue : s.router.runtime.now < due
      · have hid : (callback env index).exec s = (.ok (), s) := by
          rw [exec_callback_eq, hent]
          dsimp only
          rw [if_pos hdue]
          rfl
        have hstep : step env s (.callback index) = s := congrArg Prod.snd hid
        have hf : fires s (.callback index) = none := by
          rw [fires, hent]
          cases scope with
          | repeater => exact if_pos hdue
          | router | cbfBuffer => rfl
        rw [hstep, hf]
        exact hqt (refl_of SameRepeating s)
      · have hstep : step env s (.callback index) = ((invoke env due
            (s.repeaterPlace index) scope).exec (s.popped index)).2 :=
          congrArg Prod.snd (exec_callback_due env hent (not_lt.1 hdue))
        cases scope with
        | router =>
          have hsa := popped_same hent (by decide)
          rw [hstep, fires, hent]
          exact hqt (trans_of SameRepeating hsa (stays_within
            fun pending now => keeps_onBeaconTimerExpired
              (Router.kept_still env.toEnvironment pending now) (Traffic.sources_any _ env)))
        | cbfBuffer =>
          have hsa := popped_same hent (by decide)
          rw [hstep, fires, hent]
          exact hqt (trans_of SameRepeating hsa (stays_within
            fun pending now => keeps_onCbfTimerExpired
              (Router.kept_still env.toEnvironment pending now) (Traffic.sources_any _ env)))
        | repeater => exact repeater_callback hs hent (not_lt.1 hdue)

end SourceRouter

end Vanetza.Geonet
