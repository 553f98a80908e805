import Vanetza.Geonet.Repetition

/-!
# The repetitions of one request

Each repetition is a request of its own, with a node of its own. `Chain` follows
a request from one node to the next, next to the state of the router.
-/

namespace Vanetza.Geonet

open Security Lib List Option Repetition Repeater

variable {node : Nat} {before after : List (Int × Nat)} {repeated : RepeatedRequest} {raised : Bool}

namespace Repeater

variable {ρ τ : Type} {env : SourceEnvironment ρ τ} {r r' : Repeater}

structure WellFormed (r : Repeater) : Prop where
  callbacks : (r.callbacks.map (·.2)).Nodup
  repetitions : (r.repetitions.map (·.node)).Nodup
  callbacks_lt : ∀ callback ∈ r.callbacks, callback.2 < r.nextNode
  repetitions_lt : ∀ repeated ∈ r.repetitions, repeated.node < r.nextNode

structure Less (r r' : Repeater) : Prop where
  callbacks : r'.callbacks.Sublist r.callbacks
  repetitions : r'.repetitions.Sublist r.repetitions
  nextNode : r'.nextNode = r.nextNode

theorem WellFormed.less (h : r.WellFormed) (hl : r.Less r') : r'.WellFormed where
  callbacks := h.callbacks.sublist (hl.callbacks.map _)
  repetitions := h.repetitions.sublist (hl.repetitions.map _)
  callbacks_lt callback hmem := by
    rw [hl.nextNode]
    exact h.callbacks_lt callback (hl.callbacks.subset hmem)
  repetitions_lt repeated hmem := by
    rw [hl.nextNode]
    exact h.repetitions_lt repeated (hl.repetitions.subset hmem)

theorem less_erase (r : Repeater) (node : Nat) : r.Less (r.erase node) where
  callbacks := .refl _
  repetitions := List.eraseP_sublist
  nextNode := rfl

theorem less_take {cb : Int × Nat} (h : r.callbacks = before ++ cb :: after) :
  r.Less { r with callbacks := before ++ after } where
  callbacks := by
    rw [h]
    exact (sublist_cons_self _ _).append_left before
  repetitions := .refl _
  nextNode := rfl

theorem register_cases (env : SourceEnvironment ρ τ) (r : Repeater)
  (request : DataRequestVariant) (payload : DownPacket) :
  r.register env request payload = r ∨ ∃ deadline, r.register env request payload = { r with
      repetitions := ⟨r.nextNode, request, payload⟩ :: r.repetitions
      nextNode := r.nextNode + 1
      callbacks := r.callbacks ++ [(deadline, r.nextNode)] } := by
  unfold register
  split
  · split
    · exact .inl rfl
    · exact .inr ⟨_, rfl⟩
  · exact .inl rfl

section Accepted

variable {request : DataRequestVariant} {payload : DownPacket}
  (hconfirm : SourceRouter.confirm env (some payload) request = .accepted)

include hconfirm

theorem register_none (h : request.repetition.filter (·.hasFurtherRepetition) = none) :
  r.register env request payload = r := by
  rw [register, if_pos hconfirm, h]

theorem register_some {repetition : Repetition}
  (h : request.repetition.filter (·.hasFurtherRepetition) = some repetition) :
  r.register env request payload = { r with
    repetitions := ⟨r.nextNode, request, payload⟩ :: r.repetitions
    nextNode := r.nextNode + 1
    callbacks := r.callbacks ++ [(r.now + clockCast repetition.interval, r.nextNode)] } := by
  rw [register, if_pos hconfirm, h]

end Accepted

theorem WellFormed.register (h : r.WellFormed) (request : DataRequestVariant)
  (payload : DownPacket) : (r.register env request payload).WellFormed := by
  rcases register_cases env r request payload with hs | ⟨deadline, hm⟩
  · rw [hs]
    exact h
  rw [hm]
  have hcbs : r.nextNode ∉ r.callbacks.map (·.2) := by
    intro hmem
    obtain ⟨cb, hc, heq⟩ := mem_map.1 hmem
    exact (h.callbacks_lt cb hc).ne heq
  have hre : r.nextNode ∉ r.repetitions.map (·.node) := by
    intro hmem
    obtain ⟨repeated, hr, heq⟩ := mem_map.1 hmem
    exact (h.repetitions_lt repeated hr).ne heq
  refine ⟨?_, nodup_cons.2 ⟨hre, h.repetitions⟩, ?_, ?_⟩
  · rw [map_append]
    refine nodup_append.2 ⟨h.callbacks, nodup_singleton _, ?_⟩
    rintro node hn new hnew rfl
    obtain rfl : node = r.nextNode := mem_singleton.1 hnew
    exact hcbs hn
  · intro cb hmem
    rcases mem_append.1 hmem with hmem | hmem
    · exact Nat.lt_succ_of_lt (h.callbacks_lt cb hmem)
    · rw [mem_singleton.1 hmem]
      exact Nat.lt_succ_self _
  · intro repeated hmem
    rcases mem_cons.1 hmem with rfl | hmem
    · exact Nat.lt_succ_self _
    · exact Nat.lt_succ_of_lt (h.repetitions_lt repeated hmem)

theorem WellFormed.step {label : Option (Int × Nat)} (h : r.WellFormed)
  (hstep : Step env r label raised r') :
  r'.WellFormed := by
  cases hstep with
  | wait raised later hle => exact ⟨h.1, h.2, h.3, h.4⟩
  | add raised request payload => exact h.register request payload
  | stray raised hcbs hfnd => exact h.less (less_take hcbs)
  | fire raised hcbs hdue hfnd =>
    have ht := h.less (less_take hcbs)
    dsimp only
    split
    · exact ht.register _ _
    · exact (ht.register _ _).less (less_erase _ _)

theorem mem_erase (hm : repeated ∈ r.repetitions) (hne : repeated.node ≠ node) :
  repeated ∈ (r.erase node).repetitions :=
  (List.mem_eraseP_of_neg (by simpa using hne)).2 hm

theorem WellFormed.node_ne (h : r.WellFormed) (hm : repeated ∈ (r.erase node).repetitions) :
  repeated.node ≠ node := by
  intro heq
  obtain ⟨erased, before, after, hb, hno, hs, her⟩ :=
    exists_of_eraseP (p := fun repeated => repeated.node = node)
      (mem_of_mem_eraseP hm) (decide_eq_true heq)
  have hn := h.repetitions
  rw [hs, map_append, map_cons] at hn
  have hr : repeated ∈ before ++ after := by
    rw [← her]
    exact hm
  rcases mem_append.1 hr with hm | hm
  · exact hb repeated hm (decide_eq_true heq)
  · refine (nodup_cons.1 (nodup_append.1 hn).2.1).1 ?_
    rw [of_decide_eq_true hno, ← heq]
    exact mem_map_of_mem hm

def added (r r' : Repeater) : Option Nat :=
  if r.nextNode < r'.nextNode then some r.nextNode else none

theorem added_ne {r r' : Repeater} (h : node < r.nextNode) : r.added r' ≠ some node := by
  unfold added
  split
  · exact fun heq => h.ne (some.inj heq).symm
  · exact nofun

def executes {ρ τ : Type} (env : SourceEnvironment ρ τ) (r : Repeater)
  (deadline : Int) (node : Nat) : Bool :=
  (r.repetitions.find? fun repeated => repeated.node = node).any
    fun repeated => SourceRouter.confirm env (some repeated.payload)
      (repeated.request.modifyRepetition
        (SourceRouter.remainingRepetition r.now deadline)) = .accepted

end Repeater

structure Chain where
  executed : List Int
  nodes : List Nat
  waiting : Option Nat
  raised : List Nat

namespace Chain

variable {ρ τ : Type} (env : SourceEnvironment ρ τ)

def start (r r' : Repeater) (request : DataRequestVariant) (payload : DownPacket) : Chain where
  executed := if SourceRouter.confirm env (some payload) request = .accepted
    then [r.now] else []
  nodes := (r.added r').toList
  waiting := r.added r'
  raised := []

def next (r r' : Repeater) (fired : Option (Int × Nat)) (raised : Bool) (chain : Chain) : Chain :=
  match fired with
  | none => chain
  | some (deadline, node) =>
    if chain.waiting = some node then
      { executed := if r.executes env deadline node then
          chain.executed ++ [r.now] else chain.executed
        nodes := chain.nodes ++ (r.added r').toList
        waiting := r.added r'
        raised := if raised then node :: chain.raised else chain.raised }
    else chain

variable (request : DataRequestVariant) (payload : DownPacket)
  (repetition : Repetition) (issued : Int) (punctual : Prop)

structure Remains (earlier : List Int) (last : Int) (left : Repetition) : Prop where
  interval : left.interval = repetition.interval
  reach : (last : ℚ) + left.maximum * 10 ^ 6 ≤ issued + repetition.maximum * 10 ^ 6
  spent : earlier.length * repetition.interval + left.maximum ≤ repetition.maximum
  exactly : punctual → left.maximum = repetition.maximum - earlier.length * repetition.interval

structure Waits (r : Repeater) (node : Nat) (earlier : List Int) (last : Int)
  (left : Repetition) : Prop
  extends Remains repetition issued punctual earlier last left where
  pending : (last + clockCast repetition.interval, node) ∈ r.callbacks
  held : ⟨node, request.modifyRepetition fun _ => some left, payload⟩ ∈ r.repetitions
  further : left.hasFurtherRepetition = true

structure Follows (r : Repeater) (chain : Chain) : Prop where
  nodes : ∀ node ∈ chain.nodes, node < r.nextNode
  left : ∀ repeated ∈ r.repetitions, repeated.node ∈ chain.nodes →
    chain.waiting = some repeated.node ∨ repeated.node ∈ chain.raised
  count : chain.executed.length ≤ 1 + ⌊repetition.maximum / repetition.interval⌋₊
  waits : ∀ node, chain.waiting = some node → ∃ earlier last left,
    chain.executed = earlier ++ [last] ∧
      Waits request payload repetition issued punctual r node earlier last left
  spaced : punctual → chain.executed = (List.range chain.executed.length).map fun k : Nat =>
      issued + k * clockCast repetition.interval
  ended : punctual → chain.waiting = none →
    chain.executed.length = 1 + ⌊repetition.maximum / repetition.interval⌋₊

variable {env request payload repetition issued punctual} {r r' : Repeater} {chain : Chain}

theorem Follows.mono (h : Follows request payload repetition issued punctual r chain)
  (hn : r.nextNode ≤ r'.nextNode) (hc : ∀ cb ∈ r.callbacks,
    chain.waiting = some cb.2 → cb ∈ r'.callbacks) (hh : ∀ repeated ∈ r.repetitions,
    chain.waiting = some repeated.node → repeated ∈ r'.repetitions)
  (ho : ∀ repeated ∈ r'.repetitions, repeated ∈ r.repetitions ∨ r.nextNode ≤ repeated.node) :
  Follows request payload repetition issued punctual r' chain where
  nodes node hnode := (h.nodes node hnode).trans_le hn
  left repeated hm hnode := by
    rcases ho repeated hm with hm | hnew
    · exact h.left repeated hm hnode
    · exact absurd (h.nodes _ hnode) (not_lt.2 hnew)
  count := h.count
  waits node hwait := by
    obtain ⟨earlier, last, left, hl, hwt⟩ := h.waits node hwait
    exact ⟨earlier, last, left, hl, { hwt with
      pending := hc _ hwt.pending hwait
      held := hh _ hwt.held hwait }⟩
  spaced := h.spaced
  ended := h.ended

theorem Follows.eraseOther (h : Follows request payload repetition issued punctual r chain)
  (ho : chain.waiting ≠ some node) :
  Follows request payload repetition issued punctual (r.erase node) chain :=
  h.mono le_rfl (fun _ hm _ => hm) (fun _ hm hwt => Repeater.mem_erase hm fun heq =>
      ho (heq ▸ hwt))
    (fun _ hm => .inl (List.mem_of_mem_eraseP hm))

theorem Follows.erase {executed : List Int} {nodes : List Nat}
  {waiting : Option Nat} {raised : List Nat}
  (h : Follows request payload repetition issued punctual r
    ⟨executed, nodes, waiting, node :: raised⟩) (hr : r.WellFormed) (hw : waiting ≠ some node) :
  Follows request payload repetition issued punctual (r.erase node)
    ⟨executed, nodes, waiting, raised⟩ := by
  have hm := h.eraseOther hw
  refine { hm with left := fun repeated hmem hnode => ?_ }
  rcases hm.left repeated hmem hnode with hwt | hra
  · exact .inl hwt
  · exact .inr ((mem_cons.1 hra).resolve_left (hr.node_ne hmem))

section Arithmetic

variable {earlier : List Int} {last : Int} {left : Repetition}

theorem Remains.le_floor (h : Remains repetition issued punctual earlier last left)
  (hf : left.hasFurtherRepetition = true) :
  earlier.length + 1 ≤ ⌊repetition.maximum / repetition.interval⌋₊ := by
  obtain ⟨-, hp, hle⟩ := hasFurtherRepetition_iff.1 hf
  rw [h.interval] at hp hle
  refine Nat.le_floor ((le_div_iff₀ hp).2 ?_)
  have hs := h.spent
  push_cast
  linarith

theorem Remains.deadline_le (h : Remains repetition issued punctual earlier last left)
  (hf : left.hasFurtherRepetition = true) :
  ((last + clockCast repetition.interval : Int) : ℚ) ≤ issued + repetition.maximum * 10 ^ 6 := by
  obtain ⟨-, hp, hle⟩ := hasFurtherRepetition_iff.1 hf
  have hc := clockCast_le hp.le
  have hr := h.reach
  rw [h.interval] at hc hle
  push_cast
  linarith

theorem Remains.floor_eq (h : Remains repetition issued punctual earlier last left)
  (hp : 0 < repetition.interval) (hc : earlier.length ≤ ⌊repetition.maximum / repetition.interval⌋₊)
  (hl : ¬ left.hasFurtherRepetition = true) (hpun : punctual) :
  ⌊repetition.maximum / repetition.interval⌋₊ = earlier.length := by
  rw [hasFurtherRepetition_iff, h.interval] at hl
  have hlt : left.maximum < repetition.interval := by
    by_contra hle
    exact hl ⟨hp.trans_le (not_lt.1 hle), hp, not_lt.1 hle⟩
  have hm := h.exactly hpun
  have hf : ⌊repetition.maximum / repetition.interval⌋₊ < earlier.length + 1 := by
    rw [Nat.floor_lt' (Nat.succ_ne_zero _), div_lt_iff₀ hp]
    push_cast
    linarith
  omega

theorem Remains.next (h : Remains repetition issued punctual earlier last left)
  (hf : left.hasFurtherRepetition = true) {now : Int}
  (hdue : last + clockCast repetition.interval ≤ now)
  (ho : punctual → last + clockCast repetition.interval = now) :
  Remains repetition issued punctual (earlier ++ [last]) now
    (left.reduced (now - (last + clockCast repetition.interval))) := by
  obtain ⟨-, hpos, -⟩ := hasFurtherRepetition_iff.1 hf
  have hc := clockCast_le hpos.le
  have hr := h.reach
  have hs := h.spent
  have hd : (last : ℚ) + clockCast repetition.interval ≤ now := by exact_mod_cast hdue
  rw [h.interval] at hc
  refine ⟨h.interval, ?_, ?_, ?_⟩
  · rw [reduced, h.interval]
    push_cast
    linarith
  · rw [reduced, h.interval, length_append, length_singleton]
    push_cast
    linarith
  intro hp
  rw [reduced, h.interval, h.exactly hp, length_append, length_singleton, ho hp, sub_self]
  push_cast
  ring

end Arithmetic

theorem Follows.register (chain : Chain) {again : DataRequestVariant}
  {left : Repetition} {raised : List Nat} (hr : r.WellFormed) (hp : 0 < repetition.interval)
  (hconfirm : SourceRouter.confirm env (some payload) again = .accepted)
  (hag : again.repetition.filter (·.hasFurtherRepetition) =
    (some left).filter (·.hasFurtherRepetition))
  (hsa : left.hasFurtherRepetition = true → again = request.modifyRepetition fun _ => some left)
  (hrem : Remains repetition issued punctual chain.executed r.now left)
  (hnod : ∀ node ∈ chain.nodes, node < r.nextNode)
  (hl : ∀ repeated ∈ r.repetitions, repeated.node ∈ chain.nodes → repeated.node ∈ raised)
  (hc : chain.executed.length ≤ ⌊repetition.maximum / repetition.interval⌋₊)
  (hs : punctual → chain.executed ++ [r.now] =
    (List.range (chain.executed.length + 1)).map fun k : Nat =>
      issued + k * clockCast repetition.interval) :
  let r' := r.register env again payload
  Follows request payload repetition issued punctual r'
    { executed := chain.executed ++ [r.now]
      nodes := chain.nodes ++ (r.added r').toList
      waiting := r.added r'
      raised } := by
  dsimp only
  have hlen : (chain.executed ++ [r.now]).length = chain.executed.length + 1 := length_append
  cases hfur : left.hasFurtherRepetition with
  | false =>
    rw [filter_some_neg (by simp [hfur])] at hag
    have hno : r.added r = none := if_neg (lt_irrefl _)
    rw [register_none hconfirm hag, hno, toList_none, append_nil]
    refine ⟨hnod, ?_, ?_, by rintro _ ⟨⟩, ?_, ?_⟩
    · exact fun repeated hm hn => .inr (hl repeated hm hn)
    · rw [hlen]
      omega
    · rw [hlen]
      exact hs
    · intro hpun _
      rw [hlen, hrem.floor_eq hp hc (by simp [hfur]) hpun, Nat.add_comm]
  | true =>
    rw [filter_some_pos hfur] at hag
    have hso : ∀ {repetitions cbs}, r.added
        ⟨r.now, repetitions, r.nextNode + 1, cbs⟩ = some r.nextNode :=
      if_pos (Nat.lt_succ_self _)
    rw [register_some hconfirm hag, hso, toList_some]
    have hf := hrem.le_floor hfur
    refine ⟨?_, ?_, ?_, ?_, ?_, by rintro _ ⟨⟩⟩
    · intro node hn
      rcases mem_append.1 hn with hn | hn
      · exact Nat.lt_succ_of_lt (hnod node hn)
      · rw [mem_singleton.1 hn]
        exact Nat.lt_succ_self _
    · intro repeated hm hn
      rcases mem_cons.1 hm with rfl | hm
      · exact .inl rfl
      · refine .inr (hl repeated hm ?_)
        refine (mem_append.1 hn).resolve_right fun hnew => ?_
        exact (hr.repetitions_lt repeated hm).ne (mem_singleton.1 hnew)
    · rw [hlen]
      omega
    · rintro node ⟨⟩
      refine ⟨chain.executed, r.now, left, rfl, hrem, ?_, ?_, hfur⟩
      · rw [hrem.interval]
        exact mem_append_right _ (mem_singleton_self _)
      · rw [hsa hfur]
        exact mem_cons_self
    · rw [hlen]
      exact hs

variable {deadline : Int}

theorem next_of_ne (h : chain.waiting ≠ some node) :
  chain.next env r r' (some (deadline, node)) raised = chain :=
  if_neg h

section Following

variable (h : Follows request payload repetition issued punctual r chain)

include h

theorem Follows.add (other : DataRequestVariant) (otherPayload : DownPacket) :
  Follows request payload repetition issued punctual (r.register env other otherPayload) chain := by
  rcases register_cases env r other otherPayload with
    hs | ⟨deadline, hm⟩
  · rw [hs]
    exact h
  rw [hm]
  refine h.mono (Nat.le_succ _) (fun cb hmem _ => mem_append_left _ hmem)
    (fun repeated hmem _ => mem_cons_of_mem _ hmem) ?_
  intro repeated hmem
  rcases mem_cons.1 hmem with rfl | hmem
  · exact .inr le_rfl
  · exact .inl hmem

theorem Follows.take
  (hc : r.callbacks = before ++ (deadline, node) :: after) (ho : chain.waiting ≠ some node) :
  Follows request payload repetition issued punctual
    { r with callbacks := before ++ after } chain := by
  refine h.mono le_rfl ?_ (fun _ hm _ => hm) (fun _ hm => .inl hm)
  intro cb hm hwt
  rw [hc] at hm
  rcases mem_append.1 hm with hm | hm
  · exact mem_append_left _ hm
  · rcases mem_cons.1 hm with rfl | hm
    · exact absurd hwt ho
    · exact mem_append_right _ hm

/-- The callback that the chain waits for makes its request again, which is accepted again. -/
theorem Follows.again (hr : r.WellFormed)
    (hconfirm : SourceRouter.confirm env (some payload) request = .accepted)
    (hrep : request.repetition = some repetition) (hm : (deadline, node) ∈ r.callbacks)
    (hf : r.repetitions.find? (fun repeated => repeated.node = node) = some repeated)
    (hw : chain.waiting = some node) :
    ∃ earlier last left, chain.executed = earlier ++ [last] ∧
      Waits request payload repetition issued punctual r node earlier last left ∧
      deadline = last + clockCast repetition.interval ∧ repeated.payload = payload ∧
      repeated.request.modifyRepetition (SourceRouter.remainingRepetition r.now deadline) =
        request.modifyRepetition (fun _ =>
          (some (left.reduced (r.now - deadline))).filter (·.hasFurtherRepetition)) ∧
      SourceRouter.confirm env (some payload) (repeated.request.modifyRepetition
        (SourceRouter.remainingRepetition r.now deadline)) = .accepted := by
  obtain ⟨earlier, last, left, hl, hwt⟩ := h.waits node hw
  have hd : deadline = last + clockCast repetition.interval :=
    congrArg Prod.fst (inj_on_of_nodup_map hr.callbacks hm hwt.pending rfl)
  have hn : repeated.node = node := by simpa using find?_some hf
  have hre : repeated = ⟨node, request.modifyRepetition fun _ => some left, payload⟩ :=
    inj_on_of_nodup_map hr.repetitions (mem_of_find?_eq_some hf) hwt.held hn
  have hag : repeated.request.modifyRepetition
      (SourceRouter.remainingRepetition r.now deadline) = request.modifyRepetition fun _ =>
          (some (left.reduced (r.now - deadline))).filter (·.hasFurtherRepetition) := by
    rw [hre, DataRequestVariant.modify_modify, ← SourceRouter.remainingRepetition_eq hwt.further]
    rfl
  refine ⟨earlier, last, left, hl, hwt, hd, by rw [hre], hag, ?_⟩
  rw [hag]
  refine SourceRouter.confirm_modify hconfirm hrep ?_
  intro next hfil
  obtain ⟨hso, -⟩ := filter_eq_some_iff.1 hfil
  rw [← some.inj hso]
  exact hwt.interval

theorem Follows.fire (hr : r.WellFormed) (hpos : 0 < repetition.interval)
  (hconfirm : SourceRouter.confirm env (some payload) request = .accepted)
  (hrep : request.repetition = some repetition)
  (hc : r.callbacks = before ++ (deadline, node) :: after) (hdue : deadline ≤ r.now)
  (hf : r.repetitions.find? (fun repeated => repeated.node = node) =
    some repeated) (ho : punctual → deadline = r.now) (hw : chain.waiting = some node) :
  let r' := Repeater.trigger env { r with callbacks := before ++ after } deadline repeated
  r.executes env deadline node = true ∧ Follows request payload repetition issued punctual r'
      { executed := chain.executed ++ [r.now]
        nodes := chain.nodes ++ (r.added r').toList
        waiting := r.added r'
        raised := node :: chain.raised } := by
  intro r'
  have hm : (deadline, node) ∈ r.callbacks := by
    rw [hc]
    exact mem_append_right _ mem_cons_self
  obtain ⟨earlier, last, left, hl, hwt, hd, hp, hag, ha⟩ := h.again hr hconfirm hrep hm hf hw
  have hlen : chain.executed.length = earlier.length + 1 := by
    rw [hl, length_append, length_singleton]
  have hne : Remains repetition issued punctual chain.executed r.now
      (left.reduced (r.now - deadline)) := by
    rw [hl, hd]
    refine hwt.next hwt.further (hd ▸ hdue) ?_
    rw [← hd]
    exact ho
  refine ⟨?_, ?_⟩
  · rw [executes, hf]
    rw [← hp] at ha
    exact decide_eq_true ha
  have ht := hr.less (less_take hc)
  dsimp only [r']
  rw [trigger, hp]
  refine Follows.register chain ht hpos ha ?_ ?_ hne h.nodes ?_ ?_ ?_
  · rw [hag, DataRequestVariant.repetition_modify]
    rw [Option.filter_filter]
    simp only [Bool.and_self]
  · intro hfur
    rw [hag, filter_some_pos hfur]
  · intro repeated hm hn
    rcases h.left repeated hm hn with hwt | hra
    · rw [hw] at hwt
      exact mem_cons.2 (.inl (some.inj hwt).symm)
    · exact mem_cons_of_mem _ hra
  · rw [hlen]
    exact hwt.le_floor hwt.further
  · intro hpun
    have hs := h.spaced hpun
    rw [range_succ, map_append, ← hs]
    rw [hlen, hl, range_succ, map_append] at hs
    obtain ⟨-, hsin⟩ := append_inj' hs rfl
    have hl' := (cons.inj hsin).1
    have hnow := ho hpun
    rw [hlen, map_singleton]
    congr 2
    push_cast
    linarith

theorem Follows.step {fired : Option (Int × Nat)} (hr : r.WellFormed)
  (hp : 0 < repetition.interval)
  (hconfirm : SourceRouter.confirm env (some payload) request = .accepted)
  (hrep : request.repetition = some repetition) (hstep : Repeater.Step env r fired raised r')
  (ho : punctual → ∀ deadline node, fired = some (deadline, node) →
    chain.waiting = some node → deadline = r.now) :
  Follows request payload repetition issued punctual r' (chain.next env r r' fired raised) := by
  cases hstep with
  | wait raised later hle =>
    exact h.mono le_rfl (fun _ hm _ => hm) (fun _ hm _ => hm) (fun _ hm => .inl hm)
  | add raised other otherPayload => exact h.add other otherPayload
  | stray raised hcbs hfnd =>
    rename_i before after deadline node
    have hoth : chain.waiting ≠ some node := by
      intro hw
      obtain ⟨earlier, last, left, -, hwt⟩ := h.waits node hw
      have hn := find?_eq_none.1 hfnd _ hwt.held
      exact hn (decide_eq_true rfl)
    rw [next_of_ne hoth]
    exact h.take hcbs hoth
  | fire raised hcbs hdue hfnd =>
    rename_i before after deadline node repeated
    by_cases hw : chain.waiting = some node
    · obtain ⟨hex, hf⟩ := h.fire hr hp hconfirm hrep hcbs hdue hfnd (ho · deadline node rfl hw) hw
      dsimp only
      rw [next, if_pos hw, hex, if_pos rfl]
      cases raised with
      | true => exact hf
      | false =>
        have ht := hr.less (less_take hcbs)
        refine hf.erase (ht.register _ _) (added_ne ?_)
        refine hr.callbacks_lt (deadline, node) ?_
        rw [hcbs]
        exact mem_append_right _ mem_cons_self
    · rw [next_of_ne hw]
      have ht := h.take hcbs hw
      dsimp only
      split
      · exact ht.add _ _
      · exact (ht.add _ _).eraseOther hw

end Following

end Chain

namespace SourceRouter

variable {ρ τ : Type} (env : SourceEnvironment ρ τ)

def issue (s : SourceRouter ρ τ) (request : DataRequestVariant)
  (payload : DownPacket) : SourceRouter ρ τ × Chain :=
  let s' := step env s (.request request (some payload))
  (s', .start env s.repeater s'.repeater request payload)

def follow (state : SourceRouter ρ τ × Chain) (input : Input) : SourceRouter ρ τ × Chain :=
  let s' := step env state.1 input
  (s', state.2.next env state.1.repeater s'.repeater (fires state.1 input)
    (raises env state.1 input))

def OnTime (state : SourceRouter ρ τ × Chain) (input : Input) : Prop :=
  ∀ deadline node, fires state.1 input = some (deadline, node) →
    state.2.waiting = some node → deadline = state.1.router.runtime.now

/-- A step leaves the chain alone, or it calls the node that the chain waits for. It then executes
the source operations of the request, with what is left of its repetition, and erases the node. -/
def Executes (request : DataRequestVariant) (payload : DownPacket)
    (state : SourceRouter ρ τ × Chain) (input : Input) : Prop :=
  let next := follow env state input
  next.2 = state.2 ∨ ∃ index node left,
    input = .callback index ∧ state.2.waiting = some node ∧
    next.2.executed = state.2.executed ++ [state.1.router.runtime.now] ∧
    (perform env input).exec state.1 = (do
      execute env (request.modifyRepetition fun _ => left) (some payload)
      modify fun s => { s with
        repetitions := s.repetitions.eraseP fun repeated => repeated.node = node } :
          SourceAction ρ τ Unit).exec (state.1.withoutCallback index)

variable {env} {s : SourceRouter ρ τ}

def Sound (s : SourceRouter ρ τ) : Prop := Aligned s ∧ s.repeater.WellFormed

theorem sound_step (hs : Sound s) (input : Input) : Sound (step env s input) :=
  have ⟨ha, hstep⟩ := repeater_step hs.1 input
  ⟨ha, hs.2.step hstep⟩

theorem pending_create (env : SourceEnvironment ρ τ) (rt : Runtime Scope)
  (randomGen : ρ) (security : τ) (address : Address) :
  (create env rt randomGen security address).router.runtime.pending
    .repeater = rt.pending .repeater := by
  unfold create scheduleInitialBeacon
  dsimp only
  split
  · rfl
  · split
    · rw [Runtime.pending_schedule_of_ne (by decide), Runtime.pending_cancel_of_ne (by decide)]
    · rw [Runtime.pending_schedule_of_ne (by decide), Runtime.pending_cancel_of_ne (by decide)]

theorem sound_create {rt : Runtime Scope}
  (h : rt.pending .repeater = []) (randomGen : ρ) (security : τ) (address : Address) :
  Sound (create env rt randomGen security address) := by
  have hp := (pending_create env rt randomGen security address).trans h
  refine ⟨congrArg length hp, ?_⟩
  have hc : (create env rt randomGen security address).repeater.callbacks = [] := zip_nil_right
  refine ⟨?_, nodup_nil, ?_, fun _ => nofun⟩
  · rw [hc]
    exact nodup_nil
  · rw [hc]
    exact fun _ => nofun

variable {request : DataRequestVariant} {payload : DownPacket}
  {repetition : Repetition} {punctual : Prop}

theorem follows_issue (hs : Sound s) (hp : 0 < repetition.interval)
  (hconfirm : confirm env (some payload) request = .accepted)
  (hrep : request.repetition = some repetition) :
  let state := issue env s request payload
  Sound state.1 ∧ Chain.Follows request payload repetition
    s.router.runtime.now punctual state.1.repeater state.2 := by
  refine ⟨sound_step hs _, ?_⟩
  have hstep : step env s (.request request (some payload)) =
      ((SourceRouter.request env request (some payload)).exec s).2 :=
    Program.exec_discard_snd _ _
  have hr := (repeater_request env hs.1 request payload).2
  dsimp only [issue, Chain.start]
  rw [if_pos hconfirm, hstep, hr]
  exact Chain.Follows.register ⟨[], [], none, []⟩ hs.2 hp hconfirm (congrArg _ hrep)
    (fun _ => (DataRequestVariant.modify_const request hrep).symm)
    ⟨rfl, le_rfl, by simp, by simp⟩ (fun _ => nofun) (fun _ _ => nofun)
    (Nat.zero_le _) (fun _ => by simp [repeater])

theorem fires_some {input : Input} {deadline : Int} (h : fires s input = some (deadline, node)) :
    ∃ index, input = .callback index ∧ deadline ≤ s.router.runtime.now ∧
      s.router.runtime.queue[index]? = some (deadline, .repeater) ∧
      s.callbacks[s.repeaterPlace index]? = some node := by
  unfold fires at h
  split at h
  · split at h
    · split at h
      · cases h
      · next index _ _ hent hdue =>
        obtain ⟨node', hn, heq⟩ := map_eq_some_iff.1 h
        cases heq
        exact ⟨index, rfl, not_lt.1 hdue, hent, hn⟩
    · cases h
  · cases h

theorem executes_of_follows {state : SourceRouter ρ τ × Chain} {issued : Int}
    (hs : Sound state.1) (hconfirm : confirm env (some payload) request = .accepted)
    (hrep : request.repetition = some repetition)
    (h : Chain.Follows request payload repetition issued punctual state.1.repeater state.2)
    (input : Input) : Executes env request payload state input := by
  obtain ⟨s, chain⟩ := state
  cases hfired : fires s input with
  | none =>
    left
    rw [follow, hfired]
    rfl
  | some fired =>
    obtain ⟨deadline, node⟩ := fired
    by_cases hw : chain.waiting = some node
    · obtain ⟨index, rfl, hdue, hent, hn⟩ := fires_some hfired
      obtain ⟨-, before, after, hcallbacks, -⟩ := withoutCallback_spec hs.1 hent hn
      have hm : (deadline, node) ∈ s.repeater.callbacks := by
        rw [hcallbacks]
        exact mem_append_right _ mem_cons_self
      obtain ⟨_, _, _, -, hwaits⟩ := h.waits node hw
      have hheld : (s.repetitions.find? fun repeated => repeated.node = node).isSome :=
        find?_isSome.2 ⟨_, hwaits.held, decide_eq_true rfl⟩
      obtain ⟨repeated, hf⟩ := isSome_iff_exists.1 hheld
      obtain ⟨_, _, left, -, -, -, hp, hag, ha⟩ := h.again hs.2 hconfirm hrep hm hf hw
      rw [← hp] at ha
      refine .inr ⟨index, node, (some (left.reduced (s.router.runtime.now - deadline))).filter
        (·.hasFurtherRepetition), rfl, hw, ?_, ?_⟩
      · have hexe : s.repeater.executes env deadline node = true := by
          rw [Repeater.executes]
          exact hf ▸ decide_eq_true ha
        rw [follow, hfired]
        dsimp only
        rw [Chain.next, if_pos hw, hexe, if_pos rfl]
        rfl
      · refine (exec_callback_repeater hent hdue hn).trans ?_
        refine (exec_trigger_accepted (s := s.withoutCallback index) hf ha).trans ?_
        have hagain : repeated.request.modifyRepetition (remainingRepetition
            (s.withoutCallback index).router.runtime.now deadline) = _ := hag
        rw [hagain, hp]
        rfl
    · left
      rw [follow, hfired]
      exact Chain.next_of_ne hw

theorem follows_step {issued : Int} (hpos : 0 < repetition.interval)
    (hconfirm : confirm env (some payload) request = .accepted)
    (hr : request.repetition = some repetition) (state : SourceRouter ρ τ × Chain)
    (input : Input)
    (h : Sound state.1 ∧
      Chain.Follows request payload repetition issued punctual state.1.repeater state.2)
    (ho : punctual → OnTime state input) :
    Sound (follow env state input).1 ∧ Chain.Follows request payload repetition issued punctual
      (follow env state input).1.repeater (follow env state input).2 := by
  obtain ⟨hsound, hf⟩ := h
  refine ⟨sound_step hsound input, ?_⟩
  exact hf.step hsound.2 hpos hconfirm hr (repeater_step hsound.1 input).2 ho

theorem follows_run (hs : Sound s) (hpos : 0 < repetition.interval)
  (hconfirm : confirm env (some payload) request = .accepted)
  (hr : request.repetition = some repetition) {inputs : List Input}
  (ho : punctual → RunMeets (follow env) OnTime (issue env s request payload) inputs) :
  let state := run (follow env) (issue env s request payload) inputs
  Chain.Follows request payload repetition s.router.runtime.now punctual
    state.1.repeater state.2 := by
  have hrun : RunMeets (follow env) (fun state input => punctual →
      OnTime state input) (issue env s request payload) inputs := by
    by_cases hp : punctual
    · simpa [hp] using ho hp
    · exact Run.meets_of_forall (fun _ _ h => absurd h hp) _ _
  exact (Run.invariant (follows_step hpos hconfirm hr)
    (follows_issue hs hpos hconfirm hr) hrun).2

theorem executes_run (hs : Sound s) (hpos : 0 < repetition.interval)
    (hconfirm : confirm env (some payload) request = .accepted)
    (hr : request.repetition = some repetition) (inputs : List Input) :
    RunMeets (follow env) (Executes env request payload)
      (issue env s request payload) inputs := by
  have hinit := @follows_issue _ _ env s request payload repetition False hs hpos hconfirm hr
  refine @Run.meets_of_invariant _ _ (follow env) _ (fun state => Sound state.1 ∧ Chain.Follows
    request payload repetition s.router.runtime.now False state.1.repeater state.2)
    ?_ ?_ _ hinit inputs
  · exact fun state input h => follows_step hpos hconfirm hr state input h False.elim
  · exact fun state input h => executes_of_follows h.1 hconfirm hr h.2 input

theorem step_request_accepted (h : confirm env (some payload) request = .accepted) :
    step env s (.request request (some payload)) =
      ((execute env request (some payload)).exec s).2 := by
  refine (Program.exec_discard_snd _ _).trans ?_
  rw [exec_request_accepted h]
  exact Program.exec_return_snd _ _ _

theorem follow_fst (env : SourceEnvironment ρ τ)
  (state : SourceRouter ρ τ × Chain) (inputs : List Input) :
  (run (follow env) state inputs).1 = run (step env) state.1 inputs := by
  induction inputs generalizing state with
  | nil => rfl
  | cons input rest ih => exact ih (follow env state input)

/-- A request that was accepted is executed at once, and then once for each interval that fits in
the time of its repetition if its callbacks run at their deadlines. However late they run, the chain
has ended by then. What it leaves in the repeater is left by an exception, so nothing is left if no
execution of the chain raises one. -/
theorem request_repeated {runtime : Runtime Scope}
  (hfresh : runtime.pending .repeater = []) (randomGen : ρ) (security : τ)
  (address : Address) (before inputs : List Input)
  (request : DataRequestVariant) (payload : DownPacket)
  (repetition : Repetition) (hrepetition : request.repetition = some repetition)
  (hpos : 0 < repetition.interval) (hconfirm : confirm env (some payload) request = .accepted) :
  let router := create env runtime randomGen security address
  let issuing := run (step env) router before
  let issued := issuing.router.runtime.now
  let start := issue env issuing request payload
  let (after, chain) := run (follow env) start inputs
  after = run (step env) router (before ++ .request request (some payload) :: inputs) ∧
  (start.1 = ((execute env request (some payload)).exec issuing).2 ∧ start.2.executed = [issued] ∧
    RunMeets (follow env) (Executes env request payload) start inputs) ∧
  (RunMeets (follow env) OnTime start inputs →
    chain.executed = (List.range chain.executed.length).map (fun k : Nat =>
      issued + k * clockCast repetition.interval) ∧
    (chain.waiting = none → chain.executed.length =
      1 + ⌊repetition.maximum / repetition.interval⌋₊)) ∧
  (∀ micros : Int, repetition.interval = micros / 10 ^ 6 → clockCast repetition.interval = micros) ∧
  (∀ node, chain.waiting = some node → ∃ deadline : Int,
    (deadline, node) ∈ after.repeater.callbacks ∧
    (deadline : ℚ) ≤ issued + repetition.maximum * 10 ^ 6) ∧
  chain.executed.length ≤ 1 + ⌊repetition.maximum / repetition.interval⌋₊ ∧
  ((issued : ℚ) + repetition.maximum * 10 ^ 6 ≤ after.router.runtime.now →
    (∀ deadline ∈ after.router.runtime.pending .repeater,
      after.router.runtime.now < deadline) → chain.waiting = none) ∧
  (chain.waiting = none → ∀ repeated ∈ after.repetitions,
    repeated.node ∈ chain.nodes → repeated.node ∈ chain.raised) := by
  intro router issuing issued start
  have hstep : ∀ (s : SourceRouter ρ τ) input, Sound s →
      Sound (step env s input) := fun _ input hs => sound_step hs input
  have hiss : Sound issuing := Run.always hstep (sound_create hfresh randomGen security address)
  have ha := follow_fst env start inputs
  have hl : Chain.Follows request payload repetition issued False
      (run (follow env) start inputs).1.repeater (run (follow env) start inputs).2 :=
    follows_run hiss hpos hconfirm hrepetition False.elim
  have hpun : RunMeets (follow env) OnTime start inputs →
      Chain.Follows request payload repetition issued True
        (run (follow env) start inputs).1.repeater (run (follow env) start inputs).2 :=
    fun ho => follows_run hiss hpos hconfirm hrepetition fun _ => ho
  have hexecutes := executes_run hiss hpos hconfirm hrepetition inputs
  have hstart : start.1 = ((execute env request (some payload)).exec issuing).2 :=
    step_request_accepted hconfirm
  generalize run (follow env) start inputs = state at *
  obtain ⟨after, chain⟩ := state
  have hwt : ∀ node, chain.waiting = some node → ∃ deadline : Int,
      (deadline, node) ∈ after.repeater.callbacks ∧
      (deadline : ℚ) ≤ issued + repetition.maximum * 10 ^ 6 := by
    intro node hw
    obtain ⟨earlier, last, left, -, hwt⟩ := hl.waits node hw
    exact ⟨_, hwt.pending, hwt.deadline_le hwt.further⟩
  refine ⟨?_, ⟨hstart, if_pos hconfirm, hexecutes⟩, fun ho => ?_, ?_, hwt, hl.count, ?_, ?_⟩
  · rw [Run.append]
    exact ha
  · have hf := hpun ho
    exact ⟨hf.spaced trivial, hf.ended trivial⟩
  · intro micros hitv
    rw [hitv, Lifetime.clockCast_micros]
  · intro hend hdue
    rw [eq_none_iff_forall_ne_some]
    intro node hw
    obtain ⟨deadline, hp, hle⟩ := hwt node hw
    have hlt := hdue deadline (of_mem_zip hp).1
    exact absurd (hle.trans hend) (not_le.2 (by exact_mod_cast hlt))
  · intro hen repeated hmem hnode
    rcases hl.left repeated hmem hnode with hw | hr
    · rw [hen] at hw
      cases hw
    · exact hr

def repeatedShb : DataRequestVariant := .shb ⟨.btpB, .itsG5, 36, [], .set 1 1, some ⟨1, 2⟩, 1, ⟨0⟩⟩

def shbIssued : SourceRouter Unit Unit × Chain :=
  issue plainEnvironment (run (step plainEnvironment)
      (create plainEnvironment ⟨0, []⟩ () () .default) [])
    repeatedShb .empty

def secondBySecond : List Input := [.elapse 1000000, .callback 0, .elapse 1000000, .callback 0]

theorem onTime_of_all {state : SourceRouter ρ τ × Chain} {input : Input}
    (h : (fires state.1 input).all (fun fired => fired.1 = state.1.router.runtime.now) = true) :
    OnTime state input := by
  intro deadline node hfired _
  rw [hfired] at h
  exact of_decide_eq_true h

theorem shb_executed_three_times :
  (run (follow plainEnvironment) shbIssued secondBySecond).2.executed.length =
    1 + ⌊(2 : ℚ) / 1⌋₊ := by
  have ho : RunMeets (follow plainEnvironment) OnTime shbIssued secondBySecond :=
    ⟨onTime_of_all rfl, onTime_of_all (by decide +kernel), onTime_of_all rfl,
      onTime_of_all (by decide +kernel), trivial⟩
  have hconfirm : confirm plainEnvironment (some .empty) repeatedShb =
      .accepted := by decide +kernel
  have hen : (run (follow plainEnvironment) shbIssued
      secondBySecond).2.waiting = none := by decide +kernel
  exact (request_repeated rfl () () .default [] secondBySecond repeatedShb .empty
    ⟨1, 2⟩ rfl (by decide +kernel) hconfirm).2.2.1 ho |>.2 hen

def raisingEntity : SecurityEntity Nat where
  decapsulatePacket := Router.distrustfulEntity.decapsulatePacket
  encapsulatePacket _ _ _ asked :=
    (if asked = 0 then .ok (some (.v3 ⟨3, none⟩)) else .error (.runtimeError ""), asked + 1)

def raisingEnvironment : SourceEnvironment Unit Nat where
  toEnvironment := { Router.strictEnvironment with securityEntity := some raisingEntity }
  sourceMib := .default
  areaSize _ := 0
  generateDccField _ := .raw 0

/-- The second packet cannot be signed. Its exception leaves `Repeater::trigger` before the
repetition is erased, and no callback will come to erase it. -/
theorem shb_left_by_exception :
    let request : DataRequestVariant :=
      .shb ⟨.btpB, .itsG5, 36, [], .set 1 1, some ⟨1, 1⟩, 1, ⟨0⟩⟩
    let issuing := create raisingEnvironment ⟨0, []⟩ () 0 .default
    let (after, chain) := run (follow raisingEnvironment)
      (issue raisingEnvironment issuing request .empty) [.elapse 1000000, .callback 0]
    confirm raisingEnvironment (some .empty) request = .accepted ∧
    chain.executed = [0, 1000000] ∧ chain.waiting = none ∧ chain.raised = [0] ∧
    after.router.runtime.pending .repeater = [] ∧
    after.repetitions.map (·.node) = [0] ∧ chain.nodes = [0] := by
  decide +kernel

end SourceRouter

end Vanetza.Geonet
