import Vanetza.Pki.EctlFetch

/-!
# Two readings of the European trust list

The root CA store is filled by `cpoc ectl fetch`, list after list. A trust list processor that is
given the same lists starts over with every full list, follows deletions, and wants exactly one
signer certificate where the fetch takes the first.
-/

namespace Vanetza.Pki

open Security Security.V3 Security.V3.Asn1 Lib CertificateTrustListProcessor

def listed (P : Platform) (id : HashedId8) : List ListCommand → Option Certificate
  | [] => none
  | .add (.rca cert) :: rest => (listed P id rest).or
      (if calculateHashedId8 P cert = some id then some cert else none)
  | _ :: rest => listed P id rest

section Lists

variable {m : EctlModule} {s : EctlStores} {id : HashedId8} {cert : Certificate}
  {cmds : List ListCommand}

theorem not_listed (h : listed m.platform id cmds = none) (hm : .add (.rca cert) ∈ cmds) :
  calculateHashedId8 m.platform cert ≠ some id := by
  induction cmds with
  | nil => cases hm
  | cons cmd rest ih =>
    rcases List.mem_cons.1 hm with rfl | hr
    · rw [listed, Option.or_eq_none_iff] at h
      intro hid
      rw [if_pos hid] at h
      cases h.2
    refine ih ?_ hr
    cases cmd with
    | nothing | delete removal => exact h
    | add entry =>
      cases entry with
      | nothing | tlm cert | dc entry | aa entry | ea entry => exact h
      | rca cert' =>
        rw [listed, Option.or_eq_none_iff] at h
        exact h.1

theorem fetch_visited (files : CertificateFiles)
  (h : ((cmds.forM (updateVisitor m)).exec s).1 = .ok ()) :
  (files.writeAll (rootFiles m cmds)).fetch m.platform id =
    (listed m.platform id cmds).or (files.fetch m.platform id) := by
  induction cmds generalizing s files with
  | nil => rfl
  | cons cmd rest ih =>
    cases cmd with
    | nothing | delete removal => exact ih files h
    | add entry =>
      cases entry with
      | nothing | tlm cert | dc entry | aa entry | ea entry => exact ih files h
      | rca cert =>
        have hco : (ListCommand.add (.rca cert) :: rest).forM
            (updateVisitor m) = addRootCa m cert >>= fun _ =>
              rest.forM (updateVisitor m) := rfl
        rw [hco] at h
        cases hf : fileOf m.platform cert with
        | none =>
          rw [Program.exec_bind_error (exec_addRootCa_none hf)] at h
          cases h
        | some file =>
          rw [Program.exec_bind_ok (exec_addRootCa hf)] at h
          have hid := (fileOf_eq_some.1 hf).1
          have hc : file.1 = id ↔ id = file.1 := eq_comm
          rw [rootFiles, hf, listed, Option.or_assoc]
          refine (ih (files.write file) h).trans ?_
          rw [fetch_write files hf id, hid]
          by_cases hk : id = file.1
          · simp [hk]
          · simp [hc, hk]

end Lists

def StoreKeyed (P : Platform) (files : CertificateFiles) : Prop :=
  ∀ id cert, files.fetch P id = some cert → calculateHashedId8 P cert = some id

def RootsKeyed (P : Platform) (p : CertificateTrustListProcessor) : Prop :=
  ∀ id cert, p.get .rootCa id = some cert → calculateHashedId8 P cert = some id

section Keyed

variable {m : EctlModule} {request : EctlRequest} {s : EctlStores}
  {p : CertificateTrustListProcessor}

theorem storeKeyed_writeAll {files : CertificateFiles} (cmds : List ListCommand)
  (h : StoreKeyed m.platform files) :
  StoreKeyed m.platform (files.writeAll (rootFiles m cmds)) := by
  induction cmds generalizing files with
  | nil => exact h
  | cons cmd rest ih =>
    cases cmd with
    | nothing | delete removal => exact ih h
    | add entry =>
      cases entry with
      | nothing | tlm cert | dc entry | aa entry | ea entry => exact ih h
      | rca cert =>
        rw [rootFiles]
        cases hf : fileOf m.platform cert with
        | none => exact h
        | some file =>
          refine ih fun id cert' hfet => ?_
          rw [fetch_write files hf] at hfet
          split at hfet
          · next hid =>
            cases hfet
            rw [hid]
            exact (fileOf_eq_some.1 hf).1
          · exact h id cert' hfet

theorem writes_rootCa {step : Step} {id : HashedId8} {cert : Certificate}
  (h : step.writes m.toSecurityModule .rootCa id = some (some cert)) :
  (∃ signer, step = .command signer (.add (.rca cert))) ∧
    calculateHashedId8 m.platform cert = some id := by
  unfold Step.writes at h
  split at h
  · cases h
  · next signer cert' =>
    split at h
    · next hid =>
      cases h
      exact ⟨⟨signer, rfl⟩, hid.2⟩
    · cases h
  iterate 3
    rw [if_neg (by simp)] at h
    cases h
  · split at h <;> cases h
  · cases h

theorem rootsKeyed_process (ctl : SignedList) (h : RootsKeyed m.platform p) :
  RootsKeyed m.platform ((process m.toSecurityModule ctl).exec p).2 := by
  rw [exec_process]
  refine Run.ofKind ?_ h fun step hstep => runs_of_mem_steps hstep
  intro p step hp hruns id cert hg
  rw [get_apply hruns] at hg
  cases hwr : step.writes m.toSecurityModule .rootCa id with
  | none =>
    rw [hwr] at hg
    exact hp id cert hg
  | some written =>
    rw [hwr] at hg
    cases hg
    exact (writes_rootCa hwr).2

end Keyed

/-- The stores of the fetch and a processor that is given the same messages. -/
abbrev Readings := EctlStores × CertificateTrustListProcessor

def Readings.step (m : EctlModule) (r : Readings) (request : EctlRequest) : Readings :=
  (((fetchEctl m request).exec r.1).2,
    match receive m request r.1.tlm with
    | .ok received =>
      ((process m.toSecurityModule received.message).exec r.2).2
    | .error _ => r.2)

def FetchesFullList (m : EctlModule) (r : Readings) (request : EctlRequest) : Prop :=
  ((fetchEctl m request).exec r.1).1 = .ok () ∧ request.dryRun = false ∧
    ∀ received format, receive m request r.1.tlm = .ok received →
      tlmCtlCommands m received.message = .ok format → format.isFullCtl = true

def Keyed (m : EctlModule) (r : Readings) : Prop :=
  StoreKeyed m.platform r.1.rootCa ∧ RootsKeyed m.platform r.2

def SameRoots (m : EctlModule) (r : Readings) : Prop :=
  {cert | ∃ id, r.1.rootCa.fetch m.platform id = some cert} =
    {cert | ∃ id, r.2.get .rootCa id = some cert}

/-- A command that neither deletes the certificate `id` nor adds a root CA of that identifier. -/
def Spares (P : Platform) (id : HashedId8) (cmd : ListCommand) : Prop :=
  cmd ≠ .delete (.cert id) ∧ ∀ cert, cmd = .add (.rca cert) → calculateHashedId8 P cert ≠ some id

/-- Nothing before an entry for `cert` raises, and the commands behind it spare `id` up to the next
one that raises. -/
def Keeps (m : EctlModule) (id : HashedId8) (cert : Certificate) (cmds : List ListCommand) : Prop :=
  ∃ before after, cmds = before ++ .add (.rca cert) :: after ∧
    calculateHashedId8 m.platform cert = some id ∧
    (∀ cmd ∈ before, raises m.toSecurityModule cmd = false) ∧
    ∀ cmd ∈ after.takeWhile fun cmd => !raises m.toSecurityModule cmd, Spares m.platform id cmd

/-- A list leaves both readings with the same root CAs. Where its signer can be told, the processor
starts over: every listed root CA must survive the rest of the list, and every stored one must be
listed again. -/
def Relists (m : EctlModule) (r : Readings) (request : EctlRequest) : Prop :=
  ∀ received, receive m request r.1.tlm = .ok received →
    ∀ format, tlmCtlCommands m received.message = .ok format →
    match getHashedId8 m.platform received.message with
    | some (some _) =>
      (∀ id cert, listed m.platform id format.ctlCommands = some cert →
        Keeps m id cert format.ctlCommands) ∧
      ∀ id, (r.1.rootCa.fetch m.platform id).isSome →
        (listed m.platform id format.ctlCommands).isSome
    | _ =>
      ∀ id cert, listed m.platform id format.ctlCommands = some cert →
        r.1.rootCa.fetch m.platform id = some cert

section Agreement

variable {m : EctlModule} {r : Readings} {request : EctlRequest}
  {message : SignedList} {format : CtlFormat} {id : HashedId8}

theorem sameRoots_iff (h : Keyed m r) : SameRoots m r ↔
  ∀ id, r.1.rootCa.fetch m.platform id = r.2.get .rootCa id := by
  obtain ⟨hs, hr⟩ := h
  constructor
  · intro h id
    ext cert
    have hm := Set.ext_iff.1 h cert
    constructor
    · intro hf
      obtain ⟨id', hg⟩ := hm.1 ⟨id, hf⟩
      have hid := (hr id' cert hg).symm.trans (hs id cert hf)
      rwa [Option.some.inj hid] at hg
    intro hg
    obtain ⟨id', hf⟩ := hm.2 ⟨id, hg⟩
    have hid := (hs id' cert hf).symm.trans (hr id cert hg)
    rwa [Option.some.inj hid] at hf
  · intro h
    ext cert
    simp only [Set.mem_ofPred_eq, h]

theorem process_unsigned {p : CertificateTrustListProcessor}
  (h : ∀ signer, getHashedId8 m.platform message ≠ some (some signer)) :
  ((process m.toSecurityModule message).exec p).2 = p := by
  rw [exec_process, steps]
  split
  · next signer _ hs _ => exact absurd hs (h signer)
  · rfl

theorem steps_full {signer : HashedId8} (hs : getHashedId8 m.platform message = some (some signer))
  (hf : tlmCtlCommands m message = .ok format) (hfull : format.isFullCtl = true) :
  steps m.toSecurityModule message = .clear :: (format.ctlCommands.takeWhile fun cmd =>
      !raises m.toSecurityModule cmd).map (.command signer) := by
  unfold tlmCtlCommands at hf
  split at hf
  · cases hf
  next pay hp =>
  split at hf
  · cases hf
  · next hd =>
    cases hf
    have hb : (m.mgmtData pay).bind findCtlFormat = some format := by
      rw [hd]
      rfl
    unfold steps
    rw [hs, hp]
    dsimp only
    rw [hb]
    dsimp only
    rw [if_pos hfull]
    rfl
  · cases hf

theorem process_full {signer : HashedId8} (p : CertificateTrustListProcessor)
  (hs : getHashedId8 m.platform message = some (some signer))
  (hf : tlmCtlCommands m message = .ok format) (hfull : format.isFullCtl = true) :
  ((process m.toSecurityModule message).exec p).2 =
    ((process m.toSecurityModule message).exec empty).2 := by
  rw [exec_process, exec_process, steps_full hs hf hfull]
  rfl

def Lacks (id : HashedId8) (p : CertificateTrustListProcessor) : Prop := p.get .rootCa id = none

theorem not_kept {signer : HashedId8} (hs : getHashedId8 m.platform message = some (some signer))
  (hf : tlmCtlCommands m message = .ok format) (hfull : format.isFullCtl = true)
  (hn : listed m.platform id format.ctlCommands = none) :
  Lacks id ((process m.toSecurityModule message).exec empty).2 := by
  have hsts := steps_full hs hf hfull
  have hr : ∀ step ∈ steps m.toSecurityModule message, step.Runs m.toSecurityModule ∧ ∀ cert,
        step.writes m.toSecurityModule .rootCa id ≠ some (some cert) := by
    intro step hstep
    refine ⟨runs_of_mem_steps hstep, fun cert hwr => ?_⟩
    obtain ⟨⟨signer', rfl⟩, hid⟩ := writes_rootCa hwr
    rw [hsts] at hstep
    rcases List.mem_cons.1 hstep with hclr | hc
    · cases hclr
    · obtain ⟨cmd, hcmd, hc⟩ := List.mem_map.1 hc
      cases hc
      exact not_listed hn ((List.takeWhile_sublist _).subset hcmd) hid
  rw [exec_process]
  refine Run.ofKind ?_ rfl hr
  intro p step hp hstep
  rw [Lacks, get_apply hstep.1, hp]
  cases hwr : step.writes m.toSecurityModule .rootCa id with
  | none => rfl
  | some written =>
    cases written with
    | none => rfl
    | some cert => exact absurd hwr (hstep.2 cert)

theorem writes_eq_none_iff {signer : HashedId8} {cmd : ListCommand} :
    Step.writes m.toSecurityModule .rootCa id (.command signer cmd) = none ↔
      Spares m.platform id cmd := by
  unfold Spares
  cases cmd with
  | nothing => simp [Step.writes]
  | delete removal =>
    cases removal with
    | nothing | dc url => simp [Step.writes]
    | cert deleted => simp [Step.writes, eq_comm]
  | add entry =>
    cases entry with
    | nothing | tlm _ | dc _ | aa _ | ea _ => simp [Step.writes]
    | rca cert => simp [Step.writes]

/-- The root CA under `id` is the one of the last command that does not spare `id`. -/
theorem get_run_commands {signer : HashedId8} {cert : Certificate} {cmds : List ListCommand}
    (hruns : ∀ cmd ∈ cmds, raises m.toSecurityModule cmd = false) :
    (run (Step.apply m.toSecurityModule) empty (cmds.map (.command signer))).get .rootCa id =
        some cert ↔
      ∃ before after, cmds = before ++ .add (.rca cert) :: after ∧
        calculateHashedId8 m.platform cert = some id ∧
        ∀ cmd ∈ after, Spares m.platform id cmd := by
  induction cmds using List.reverseRecOn with
  | nil => simp [run, empty, CertificateTrustListProcessor.get]
  | append_singleton cmds cmd ih =>
    obtain ⟨hinit, hlast⟩ := List.forall_mem_append.1 hruns
    have hrun : Step.Runs m.toSecurityModule (.command signer cmd) := hlast cmd (by simp)
    rw [List.map_append, List.map_singleton, run, List.foldl_append, List.foldl_cons,
      List.foldl_nil, get_apply hrun]
    cases hwr : Step.writes m.toSecurityModule .rootCa id (.command signer cmd) with
    | none =>
      have hspare := writes_eq_none_iff.1 hwr
      refine (ih hinit).trans ⟨?_, ?_⟩
      · rintro ⟨before, after, hsplit, hid, hafter⟩
        refine ⟨before, after ++ [cmd], by simp [hsplit], hid, ?_⟩
        intro other hmem
        rcases List.mem_append.1 hmem with hin | hin
        · exact hafter other hin
        · rwa [List.mem_singleton.1 hin]
      · rintro ⟨before, after, hsplit, hid, hafter⟩
        -- the last command is not the entry itself, which does not spare `id`
        rcases List.eq_nil_or_concat after with rfl | ⟨after, last, rfl⟩
        · obtain ⟨-, hcmd⟩ := List.append_inj' hsplit rfl
          exact absurd hid (hspare.2 cert (List.singleton_inj.1 hcmd))
        · rw [List.concat_eq_append, ← List.cons_append, ← List.append_assoc] at hsplit
          refine ⟨before, after, (List.append_inj' hsplit rfl).1, hid, fun other hmem => ?_⟩
          exact hafter other (by simp [hmem])
    | some written =>
      show written = some cert ↔ _
      constructor
      · intro hw
        obtain ⟨⟨signer', hstep⟩, hid⟩ := writes_rootCa (hw ▸ hwr)
        cases hstep
        exact ⟨cmds, [], rfl, hid, by simp⟩
      · rintro ⟨before, after, hsplit, hid, hafter⟩
        rcases List.eq_nil_or_concat after with rfl | ⟨after, last, rfl⟩
        · obtain ⟨-, hcmd⟩ := List.append_inj' hsplit rfl
          rw [List.singleton_inj.1 hcmd] at hwr
          simpa [Step.writes, hid, eq_comm] using hwr
        · rw [List.concat_eq_append, ← List.cons_append, ← List.append_assoc] at hsplit
          obtain ⟨-, hcmd⟩ := List.append_inj' hsplit rfl
          have hspare : Spares m.platform id cmd := by
            rw [List.singleton_inj.1 hcmd]
            exact hafter last (by simp)
          rw [writes_eq_none_iff.2 hspare] at hwr
          cases hwr

/-- Given a full list, the processor holds `cert` under `id` exactly if the list keeps it. -/
theorem get_process_full {signer : HashedId8} {cert : Certificate}
    (hs : getHashedId8 m.platform message = some (some signer))
    (hf : tlmCtlCommands m message = .ok format) (hfull : format.isFullCtl = true) :
    ((process m.toSecurityModule message).exec empty).2.get .rootCa id = some cert ↔
      Keeps m id cert format.ctlCommands := by
  have hruns : ∀ cmd ∈ format.ctlCommands.takeWhile fun cmd => !raises m.toSecurityModule cmd,
      raises m.toSecurityModule cmd = false := by
    intro cmd hmem
    simpa using List.mem_takeWhile_imp hmem
  rw [exec_process, steps_full hs hf hfull]
  refine (get_run_commands hruns).trans ⟨?_, ?_⟩
  · rintro ⟨before, after, hsplit, hid, hafter⟩
    have hall : ∀ cmd ∈ before ++ .add (.rca cert) :: after,
        raises m.toSecurityModule cmd = false := hsplit ▸ hruns
    have hcmds := List.takeWhile_append_dropWhile
      (p := fun cmd => !raises m.toSecurityModule cmd) (l := format.ctlCommands)
    rw [hsplit, List.append_assoc, List.cons_append] at hcmds
    refine ⟨before, _, hcmds.symm, hid, fun cmd hmem => hall cmd (by simp [hmem]), ?_⟩
    rw [List.takeWhile_append_of_pos (fun cmd hmem => by simp [hall cmd (by simp [hmem])]),
      List.takeWhile_eq_nil_iff.2 (List.dropWhile_get_zero_not _ _), List.append_nil]
    exact hafter
  · rintro ⟨before, after, hsplit, hid, hbefore, hafter⟩
    refine ⟨before, _, ?_, hid, hafter⟩
    rw [hsplit, List.takeWhile_append_of_pos (fun cmd hmem => by simp [hbefore cmd hmem]),
      List.takeWhile_cons_of_pos (by simp [raises, hid])]

theorem sameRoots_step (hf : FetchesFullList m r request)
  (hs : ∀ id, r.1.rootCa.fetch m.platform id = r.2.get .rootCa id) :
  (∀ id, (r.step m request).1.rootCa.fetch m.platform id = (r.step m request).2.get .rootCa id) ↔
    Relists m r request := by
  obtain ⟨hok, hd, hfull⟩ := hf
  obtain ⟨received, format, s₁, hr, hfor, hrts, hex⟩ := exec_fetchEctl_ok hok hd
  have hful := hfull received format hr hfor
  rw [hex] at hok
  have hst : ∀ id, (r.step m request).1.rootCa.fetch m.platform id =
      (listed m.platform id format.ctlCommands).or (r.1.rootCa.fetch m.platform id) := by
    intro id
    rw [← fetch_visited r.1.rootCa hok, Readings.step, hex, exec_visit, hrts]
  have hp : (r.step m request).2 = ((process m.toSecurityModule received.message).exec r.2).2 := by
    rw [Readings.step, hr]
  unfold Relists
  simp only [hst, hp, hr, Except.ok.injEq, forall_eq', hfor]
  split
  · next signer hsig =>
    rw [process_full r.2 hsig hfor hful]
    constructor
    · intro h
      refine ⟨fun id cert hl => ?_, fun id hf => ?_⟩
      · rw [← get_process_full hsig hfor hful, ← h id, hl]
        rfl
      by_contra hn
      rw [Option.not_isSome_iff_eq_none] at hn
      have hlac := not_kept hsig hfor hful hn
      rw [Lacks, ← h id, hn, Option.none_or] at hlac
      rw [hlac] at hf
      cases hf
    · rintro ⟨hk, hrel⟩ id
      cases hl : listed m.platform id format.ctlCommands with
      | some cert =>
        rw [(get_process_full hsig hfor hful).2 (hk id cert hl), Option.some_or]
      | none =>
        have hf : r.1.rootCa.fetch m.platform id = none := by
          rw [← Option.not_isSome_iff_eq_none]
          intro hso
          have hl' := hrel id hso
          rw [hl] at hl'
          cases hl'
        rw [Option.none_or, hf]
        exact (not_kept hsig hfor hful hl).symm
  · next hsig =>
    rw [process_unsigned hsig]
    simp only [← hs]
    constructor
    · intro h id cert hl
      rw [← h id, hl, Option.some_or]
    intro h id
    cases hl : listed m.platform id format.ctlCommands with
    | some cert => rw [Option.some_or, h id cert hl]
    | none => exact Option.none_or

theorem keyed_step (hf : FetchesFullList m r request) (h : Keyed m r) :
  Keyed m (r.step m request) := by
  obtain ⟨received, format, s₁, hr, -, hrts, hex⟩ := exec_fetchEctl_ok hf.1 hf.2.1
  unfold Readings.step
  rw [hex, exec_visit, hrts, hr]
  exact ⟨storeKeyed_writeAll _ h.1, rootsKeyed_process received.message h.2⟩

/-- From an empty root CA store, store and processor hold the same root CAs
after each of a sequence of full lists exactly if every list relists. -/
theorem roots_agree_iff {s : EctlStores} {requests : List EctlRequest}
  (hempty : ∀ id, s.rootCa id = none)
  (hfetches : RunMeets (Readings.step m) (FetchesFullList m) (s, empty) requests) :
  (∀ before, before <+: requests → SameRoots m (run (Readings.step m) (s, empty) before)) ↔
    RunMeets (Readings.step m) (Relists m) (s, empty) requests := by
  have hn : ∀ id, s.rootCa.fetch m.platform id = none := by
    intro id
    rw [CertificateFiles.fetch, hempty]
    rfl
  have hk : Keyed m (s, empty) := by
    constructor
    · intro id cert hf
      cases (hn id).symm.trans hf
    · rintro id cert ⟨⟩
  refine Run.goesThrough_iff (fun r request => keyed_step) ?_ hk ((sameRoots_iff hk).2 hn) hfetches
  intro r request hf hk hsame
  rw [sameRoots_iff (keyed_step hf hk)]
  exact sameRoots_step hf ((sameRoots_iff hk).1 hsame)

end Agreement

def rootA : Certificate := xOnlySigned
def rootB : Certificate := signedWith (.xOnly (coord 2))
def manager : Certificate := signedWith (.xOnly (coord 3))

def ectlModule : EctlModule where
  platform := Platform.ofTable [rootA, rootB, manager] (by decide)
  validate _ _ := some true
  revokedEntries _ := none
  signedPayload body := some body
  mgmtData
    | [0] => some (.certificateTrustListTlm ⟨true, [.add (.rca rootA)]⟩)
    | [1] => some (.certificateTrustListTlm ⟨true, [.add (.rca rootB)]⟩)
    | _ => none
  decodeMessage body := some ⟨some (.digest (digestAt 2)), body⟩

def listRequest (octet : UInt8) : EctlRequest where
  tlmId := some (digestAt 2)
  dryRun := false
  now := 0
  listing := []
  httpGet _ := .ok ⟨200, "application/octet-stream", [octet]⟩

def managerKnown : EctlStores where
  tlm := Function.update (fun _ => none) (digestAt 2) (some [2])
  rootCa _ := none
  ectlFile := none

theorem listRequest_full {r : Readings} {octet : UInt8}
  (hok : ((fetchEctl ectlModule (listRequest octet)).exec r.1).1 = .ok ())
  (ho : octet = 0 ∨ octet = 1) :
  FetchesFullList ectlModule r (listRequest octet) := by
  refine ⟨hok, rfl, fun received format hr hf => ?_⟩
  cases hr
  rcases ho with rfl | rfl <;> cases hf <;> rfl

theorem twoLists_fetched : RunMeets (Readings.step ectlModule) (FetchesFullList ectlModule)
    (managerKnown, empty) [listRequest 0, listRequest 1] :=
  ⟨listRequest_full rfl (.inl rfl), listRequest_full rfl (.inr rfl), trivial⟩

theorem twoLists_agree_iff : (∀ before, before <+: [listRequest 0, listRequest 1] →
      SameRoots ectlModule (run (Readings.step ectlModule) (managerKnown, empty) before)) ↔
    RunMeets (Readings.step ectlModule) (Relists ectlModule)
      (managerKnown, empty) [listRequest 0, listRequest 1] :=
  roots_agree_iff (fun _ => rfl) twoLists_fetched

/-- The root CA of the first list is not in the second, and is still in the
store. -/
theorem unlisted_root_stays :
  let r := run (Readings.step ectlModule) (managerKnown, empty) [listRequest 0, listRequest 1]
  r.1.rootCa.fetch ectlModule.platform (digestAt 0) = some rootA ∧
    (∀ id, r.2.get .rootCa id ≠ some rootA) ∧ ¬ SameRoots ectlModule r := by
  intro r
  have hf : r.1.rootCa.fetch ectlModule.platform (digestAt 0) = some rootA := by decide +kernel
  have hl : ∀ id, r.2.get .rootCa id ≠ some rootA := by
    intro id hg
    have hemp : RootsKeyed ectlModule.platform empty := by rintro id cert ⟨⟩
    have hk : RootsKeyed ectlModule.platform r.2 := rootsKeyed_process _ (rootsKeyed_process _ hemp)
    have hd : calculateHashedId8 ectlModule.platform rootA = some (digestAt 0) := by decide +kernel
    cases hd.symm.trans (hk id rootA hg)
    exact absurd hg (by decide +kernel)
  refine ⟨hf, hl, fun hs => ?_⟩
  obtain ⟨id, hg⟩ := (Set.ext_iff.1 hs rootA).1 ⟨digestAt 0, hf⟩
  exact hl id hg

end Vanetza.Pki
