import Mathlib
import Vanetza.Pki.CrlStore
import Vanetza.Security.Pqc.CertificateSigning

/-!
# Pruning of certificates and credentials

`prune expired` goes through four stores, removes what has expired and with each
certificate the credential of its key; `prune orphans` removes the credentials
that no enrolment credential or ticket refers to.
-/

namespace Vanetza.Pki

open Security List

/-- The name of a credential; empty for a key that is not well-formed. -/
def canonicalHexstring (key : PublicKey) : String :=
  let expectedLength := keyLength key.type
  if expectedLength = 0 ∨ key.x.length ≠ expectedLength then ""
  else
    match key.compression with
    | .noCompression =>
      if key.y.length ≠ expectedLength then ""
      else hexstring ((if key.y.getLastD 0 % 2 = 0 then 2 else 3) :: key.x)
    | .y0 => hexstring (2 :: key.x)
    | .y1 => hexstring (3 :: key.x)

inductive PkiStore where
  | rootCa
  | enrolmentCredentials
  | tlm
  | tickets
  deriving DecidableEq

structure StoredCertificate where
  validUntil : Int
  /-- `get_public_key` throws unless there is a verification key. -/
  publicKey : Option PublicKey

structure PkiStorages where
  certificates : PkiStore → List (HashedId8 × Option StoredCertificate)
  credentials : List String

structure PruneOptions where
  now : Int
  stationEc : Option HashedId8
  stationRootCa : Option HashedId8
  force : Bool
  credentials : Bool

structure Removal where
  store : PkiStore
  id : HashedId8
  pubkeyHex : String

namespace PkiStorages

def erase (s : PkiStorages) (store : PkiStore) (id : HashedId8) : PkiStorages :=
  { s with certificates :=
      Function.update s.certificates store ((s.certificates store).filter (·.1 ≠ id)) }

def discard (s : PkiStorages) (name : String) : PkiStorages :=
  { s with credentials := s.credentials.filter (· ≠ name) }

def onDeletable (options : PruneOptions) (s : PkiStorages) (r : Removal) : PkiStorages :=
  let s := s.erase r.store r.id
  if options.credentials then s.discard r.pubkeyHex else s

/-- The flag tells whether the scan came to its end, no key having been missing. -/
def scanStoreForExpired (options : PruneOptions) (store : PkiStore) :
  List (HashedId8 × Option StoredCertificate) → PkiStorages → PkiStorages × Bool
  | [], s => (s, true)
  | (_, none) :: rest, s => scanStoreForExpired options store rest s
  | (id, some cert) :: rest, s =>
    if cert.validUntil ≥ options.now then scanStoreForExpired options store rest s
    else if (options.stationEc = some id ∨ options.stationRootCa = some id) ∧ ¬options.force then
      scanStoreForExpired options store rest s
    else
      match cert.publicKey with
      | none => (s, false)
      | some key => scanStoreForExpired options store rest
          (s.onDeletable options ⟨store, id, canonicalHexstring key⟩)

def scanStores (options : PruneOptions) : List PkiStore → PkiStorages → PkiStorages
  | [], s => s
  | store :: rest, s =>
    let scanned := scanStoreForExpired options store (s.certificates store) s
    if scanned.2 then scanStores options rest scanned.1 else scanned.1

def expiredStores : List PkiStore := [.rootCa, .enrolmentCredentials, .tlm, .tickets]

def pruneExpired (options : PruneOptions) (s : PkiStorages) : PkiStorages :=
  scanStores options expiredStores s

def pruneExpiredTickets (now : Int) (stationEc stationRootCa : Option HashedId8)
  (s : PkiStorages) : PkiStorages :=
  scanStores ⟨now, stationEc, stationRootCa, true, true⟩ [.tickets] s

def collectPubkeyHexesFromStore : List (HashedId8 × Option StoredCertificate) → Option (List String)
  | [] => some []
  | (_, none) :: rest => collectPubkeyHexesFromStore rest
  | (_, some cert) :: rest => do
    let key ← cert.publicKey
    let others ← collectPubkeyHexesFromStore rest
    pure (if canonicalHexstring key = "" then others else canonicalHexstring key :: others)

def pruneOrphans (s : PkiStorages) : PkiStorages :=
  let referenced := do
    let enrolled ← collectPubkeyHexesFromStore (s.certificates .enrolmentCredentials)
    let authorized ← collectPubkeyHexesFromStore (s.certificates .tickets)
    pure (enrolled ++ authorized)
  match referenced with
  | none => s
  | some referenced => (s.credentials.filter (· ∉ referenced)).foldl discard s

def Refers (s : PkiStorages) (store : PkiStore) (id : HashedId8) (name : String) : Prop :=
  (store = .enrolmentCredentials ∨ store = .tickets) ∧ ∃ cert key,
    (id, some cert) ∈ s.certificates store ∧ cert.publicKey = some key ∧
      canonicalHexstring key = name ∧ name ≠ ""

/-- No credential is removed that a certificate which is still stored refers to. -/
def KeepsCredentials (s after : PkiStorages) : Prop :=
  ∀ name ∈ s.credentials, ∀ store id, after.Refers store id name → name ∈ after.credentials

def deletable (options : PruneOptions) (store : PkiStore) :
  List (HashedId8 × Option StoredCertificate) → List Removal × Bool
  | [] => ([], true)
  | (_, none) :: rest => deletable options store rest
  | (id, some cert) :: rest =>
    if cert.validUntil ≥ options.now then deletable options store rest
    else if (options.stationEc = some id ∨ options.stationRootCa = some id) ∧ ¬options.force then
      deletable options store rest
    else
      match cert.publicKey with
      | none => ([], false)
      | some key =>
        (⟨store, id, canonicalHexstring key⟩ :: (deletable options store rest).1,
          (deletable options store rest).2)

def removals (options : PruneOptions) : List PkiStore → PkiStorages → List Removal
  | [], _ => []
  | store :: rest, s =>
    (deletable options store (s.certificates store)).1 ++
      if (deletable options store (s.certificates store)).2 then removals options rest s else []

/-- Whatever refers to the credential of a certificate that is removed is removed as
well. -/
def NoneShared (options : PruneOptions) (stores : List PkiStore) (s : PkiStorages) : Prop :=
  options.credentials = true → ∀ r ∈ removals options stores s, r.pubkeyHex ∈ s.credentials →
    ∀ store id, s.Refers store id r.pubkeyHex →
      ∃ other ∈ removals options stores s, other.store = store ∧ other.id = id

variable {options : PruneOptions} {s : PkiStorages}

theorem scanStoreForExpired_eq (store : PkiStore)
  (entries : List (HashedId8 × Option StoredCertificate)) (s : PkiStorages) :
  scanStoreForExpired options store entries s =
    ((deletable options store entries).1.foldl (onDeletable options) s,
      (deletable options store entries).2) := by
  induction entries generalizing s with
  | nil => rfl
  | cons entry rest ih =>
    obtain ⟨id, cert⟩ := entry
    cases cert with
    | none => exact ih s
    | some cert =>
      rw [scanStoreForExpired, deletable]
      split
      · exact ih s
      split
      · exact ih s
      · cases cert.publicKey with
        | none => rfl
        | some key => exact ih _

theorem store_of_deletable {store : PkiStore}
  {entries : List (HashedId8 × Option StoredCertificate)} {r : Removal}
  (hr : r ∈ (deletable options store entries).1) : r.store = store := by
  induction entries with
  | nil => exact absurd hr not_mem_nil
  | cons entry rest ih =>
    obtain ⟨id, cert⟩ := entry
    cases cert with
    | none => exact ih hr
    | some cert =>
      rw [deletable] at hr
      split at hr
      · exact ih hr
      split at hr
      · exact ih hr
      cases hk : cert.publicKey with
      | none => simp [hk] at hr
      | some key =>
        simp only [hk, mem_cons] at hr
        rcases hr with rfl | hr
        · rfl
        · exact ih hr

theorem mem_certificates_foldl {rs : List Removal} {store : PkiStore}
  {entry : HashedId8 × Option StoredCertificate} :
  entry ∈ (rs.foldl (onDeletable options) s).certificates store ↔
    entry ∈ s.certificates store ∧ ∀ r ∈ rs, r.store = store → entry.1 ≠ r.id := by
  induction rs generalizing s with
  | nil => simp
  | cons r rest ih =>
    have ho : entry ∈ (s.onDeletable options r).certificates store ↔
        entry ∈ s.certificates store ∧ (r.store = store → entry.1 ≠ r.id) := by
      have her : (s.onDeletable options r).certificates = (s.erase r.store r.id).certificates := by
        unfold onDeletable
        split <;> rfl
      rw [her]
      by_cases hs : r.store = store
      · subst hs
        simp [erase]
      · simp [erase, Function.update_of_ne (Ne.symm hs), hs]
    rw [foldl_cons, ih, ho, forall_mem_cons, and_assoc]

theorem certificates_foldl {rs : List Removal} {store : PkiStore} (h : ∀ r ∈ rs, r.store ≠ store) :
  (rs.foldl (onDeletable options) s).certificates store = s.certificates store := by
  induction rs generalizing s with
  | nil => rfl
  | cons r rest ih =>
    obtain ⟨hr, hre⟩ := forall_mem_cons.1 h
    rw [foldl_cons, ih hre, onDeletable]
    have ho : (s.erase r.store r.id).certificates store = s.certificates store :=
      Function.update_of_ne hr.symm _ _
    split <;> exact ho

theorem mem_credentials_foldl {rs : List Removal} {name : String} :
  name ∈ (rs.foldl (onDeletable options) s).credentials ↔ name ∈ s.credentials ∧
    (options.credentials = true → ∀ r ∈ rs, name ≠ r.pubkeyHex) := by
  induction rs generalizing s with
  | nil => simp
  | cons r rest ih =>
    rw [foldl_cons, ih, onDeletable]
    split
    · next hc =>
      simp [discard, erase, hc, and_assoc]
    · next hc => simp [erase, hc]

theorem removals_congr {other : PkiStorages} {stores : List PkiStore}
  (h : ∀ store ∈ stores, other.certificates store = s.certificates store) :
  removals options stores other = removals options stores s := by
  induction stores with
  | nil => rfl
  | cons store rest ih =>
    obtain ⟨hs, hr⟩ := forall_mem_cons.1 h
    rw [removals, removals, hs, ih hr]

theorem scanStores_eq {stores : List PkiStore} (hs : stores.Nodup) (s : PkiStorages) :
  scanStores options stores s = (removals options stores s).foldl (onDeletable options) s := by
  induction stores generalizing s with
  | nil => rfl
  | cons store rest ih =>
    obtain ⟨hsto, hre⟩ := nodup_cons.1 hs
    rw [scanStores, removals, scanStoreForExpired_eq, foldl_append]
    dsimp only
    split
    · rw [ih hre]
      refine congrArg (foldl (onDeletable options) _) (removals_congr fun later hl => ?_)
      refine certificates_foldl fun r hr heq => hsto ?_
      rwa [← store_of_deletable hr, heq]
    · rfl

theorem keepsCredentials_scanStores_iff {stores : List PkiStore} (hst : stores.Nodup) :
  KeepsCredentials s (scanStores options stores s) ↔ NoneShared options stores s := by
  have hre : ∀ store id name, (scanStores options stores s).Refers store id name ↔
      s.Refers store id name ∧ ∀ r ∈ removals options stores s, r.store = store → id ≠ r.id := by
    intro store id name
    rw [scanStores_eq hst]
    simp only [Refers, mem_certificates_foldl]
    tauto
  constructor
  · intro h hc r hr hn store id hs
    by_contra hnone
    have hk := h r.pubkeyHex hn store id ((hre _ _ _).2 ⟨hs,
      fun other ho hsto hid => hnone ⟨other, ho, hsto, hid.symm⟩⟩)
    rw [scanStores_eq hst, mem_credentials_foldl] at hk
    exact hk.2 hc r hr rfl
  · intro h name hn store id href
    obtain ⟨hs, hk⟩ := (hre _ _ _).1 href
    rw [scanStores_eq hst, mem_credentials_foldl]
    refine ⟨hn, fun hc r hr heq => ?_⟩
    subst heq
    obtain ⟨other, ho, hsto, hid⟩ := h hc r hr hn store id hs
    exact hk other ho hsto hid.symm

theorem mem_collect {entries : List (HashedId8 × Option StoredCertificate)} {names : List String}
  (h : collectPubkeyHexesFromStore entries = some names) {id : HashedId8}
  {cert : StoredCertificate} {key : PublicKey} (hent : (id, some cert) ∈ entries)
  (hk : cert.publicKey = some key) (hn : canonicalHexstring key ≠ "") :
  canonicalHexstring key ∈ names := by
  induction entries generalizing names with
  | nil => exact absurd hent not_mem_nil
  | cons entry rest ih =>
    obtain ⟨first, firstCert⟩ := entry
    cases firstCert with
    | none => exact ih h (by simpa using hent)
    | some firstCert =>
      simp only [collectPubkeyHexesFromStore, Option.bind_eq_bind, Option.bind_eq_some_iff,
        Option.pure_def, Option.some.injEq] at h
      obtain ⟨firstKey, hf, others, ho, rfl⟩ := h
      rcases mem_cons.1 hent with heq | hr
      · obtain ⟨-, heq⟩ := Prod.mk.inj heq
        obtain rfl : cert = firstCert := Option.some.inj heq
        obtain rfl : key = firstKey := Option.some.inj (hk.symm.trans hf)
        rw [if_neg hn]
        exact mem_cons_self
      · have hm := ih ho hr
        split
        · exact hm
        · exact mem_cons_of_mem _ hm

theorem foldl_discard (names : List String) (s : PkiStorages) :
  (names.foldl discard s).certificates = s.certificates ∧
    ∀ name, name ∈ (names.foldl discard s).credentials ↔ name ∈ s.credentials ∧ name ∉ names := by
  induction names generalizing s with
  | nil => simp
  | cons first rest ih =>
    obtain ⟨hc, hcr⟩ := ih (s.discard first)
    refine ⟨hc, fun name => ?_⟩
    rw [foldl_cons, hcr]
    simp [discard, and_assoc]

theorem keepsCredentials_pruneOrphans (s : PkiStorages) : KeepsCredentials s s.pruneOrphans := by
  intro name hn store id href
  unfold pruneOrphans at href ⊢
  dsimp only at href ⊢
  split at href
  · exact hn
  next referenced hr =>
  obtain ⟨hc, hcr⟩ := foldl_discard (s.credentials.filter (· ∉ referenced)) s
  simp only [Option.bind_eq_bind, Option.bind_eq_some_iff, Option.pure_def, Option.some.injEq] at hr
  obtain ⟨enrolled, henr, authorized, ha, rfl⟩ := hr
  obtain ⟨hs, cert, key, hent, hk, rfl, hne⟩ := href
  rw [hc] at hent
  have hm : canonicalHexstring key ∈ enrolled ++ authorized := by
    rcases hs with rfl | rfl
    · exact mem_append_left _ (mem_collect henr hent hk hne)
    · exact mem_append_right _ (mem_collect ha hent hk hne)
  exact (hcr _).2 ⟨hn, fun ho => of_decide_eq_true (mem_filter.1 ho).2 hm⟩

/-- `prune orphans` keeps the credentials that are in use. What goes through the
stores for expired certificates does if and only if none that it removes shares
its key with one that it keeps. -/
theorem credentials_kept_iff (s : PkiStorages) : KeepsCredentials s s.pruneOrphans ∧
  (∀ options, KeepsCredentials s (pruneExpired options s) ↔ NoneShared options expiredStores s) ∧
  ∀ now stationEc stationRootCa,
    KeepsCredentials s (pruneExpiredTickets now stationEc stationRootCa s) ↔
      NoneShared ⟨now, stationEc, stationRootCa, true, true⟩ [.tickets] s :=
  ⟨keepsCredentials_pruneOrphans s, fun _ => keepsCredentials_scanStores_iff (by decide),
    fun _ _ _ => keepsCredentials_scanStores_iff (by decide)⟩

def sharedKey : PublicKey := ⟨replicate 32 1, [], .nistP256, .y0⟩

def renewedTicket : PkiStorages where
  certificates
    | .tickets => [(⟨replicate 8 1, rfl⟩, some ⟨10, some sharedKey⟩),
        (⟨replicate 8 2, rfl⟩, some ⟨100, some sharedKey⟩)]
    | _ => []
  credentials := [canonicalHexstring sharedKey]

theorem renewed_ticket_loses_credential :
  ¬KeepsCredentials renewedTicket (pruneExpiredTickets 50 none none renewedTicket) := by
  intro h
  have hn : canonicalHexstring sharedKey ≠ "" := by decide
  have hk := h (canonicalHexstring sharedKey) mem_cons_self .tickets ⟨replicate 8 2, rfl⟩
    ⟨.inr rfl, ⟨100, some sharedKey⟩, sharedKey, .head _, rfl, rfl, hn⟩
  rw [pruneExpiredTickets, scanStores_eq (by decide), mem_credentials_foldl] at hk
  exact hk.2 rfl ⟨.tickets, ⟨replicate 8 1, rfl⟩, canonicalHexstring sharedKey⟩ (.head _) rfl

end PkiStorages

end Vanetza.Pki
