import Vanetza.Geonet.SoftStateCollection
import Vanetza.Lib.Simulation
import Vanetza.Security.V2.ChainOfTrust

/-!
# The cache as a multimap and a heap

`CertificateCache` of v2 keeps certificates in a multimap and their expiries in a heap; elements of
either point to each other. With the expiries written next to the certificates it is the cache of
the validator, and every expiry is a lifetime after the last call for the certificate's digest and
type.
-/

namespace Vanetza.Security.V2

open Lib List Geonet CertificateCache

/-- An element of `m_certificates`, with its place there; `handle` leads to its expiry. -/
structure StoredCertificate where
  place : Nat
  id : HashedId8
  certificate : Certificate
  handle : Nat

def StoredCertificate.type (stored : StoredCertificate) : SubjectType :=
  stored.certificate.subjectInfo.subjectType

/-- `m_expiries` and `m_certificates`; the key of an expiry is the place of its certificate. -/
structure HeapCache where
  expiries : List (HeapElement Nat)
  certificates : List StoredCertificate
  next : Nat

inductive CacheCall where
  | insert (certificate : Certificate)
  | lookup (id : HashedId8) (type : SubjectType)

namespace HeapCache

def empty : HeapCache := ⟨[], [], 0⟩

def dropLoop (now : Int) : Nat → HeapCache → HeapCache
  | 0, c => c
  | n + 1, c =>
    match SoftStateMap.top c.expiries with
    | none => c
    | some least =>
      if now > least.expiry then
        dropLoop now n { c with
          certificates := c.certificates.filter fun stored => stored.place ≠ least.key
          expiries := c.expiries.filter fun e => e.handle ≠ least.handle }
      else c

/-- `drop_expired`; its loop runs at most once for each expiry. -/
def dropExpired (now : Int) (c : HeapCache) : HeapCache := dropLoop now c.expiries.length c

def refresh (c : HeapCache) (handle : Nat) (expiry : Int) : HeapCache :=
  { c with expiries := c.expiries.map fun e => if e.handle = handle then { e with expiry } else e }

def visit (now : Int) (type : SubjectType) (found : List Certificate × HeapCache)
  (item : StoredCertificate) : List Certificate × HeapCache :=
  if item.type ≠ type then found
  else (found.1 ++ [item.certificate],
    if 0 < lifetime type then found.2.refresh item.handle (now + lifetime type) else found.2)

def lookup (now : Int) (c : HeapCache) (id : HashedId8) (type : SubjectType) :
  List Certificate × HeapCache :=
  let current := c.dropExpired now
  (current.certificates.filter fun stored => stored.id = id).foldl (visit now type) ([], current)

def push (c : HeapCache) (id : HashedId8) (certificate : Certificate) (expiry : Int) : HeapCache :=
  { expiries := ⟨c.next, c.next, expiry⟩ :: c.expiries
    certificates := c.certificates ++ [⟨c.next, id, certificate, c.next⟩]
    next := c.next + 1 }

def insert (backend : Backend) (now : Int) (c : HeapCache) (certificate : Certificate) :
  Except Exception HeapCache := do
  let id ← certificate.calculateHash backend
  let type := certificate.subjectInfo.subjectType
  let found := c.lookup now id type
  if ← contains found.1 certificate then return found.2
  else if 0 < lifetime type then return found.2.push id certificate (now + lifetime type)
  else return found.2

/-- A call at some time. The only exception of `insert` is one of `calculate_hash`, which comes
before everything else. -/
def step (backend : Backend) (c : HeapCache) (action : Int × CacheCall) :
  HeapCache × List Certificate :=
  match action.2 with
  | .insert certificate =>
    match c.insert backend action.1 certificate with
    | .ok c' => (c', [])
    | .error _ => (c, [])
  | .lookup id type => ((c.lookup action.1 id type).2, (c.lookup action.1 id type).1)

end HeapCache

def CertificateCache.step {backend : Backend} (cache : CertificateCache backend)
  (action : Int × CacheCall) : CertificateCache backend × List Certificate :=
  match action.2 with
  | .insert certificate =>
    match cache.insert action.1 certificate with
    | .ok cache' => (cache', [])
    | .error _ => (cache, [])
  | .lookup id type => ((cache.lookup action.1 id type).2, (cache.lookup action.1 id type).1)

namespace HeapCache

def cached (link : StoredCertificate × Int) : CachedCertificate :=
  ⟨link.1.id, link.1.certificate, link.2⟩

def expiryOf (link : StoredCertificate × Int) : HeapElement Nat :=
  ⟨link.1.handle, link.1.place, link.2⟩

/-- The stored certificates in their order, each with its expiry. -/
structure Linked (c : HeapCache) (links : List (StoredCertificate × Int)) : Prop where
  certificates : c.certificates = links.map Prod.fst
  expiries : c.expiries.Perm (links.map expiryOf)
  places : (links.map fun link => link.1.place).Nodup
  handles : (links.map fun link => link.1.handle).Nodup
  fresh : ∀ link ∈ links, link.1.place < c.next ∧ link.1.handle < c.next

variable {c : HeapCache} {links : List (StoredCertificate × Int)} {now : Int} {id : HashedId8}
  {type : SubjectType} {backend : Backend}

namespace Linked

theorem empty : Linked empty [] where
  certificates := rfl
  expiries := Perm.refl []
  places := nodup_nil
  handles := nodup_nil
  fresh _ h := by cases h

variable (h : Linked c links)

include h

theorem without {link : StoredCertificate × Int} (hl : link ∈ links) :
  Linked { c with
      certificates := c.certificates.filter fun stored => stored.place ≠ link.1.place
      expiries := c.expiries.filter fun e => e.handle ≠ link.1.handle }
    (links.filter fun other => other.1.place ≠ link.1.place) where
  certificates := by
    rw [h.certificates, filter_map]
    rfl
  expiries := by
    have hp := h.expiries.filter fun e => e.handle ≠ link.1.handle
    have hs : links.filter ((fun e : HeapElement Nat => decide (e.handle ≠ link.1.handle)) ∘
        expiryOf) = links.filter fun other => other.1.place ≠ link.1.place := by
      refine filter_congr fun other ho => decide_eq_decide.2 (not_congr ⟨?_, ?_⟩)
      · intro hh
        rw [inj_on_of_nodup_map h.handles ho hl hh]
      · intro hplc
        rw [inj_on_of_nodup_map h.places ho hl hplc]
        rfl
    rwa [filter_map, hs] at hp
  places := nodup_map_filter h.places _
  handles := nodup_map_filter h.handles _
  fresh other ho := h.fresh other (mem_of_mem_filter ho)

theorem dropLoop {n : Nat} (hn : c.expiries.length ≤ n) :
  Linked (dropLoop now n c) (links.filter fun link => ¬now > link.2) := by
  have hk : ∀ {c links}, Linked c links → (∀ e ∈ c.expiries, ¬now > e.expiry) →
      Linked c (links.filter fun link => ¬now > link.2) := by
    intro c links h hli
    rwa [filter_eq_self.2]
    intro link hl
    exact decide_eq_true (hli _ (h.expiries.mem_iff.2 (mem_map_of_mem hl)))
  induction n generalizing c links with
  | zero =>
    rw [HeapCache.dropLoop]
    refine hk h fun e he => ?_
    rw [length_eq_zero_iff.1 (Nat.le_zero.1 hn)] at he
    cases he
  | succ n ih =>
    rw [HeapCache.dropLoop]
    rcases SoftStateMap.top_spec c.expiries with ⟨ht, hnil⟩ | ⟨least, hlst, ht, hle⟩
    · rw [ht]
      refine hk h fun e he => ?_
      rw [hnil] at he
      cases he
    rw [ht]
    dsimp only
    split
    · next hexp =>
      obtain ⟨link, hl, rfl⟩ := mem_map.1 (h.expiries.mem_iff.1 hlst)
      have hsh : (c.expiries.filter fun e => e.handle ≠ link.1.handle).length ≤ n := by
        have hlt : (c.expiries.filter fun e => e.handle ≠ link.1.handle).length <
            c.expiries.length :=
          length_filter_lt_length_iff_exists.2 ⟨_, hlst, by simp [expiryOf]⟩
        omega
      have hr := ih (h.without hl) hsh
      have hs : (links.filter fun other => other.1.place ≠ link.1.place).filter
          (fun other => ¬now > other.2) = links.filter fun other => ¬now > other.2 := by
        rw [filter_filter]
        refine filter_congr fun other ho => ?_
        -- the element that goes has expired
        by_cases hp : other.1.place = link.1.place
        · rw [inj_on_of_nodup_map h.places ho hl hp]
          have hg : now > link.2 := hexp
          simp [hg]
        · simp [hp]
      rw [hs] at hr
      exact hr
    · next hli =>
      refine hk h fun e he => ?_
      have := hle e he
      omega

end Linked

theorem foldl_visit (items : List StoredCertificate) (found : List Certificate) (c : HeapCache) :
  items.foldl (visit now type) (found, c) =
    (found ++ (items.filter fun item => item.type = type).map (·.certificate),
      { c with expiries := c.expiries.map fun e =>
          if 0 < lifetime type ∧ ∃ item ∈ items, item.type = type ∧ item.handle = e.handle then
            { e with expiry := now + lifetime type }
          else e }) := by
  induction items generalizing found c with
  | nil => simp
  | cons item items ih =>
    rw [foldl_cons, visit]
    by_cases ht : item.type = type
    · rw [if_neg (not_not.2 ht), ih, filter_cons_of_pos (by simpa using ht)]
      refine Prod.ext (by simp) ?_
      by_cases hl : 0 < lifetime type
      · rw [if_pos hl, refresh]
        dsimp only
        rw [map_map]
        congr 1
        refine map_congr_left fun e _ => ?_
        rw [Function.comp_apply]
        by_cases hh : e.handle = item.handle
        · simp [hl, ht, hh]
        · simp [hl, hh, Ne.symm hh]
      · simp [hl]
    · rw [if_pos ht, ih, filter_cons_of_neg (by simpa using ht)]
      simp [ht]

def renewed (now : Int) (id : HashedId8) (type : SubjectType) (link : StoredCertificate × Int) :
  StoredCertificate × Int :=
  (link.1, (renew now id type (cached link)).expiry)

theorem cached_renewed (link : StoredCertificate × Int) :
  cached (renewed now id type link) = renew now id type (cached link) := by
  unfold renewed renew
  split <;> rfl

theorem Linked.lookup (h : Linked c links) :
  Linked (c.lookup now id type).2
      ((links.filter fun link => ¬now > link.2).map (renewed now id type)) ∧
    (c.lookup now id type).1 = ((links.filter fun link => ¬now > link.2).filter fun link =>
      CachedCertificate.matches (cached link) id type).map fun link => link.1.certificate := by
  have hl : Linked (c.dropExpired now) (links.filter fun link => ¬now > link.2) :=
    h.dropLoop (Nat.le_refl _)
  generalize links.filter (fun link => ¬now > link.2) = live at hl ⊢
  rw [HeapCache.lookup, foldl_visit, hl.certificates]
  refine ⟨⟨?_, ?_, ?_, ?_, ?_⟩, ?_⟩
  · rw [map_map]
    rfl
  · refine (hl.expiries.map _).trans (Perm.of_eq ?_)
    rw [map_map, map_map]
    refine map_congr_left fun link hli => ?_
    -- a handle among the visited ones is that of a matching certificate
    have hv : (∃ item ∈ (live.map Prod.fst).filter (fun stored => stored.id = id),
        item.type = type ∧ item.handle = link.1.handle) ↔
        CachedCertificate.matches (cached link) id type = true := by
      rw [CachedCertificate.matches, decide_eq_true_eq]
      constructor
      · rintro ⟨item, hit, ht, hh⟩
        obtain ⟨hit, hid⟩ := mem_filter.1 hit
        obtain ⟨other, ho, rfl⟩ := mem_map.1 hit
        rw [inj_on_of_nodup_map hl.handles ho hli hh] at hid ht
        exact ⟨of_decide_eq_true hid, ht⟩
      · intro hm
        exact ⟨link.1, mem_filter.2 ⟨mem_map_of_mem hli, decide_eq_true hm.1⟩, hm.2, rfl⟩
    simp only [Function.comp_apply, expiryOf, renewed, renew, hv]
    by_cases hr : CachedCertificate.matches (cached link) id type = true ∧ 0 < lifetime type
    · rw [if_pos hr, if_pos hr.symm]
    · rw [if_neg hr, if_neg fun hb => hr hb.symm]
      rfl
  · rw [map_map]
    exact hl.places
  · rw [map_map]
    exact hl.handles
  · intro link hli
    obtain ⟨link, hmem, rfl⟩ := mem_map.1 hli
    exact hl.fresh link hmem
  · rw [nil_append, filter_map, filter_map, filter_filter, map_map]
    refine congrArg _ (filter_congr fun link _ => ?_)
    rw [CachedCertificate.matches, Bool.decide_and, Bool.and_comm]
    rfl

theorem Linked.push (h : Linked c links) (id : HashedId8) (certificate : Certificate)
  (expiry : Int) : Linked (c.push id certificate expiry)
    (links ++ [(⟨c.next, id, certificate, c.next⟩, expiry)]) where
  certificates := by
    rw [HeapCache.push, h.certificates, map_append]
    rfl
  expiries := by
    rw [map_append]
    exact (h.expiries.cons _).trans (perm_append_singleton _ _).symm
  places := by
    rw [map_append, nodup_append]
    refine ⟨h.places, nodup_singleton _, fun place hp other hoth heq => ?_⟩
    obtain ⟨link, hl, rfl⟩ := mem_map.1 hp
    exact (h.fresh link hl).1.ne (heq.trans (mem_singleton.1 hoth))
  handles := by
    rw [map_append, nodup_append]
    refine ⟨h.handles, nodup_singleton _, fun handle hhnd other hoth heq => ?_⟩
    obtain ⟨link, hl, rfl⟩ := mem_map.1 hhnd
    exact (h.fresh link hl).2.ne (heq.trans (mem_singleton.1 hoth))
  fresh link hl := by
    rcases mem_append.1 hl with hl | hl
    · have := h.fresh link hl
      exact ⟨Nat.lt_succ_of_lt this.1, Nat.lt_succ_of_lt this.2⟩
    · rw [mem_singleton.1 hl]
      exact ⟨Nat.lt_succ_self _, Nat.lt_succ_self _⟩

def Shows (c : HeapCache) (cache : CertificateCache backend) : Prop :=
  ∃ links, Linked c links ∧ cache.certificates = links.map cached

variable {cache : CertificateCache backend}

theorem Shows.lookup (h : Shows c cache) (now : Int) (id : HashedId8) (type : SubjectType) :
  (c.lookup now id type).1 = (cache.lookup now id type).1 ∧
    Shows (c.lookup now id type).2 (cache.lookup now id type).2 := by
  obtain ⟨links, hl, hc⟩ := h
  obtain ⟨ha, hf⟩ := @Linked.lookup c links now id type hl
  have hcur : (cache.dropExpired now).certificates =
      (links.filter fun link => ¬now > link.2).map cached := by
    change cache.certificates.filter _ = _
    rw [hc, filter_map]
    rfl
  refine ⟨?_, _, ha, ?_⟩
  · change _ = ((cache.dropExpired now).certificates.filter _).map _
    rw [hf, hcur, filter_map, map_map]
    rfl
  · change (cache.dropExpired now).certificates.map _ = _
    rw [hcur, map_map, map_map]
    exact map_congr_left fun link _ => (cached_renewed link).symm

theorem Shows.push (h : Shows c cache) {certificate : Certificate} (expiry : Int)
  (hid : certificate.calculateHash backend = .ok id) :
  Shows (c.push id certificate expiry) (cache.add id certificate expiry hid) := by
  obtain ⟨links, hl, hc⟩ := h
  refine ⟨_, hl.push id certificate expiry, ?_⟩
  change cache.certificates ++ _ = _
  rw [hc, map_append]
  rfl

section

variable {certificate : Certificate} (hid : certificate.calculateHash backend = .ok id)

include hid

theorem insert_eq : c.insert backend now certificate =
  (contains (c.lookup now id certificate.subjectInfo.subjectType).1 certificate).map fun known =>
    if known = false ∧ 0 < lifetime certificate.subjectInfo.subjectType then
      (c.lookup now id certificate.subjectInfo.subjectType).2.push id certificate
        (now + lifetime certificate.subjectInfo.subjectType)
    else (c.lookup now id certificate.subjectInfo.subjectType).2 := by
  rw [HeapCache.insert, hid]
  dsimp only [bind, Except.bind]
  cases contains (c.lookup now id certificate.subjectInfo.subjectType).1 certificate with
  | error e => rfl
  | ok known =>
    by_cases hl : 0 < lifetime certificate.subjectInfo.subjectType <;> cases known <;>
      simp [hl, Except.map, pure, Except.pure]

theorem insertCached_eq : cache.insert now certificate =
  (contains (cache.lookup now id certificate.subjectInfo.subjectType).1 certificate).map
    fun known => if known = false ∧ 0 < lifetime certificate.subjectInfo.subjectType then
      (cache.lookup now id certificate.subjectInfo.subjectType).2.add id certificate
        (now + lifetime certificate.subjectInfo.subjectType) hid
    else (cache.lookup now id certificate.subjectInfo.subjectType).2 := by
  unfold CertificateCache.insert
  split
  · next e he => cases hid.symm.trans he
  next id' hid' =>
  cases hid.symm.trans hid'
  dsimp only [bind, Except.bind]
  cases contains (cache.lookup now id certificate.subjectInfo.subjectType).1 certificate with
  | error e => rfl
  | ok known =>
    by_cases hl : 0 < lifetime certificate.subjectInfo.subjectType <;> cases known <;>
      simp [hl, Except.map, pure, Except.pure]

end

theorem insertCached_error {certificate : Certificate} {e : Exception}
  (he : certificate.calculateHash backend = .error e) :
  cache.insert now certificate = .error e := by
  unfold CertificateCache.insert
  split
  · next e' he' => exact congrArg _ (Except.error.inj (he'.symm.trans he))
  · next id hid => cases he.symm.trans hid

theorem Shows.insert (h : Shows c cache) (now : Int) (certificate : Certificate) :
  (∃ e, c.insert backend now certificate = .error e ∧ cache.insert now certificate = .error e) ∨
    ∃ c' cache', c.insert backend now certificate = .ok c' ∧
      cache.insert now certificate = .ok cache' ∧ Shows c' cache' := by
  cases hid : certificate.calculateHash backend with
  | error e => exact .inl ⟨e, by rw [HeapCache.insert, hid]; rfl, insertCached_error hid⟩
  | ok id =>
    obtain ⟨hf, hs⟩ := h.lookup now id certificate.subjectInfo.subjectType
    rw [insert_eq hid, insertCached_eq hid, hf]
    cases contains (cache.lookup now id certificate.subjectInfo.subjectType).1 certificate with
    | error e => exact .inl ⟨e, rfl, rfl⟩
    | ok known =>
      refine .inr ⟨_, _, rfl, rfl, ?_⟩
      dsimp only
      split
      · exact hs.push _ hid
      · exact hs

theorem simulates : Simulates (step backend) (@CertificateCache.step backend) Shows := by
  intro c cache action h
  obtain ⟨now, call⟩ := action
  cases call with
  | lookup id type => exact h.lookup now id type
  | insert certificate =>
    rw [step, CertificateCache.step]
    dsimp only
    rcases h.insert now certificate with ⟨e, hc, hcc⟩ | ⟨c', cache', hc, hcc, hs⟩
    · rw [hc, hcc]
      exact ⟨rfl, h⟩
    · rw [hc, hcc]
      exact ⟨rfl, hs⟩

/-- The digest and type a call is for; `insert` looks for them first. -/
def target (backend : Backend) : CacheCall → Option (HashedId8 × SubjectType)
  | .insert certificate =>
    match certificate.calculateHash backend with
    | .ok id => some (id, certificate.subjectInfo.subjectType)
    | .error _ => none
  | .lookup id type => some (id, type)

/-- When certificates with this digest and type have last been inserted or looked for. -/
def lastUse (backend : Backend) (actions : List (Int × CacheCall)) (id : HashedId8)
  (type : SubjectType) : Option Int :=
  (actions.reverse.find? fun action => target backend action.2 = some (id, type)).map Prod.fst

def Alike (cert other : Certificate) : Prop :=
  cert.subjectInfo.subjectType = other.subjectInfo.subjectType ∧
    cert.convertForSigning = other.convertForSigning

def afterAll (backend : Backend) (actions : List (Int × CacheCall)) : HeapCache :=
  after (step backend) empty actions

structure Keeps (backend : Backend) (actions : List (Int × CacheCall)) : Prop where
  corresponds : ((afterAll backend actions).expiries.map fun e => (e.handle, e.key)).Perm
    ((afterAll backend actions).certificates.map fun stored => (stored.handle, stored.place))
  places : ((afterAll backend actions).certificates.map StoredCertificate.place).Nodup
  handles : ((afterAll backend actions).certificates.map StoredCertificate.handle).Nodup
  filed : ∀ stored ∈ (afterAll backend actions).certificates,
    stored.certificate.calculateHash backend = .ok stored.id
  lookup : ∀ now id type, ((afterAll backend actions).lookup now id type).1 =
    ((afterAll backend actions).certificates.filter fun stored => stored.id = id ∧
      stored.type = type ∧ ∃ time ∈ lastUse backend actions id type,
        now ≤ time + lifetime type).map (·.certificate)
  distinct : (afterAll backend actions).certificates.Pairwise fun stored other =>
    ¬(stored.id = other.id ∧ Alike stored.certificate other.certificate)
  types : ∀ stored ∈ (afterAll backend actions).certificates,
    stored.type = .authorizationTicket ∨ stored.type = .authorizationAuthority
  stays : ∀ action, ∀ stored ∈ (afterAll backend actions).certificates,
    (∃ time ∈ lastUse backend actions stored.id stored.type,
      action.1 ≤ time + lifetime stored.type) →
    stored ∈ (afterAll backend (actions ++ [action])).certificates
  inserted : ∀ now certificate id, certificate.calculateHash backend = .ok id →
    0 < lifetime certificate.subjectInfo.subjectType →
    ∃ stored ∈ (afterAll backend (actions ++ [(now, .insert certificate)])).certificates,
      stored.id = id ∧ Alike stored.certificate certificate

variable {actions : List (Int × CacheCall)} {action : Int × CacheCall}

theorem lastUse_append : lastUse backend (actions ++ [action]) id type =
  if target backend action.2 = some (id, type) then some action.1
  else lastUse backend actions id type := by
  rw [lastUse, reverse_append, reverse_singleton, singleton_append, find?_cons]
  split <;> simp_all [lastUse]

structure Current (actions : List (Int × CacheCall)) (cache : CertificateCache backend) : Prop where
  used : ∀ entry ∈ cache.certificates,
    ∃ time ∈ lastUse backend actions entry.id entry.certificate.subjectInfo.subjectType,
      entry.expiry = time + lifetime entry.certificate.subjectInfo.subjectType
  lives : ∀ entry ∈ cache.certificates, 0 < lifetime entry.certificate.subjectInfo.subjectType
  distinct : cache.certificates.Pairwise fun entry other =>
    ¬(entry.id = other.id ∧ Alike entry.certificate other.certificate)

namespace Current

theorem empty : Current [] (CertificateCache.empty : CertificateCache backend) where
  used _ h := by cases h
  lives _ h := by cases h
  distinct := Pairwise.nil

theorem lookup (h : Current actions cache) (ha : target backend action.2 = some (id, type)) :
  Current (actions ++ [action]) (cache.lookup action.1 id type).2 where
  used := by
    intro entry hent
    obtain ⟨entry, hm, rfl⟩ := mem_map.1 hent
    have hm := mem_of_mem_filter hm
    obtain ⟨hid, hcert⟩ := renew_filed action.1 id type entry
    rw [hid, hcert, lastUse_append, ha, renew]
    by_cases hmch : CachedCertificate.matches entry id type = true
    · obtain ⟨rfl, rfl⟩ := of_decide_eq_true hmch
      rw [if_pos rfl, if_pos ⟨hmch, h.lives entry hm⟩]
      exact ⟨action.1, rfl, rfl⟩
    have ho : some (id, type) ≠ some (entry.id, entry.certificate.subjectInfo.subjectType) := by
      intro heq
      cases heq
      exact hmch (decide_eq_true ⟨rfl, rfl⟩)
    rw [if_neg ho, if_neg fun hb => hmch hb.1]
    exact h.used entry hm
  lives := by
    intro entry hent
    obtain ⟨entry, hm, rfl⟩ := mem_map.1 hent
    rw [(renew_filed action.1 id type entry).2]
    exact h.lives entry (mem_of_mem_filter hm)
  distinct := by
    refine pairwise_map.2 ((h.distinct.sublist filter_sublist).imp fun hne => ?_)
    simpa only [renew_filed] using hne

theorem unchanged (h : Current actions cache) (ha : target backend action.2 = none) :
  Current (actions ++ [action]) cache := by
  refine ⟨fun entry hent => ?_, h.lives, h.distinct⟩
  rw [lastUse_append, ha, if_neg (by simp)]
  exact h.used entry hent

end Current

theorem mem_lookup_iff {cert : Certificate} : cert ∈ (cache.lookup now id type).1 ↔
  ∃ entry ∈ (cache.lookup now id type).2.certificates, entry.id = id ∧
    entry.certificate.subjectInfo.subjectType = type ∧ entry.certificate = cert := by
  have hm : ∀ entry : CachedCertificate, CachedCertificate.matches entry id type = true ↔
      (renew now id type entry).id = id ∧
        (renew now id type entry).certificate.subjectInfo.subjectType = type := by
    intro entry
    rw [(renew_filed now id type entry).1, (renew_filed now id type entry).2]
    exact decide_eq_true_iff
  change cert ∈ ((cache.dropExpired now).certificates.filter _).map _ ↔
    ∃ entry ∈ (cache.dropExpired now).certificates.map _, _
  simp only [mem_map, mem_filter, hm, exists_exists_and_eq_and,
    (renew_filed now id type _).2, and_assoc]

section

variable {certificate : Certificate} (hid : certificate.calculateHash backend = .ok id)

include hid

/-- The search for an equal certificate does not throw, and it finds what there is. -/
theorem contains_spec : ∃ known,
  contains (cache.lookup now id certificate.subjectInfo.subjectType).1 certificate = .ok known ∧
    (known = true ↔
      ∃ entry ∈ (cache.lookup now id certificate.subjectInfo.subjectType).2.certificates,
        entry.id = id ∧ Alike entry.certificate certificate) := by
  have hcert : certificate.Encodable := Certificate.calculateHash_returns.1 ⟨id, hid⟩
  obtain ⟨known, hkn⟩ :=
    @contains_returns certificate (cache.lookup now id certificate.subjectInfo.subjectType).1
      (fun _ hc => encodable_of_lookup hc) hcert
  obtain ⟨binary, hb⟩ := Certificate.convertForSigning_returns.2 hcert
  have hiff : known = true ↔ ∃ cert ∈ (cache.lookup now id certificate.subjectInfo.subjectType).1,
      cert.convertForSigning = .ok binary := by
    unfold CertificateCache.contains at hkn
    split at hkn
    · next hemp =>
      cases hkn
      simp [isEmpty_iff.1 hemp]
    · rw [hb] at hkn
      exact findBinary_iff hkn
  refine ⟨known, hkn, hiff.trans ?_⟩
  simp only [mem_lookup_iff, Alike, hb]
  constructor
  · rintro ⟨_, ⟨entry, hent, hid, ht, rfl⟩, hs⟩
    exact ⟨entry, hent, hid, ht, hs⟩
  · rintro ⟨entry, hent, hid, ht, hs⟩
    exact ⟨_, ⟨entry, hent, hid, ht, rfl⟩, hs⟩

theorem Current.insert (now : Int) (h : Current actions cache) :
  ∃ cache', cache.insert now certificate = .ok cache' ∧
    Current (actions ++ [(now, .insert certificate)]) cache' ∧
    (0 < lifetime certificate.subjectInfo.subjectType → ∃ entry ∈ cache'.certificates,
      entry.id = id ∧ Alike entry.certificate certificate) := by
  have ht : target backend (.insert certificate) =
      some (id, certificate.subjectInfo.subjectType) := by rw [target, hid]
  have hlkp := @Current.lookup _ _ _ _ _ (now, .insert certificate) h ht
  obtain ⟨known, hkn, hiff⟩ := @contains_spec now id backend cache certificate hid
  refine ⟨_, (insertCached_eq hid).trans (congrArg _ hkn), ?_⟩
  dsimp only
  split
  · next ha =>
    have hn := mt hiff.2 (by simp [ha.1])
    refine ⟨⟨?_, ?_, ?_⟩, fun _ => ⟨_, mem_append_right _ mem_cons_self, rfl, rfl, rfl⟩⟩
    · intro entry hent
      rcases mem_append.1 hent with hent | hent
      · exact hlkp.used entry hent
      · rw [mem_singleton.1 hent, lastUse_append, if_pos ht]
        exact ⟨now, rfl, rfl⟩
    · intro entry hent
      rcases mem_append.1 hent with hent | hent
      · exact hlkp.lives entry hent
      · rw [mem_singleton.1 hent]
        exact ha.2
    · refine pairwise_append.2 ⟨hlkp.distinct, pairwise_singleton _ _, ?_⟩
      intro entry hent other hoth halk
      rw [mem_singleton.1 hoth] at halk
      exact hn ⟨entry, hent, halk⟩
  · next hk =>
    refine ⟨hlkp, fun hl => ?_⟩
    exact hiff.1 (by simpa [hl] using hk)

end

theorem Current.step (h : Current actions cache) (action : Int × CacheCall) :
  Current (actions ++ [action]) (cache.step action).1 := by
  obtain ⟨now, call⟩ := action
  cases call with
  | lookup id type => exact @Current.lookup _ _ _ _ _ (now, .lookup id type) h rfl
  | insert certificate =>
    rw [CertificateCache.step]
    dsimp only
    cases hid : certificate.calculateHash backend with
    | ok id =>
      obtain ⟨cache', hins, hc, -⟩ := h.insert hid now
      rw [hins]
      exact hc
    | error e =>
      rw [insertCached_error hid]
      refine h.unchanged ?_
      rw [target, hid]

theorem current_after (actions : List (Int × CacheCall)) :
  Current actions (after CertificateCache.step (CertificateCache.empty : CertificateCache backend)
    actions) := by
  induction actions using reverseRecOn with
  | nil => exact .empty
  | append_singleton actions action ih =>
    rw [after_append]
    exact ih.step action

theorem shows_after (backend : Backend) (actions : List (Int × CacheCall)) :
  ∃ links, Linked (afterAll backend actions) links ∧
    (after CertificateCache.step (CertificateCache.empty : CertificateCache backend)
      actions).certificates = links.map cached :=
  simulates.after ⟨[], .empty, rfl⟩ actions

theorem Linked.mem_lookup (h : Linked c links) {link : StoredCertificate × Int} (hl : link ∈ links)
  (hli : now ≤ link.2) : link.1 ∈ (c.lookup now id type).2.certificates := by
  rw [(@Linked.lookup c links now id type h).1.certificates]
  refine mem_map.2 ⟨renewed now id type link, mem_map_of_mem (mem_filter.2 ⟨hl, ?_⟩), rfl⟩
  simpa using hli

theorem Linked.mem_step (h : Linked c links) {link : StoredCertificate × Int} (hl : link ∈ links)
  (hli : action.1 ≤ link.2) : link.1 ∈ (c.step backend action).1.certificates := by
  have hb : link.1 ∈ c.certificates := by
    rw [h.certificates]
    exact mem_map_of_mem hl
  obtain ⟨now, call⟩ := action
  cases call with
  | lookup id type => exact h.mem_lookup hl hli
  | insert certificate =>
    rw [HeapCache.step]
    dsimp only
    cases hid : certificate.calculateHash backend with
    | error e =>
      rw [HeapCache.insert, hid]
      exact hb
    | ok id =>
      rw [insert_eq hid]
      cases CertificateCache.contains _ certificate with
      | error e => exact hb
      | ok known =>
        dsimp only [Except.map]
        split
        · exact mem_append_left _ (h.mem_lookup hl hli)
        · exact h.mem_lookup hl hli

theorem keeps_afterAll (backend : Backend) (actions : List (Int × CacheCall)) :
  Keeps backend actions := by
  obtain ⟨links, hlin, hcac⟩ := shows_after backend actions
  have hc := @current_after backend actions
  have hent : ∀ link ∈ links, cached link ∈ (after CertificateCache.step
      (CertificateCache.empty : CertificateCache backend) actions).certificates := by
    intro link hl
    rw [hcac]
    exact mem_map_of_mem hl
  have hs : ∀ stored ∈ (afterAll backend actions).certificates,
      ∃ link ∈ links, link.1 = stored := by
    intro stored hm
    rw [hlin.certificates] at hm
    exact mem_map.1 hm
  refine ⟨?_, ?_, ?_, ?_, ?_, ?_, ?_, ?_, ?_⟩
  · rw [hlin.certificates, map_map]
    refine (hlin.expiries.map _).trans (Perm.of_eq ?_)
    rw [map_map]
    rfl
  · rw [hlin.certificates, map_map]
    exact hlin.places
  · rw [hlin.certificates, map_map]
    exact hlin.handles
  · intro stored hm
    obtain ⟨link, hl, rfl⟩ := hs stored hm
    exact CertificateCache.filed _ _ (hent link hl)
  · intro now id type
    rw [hlin.lookup.2, hlin.certificates, filter_map, map_map, filter_filter]
    refine congrArg _ (filter_congr fun link hl => ?_)
    obtain ⟨time, ht, hex⟩ := hc.used _ (hent link hl)
    change lastUse backend actions link.1.id link.1.type = some time at ht
    change link.2 = time + lifetime link.1.type at hex
    rw [Bool.eq_iff_iff, Bool.and_eq_true, CachedCertificate.matches, Function.comp_apply,
      decide_eq_true_eq, decide_eq_true_eq, decide_eq_true_eq]
    constructor
    · rintro ⟨⟨rfl, rfl⟩, hliv⟩
      exact ⟨rfl, rfl, time, ht, hex ▸ Int.not_lt.1 hliv⟩
    · rintro ⟨rfl, rfl, time', ht', hle⟩
      cases ht.symm.trans ht'
      exact ⟨⟨rfl, rfl⟩, Int.not_lt.2 (hex ▸ hle)⟩
  · have hd := hc.distinct
    rw [hcac, pairwise_map] at hd
    rw [hlin.certificates, pairwise_map]
    exact hd
  · intro stored hm
    obtain ⟨link, hl, rfl⟩ := hs stored hm
    have hli : 0 < lifetime link.1.type := hc.lives _ (hent link hl)
    by_contra hoth
    obtain ⟨htic, haut⟩ := not_or.1 hoth
    rw [lifetime, if_neg htic, if_neg haut] at hli
    exact absurd hli (Int.lt_irrefl 0)
  · intro action stored hm hliv
    obtain ⟨link, hl, rfl⟩ := hs stored hm
    obtain ⟨time, ht, hle⟩ := hliv
    obtain ⟨time', ht', hex⟩ := hc.used _ (hent link hl)
    cases ht.symm.trans ht'
    rw [afterAll, after_append]
    exact hlin.mem_step hl (hle.trans (Int.le_of_eq hex.symm))
  · intro now certificate id hid hli
    obtain ⟨links', hl', hc'⟩ := shows_after backend (actions ++ [(now, .insert certificate)])
    obtain ⟨cache', hins, -, hthr⟩ := hc.insert hid now
    rw [after_append, CertificateCache.step] at hc'
    dsimp only at hc'
    rw [hins] at hc'
    obtain ⟨entry, hm, hid, ha⟩ := hthr hli
    rw [hc'] at hm
    obtain ⟨link, hl, rfl⟩ := mem_map.1 hm
    refine ⟨link.1, ?_, hid, ha⟩
    rw [hl'.certificates]
    exact mem_map_of_mem hl

end HeapCache

end Vanetza.Security.V2
