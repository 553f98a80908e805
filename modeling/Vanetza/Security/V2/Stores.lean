import Vanetza.Security.V2.Encodable

/-!
# Where v2 certificates are kept

Cache and trust store calculate the digest of what is put in, so each entry is
filed under its own digest; in particular every stored certificate can be
written.
-/

namespace Vanetza.Security.V2

open Lib Returns

/-- `TrustStore`, a multimap of root certificates. -/
structure TrustStore (backend : Backend) where
  certificates : List (HashedId8 × Certificate)
  rooted : ∀ entry ∈ certificates, entry.2.subjectInfo.subjectType = .rootCa ∧
      entry.2.calculateHash backend = .ok entry.1

namespace TrustStore

variable {backend : Backend}

def empty : TrustStore backend := ⟨[], by simp⟩

def insert (store : TrustStore backend) (certificate : Certificate) :
  Except Exception (TrustStore backend) :=
  if hroot : certificate.subjectInfo.subjectType = .rootCa then
    match hid : certificate.calculateHash backend with
    | .error e => .error e
    | .ok id => .ok
        { certificates := store.certificates ++ [(id, certificate)]
          rooted := by
            intro entry hmem
            rcases List.mem_append.1 hmem with hmem | hmem
            · exact store.rooted entry hmem
            · rw [List.mem_singleton.1 hmem]
              exact ⟨hroot, hid⟩ }
  else .error (.runtimeError "Only root certificate authorities may be added to the trust store")

def lookup (store : TrustStore backend) (id : HashedId8) : List Certificate :=
  (store.certificates.filter fun entry => entry.1 = id).map Prod.snd

end TrustStore

structure CachedCertificate where
  id : HashedId8
  certificate : Certificate
  expiry : Int

structure CertificateCache (backend : Backend) where
  certificates : List CachedCertificate
  filed : ∀ entry ∈ certificates, entry.certificate.calculateHash backend = .ok entry.id

namespace CertificateCache

variable {backend : Backend}

def empty : CertificateCache backend := ⟨[], by simp⟩

def lifetime (type : SubjectType) : Int :=
  if type = .authorizationTicket then 2 * 1000000
  else if type = .authorizationAuthority then 3600 * 1000000
  else 0

def dropExpired (now : Int) (cache : CertificateCache backend) : CertificateCache backend :=
  ⟨cache.certificates.filter fun entry => ¬ now > entry.expiry,
    fun entry hmem => cache.filed entry (List.mem_of_mem_filter hmem)⟩

def CachedCertificate.matches (entry : CachedCertificate) (id : HashedId8)
  (type : SubjectType) : Bool :=
  entry.id = id ∧ entry.certificate.subjectInfo.subjectType = type

def renew (now : Int) (id : HashedId8) (type : SubjectType)
  (entry : CachedCertificate) : CachedCertificate :=
  if CachedCertificate.matches entry id type ∧ 0 < lifetime type then
    { entry with expiry := now + lifetime type }
  else entry

theorem renew_filed (now : Int) (id : HashedId8) (type : SubjectType) (entry : CachedCertificate) :
  (renew now id type entry).id = entry.id ∧
    (renew now id type entry).certificate = entry.certificate := by
  unfold renew
  split <;> exact ⟨rfl, rfl⟩

def lookup (now : Int) (cache : CertificateCache backend) (id : HashedId8)
  (type : SubjectType) : List Certificate × CertificateCache backend :=
  let current := cache.dropExpired now
  ((current.certificates.filter
      fun entry => CachedCertificate.matches entry id type).map (·.certificate),
    { certificates := current.certificates.map (renew now id type)
      filed := by
        intro entry hmem
        obtain ⟨entry', hmem', rfl⟩ := List.mem_map.1 hmem
        obtain ⟨hid, hcert⟩ := renew_filed now id type entry'
        rw [hid, hcert]
        exact current.filed entry' hmem' })

def add (cache : CertificateCache backend) (id : HashedId8)
  (certificate : Certificate) (expiry : Int) (hid : certificate.calculateHash backend = .ok id) :
  CertificateCache backend :=
  { certificates := cache.certificates ++ [⟨id, certificate, expiry⟩]
    filed := by
      intro entry hmem
      rcases List.mem_append.1 hmem with hmem | hmem
      · exact cache.filed entry hmem
      · rw [List.mem_singleton.1 hmem]
        exact hid }

def findBinary (binaryInsert : ByteBuffer) : List Certificate → Except Exception Bool
  | [] => return false
  | cert :: certs => do
      let binaryFound ← cert.convertForSigning
      if binaryInsert = binaryFound then return true
      else findBinary binaryInsert certs

def contains (certs : List Certificate) (certificate : Certificate) : Except Exception Bool :=
  if certs.isEmpty then return false
  else do findBinary (← certificate.convertForSigning) certs

def insert (now : Int) (cache : CertificateCache backend) (certificate : Certificate) :
  Except Exception (CertificateCache backend) :=
  match hid : certificate.calculateHash backend with
  | .error e => .error e
  | .ok id => do
      let type := certificate.subjectInfo.subjectType
      -- this may drop expired entries and extend some's lifetime
      let found := cache.lookup now id type
      if ← contains found.1 certificate then return found.2
      else if 0 < lifetime type then
        return found.2.add id certificate (now + lifetime type) hid
      else return found.2

variable {cache : CertificateCache backend} {cert : Certificate} {now : Int}
  {entry : CachedCertificate} {certs : List Certificate} {type : SubjectType} {id : HashedId8}

theorem encodable (h : entry ∈ cache.certificates) :
  entry.certificate.Encodable :=
  Certificate.calculateHash_returns.1 ⟨_, cache.filed entry h⟩

theorem encodable_of_lookup (h : cert ∈ (cache.lookup now id type).1) :
  cert.Encodable := by
  obtain ⟨entry, hm, rfl⟩ := List.mem_map.1 h
  exact encodable (List.mem_of_mem_filter hm)

theorem not_expired_renew (h : ¬ now > entry.expiry) :
  ¬ now > (renew now id type entry).expiry := by
  unfold renew
  split
  · next hm =>
    have := hm.2
    dsimp only
    omega
  · exact h

theorem lookup_lookup (id id' : HashedId8) (type type' : SubjectType) :
  ((cache.lookup now id type).2.lookup now id' type').1 = (cache.lookup now id' type').1 := by
  have hc : ((cache.lookup now id type).2.dropExpired now).certificates =
      (cache.dropExpired now).certificates.map (renew now id type) := by
    refine List.filter_eq_self.2 fun entry hmem => ?_
    obtain ⟨entry', hm', rfl⟩ := List.mem_map.1 hmem
    have hc := of_decide_eq_true (List.mem_filter.1 hm').2
    exact decide_eq_true (not_expired_renew hc)
  have hm : ∀ entry, CachedCertificate.matches (renew now id type entry) id' type' =
        CachedCertificate.matches entry id' type' := by
    intro entry
    obtain ⟨hid, hcert⟩ := renew_filed now id type entry
    rw [CachedCertificate.matches, CachedCertificate.matches, hid, hcert]
  change ((((cache.lookup now id type).2.dropExpired now).certificates.filter
    fun entry => CachedCertificate.matches entry id' type').map (·.certificate)) = _
  rw [hc, List.filter_map, List.map_map, lookup]
  simp only [Function.comp_def, hm, (renew_filed now id type _).2]

theorem findBinary_returns {binary : ByteBuffer} (h : ∀ c ∈ certs, c.Encodable) :
  Returns (findBinary binary certs) := by
  induction certs with
  | nil => exact pure _
  | cons cert certs ih =>
    obtain ⟨hcert, hc⟩ := List.forall_mem_cons.1 h
    obtain ⟨bytes, hb⟩ := Certificate.convertForSigning_returns.2 hcert
    refine bind_iff.2 ⟨bytes, hb, ?_⟩
    split
    · exact pure _
    · exact ih hc

theorem contains_returns (hc : ∀ c ∈ certs, c.Encodable) (hcert : cert.Encodable) :
  Returns (contains certs cert) := by
  unfold contains
  split
  · exact pure _
  · obtain ⟨bytes, hb⟩ := Certificate.convertForSigning_returns.2 hcert
    exact bind_iff.2 ⟨bytes, hb, findBinary_returns hc⟩

theorem insert_returns (h : cert.Encodable) : Returns (cache.insert now cert) := by
  unfold insert
  split
  · next e he =>
    have hh : Returns (cert.calculateHash backend) := Certificate.calculateHash_returns.2 h
    rw [he] at hh
    exact (not_error e hh).elim
  next id hid =>
  obtain ⟨known, hk⟩ := contains_returns (fun c hc => encodable_of_lookup hc) h
  refine bind_iff.2 ⟨known, hk, ?_⟩
  split
  · exact pure _
  · split <;> exact pure _

end CertificateCache

end Vanetza.Security.V2
