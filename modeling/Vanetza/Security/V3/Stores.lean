import Mathlib.Data.List.Find
import Vanetza.Security.V3.Certificate

/-!
# Where v3 certificates are kept

The trust store holds self-issued certificates under their digest, the certificate cache holds the
certificates of other stations under theirs.
-/

namespace Vanetza.Security.V3

open Asn1 List

structure TrustStore (P : Platform) where
  certificates : List (HashedId8 × Certificate)
  rooted : ∀ entry ∈ certificates,
    issuerIsSelf entry.2 = true ∧ calculateDigest P entry.2 = some entry.1

namespace TrustStore

variable {P : Platform}

def insert (store : TrustStore P) (certificate : Certificate) : Option (TrustStore P) :=
  if hself : issuerIsSelf certificate = true then
    match hd : calculateDigest P certificate with
    | none => none
    | some id => some
        { certificates := store.certificates ++ [(id, certificate)]
          rooted := by
            intro entry hmem
            rcases List.mem_append.1 hmem with hmem | hmem
            · exact store.rooted entry hmem
            · rw [List.mem_singleton.1 hmem]
              exact ⟨hself, hd⟩ }
  else none

def lookup (store : TrustStore P) (id : HashedId8) : List Certificate :=
  (store.certificates.filter fun entry => entry.1 = id).map Prod.snd

end TrustStore

/-- `CertificateCache`. The short digests hold iterators into the storage in
the source; here they hold the key of the entry. -/
structure CertificateCache (P : Platform) where
  storage : List (HashedId8 × Certificate)
  shortDigests : List (HashedId3 × HashedId8)
  digests : List HashedId8
  filed : ∀ entry ∈ storage, calculateDigest P entry.2 = some entry.1

namespace CertificateCache

variable {P : Platform}

def empty : CertificateCache P := ⟨[], [], [], by simp⟩

def lookup (cache : CertificateCache P) (digest : HashedId8) : Option Certificate :=
  cache.storage.lookup digest

def lookupShort (cache : CertificateCache P) (digest : HashedId3) : Option Certificate :=
  (cache.shortDigests.lookup digest).bind cache.lookup

def announce (cache : CertificateCache P) (digest : HashedId8) : CertificateCache P × Bool :=
  if digest ∈ cache.digests then (cache, false)
  else ({ cache with digests := digest :: cache.digests }, true)

def isKnown (cache : CertificateCache P) (digest : HashedId8) : Bool := digest ∈ cache.digests

def store (cache : CertificateCache P) (cert : Certificate) : CertificateCache P :=
  match hd : calculateDigest P cert with
  | none => cache
  | some hash =>
    if (cache.lookup hash).isSome then cache
    else
      { storage := (hash, cert) :: cache.storage
        shortDigests :=
          if (cache.shortDigests.lookup (truncate hash)).isSome then
            cache.shortDigests
          else (truncate hash, hash) :: cache.shortDigests
        digests := if hash ∈ cache.digests then cache.digests
          else hash :: cache.digests
        filed := by
          intro entry hmem
          rcases List.mem_cons.1 hmem with rfl | hmem
          · exact hd
          · exact cache.filed entry hmem }

theorem lookup_spec {cache : CertificateCache P} {digest : HashedId8}
  {cert : Certificate} (h : cache.lookup digest = some cert) :
  calculateDigest P cert = some digest := by
  obtain ⟨before, after, hs, -⟩ := lookup_eq_some_iff.1 h
  exact cache.filed (digest, cert) (by rw [hs]; simp)

/-! ### What a short digest names

Different certificates may have the same short digest. The cache then finds the
one that was stored first. -/

def held (cache : CertificateCache P) : List Certificate := cache.storage.reverse.map Prod.snd

def named (P : Platform) (id : HashedId3) (certs : List Certificate) : Option Certificate :=
  certs.find? fun cert => (calculateDigest P cert).map truncate = some id

def entry (cache : CertificateCache P) (id : HashedId3) : Option (HashedId8 × Certificate) :=
  cache.storage.reverse.find? fun entry => truncate entry.1 = id

structure Indexed (cache : CertificateCache P) : Prop where
  distinct : (cache.storage.map Prod.fst).Nodup
  first : ∀ id, cache.shortDigests.lookup id = (cache.entry id).map Prod.fst

theorem named_held (cache : CertificateCache P) (id : HashedId3) :
  named P id cache.held = (cache.entry id).map Prod.snd := by
  rw [named, held, find?_map, entry]
  refine congrArg _ (find?_congr fun filed hf => ?_)
  have hd := cache.filed filed (mem_reverse.1 hf)
  simp [hd]

namespace Indexed

variable {cache : CertificateCache P}

theorem empty : (CertificateCache.empty : CertificateCache P).Indexed :=
  ⟨List.nodup_nil, fun _ => rfl⟩

theorem lookup_of_mem (h : cache.Indexed) {filed : HashedId8 × Certificate}
  (hm : filed ∈ cache.storage) : cache.lookup filed.1 = some filed.2 := by
  obtain ⟨before, after, hs⟩ := append_of_mem hm
  refine lookup_eq_some_iff.2 ⟨before, after, hs, ?_⟩
  intro other ho
  have hd := h.distinct
  rw [hs, map_append, map_cons] at hd
  have hne := (nodup_append.1 hd).2.2 other.1 (mem_map_of_mem ho) filed.1 mem_cons_self
  simp [Ne.symm hne]

theorem lookupShort_eq (h : cache.Indexed) (id : HashedId3) :
  cache.lookupShort id = named P id cache.held := by
  rw [lookupShort, h.first, named_held]
  cases hent : cache.entry id with
  | none => rfl
  | some filed =>
    have hm := mem_reverse.1 (mem_of_find?_eq_some hent)
    exact h.lookup_of_mem hm

theorem announce (h : cache.Indexed) (digest : HashedId8) : (cache.announce digest).1.Indexed := by
  rw [CertificateCache.announce]
  split
  · exact h
  · exact ⟨h.distinct, h.first⟩

theorem store (h : cache.Indexed) (cert : Certificate) : (cache.store cert).Indexed := by
  rw [CertificateCache.store]
  split
  · exact h
  next hash hdig =>
  split
  · exact h
  next hn =>
  refine ⟨?_, fun id => ?_⟩
  · refine nodup_cons.2 ⟨fun hm => hn ?_, h.distinct⟩
    obtain ⟨filed, hfil, rfl⟩ := mem_map.1 hm
    rw [h.lookup_of_mem hfil]
    rfl
  have hf := h.first id
  rw [entry] at hf ⊢
  rw [reverse_cons, find?_append]
  by_cases hid : truncate hash = id
  · subst hid
    cases hfnd : cache.storage.reverse.find? fun filed =>
        truncate filed.1 = truncate hash with
    | none | some filed => simp [hf, hfnd]
  -- other short digests name what they named before
  rw [find?_cons_of_neg (by simpa using hid), find?_nil, Option.or_none, ← hf]
  split
  · rfl
  · rw [lookup_cons, beq_false_of_ne (Ne.symm hid)]

end Indexed

end CertificateCache

end Vanetza.Security.V3
