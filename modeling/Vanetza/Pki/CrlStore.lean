import Vanetza.Lib.Program
import Vanetza.Lib.Run
import Vanetza.Pki.Storage

/-!
# The revocation list store

`CrlFilesystemStore` keeps the last revocation list of every issuer twice: as a file named after the
issuer, and as a set of revoked certificates in memory. `store` updates the set first and writes the
file afterwards.
-/

namespace Vanetza.Pki

open Security Security.V3 Security.V3.Asn1 Lib Program List

abbrev Directory := String → Option ByteBuffer

/-- `write`: the temporary file is renamed, so it is gone afterwards. -/
def Directory.write (root : Directory) (path : String) (buffer : ByteBuffer) : Directory :=
  Function.update (Function.update root (path ++ ".tmp") none) path (some buffer)

def Directory.Lists (root : Directory) (listing : List String) : Prop :=
  ∀ path, path ∈ listing ↔ (root path).isSome

/-- `path.extension() == ".crl"`; a leading dot starts no extension. -/
def hasCrlExtension (path : String) : Bool := ".crl".toList.isSuffixOf path.toList && path ≠ ".crl"

/-- A digit as `boost::algorithm::hex` writes it. -/
def hexDigit (n : Nat) : Char := if n < 10 then Char.ofNat (48 + n) else Char.ofNat (55 + n)

def hexOctet (octet : UInt8) : List Char :=
  [hexDigit (octet.toNat / 16), hexDigit (octet.toNat % 16)]

def hexstring (buffer : ByteBuffer) : String := String.ofList (buffer.flatMap hexOctet)

/-- `EtsiTs102941DataContent`, as far as revocation lists are concerned. -/
inductive CrlContent where
  | certificateRevocationList (entries : List ByteBuffer)
  | other
  deriving DecidableEq

structure CrlModule where
  platform : Platform
  signedPayload : ByteBuffer → Option ByteBuffer
  mgmtData : ByteBuffer → Option CrlContent
  encode : SignedList → ByteBuffer
  decode : ByteBuffer → Option SignedList

def hashedId8FromBuffer (buffer : ByteBuffer) : Option HashedId8 :=
  if h : buffer.length = 8 then some ⟨buffer, h⟩ else none

def CrlModule.revokedEntries (m : CrlModule) (crl : SignedList) : Option (List HashedId8) :=
  if crl.signer.isNone then none
  else match (m.signedPayload crl.body).bind m.mgmtData with
    | some (.certificateRevocationList entries) => some (entries.filterMap hashedId8FromBuffer)
    | _ => none

structure CrlFilesystemStore where
  revoked : HashedId8 → Option (Finset HashedId8)
  /-- The directory `m_root` with its files. -/
  root : Directory

namespace CrlFilesystemStore

abbrev Storing (α : Type) := Program Unit CrlFilesystemStore α

def filename (id : HashedId8) : String := hexstring id.toList ++ ".crl"

def bucket (entries : List HashedId8) : Option (Finset HashedId8) :=
  if entries.isEmpty then none else some entries.toFinset

variable (m : CrlModule)

def index (crl : SignedList) : Storing (Option HashedId8) := do
  let issuer ← Program.orThrow () (getHashedId8 m.platform crl)
  match issuer, m.revokedEntries crl with
  | some issuer, some entries => do
      modify fun s =>
        { s with revoked := Function.update s.revoked issuer (bucket entries) }
      pure (some issuer)
  | _, _ => pure none

def store (crl : SignedList) : Storing Bool := do
  match ← index m crl with
  | none => pure false
  | some issuer => do
      modify fun s =>
        { s with root := s.root.write (filename issuer) (m.encode crl) }
      pure true

def isRevoked (s : CrlFilesystemStore) (issuer cert : HashedId8) : Bool :=
  match s.revoked issuer with
  | none => false
  | some certs => cert ∈ certs

def scan (path : String) : Storing Unit := do
  if !hasCrlExtension path then pure ()
  else do
    let buf ← Program.orThrow () ((← get).root path)
    match m.decode buf with
    | none => pure ()
    | some crl => discard (index m crl)

def create (root : Directory) (listing : List String) : Except Unit CrlFilesystemStore :=
  let opened := (listing.forM (scan m)).exec ⟨fun _ => none, root⟩
  opened.1.map fun _ => opened.2

def storeAll (s : CrlFilesystemStore) (calls : List SignedList) : CrlFilesystemStore :=
  run (fun s crl => ((store m crl).exec s).2) s calls

section Names

theorem hexDigit_injective : ∀ a < 16, ∀ b < 16, hexDigit a = hexDigit b → a = b := by decide

theorem hexOctet_injective {a b : UInt8} (h : hexOctet a = hexOctet b) : a = b := by
  obtain ⟨hh, hr⟩ := cons.inj h
  obtain ⟨hl, -⟩ := cons.inj hr
  have ha := a.toNat_lt
  have hb := b.toNat_lt
  have hd := hexDigit_injective _ (by omega) _ (by omega) hh
  have hm := hexDigit_injective _ (by omega) _ (by omega) hl
  exact UInt8.toNat_inj.1 (by omega)

theorem flatMap_hexOctet_injective : ∀ {a b : ByteBuffer},
  a.flatMap hexOctet = b.flatMap hexOctet → a = b
  | [], [], _ => rfl
  | [], _ :: _, h => by cases h
  | _ :: _, [], h => by cases h
  | x :: a, y :: b, h => by
    rw [List.flatMap_cons, List.flatMap_cons] at h
    obtain ⟨hf, hr⟩ := List.append_inj h rfl
    rw [hexOctet_injective hf, flatMap_hexOctet_injective hr]

theorem filename_injective {a b : HashedId8} (h : filename a = filename b) : a = b := by
  have hc := congrArg String.toList h
  simp only [filename, hexstring, String.toList_append, String.toList_ofList] at hc
  exact List.Vector.toList_injective (flatMap_hexOctet_injective (append_cancel_right hc))

theorem hasCrlExtension_filename (id : HashedId8) : hasCrlExtension (filename id) = true := by
  have hs : ".crl".toList <:+ (filename id).toList := by
    rw [filename, String.toList_append]
    exact suffix_append _ _
  have hlon : filename id ≠ ".crl" := by
    intro h
    have hl := congrArg (·.toList.length) h
    obtain ⟨octet, rest, hid⟩ : ∃ octet rest, id.toList = octet :: rest :=
      exists_cons_of_length_eq_add_one id.toList_length
    simp [filename, hexstring, hid, hexOctet] at hl
  rw [hasCrlExtension, Bool.and_eq_true, isSuffixOf_iff_suffix]
  exact ⟨hs, decide_eq_true hlon⟩

theorem hasCrlExtension_tmp (path : String) : hasCrlExtension (path ++ ".tmp") = false := by
  have hsuf : ¬ ".crl".toList <:+ (path ++ ".tmp").toList := by
    intro h
    have ht : ".tmp".toList <:+ (path ++ ".tmp").toList := by
      rw [String.toList_append]
      exact suffix_append _ _
    have hs := suffix_of_suffix_length_le h ht (by decide)
    exact absurd hs (by decide)
  rw [hasCrlExtension, Bool.eq_false_iff, Ne, Bool.and_eq_true, isSuffixOf_iff_suffix]
  exact fun h => hsuf h.1

end Names

def indexed (crl : SignedList) : Option (HashedId8 × List HashedId8) :=
  match getHashedId8 m.platform crl, m.revokedEntries crl with
  | some (some issuer), some entries => some (issuer, entries)
  | _, _ => none

def listIn (root : Directory) (path : String) : Option SignedList := (root path).bind m.decode

def held (root : Directory) (issuer : HashedId8) : Option (List HashedId8) :=
  ((listIn m root (filename issuer)).bind (indexed m)).map Prod.snd

def Filed (root : Directory) : Prop :=
  ∀ path crl, hasCrlExtension path = true → listIn m root path = some crl →
    (getHashedId8 m.platform crl).isSome ∧
      ∀ issuer entries, indexed m crl = some (issuer, entries) → path = filename issuer

def Mirrors (s : CrlFilesystemStore) : Prop :=
  ∀ issuer, s.revoked issuer = (held m s.root issuer).bind bucket

/-- The last list stored for each issuer, after a sequence of calls; `before`
are the lists stored before the first of them. -/
def lastStored (before : HashedId8 → Option (List HashedId8))
  (calls : List SignedList) : HashedId8 → Option (List HashedId8) :=
  calls.foldl (fun last crl =>
    match indexed m crl with
    | some (issuer, entries) => Function.update last issuer (some entries)
    | none => last) before

section Effect

variable {m} {s : CrlFilesystemStore} {crl : SignedList} {issuer : HashedId8}
  {entries : List HashedId8}

theorem exec_index (h : indexed m crl = some (issuer, entries)) :
  (index m crl).exec s = (.ok (some issuer),
    { s with
      revoked := Function.update s.revoked issuer (bucket entries) }) := by
  unfold indexed at h
  split at h
  · next hiss hents =>
    cases h
    rw [index, exec_bind_ok (exec_orThrow_eq_ok.2 ⟨hiss, rfl⟩), hents]
    rfl
  · cases h

theorem exec_index_none (h : indexed m crl = none) : (index m crl).exec s =
    (if (getHashedId8 m.platform crl).isSome then .ok none else .error (), s) := by
  cases hiss : getHashedId8 m.platform crl with
  | none =>
    rw [index, hiss]
    rfl
  | some found =>
    rw [index, exec_bind_ok (exec_orThrow_eq_ok.2 ⟨hiss, rfl⟩)]
    split
    · next hf hents =>
      rw [indexed, hiss, hents] at h
      cases h
    · rfl

theorem exec_store (h : indexed m crl = some (issuer, entries)) : (store m crl).exec s = (.ok true,
    { revoked := Function.update s.revoked issuer (bucket entries)
      root := s.root.write (filename issuer) (m.encode crl) }) := by
  rw [store, exec_bind_ok (exec_index h)]
  rfl

theorem exec_store_none (h : indexed m crl = none) : (store m crl).exec s =
    (if (getHashedId8 m.platform crl).isSome then .ok false else .error (), s) := by
  have hind := exec_index_none (s := s) h
  by_cases hiss : (getHashedId8 m.platform crl).isSome
  · rw [if_pos hiss] at hind ⊢
    rw [store, exec_bind_ok hind]
    rfl
  · rw [if_neg hiss] at hind ⊢
    rw [store, exec_bind_error hind]

theorem store_eq_true_iff : ((store m crl).exec s).1 = .ok true ↔ (indexed m crl).isSome := by
  cases h : indexed m crl with
  | some pair => simp [exec_store h]
  | none =>
    rw [exec_store_none h]
    by_cases hiss : (getHashedId8 m.platform crl).isSome
    · simp [hiss]
    · simp [hiss]

end Effect

section Storing

variable {m} {s : CrlFilesystemStore} {root : Directory} {crl : SignedList}
  {issuer : HashedId8} {entries : List HashedId8}

theorem listIn_write (hc : m.decode (m.encode crl) = some crl)
  {path : String} (hp : hasCrlExtension path = true) :
  listIn m (root.write (filename issuer) (m.encode crl)) path =
    if path = filename issuer then some crl else listIn m root path := by
  have ht : path ≠ filename issuer ++ ".tmp" := by
    rintro rfl
    rw [hasCrlExtension_tmp] at hp
    cases hp
  by_cases h : path = filename issuer
  · simp [listIn, Directory.write, h, hc]
  · simp [listIn, Directory.write, h, ht]

theorem held_write (hc : m.decode (m.encode crl) = some crl)
  (h : indexed m crl = some (issuer, entries)) :
  held m (root.write (filename issuer) (m.encode crl)) =
    Function.update (held m root) issuer (some entries) := by
  funext other
  rw [held, listIn_write hc (hasCrlExtension_filename other)]
  by_cases ho : other = issuer
  · rw [if_pos (congrArg filename ho), ho, Function.update_self, Option.bind_some, h]
    rfl
  · rw [if_neg fun hn => ho (filename_injective hn), Function.update_of_ne ho]
    rfl

theorem filed_write (hc : m.decode (m.encode crl) = some crl)
  (h : indexed m crl = some (issuer, entries)) (hfil : Filed m root) :
  Filed m (root.write (filename issuer) (m.encode crl)) := by
  intro path found hp hf
  rw [listIn_write hc hp] at hf
  split at hf
  · next hn =>
    cases hf
    constructor
    · unfold indexed at h
      split at h
      · next hiss _ =>
        rw [hiss]
        rfl
      · cases h
    · intro other others ho
      cases h.symm.trans ho
      exact hn
  · exact hfil path found hp hf

theorem store_step (hc : m.decode (m.encode crl) = some crl)
  (hf : Filed m s.root) (hm : Mirrors m s) :
  let s' := ((store m crl).exec s).2
  Filed m s'.root ∧ Mirrors m s' ∧ held m s'.root = lastStored m (held m s.root) [crl] := by
  intro s'
  cases h : indexed m crl with
  | none =>
    have hs' : s' = s := congrArg Prod.snd (exec_store_none h)
    rw [hs']
    refine ⟨hf, hm, ?_⟩
    simp [lastStored, h]
  | some pair =>
    obtain ⟨issuer, entries⟩ := pair
    have hs' : s' = ⟨_, _⟩ := congrArg Prod.snd (exec_store h)
    have hh : held m s'.root = Function.update (held m s.root) issuer (some entries) := by
      rw [hs']
      exact held_write hc h
    refine ⟨?_, fun other => ?_, ?_⟩
    · rw [hs']
      exact filed_write hc h hf
    · rw [hh, hs']
      by_cases ho : other = issuer
      · simp [ho]
      · simp [ho, hm other]
    · rw [hh]
      simp [lastStored, h]

theorem storeAll_run {calls : List SignedList}
  (hc : ∀ crl ∈ calls, m.decode (m.encode crl) = some crl)
  (hf : Filed m s.root) (hm : Mirrors m s) :
  let s' := storeAll m s calls
  Filed m s'.root ∧ Mirrors m s' ∧ held m s'.root = lastStored m (held m s.root) calls := by
  induction calls generalizing s with
  | nil => exact ⟨hf, hm, rfl⟩
  | cons crl rest ih =>
    obtain ⟨hcrl, hr⟩ := forall_mem_cons.1 hc
    obtain ⟨hf', hm', hh⟩ := store_step hcrl hf hm
    obtain ⟨hl, hlas, hla⟩ := ih hr hf' hm'
    refine ⟨hl, hlas, hla.trans ?_⟩
    rw [hh]
    rfl

end Storing

section Opening

variable {m} {s : CrlFilesystemStore}

theorem exec_scan (hf : Filed m s.root) {path : String} (hp : (s.root path).isSome) :
  ∃ s', (scan m path).exec s = (.ok (), s') ∧ s'.root = s.root ∧ ∀ issuer, s'.revoked issuer =
      if path = filename issuer ∧ (held m s.root issuer).isSome then
        (held m s.root issuer).bind bucket
      else s.revoked issuer := by
  obtain ⟨buf, hb⟩ := Option.isSome_iff_exists.1 hp
  -- a file without a list to index has no influence
  have hno : (∀ issuer, path = filename issuer →
      held m s.root issuer = none) → ∀ issuer, s.revoked issuer =
        if path = filename issuer ∧ (held m s.root issuer).isSome then
          (held m s.root issuer).bind bucket
        else s.revoked issuer := by
    intro h issuer
    refine (if_neg ?_).symm
    rintro ⟨hn, hs⟩
    rw [h issuer hn] at hs
    cases hs
  by_cases hext : hasCrlExtension path = true
  · cases hl : m.decode buf with
    | none =>
      refine ⟨s, ?_, rfl, hno fun issuer hn => ?_⟩
      · simp only [scan, hext]
        rw [if_neg (by decide)]
        have hg : (get : Storing _).exec s = (.ok s, s) := rfl
        refine (exec_bind_ok hg).trans ?_
        rw [exec_bind_ok (exec_orThrow_eq_ok.2 ⟨hb, rfl⟩), hl]
        rfl
      · rw [held, ← hn, listIn, hb, Option.bind_some, hl]
        rfl
    | some crl =>
      have hex : (scan m path).exec s = (discard (index m crl) : Storing Unit).exec s := by
        simp only [scan, hext]
        rw [if_neg (by decide)]
        have hg : (get : Storing _).exec s = (.ok s, s) := rfl
        refine (exec_bind_ok hg).trans ?_
        rw [exec_bind_ok (exec_orThrow_eq_ok.2 ⟨hb, rfl⟩), hl]
      have hin : listIn m s.root path = some crl := by rw [listIn, hb, Option.bind_some, hl]
      obtain ⟨hiss, hown⟩ := hf path crl hext hin
      cases hindexed : indexed m crl with
      | none =>
        have hind := exec_index_none (s := s) hindexed
        rw [if_pos hiss] at hind
        refine ⟨s, ?_, rfl, hno fun issuer hn => ?_⟩
        · rw [hex]
          exact exec_bind_ok hind
        · rw [held, ← hn, hin, Option.bind_some, hindexed]
          rfl
      | some pair =>
        obtain ⟨own, entries⟩ := pair
        have hn := hown own entries hindexed
        have hh : held m s.root own = some entries := by
          rw [held, ← hn, hin, Option.bind_some, hindexed]
          rfl
        refine ⟨_, hex.trans (exec_bind_ok (exec_index hindexed)), rfl, fun issuer => ?_⟩
        by_cases h : issuer = own
        · rw [h, if_pos ⟨hn, by rw [hh]; rfl⟩, hh]
          exact Function.update_self ..
        · rw [if_neg fun ho =>
            h (filename_injective (ho.1.symm.trans hn))]
          exact Function.update_of_ne h ..
  · refine ⟨s, ?_, rfl, hno fun issuer hn => ?_⟩
    · rw [Bool.not_eq_true] at hext
      simp only [scan, hext]
      rfl
    · rw [hn] at hext
      exact absurd (hasCrlExtension_filename issuer) hext

theorem exec_scans (hf : Filed m s.root) {listing : List String}
  (hl : ∀ path ∈ listing, (s.root path).isSome) :
  ∃ s', (listing.forM (scan m)).exec s = (.ok (), s') ∧ s'.root = s.root ∧
    ∀ issuer, s'.revoked issuer =
      if filename issuer ∈ listing ∧ (held m s.root issuer).isSome then
        (held m s.root issuer).bind bucket
      else s.revoked issuer := by
  induction listing generalizing s with
  | nil => exact ⟨s, rfl, rfl, fun issuer => (if_neg (by simp)).symm⟩
  | cons path rest ih =>
    obtain ⟨hp, hre⟩ := forall_mem_cons.1 hl
    obtain ⟨s₁, hsc, hr, hrev⟩ := exec_scan hf hp
    rw [← hr] at hf hre
    obtain ⟨s₂, hsca, hr', hrev'⟩ := ih hf hre
    have hc : (path :: rest).forM (scan m) = scan m path >>= fun _ => rest.forM (scan m) := rfl
    refine ⟨s₂, ?_, hr'.trans hr, fun issuer => ?_⟩
    · rw [hc, exec_bind_ok hsc, hsca]
    rw [hrev', hr, hrev]
    by_cases hs : (held m s.root issuer).isSome
    · by_cases hm : filename issuer ∈ rest
      · simp [hs, hm]
      · by_cases hn : path = filename issuer
        · simp [hs, hn]
        · simp [hs, hm, hn, Ne.symm hn]
    · simp [hs]

theorem create_eq_ok {root : Directory} {listing : List String}
  (hfil : Filed m root) (hl : root.Lists listing) :
  ∃ s, create m root listing = .ok s ∧ s.root = root ∧ Mirrors m s := by
  obtain ⟨s, hsc, hr, hrev⟩ :=
    exec_scans (s := ⟨fun _ => none, root⟩) hfil fun path hp => (hl path).1 hp
  refine ⟨s, ?_, hr, fun issuer => ?_⟩
  · rw [create, hsc]
    rfl
  rw [hrev, hr]
  split
  · rfl
  next h =>
  -- a list that is held is in a file that is listed
  have hn : held m root issuer = none := by
    rw [← Option.not_isSome_iff_eq_none]
    intro hs
    refine h ⟨(hl _).2 ?_, hs⟩
    cases hf : root (filename issuer) with
    | some buf => rfl
    | none =>
      rw [held, listIn, hf] at hs
      cases hs
  rw [hn]
  rfl

theorem isRevoked_iff (hm : Mirrors m s) {issuer cert : HashedId8} :
  s.isRevoked issuer cert = true ↔
    ∃ entries, held m s.root issuer = some entries ∧ cert ∈ entries := by
  rw [isRevoked, hm issuer]
  cases held m s.root issuer with
  | none => simp
  | some entries =>
    cases entries with
    | nil | cons first rest => simp [bucket]

end Opening

/-- After any calls of `store`, a store that is opened on the same directory
gives the same answers, and they are those of the last list that was stored for
the issuer. Lists that were in the directory to begin with have been stored
before; of the calls, those count that return `true`. -/
theorem reopened_agrees {m : CrlModule} {root : Directory}
  {listing : List String} {calls : List SignedList}
  (hcodec : ∀ crl ∈ calls, m.decode (m.encode crl) = some crl)
  (hfiled : Filed m root) (hlisting : root.Lists listing) :
  (∀ s crl, ((store m crl).exec s).1 = .ok true ↔ (indexed m crl).isSome) ∧
  ∃ opened, create m root listing = .ok opened ∧
    let first := storeAll m opened calls
    ∀ listing', first.root.Lists listing' → ∃ second, create m first.root listing' = .ok second ∧
        ∀ issuer cert, second.isRevoked issuer cert = first.isRevoked issuer cert ∧
          (first.isRevoked issuer cert = true ↔
            ∃ entries, lastStored m (held m root) calls issuer =
              some entries ∧ cert ∈ entries) := by
  obtain ⟨opened, hc, hr, hm⟩ := create_eq_ok hfiled hlisting
  refine ⟨fun _ _ => store_eq_true_iff, opened, hc, fun listing' hl' => ?_⟩
  rw [← hr] at hfiled
  obtain ⟨hf', hm', hh⟩ := storeAll_run hcodec hfiled hm
  obtain ⟨second, hs, hr', hm''⟩ := create_eq_ok hf' hl'
  refine ⟨second, hs, fun issuer cert => ⟨?_, ?_⟩⟩
  · rw [Bool.eq_iff_iff, isRevoked_iff hm'', isRevoked_iff hm', hr']
  · rw [isRevoked_iff hm', hh, hr]

def crlModule : CrlModule where
  platform := Platform.ofTable [] Codec.fits_nil
  signedPayload body := some body
  mgmtData
    | [0] => some (.certificateRevocationList [(digestAt 5).toList, (digestAt 6).toList])
    | [1] => some (.certificateRevocationList [])
    | _ => some .other
  encode crl := crl.body ++ (if crl.signer = some (.digest (digestAt 0)) then
    [0] else [1])
  decode
    | [body, signer] => some ⟨some (.digest (digestAt signer)), [body]⟩
    | _ => none

def crlOf (signer body : UInt8) : SignedList := ⟨some (.digest (digestAt signer)), [body]⟩

def crlCalls : List SignedList := [crlOf 0 0, crlOf 1 0, crlOf 0 2, crlOf 0 1]

def otherFiles : Directory :=
  Function.update (Function.update (fun _ => none) "garbage.crl" (some [1])) "notes.txt" (some [2])

theorem listIn_otherFiles (path : String) : listIn crlModule otherFiles path = none := by
  by_cases hn : path = "notes.txt"
  · rw [hn]
    rfl
  by_cases hg : path = "garbage.crl"
  · rw [hg]
    rfl
  · simp [listIn, otherFiles, hn, hg]

theorem otherFiles_reopened : ∃ opened, create crlModule otherFiles ["notes.txt", "garbage.crl"] =
      .ok opened ∧
    let first := storeAll crlModule opened crlCalls
    ∀ listing, first.root.Lists listing →
      ∃ second, create crlModule first.root listing = .ok second ∧
        second.isRevoked (digestAt 0) (digestAt 5) = false ∧
        second.isRevoked (digestAt 1) (digestAt 5) = true := by
  have hc : ∀ crl ∈ crlCalls, crlModule.decode (crlModule.encode crl) = some crl := by
    decide +kernel
  have hf : Filed crlModule otherFiles := by
    intro path crl _ hl
    rw [listIn_otherFiles] at hl
    cases hl
  have hlis : otherFiles.Lists ["notes.txt", "garbage.crl"] := by
    intro path
    by_cases hnot : path = "notes.txt"
    · simp [otherFiles, hnot]
    · by_cases hg : path = "garbage.crl"
      · simp [otherFiles, hg]
      · simp [otherFiles, hnot, hg]
  obtain ⟨-, opened, ho, h⟩ := reopened_agrees hc hf hlis
  refine ⟨opened, ho, fun listing hli => ?_⟩
  obtain ⟨second, hs, ha⟩ := h listing hli
  refine ⟨second, hs, ?_, ?_⟩
  · rw [(ha _ _).1, Bool.eq_false_iff, Ne, (ha _ _).2]
    rintro ⟨entries, hla, hm⟩
    have hn : lastStored crlModule (held crlModule otherFiles) crlCalls (digestAt 0) = some [] := by
      decide +kernel
    cases hn.symm.trans hla
    cases hm
  · rw [(ha _ _).1, (ha _ _).2]
    exact ⟨[digestAt 5, digestAt 6], by decide +kernel, by decide⟩

end CrlFilesystemStore

end Vanetza.Pki
