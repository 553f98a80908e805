import Vanetza.Lib.Keyed
import Vanetza.Lib.Simulation

/-!
# The least recently used cache

`LruCache` keeps its keys in a list, the most recently accessed one in front, and its values in a
map whose entries point to their node of the list. A missing key enters the list before the
generator is called: if the generator throws, the key stays there without an entry in the map.
-/

namespace Vanetza

open Lib List

/-- A node of the list `m_index`; nodes are numbered as they are created. -/
structure LruNode (K : Type) where
  id : Nat
  key : K
  deriving DecidableEq

/-- An element of `m_cache`; `node` is the iterator. -/
structure LruEntry (K V : Type) where
  key : K
  value : V
  node : Nat
  deriving DecidableEq

structure LruCache (K V : Type) where
  capacity : Nat
  index : List (LruNode K)
  cache : List (LruEntry K V)
  nodes : Nat

/-- One call of `operator[]`, with what the generator does should it be called. -/
structure LruAccess (K V : Type) where
  key : K
  generated : Option V

inductive LruAnswer (V : Type) where
  | stored (value : V)
  | generated (value : V)
  /-- The generator has thrown. -/
  | exception
  deriving DecidableEq

namespace LruCache

variable {K V : Type} [DecidableEq K]

def create (capacity : Nat) : LruCache K V := ⟨capacity, [], [], 0⟩

def remove (c : LruCache K V) : LruCache K V :=
  match c.index.getLast? with
  | none => c
  | some last => { c with cache := c.cache.filter (fun entry => entry.key ≠ last.key)
                          index := c.index.dropLast }

def add (c : LruCache K V) (key : K) (generated : Option V) : LruCache K V × LruAnswer V :=
  let c := if c.cache.length ≥ c.capacity then c.remove else c
  let c' := { c with index := ⟨c.nodes, key⟩ :: c.index, nodes := c.nodes + 1 }
  match generated with
  | none => (c', .exception)
  | some value => ({ c' with cache := c'.cache ++ [⟨key, value, c.nodes⟩] }, .generated value)

/-- `splice` moves the entry's node to the front. -/
def refresh (c : LruCache K V) (found : LruEntry K V) : LruCache K V × LruAnswer V :=
  ({ c with index := c.index.filter (fun node => node.id = found.node) ++
              c.index.filter fun node => node.id ≠ found.node }, .stored found.value)

def access (c : LruCache K V) (a : LruAccess K V) : LruCache K V × LruAnswer V :=
  match c.cache.find? fun entry => entry.key = a.key with
  | none => c.add a.key a.generated
  | some found => c.refresh found

/-- An abstract cache: keys and values, the least recently accessed one in front. A generator that
fails changes nothing. -/
def accessAbstract (room : Nat) (entries : List (K × V)) (a : LruAccess K V) :
  List (K × V) × LruAnswer V :=
  match entries.find? fun entry => entry.1 = a.key with
  | some found => (entries.filter (fun entry => entry.1 ≠ a.key) ++ [found], .stored found.2)
  | none =>
    match a.generated with
    | none => (entries, .exception)
    | some value => (entries.drop (entries.length + 1 - room) ++ [(a.key, value)], .generated value)

def afterAll (capacity : Nat) (accesses : List (LruAccess K V)) : LruCache K V :=
  after access (create capacity) accesses

def abstractAfterAll (capacity : Nat) (accesses : List (LruAccess K V)) : List (K × V) :=
  after (accessAbstract (max capacity 1)) [] accesses

/-- The cache has behaved like the abstract one, and holds what that holds. -/
structure ActsAsLru (capacity : Nat) (accesses : List (LruAccess K V)) : Prop where
  answers : answers access (create capacity) accesses =
    answers (accessAbstract (max capacity 1)) [] accesses
  recency : ((afterAll capacity accesses).index.map LruNode.key).reverse =
    (abstractAfterAll capacity accesses).map Prod.fst
  stored : ((afterAll capacity accesses).cache.map fun entry => (entry.key, entry.value)).Perm
    (abstractAfterAll capacity accesses)
  once : ((afterAll capacity accesses).cache.map LruEntry.key).Nodup
  sameKeys : ((afterAll capacity accesses).index.map LruNode.key).Perm
    ((afterAll capacity accesses).cache.map LruEntry.key)
  bounded : (afterAll capacity accesses).cache.length ≤ max capacity 1

/-- If the access is a miss, the generator does not throw. -/
def Generates (c : LruCache K V) (a : LruAccess K V) : Prop :=
  (∀ entry ∈ c.cache, entry.key ≠ a.key) → a.generated ≠ none

/-- The elements of the map in the order of the list. -/
structure Linked (c : LruCache K V) (links : List (LruEntry K V)) : Prop where
  index : c.index = links.map fun entry => ⟨entry.node, entry.key⟩
  cache : c.cache.Perm links
  keys : (links.map LruEntry.key).Nodup
  nodes : (links.map LruEntry.node).Nodup
  fresh : ∀ entry ∈ links, entry.node < c.nodes
  bounded : links.length ≤ max c.capacity 1

def entriesOf (links : List (LruEntry K V)) : List (K × V) :=
  (links.map fun entry => (entry.key, entry.value)).reverse

variable {c : LruCache K V} {links : List (LruEntry K V)} {a : LruAccess K V}

theorem find?_entriesOf (hk : (links.map LruEntry.key).Nodup) (key : K) :
  (entriesOf links).find? (fun entry => entry.1 = key) =
    (links.find? fun entry => entry.key = key).map fun entry => (entry.key, entry.value) := by
  have hp : ((links.map fun entry => (entry.key, entry.value)).map Prod.fst).Nodup := by
    rw [map_map]
    exact hk
  rw [entriesOf, find?_perm hp (reverse_perm _), find?_map]
  rfl

theorem filter_entriesOf (key : K) :
  (entriesOf links).filter (fun entry => entry.1 ≠ key) =
    entriesOf (links.filter fun entry => entry.key ≠ key) := by
  rw [entriesOf, entriesOf, filter_reverse, filter_map]
  rfl

namespace Linked

omit [DecidableEq K] in
theorem create (cap : Nat) : Linked (create cap : LruCache K V) [] where
  index := rfl
  cache := Perm.refl []
  keys := nodup_nil
  nodes := nodup_nil
  fresh _ h := by cases h
  bounded := Nat.zero_le _

variable (h : Linked c links)

include h

theorem refresh {found : LruEntry K V} (hf : found ∈ links) :
  Linked (c.refresh found).1 (found :: links.filter fun entry => entry.key ≠ found.key) := by
  have hs : ∀ entry ∈ links, entry.node ≠ found.node ↔ entry.key ≠ found.key :=
    fun entry hent => not_congr ⟨fun hn => congrArg _ (inj_on_of_nodup_map h.nodes hent hf hn),
        fun hk => congrArg _ (inj_on_of_nodup_map h.keys hent hf hk)⟩
  have hp : (found :: links.filter fun entry => entry.key ≠ found.key).Perm links := by
    rw [← singleton_append, ← filter_key_eq h.keys hf]
    simpa using filter_append_perm (fun entry => decide (entry.key = found.key)) links
  refine ⟨?_, h.cache.trans hp.symm, (hp.map _).nodup_iff.2 h.keys,
    (hp.map _).nodup_iff.2 h.nodes, fun entry hent => h.fresh entry (hp.mem_iff.1 hent),
    hp.length_eq.trans_le h.bounded⟩
  rw [LruCache.refresh, h.index, filter_map, filter_map, map_cons]
  have hfr : links.filter ((fun node : LruNode K => decide (node.id = found.node)) ∘
      fun entry => ⟨entry.node, entry.key⟩) = [found] := filter_key_eq h.nodes hf
  have hb : links.filter ((fun node : LruNode K => decide (node.id ≠ found.node)) ∘
      fun entry => ⟨entry.node, entry.key⟩) = links.filter fun entry => entry.key ≠ found.key :=
    filter_congr fun entry hent => decide_eq_decide.2 (hs entry hent)
  rw [hfr, hb]
  rfl

theorem remove : Linked c.remove links.dropLast ∧ c.remove.capacity = c.capacity := by
  rcases eq_nil_or_concat links with rfl | ⟨front, last, rfl⟩
  · have hn : c.index.getLast? = none := by rw [h.index]; rfl
    rw [LruCache.remove, hn]
    exact ⟨h, rfl⟩
  rw [concat_eq_append] at h ⊢
  have hl : c.index.getLast? = some ⟨last.node, last.key⟩ := by
    rw [h.index, map_append]
    exact getLast?_concat
  have hk := h.keys
  rw [map_append, nodup_append] at hk
  have hcc : (front ++ [last]).filter (fun entry => entry.key ≠ last.key) = front := by
    rw [filter_append, filter_eq_self.2, filter_eq_nil_iff.2, append_nil]
    · simp
    · intro entry hent
      exact decide_eq_true (hk.2.2 _ (mem_map_of_mem hent) _ (by simp))
  rw [LruCache.remove, hl, dropLast_concat]
  refine ⟨⟨?_, ?_, hk.1, ?_, fun entry hent => h.fresh entry (mem_append_left _ hent), ?_⟩,
    rfl⟩
  · change c.index.dropLast = _
    rw [h.index, map_append]
    exact dropLast_concat
  · have hp := h.cache.filter fun entry => entry.key ≠ last.key
    rwa [hcc] at hp
  · have hnod := h.nodes
    rw [map_append, nodup_append] at hnod
    exact hnod.1
  · have hb := h.bounded
    rw [length_append] at hb
    exact (Nat.le_add_right _ _).trans hb

theorem makeRoom : ∃ kept, Linked (if c.cache.length ≥ c.capacity then c.remove else c) kept ∧
  (if c.cache.length ≥ c.capacity then c.remove else c).capacity = c.capacity ∧
  kept.length < max c.capacity 1 ∧ kept = links.take (max c.capacity 1 - 1) := by
  have hl := h.cache.length_eq
  have hb := h.bounded
  split
  · next hfull =>
    refine ⟨links.dropLast, h.remove.1, h.remove.2, ?_, ?_⟩
    · rw [length_dropLast]
      omega
    rw [dropLast_eq_take]
    by_cases hn : links.length = 0
    · rw [length_eq_zero_iff.1 hn]
      simp
    · congr 1
      omega
  · next hr =>
    refine ⟨links, h, rfl, by omega, (take_of_length_le ?_).symm⟩
    omega

omit [DecidableEq K] in
theorem push {key : K} (hk : ∀ entry ∈ links, entry.key ≠ key) (value : V)
  (hr : links.length < max c.capacity 1) :
  Linked { c with index := ⟨c.nodes, key⟩ :: c.index, nodes := c.nodes + 1
                  cache := c.cache ++ [⟨key, value, c.nodes⟩] }
    (⟨key, value, c.nodes⟩ :: links) where
  index := by rw [h.index]; rfl
  cache := (perm_append_singleton _ _).trans (h.cache.cons _)
  keys := by
    refine nodup_cons.2 ⟨fun hm => ?_, h.keys⟩
    obtain ⟨entry, hent, heq⟩ := mem_map.1 hm
    exact hk entry hent heq
  nodes := by
    refine nodup_cons.2 ⟨fun hm => ?_, h.nodes⟩
    obtain ⟨entry, hent, heq⟩ := mem_map.1 hm
    exact absurd heq (h.fresh entry hent).ne
  fresh entry hent := by
    rcases mem_cons.1 hent with rfl | hent
    · exact Nat.lt_succ_self _
    · exact (h.fresh entry hent).trans (Nat.lt_succ_self _)
  bounded := hr

end Linked

omit [DecidableEq K] in
theorem entriesOf_take (h : links.length ≤ max c.capacity 1) :
  entriesOf (links.take (max c.capacity 1 - 1)) =
    (entriesOf links).drop ((entriesOf links).length + 1 - max c.capacity 1) := by
  rw [entriesOf, entriesOf, length_reverse, length_map, drop_reverse, length_map, ← map_take]
  congr 2
  exact take_eq_take_iff.2 (by omega)

theorem access_of_generates (h : Linked c links) (hg : Generates c a) :
  ∃ links', Linked (c.access a).1 links' ∧ (c.access a).1.capacity = c.capacity ∧
    accessAbstract (max c.capacity 1) (entriesOf links) a = (entriesOf links', (c.access a).2) := by
  have hf := find?_perm h.keys h.cache a.key
  rw [access, hf, accessAbstract, find?_entriesOf h.keys]
  cases hl : links.find? fun entry => entry.key = a.key with
  | some found =>
    have hkey : found.key = a.key := of_decide_eq_true (find?_some hl :)
    refine ⟨_, h.refresh (mem_of_find?_eq_some hl), rfl, ?_⟩
    dsimp only [Option.map_some]
    rw [filter_entriesOf, ← hkey, refresh]
    simp [entriesOf]
  | none =>
    have hm : ∀ entry ∈ links, entry.key ≠ a.key := by simpa using hl
    cases hv : a.generated with
    | none => exact absurd hv (hg fun entry hent => hm entry (h.cache.mem_iff.1 hent))
    | some value =>
      obtain ⟨kept, hk, hc, hr, ht⟩ := h.makeRoom
      have hmis : ∀ entry ∈ kept, entry.key ≠ a.key := fun entry hent =>
        hm entry (mem_of_mem_take (ht ▸ hent))
      refine ⟨_, hk.push hmis value (by rwa [hc]), hc, ?_⟩
      dsimp only [Option.map_none]
      rw [← entriesOf_take h.bounded, ← ht, add]
      simp [entriesOf]

/-- A generator that throws leaves a key in the list that the map does not have. -/
theorem length_index_of_not_generates (h : Linked c links) (hf : ¬Generates c a) :
  (c.access a).1.index.length = (c.access a).1.cache.length + 1 := by
  obtain ⟨hm, hn⟩ := not_forall.1 hf
  have hfi : c.cache.find? (fun entry => entry.key = a.key) = none := by simpa using hm
  obtain ⟨kept, hk, -⟩ := h.makeRoom
  rw [access, hfi, not_not.1 hn]
  dsimp only [add]
  rw [length_cons, hk.index, length_map, hk.cache.length_eq]

theorem run_of_generates (cap : Nat) {accesses : List (LruAccess K V)} (h : Linked c links)
  (hc : c.capacity = cap)
  (hr : RunMeets (fun c a => (access c a).1) Generates c accesses) {before : List (LruAccess K V)}
  (hb : before <+: accesses) :
  answers access c before = answers (accessAbstract (max cap 1)) (entriesOf links) before ∧
    ∃ links', Linked (after access c before) links' ∧ (after access c before).capacity = cap ∧
      after (accessAbstract (max cap 1)) (entriesOf links) before = entriesOf links' := by
  induction before generalizing c links accesses with
  | nil => exact ⟨rfl, links, h, hc, rfl⟩
  | cons a before ih =>
    obtain ⟨rest, rfl⟩ := hb
    obtain ⟨links', hl', hs, hstep⟩ := access_of_generates h hr.1
    obtain ⟨hans, ha⟩ := ih hl' (hs.trans hc) hr.2 (prefix_append before rest)
    subst hc
    refine ⟨?_, ?_⟩
    · rw [answers, answers, hstep, hans]
    change ∃ links', Linked (after access (c.access a).1 before) links' ∧ _ ∧
      after _ (accessAbstract _ (entriesOf links) a).1 before = _
    rw [hstep]
    exact ha

theorem generates_of_sameKeys {accesses : List (LruAccess K V)} (h : Linked c links)
  (hs : ∀ before, before <+: accesses → ((after access c before).index.map LruNode.key).Perm
    ((after access c before).cache.map LruEntry.key)) :
  RunMeets (fun c a => (access c a).1) Generates c accesses := by
  induction accesses generalizing c links with
  | nil => trivial
  | cons a rest ih =>
    have hg : Generates c a := by
      by_contra hfails
      have hl := (hs [a] (prefix_append [a] rest)).length_eq
      rw [length_map, length_map] at hl
      have ho := length_index_of_not_generates h hfails
      exact absurd (hl.symm.trans ho) (Nat.ne_add_one _)
    obtain ⟨links', hl', -⟩ := access_of_generates h hg
    exact ⟨hg, ih hl' fun before hb =>
      hs (a :: before) ((prefix_cons_inj a).2 hb)⟩

theorem actsAsLru_iff (capacity : Nat) (accesses : List (LruAccess K V)) :
  (∀ before, before <+: accesses → ActsAsLru capacity before) ↔
    RunMeets (fun c a => (access c a).1) Generates (create capacity) accesses := by
  have hst : Linked (create capacity : LruCache K V) [] := .create capacity
  refine ⟨fun h => generates_of_sameKeys hst fun before hb => (h before hb).sameKeys,
    fun hr before hb => ?_⟩
  obtain ⟨ha, links, hl, hc, hen⟩ := run_of_generates capacity hst rfl hr hb
  refine ⟨ha, ?_, ?_, (hl.cache.map _).nodup_iff.2 hl.keys, ?_, ?_⟩
  · rw [abstractAfterAll, ← show entriesOf ([] : List (LruEntry K V)) = [] from rfl, hen,
      afterAll, hl.index]
    simp [entriesOf, Function.comp_def]
  · rw [abstractAfterAll, ← show entriesOf ([] : List (LruEntry K V)) = [] from rfl, hen]
    exact (hl.cache.map _).trans (reverse_perm _).symm
  · rw [afterAll, hl.index, map_map]
    exact (hl.cache.map LruEntry.key).symm
  · rw [afterAll, hl.cache.length_eq, ← hc]
    exact hl.bounded

/-- The key whose generator has failed is driven out later, in place of one that the map has: a
cache for one entry holds two. -/
theorem failed_generator_breaks_lru :
  let accesses : List (LruAccess Nat Nat) := [⟨1, some 10⟩, ⟨2, none⟩, ⟨3, some 30⟩, ⟨4, some 40⟩]
  ((afterAll 1 (accesses.take 2)).index.map LruNode.key = [2] ∧
      (afterAll 1 (accesses.take 2)).cache.map LruEntry.key = []) ∧
    (afterAll 1 accesses).cache.map LruEntry.key = [3, 4] ∧ ¬ActsAsLru 1 accesses := by
  refine ⟨by decide, by decide, fun h => ?_⟩
  exact absurd h.bounded (by decide)

end LruCache

end Vanetza
