import Vanetza.Common.Serialization
import Vanetza.Security.Basic

/-!
# Key derivation for ECIES

`calculate_kdf2` hashes the shared secret with a running number until there are enough octets. The
octets depend on their position only, not on how many are derived.
-/

namespace Vanetza.Pki

open Security

def resize (buffer : ByteBuffer) (length : Nat) : ByteBuffer :=
  buffer.take length ++ List.replicate (length - buffer.length) 0

section

variable (hashFn : ByteBuffer → Sha256Digest) (sharedSecret kdp : ByteBuffer)

def iterations (dl : Nat) : Nat := (dl / 32 + if dl % 32 ≠ 0 then 1 else 0) % 2 ^ 32

/-- What one round of the loop in `calculate_kdf2` appends. -/
def hashRound (counter : Nat) : Sha256Digest :=
  hashFn (sharedSecret ++ toBigEndian 4 counter ++ kdp)

/-- The loop; its counter starts with 1. -/
def derive (rounds : Nat) : ByteBuffer := (List.range rounds).foldl (fun derived done =>
  derived ++ (hashRound hashFn sharedSecret kdp (done + 1)).toList) []

def calculateKdf2 (dl : Nat) : ByteBuffer :=
  resize (derive hashFn sharedSecret kdp (iterations dl)) dl

theorem derive_succ (rounds : Nat) : derive hashFn sharedSecret kdp (rounds + 1) =
  derive hashFn sharedSecret kdp rounds ++
    (hashRound hashFn sharedSecret kdp (rounds + 1)).toList := by
  simp [derive, List.range_succ]

theorem length_derive (rounds : Nat) :
  (derive hashFn sharedSecret kdp rounds).length = 32 * rounds := by
  induction rounds with
  | zero => rfl
  | succ rounds ih =>
    rw [derive_succ, List.length_append, ih, List.Vector.toList_length]
    omega

theorem getElem?_derive {rounds i : Nat} (h : i < 32 * rounds) :
  (derive hashFn sharedSecret kdp rounds)[i]? =
    (hashRound hashFn sharedSecret kdp (i / 32 + 1)).toList[i % 32]? := by
  induction rounds with
  | zero => omega
  | succ rounds ih =>
    rw [derive_succ]
    by_cases hea : i < 32 * rounds
    · rw [List.getElem?_append_left (by rw [length_derive]; exact hea)]
      exact ih hea
    -- the last round
    have hr : i / 32 = rounds := by omega
    have ho : i - 32 * rounds = i % 32 := by omega
    rw [List.getElem?_append_right (by rw [length_derive]; omega), length_derive, ho, hr]

theorem le_iterations {dl : Nat} (h : dl < 2 ^ 32) : dl ≤ 32 * iterations dl := by
  unfold iterations
  split <;> omega

variable {hashFn sharedSecret kdp}

theorem calculateKdf2_eq_take {dl : Nat} (h : dl < 2 ^ 32) :
  calculateKdf2 hashFn sharedSecret kdp dl =
    (derive hashFn sharedSecret kdp (iterations dl)).take dl := by
  rw [calculateKdf2, resize, length_derive, Nat.sub_eq_zero_of_le (le_iterations h)]
  exact List.append_nil _

theorem length_calculateKdf2 {dl : Nat} (h : dl < 2 ^ 32) :
  (calculateKdf2 hashFn sharedSecret kdp dl).length = dl := by
  rw [calculateKdf2_eq_take h, List.length_take, length_derive]
  exact Nat.min_eq_left (le_iterations h)

theorem getElem?_calculateKdf2 {dl i : Nat} (h : dl < 2 ^ 32) (hi : i < dl) :
  (calculateKdf2 hashFn sharedSecret kdp dl)[i]? =
    (hashRound hashFn sharedSecret kdp (i / 32 + 1)).toList[i % 32]? := by
  rw [calculateKdf2_eq_take h, List.getElem?_take_of_lt hi]
  exact getElem?_derive _ _ _ (hi.trans_le (le_iterations h))

theorem calculateKdf2_take {dl longer : Nat} (hle : dl ≤ longer) (h : longer < 2 ^ 32) :
  (calculateKdf2 hashFn sharedSecret kdp longer).take dl =
    calculateKdf2 hashFn sharedSecret kdp dl := by
  have hdl : dl < 2 ^ 32 := hle.trans_lt h
  refine List.ext_getElem? fun i => ?_
  by_cases hi : i < dl
  · rw [List.getElem?_take_of_lt hi, getElem?_calculateKdf2 h (hi.trans_le hle),
      getElem?_calculateKdf2 hdl hi]
  · rw [List.getElem?_eq_none (by rw [List.length_take]; omega),
      List.getElem?_eq_none (by rw [length_calculateKdf2 hdl]; omega)]

end

/-- KDF2 with a counter from one: a shorter key is the beginning of a longer one. -/
theorem calculateKdf2_spec (hashFn : ByteBuffer → Sha256Digest) (sharedSecret kdp : ByteBuffer)
  (dl : Nat) (h : dl < 2 ^ 32) :
  (calculateKdf2 hashFn sharedSecret kdp dl).length = dl ∧
    (∀ i < dl, (calculateKdf2 hashFn sharedSecret kdp dl)[i]? =
      (hashFn (sharedSecret ++ toBigEndian 4 (i / 32 + 1) ++ kdp)).toList[i % 32]?) ∧
    ∀ longer, dl ≤ longer → longer < 2 ^ 32 →
      calculateKdf2 hashFn sharedSecret kdp dl <+: calculateKdf2 hashFn sharedSecret kdp longer :=
  ⟨length_calculateKdf2 h, fun _ hi => getElem?_calculateKdf2 h hi, fun longer hle hlon => by
    rw [← calculateKdf2_take hle hlon]
    exact List.take_prefix dl _⟩

theorem calculateKdf2_spec_forty : 40 < 2 ^ 32 ∧
  let hashFn := fun buffer : ByteBuffer => List.Vector.replicate 32 (UInt8.ofNat buffer.sum.toNat)
  (calculateKdf2 hashFn [1] [2] 40)[33]? = some 5 ∧
    calculateKdf2 hashFn [1] [2] 40 <+: calculateKdf2 hashFn [1] [2] 60 := by
  have hs := calculateKdf2_spec
    (fun buf => List.Vector.replicate 32 (UInt8.ofNat buf.sum.toNat)) [1] [2] 40 (by decide)
  refine ⟨by decide, ?_, hs.2.2 60 (by decide) (by decide)⟩
  rw [hs.2.1 33 (by decide)]
  decide

end Vanetza.Pki
