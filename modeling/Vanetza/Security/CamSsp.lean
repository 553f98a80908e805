import Mathlib
import Vanetza.Common.ByteBuffer

/-!
# Permissions of CAM senders

`CamPermissions` is a set of 16 flags. It travels in a certificate as three octets: a version and
the flags, the low octet first.
-/

namespace Vanetza.Security

open List

/-- `CamPermission`; any 16 bits can be cast to one. -/
abbrev CamPermission := BitVec 16

def CamPermission.closedLanes : CamPermission := 0x8000

structure CamPermissions where
  bits : BitVec 16

namespace CamPermissions

def has (p : CamPermissions) (cp : CamPermission) : Bool := p.bits &&& cp == cp

def add (p : CamPermissions) (cp : CamPermission) : CamPermissions := ⟨p.bits ||| cp⟩

/-- The loop of `permissions`, with `n` rounds to go. -/
def collect (p : CamPermissions) : Nat → CamPermission → List CamPermission
  | 0, _ => []
  | n + 1, bit => if p.has bit then bit :: p.collect n (bit <<< 1) else p.collect n (bit <<< 1)

/-- The rounds are counted from 1 up to the number of bits. -/
def permissions (p : CamPermissions) : List CamPermission := p.collect 15 1

def encode (p : CamPermissions) : ByteBuffer :=
  [1, ⟨p.bits.setWidth 8⟩, ⟨(p.bits >>> 8).setWidth 8⟩]

def decode : ByteBuffer → CamPermissions
  | [version, low, high] =>
    if version = 1 then ⟨high.toBitVec.setWidth 16 <<< 8 ||| low.toBitVec.setWidth 16⟩ else ⟨0⟩
  | _ => ⟨0⟩

variable (p : CamPermissions)

theorem decode_encode : decode p.encode = p := by
  rw [encode, decode, if_pos rfl, CamPermissions.mk.injEq]
  ext i hi
  simp
  grind

theorem has_twoPow {k : Nat} (hk : k < 16) : p.has (.twoPow 16 k) = p.bits.getLsbD k := by
  rw [has, BitVec.and_twoPow]
  split
  · next h => simp [h]
  · next h =>
    have hz : 0#16 ≠ .twoPow 16 k := fun heq => by
      have := congrArg (BitVec.getLsbD · k) heq
      simp [hk] at this
    simp [h, hz]

theorem twoPow_shiftLeft_one (k : Nat) :
  BitVec.twoPow 16 k <<< 1 = BitVec.twoPow 16 (k + 1) := by
  apply BitVec.eq_of_getLsbD_eq
  intro i hi
  simp [BitVec.getLsbD_twoPow]
  grind

theorem foldl_collect {n k : Nat} (acc : CamPermissions) (hk : n + k ≤ 16) (i : Nat) :
  ((p.collect n (.twoPow 16 k)).foldl add acc).bits.getLsbD i =
    (acc.bits.getLsbD i || p.bits.getLsbD i && decide (k ≤ i ∧ i < k + n)) := by
  induction n generalizing k acc with
  | zero => simp [collect]
  | succ n ih =>
    have hf : ((p.collect (n + 1) (.twoPow 16 k)).foldl add acc) =
        (p.collect n (.twoPow 16 (k + 1))).foldl add
          ⟨acc.bits ||| p.bits &&& .twoPow 16 k⟩ := by
      rw [collect, twoPow_shiftLeft_one, has_twoPow p (by omega), BitVec.and_twoPow]
      split <;> simp [add]
    rw [hf, ih _ (by omega), BitVec.getLsbD_or, BitVec.and_twoPow]
    grind

/-- The permissions listed from a certificate make up all that the sender put there, unless
`Closed_Lanes` is granted: the loop never reaches its flag. -/
theorem permissions_complete_iff :
  (decode p.encode).permissions.foldl add ⟨0⟩ = p ↔ p.has CamPermission.closedLanes = false := by
  rw [decode_encode]
  have hc : p.has .closedLanes = p.bits.getLsbD 15 := has_twoPow p (by decide : 15 < 16)
  have hb (i : Nat) : (p.permissions.foldl add ⟨0⟩).bits.getLsbD i =
      (p.bits.getLsbD i && decide (i < 15)) := by
    refine (foldl_collect p ⟨0⟩ (by decide : 15 + 0 ≤ 16) i).trans ?_
    simp
  rw [hc]
  constructor
  · intro h
    have := hb 15
    rw [h] at this
    exact this.trans (Bool.and_false _)
  · intro h
    have heq : (p.permissions.foldl add ⟨0⟩).bits = p.bits := by
      apply BitVec.eq_of_getLsbD_eq
      intro i hi
      rw [hb]
      by_cases hlt : i < 15
      · simp [hlt]
      · rw [show i = 15 by omega, h]
        rfl
    exact congrArg CamPermissions.mk heq

end CamPermissions

end Vanetza.Security
