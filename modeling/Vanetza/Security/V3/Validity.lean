import Vanetza.Security.V3.Certificate

/-!
# Validity periods, computed twice

Whether a certificate is valid at an instant is decided in microseconds of the
64-bit clock, whether a subject's period lies within its issuer's in whole
seconds of 32 bits: a year has 365 days there instead of 31556952 seconds, and
sums wrap around, as does the multiplication in `int`.
-/

namespace Vanetza.Security.V3

open Asn1

/-- The duration `valid_at_timepoint` adds to the start. -/
def durationMicroseconds : Duration → Nat
  | .nothing => 0
  | .microseconds count => count.toNat
  | .milliseconds count => count.toNat * 1000
  | .seconds count => count.toNat * 1000000
  | .minutes count => count.toNat * (60 * 1000000)
  | .hours count => count.toNat * (60 * 60 * 1000000)
  | .sixtyHours count => count.toNat * (60 * 60 * 60 * 1000000)
  | .years count => count.toNat * (31556952 * 1000000)

def periodStart (period : ValidityPeriod) : Nat := period.start.toNat * 1000000

def periodEnd (period : ValidityPeriod) : Nat :=
  periodStart period + durationMicroseconds period.duration

def validAtTimepoint (cert : Certificate) (timepoint : Int) : Bool :=
  let validity := cert.toBeSigned.validityPeriod
  decide ((periodStart validity : Int) ≤ timepoint) &&
    decide (timepoint < (periodEnd validity : Int))

structure StartAndEndValidity where
  startValidity : UInt32
  endValidity : UInt32
  deriving DecidableEq

def durationTime32 : Duration → UInt32
  | .nothing => 0
  | .microseconds count => count.toUInt32 / 1000000
  | .milliseconds count => count.toUInt32 / 1000
  | .seconds count => count.toUInt32
  | .minutes count => count.toUInt32 * 60
  | .hours count => count.toUInt32 * 60 * 60
  | .sixtyHours count => count.toUInt32 * 60 * 60 * 60
  | .years count => count.toUInt32 * 60 * 60 * 24 * 365

def getStartAndEndValidity (cert : Certificate) : StartAndEndValidity :=
  let validity := cert.toBeSigned.validityPeriod
  ⟨validity.start, validity.start + durationTime32 validity.duration⟩

/-- `check_time_consistency` of the certificate validator. -/
def checkTimeConsistency (subject issuer : Certificate) : Bool :=
  let subjectTime := getStartAndEndValidity subject
  let issuerTime := getStartAndEndValidity issuer
  decide (issuerTime.startValidity ≤ subjectTime.startValidity) &&
    decide (subjectTime.endValidity ≤ issuerTime.endValidity)

def wholeSeconds : Duration → Nat
  | .nothing => 0
  | .microseconds count => count.toNat / 1000000
  | .milliseconds count => count.toNat / 1000
  | .seconds count => count.toNat
  | .minutes count => count.toNat * 60
  | .hours count => count.toNat * 3600
  | .sixtyHours count => count.toNat * 216000
  | .years count => count.toNat * 31536000

def lostToRounding : Duration → Nat
  | .microseconds count => count.toNat % 1000000
  | .milliseconds count => count.toNat % 1000 * 1000
  | .years count => count.toNat * (20952 * 1000000)
  | _ => 0

/-- Microseconds by which the 32-bit end of a period falls short: rounding,
and `2 ^ 32` seconds for every wrap-around. -/
def lostMicroseconds (period : ValidityPeriod) : Nat :=
  lostToRounding period.duration + (period.start.toNat + wholeSeconds period.duration) / 2 ^ 32 *
      (2 ^ 32 * 1000000)

theorem durationMicroseconds_eq (duration : Duration) : durationMicroseconds duration =
    wholeSeconds duration * 1000000 + lostToRounding duration := by
  cases duration <;>
    simp only [durationMicroseconds, wholeSeconds, lostToRounding] <;> omega

theorem durationTime32_toNat (dur : Duration) :
  (durationTime32 dur).toNat = wholeSeconds dur % 2 ^ 32 := by
  cases dur with
  | nothing => rfl
  | microseconds count | milliseconds count | seconds count =>
    have hlt := count.toNat_lt
    simp only [durationTime32, wholeSeconds, UInt32.toNat_div,
      UInt16.toNat_toUInt32, UInt32.toNat_ofNat, Nat.reducePow, Nat.reduceMod]
    omega
  | minutes count => simp only [durationTime32, wholeSeconds,
      UInt32.toNat_mul, UInt16.toNat_toUInt32, UInt32.toNat_ofNat]
  | hours count | sixtyHours count | years count =>
    simp only [durationTime32, wholeSeconds, UInt32.toNat_mul,
      UInt16.toNat_toUInt32, UInt32.toNat_ofNat]
    omega

theorem endValidity_toNat (cert : Certificate) : (getStartAndEndValidity cert).endValidity.toNat =
    (cert.toBeSigned.validityPeriod.start.toNat +
      wholeSeconds cert.toBeSigned.validityPeriod.duration) % 2 ^ 32 := by
  simp only [getStartAndEndValidity, UInt32.toNat_add, durationTime32_toNat]
  omega

theorem periodEnd_eq (cert : Certificate) : periodEnd cert.toBeSigned.validityPeriod =
    (getStartAndEndValidity cert).endValidity.toNat * 1000000 +
      lostMicroseconds cert.toBeSigned.validityPeriod := by
  rw [endValidity_toNat, periodEnd, periodStart, durationMicroseconds_eq, lostMicroseconds]
  omega

variable {subject issuer : Certificate}

theorem checkTimeConsistency_iff : checkTimeConsistency subject issuer = true ↔
    issuer.toBeSigned.validityPeriod.start ≤ subject.toBeSigned.validityPeriod.start ∧
    (getStartAndEndValidity subject).endValidity ≤ (getStartAndEndValidity issuer).endValidity := by
  unfold checkTimeConsistency
  rw [Bool.and_eq_true, decide_eq_true_iff, decide_eq_true_iff]
  rfl

theorem checkTimeConsistency_trans {a b c : Certificate} (hab : checkTimeConsistency a b = true)
  (hbc : checkTimeConsistency b c = true) :
  checkTimeConsistency a c = true := by
  rw [checkTimeConsistency_iff] at *
  exact ⟨UInt32.le_trans hbc.1 hab.1, UInt32.le_trans hab.2 hbc.2⟩

theorem checkTimeConsistency_of_chain {leaf : Certificate} {issuers : List Certificate}
  (h : (leaf :: issuers).IsChain fun s i => checkTimeConsistency s i = true) :
  ∀ issuer ∈ issuers, checkTimeConsistency leaf issuer = true := by
  induction issuers generalizing leaf with
  | nil => intro issuer hm; cases hm
  | cons first rest ih =>
    obtain ⟨hl, hr⟩ := List.isChain_cons_cons.1 h
    intro issuer hm
    rcases List.mem_cons.1 hm with rfl | hm
    · exact hl
    · exact checkTimeConsistency_trans hl (ih hr issuer hm)

def endMargin (subject issuer : Certificate) : Nat :=
  ((getStartAndEndValidity issuer).endValidity.toNat -
    (getStartAndEndValidity subject).endValidity.toNat) * 1000000

def LossCovered (subject issuer : Certificate) : Prop :=
  lostMicroseconds subject.toBeSigned.validityPeriod ≤
    endMargin subject issuer + lostMicroseconds issuer.toBeSigned.validityPeriod

theorem lossCovered_iff (h : checkTimeConsistency subject issuer = true) :
  LossCovered subject issuer ↔ periodEnd subject.toBeSigned.validityPeriod ≤
      periodEnd issuer.toBeSigned.validityPeriod := by
  have hend := UInt32.le_iff_toNat_le.1 (checkTimeConsistency_iff.1 h).2
  rw [LossCovered, endMargin, periodEnd_eq subject, periodEnd_eq issuer]
  omega

theorem validAtTimepoint_iff {cert : Certificate} {t : Int} : validAtTimepoint cert t = true ↔
    (periodStart cert.toBeSigned.validityPeriod : Int) ≤ t ∧
    t < periodEnd cert.toBeSigned.validityPeriod := by
  simp [validAtTimepoint]

theorem valid_within_issuer_iff (h : checkTimeConsistency subject issuer = true)
  (hne : durationMicroseconds subject.toBeSigned.validityPeriod.duration ≠ 0) :
  (∀ t, validAtTimepoint subject t = true → validAtTimepoint issuer t = true) ↔
    LossCovered subject issuer := by
  have hst := UInt32.le_iff_toNat_le.1 (checkTimeConsistency_iff.1 h).1
  rw [lossCovered_iff h]
  have hsub : periodEnd subject.toBeSigned.validityPeriod =
      periodStart subject.toBeSigned.validityPeriod +
        durationMicroseconds subject.toBeSigned.validityPeriod.duration := rfl
  constructor
  · intro ha
    -- the subject's last microsecond decides
    have hl := ha (periodEnd subject.toBeSigned.validityPeriod - 1)
    rw [validAtTimepoint_iff, validAtTimepoint_iff] at hl
    have := (hl ⟨by omega, by omega⟩).2
    omega
  · intro hle t ht
    rw [validAtTimepoint_iff] at ht ⊢
    have hs : periodStart issuer.toBeSigned.validityPeriod ≤
        periodStart subject.toBeSigned.validityPeriod :=
      Nat.mul_le_mul_right _ hst
    omega

/-- Along a chain whose every link passes the time check, the leaf is valid
only while all its issuers are, exactly when the leaf's period is empty or
its loss is covered by each of the issuers. -/
theorem leaf_within_issuers_iff {leaf : Certificate} {issuers : List Certificate}
  (h : (leaf :: issuers).IsChain fun s i => checkTimeConsistency s i = true) :
  (∀ t, validAtTimepoint leaf t = true → ∀ issuer ∈ issuers, validAtTimepoint issuer t = true) ↔
    durationMicroseconds leaf.toBeSigned.validityPeriod.duration = 0 ∨
      ∀ issuer ∈ issuers, LossCovered leaf issuer := by
  have hc := checkTimeConsistency_of_chain h
  by_cases hz : durationMicroseconds leaf.toBeSigned.validityPeriod.duration = 0
  · refine iff_of_true (fun t ht => ?_) (.inl hz)
    rw [validAtTimepoint_iff, periodEnd, hz] at ht
    omega
  rw [or_iff_right hz]
  constructor
  · intro ha issuer hmem
    exact (valid_within_issuer_iff (hc issuer hmem) hz).1 fun t ht => ha t ht issuer hmem
  · intro hcov t ht issuer hmem
    exact (valid_within_issuer_iff (hc issuer hmem) hz).2 (hcov issuer hmem) t ht

def validFor (start : UInt32) (duration : Duration) : Certificate :=
  { fakeCertificate with
    toBeSigned := { fakeCertificate.toBeSigned with
      validityPeriod := ⟨start, duration⟩ } }

theorem leaf_within_hour_issuer : (∀ t, validAtTimepoint (validFor 10 (.minutes 50)) t = true →
    ∀ issuer ∈ [validFor 0 (.hours 1), validFor 0 (.years 1)], validAtTimepoint issuer t = true) ↔
    durationMicroseconds (.minutes 50) = 0 ∨
      ∀ issuer ∈ [validFor 0 (.hours 1), validFor 0 (.years 1)],
        LossCovered (validFor 10 (.minutes 50)) issuer :=
  leaf_within_issuers_iff (by decide +kernel)

/-- A year and 8760 hours from the same start end in the same 32-bit second,
but the clock sees the year end 20952 seconds later. -/
theorem year_outlives_8760_hours :
  checkTimeConsistency (validFor 0 (.years 1)) (validFor 0 (.hours 8760)) = true ∧
  validAtTimepoint (validFor 0 (.years 1)) 31536000000000 = true ∧
  validAtTimepoint (validFor 0 (.hours 8760)) 31536000000000 = false := by
  decide +kernel

end Vanetza.Security.V3
