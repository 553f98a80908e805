import Mathlib.Algebra.Order.Ring.Abs
import Mathlib.Algebra.Order.Ring.Rat
import Vanetza.Security.V3.IssuerChain

/-!
# Where a certificate may be used

`DefaultLocationChecker` decides whether a position lies in the region of a
certificate. Positions are finite here; one that is not is in no region.
-/

namespace Vanetza.Security.V3

open Asn1 Lib Lib.Walk

inductive IdentifiedRegion where
  | countryOnly (code : UInt16)
  | other

structure Geodesy where
  distance : PositionFix → PositionFix → ℚ
  withinPolygon : PositionFix → List TwoDLocation → Bool
  identifiedRegions : ByteBuffer → List IdentifiedRegion

/-- `convert_latitude` and `convert_longitude` of a location that is valid. -/
def convertLocation (location : TwoDLocation) : PositionFix where
  latitude := location.latitude * 90 / 900000000
  longitude := location.longitude * 180 / 1800000000

def tenthMicrodegrees (degrees : ℚ) : Int :=
  let scaled := degrees * 10000000
  scaled.num.tdiv scaled.den

def isInsideCircle (geo : Geodesy) (location : PositionFix) (region : CircularRegion) : Bool :=
  if isValidLocation region.center && decide (0 ≤ region.radius) then
    decide (geo.distance location (convertLocation region.center) ≤ region.radius)
  else false

def isInsideRectangle (location : PositionFix) (region : RectangularRegion) : Bool :=
  if isValidLocation region.northWest && isValidLocation region.southEast then
    -- north-west is equal or south of south-east: invalid region
    if region.northWest.latitude ≤ region.southEast.latitude then false
    -- equal longitudes are invalid
    else if region.northWest.longitude = region.southEast.longitude then false
    else
      let latitude := tenthMicrodegrees location.latitude
      let longitude := tenthMicrodegrees location.longitude
      if region.southEast.latitude ≤ latitude && decide (latitude ≤ region.northWest.latitude) then
        if region.northWest.longitude < region.southEast.longitude then
          region.northWest.longitude ≤ longitude && decide (longitude ≤ region.southEast.longitude)
        else region.northWest.longitude ≤ longitude ||
          decide (longitude ≤ region.southEast.longitude)
      else false
  else false

def isInsideRectangles (location : PositionFix) (regions : List RectangularRegion) : Bool :=
  regions.any (isInsideRectangle location)

structure CountryDatabase where
  empty : Bool
  isInside : UInt16 → PositionFix → Bool

structure DefaultLocationChecker where
  permissiveIdentifiedRegion : Bool
  countryDb : Option CountryDatabase

variable {cert subject issuer : Certificate}

namespace DefaultLocationChecker

def checkCountries (checker : DefaultLocationChecker) (db : CountryDatabase)
  (location : PositionFix) : List IdentifiedRegion → Bool → Bool
  | [], accepted => accepted
  | .countryOnly code :: rest, accepted =>
    if db.isInside code location then true
    else checker.checkCountries db location rest accepted
  | .other :: rest, _ =>
    -- may accept because of unsupported identified region
    checker.checkCountries db location rest checker.permissiveIdentifiedRegion

def checkIdentifiedRegion (checker : DefaultLocationChecker)
  (location : PositionFix) (entries : List IdentifiedRegion) : Bool :=
  match checker.countryDb with
  | none => checker.permissiveIdentifiedRegion
  | some db =>
    if db.empty then checker.permissiveIdentifiedRegion
    else checker.checkCountries db location entries false

def validAtLocation (checker : DefaultLocationChecker) (geo : Geodesy)
  (cert : Certificate) (location : PositionFix) : Bool :=
  match cert.toBeSigned.region with
  | some (.circularRegion region) => isInsideCircle geo location region
  | some (.rectangularRegion regions) => isInsideRectangles location regions
  | some (.polygonalRegion corners) => geo.withinPolygon location corners
  | some (.identifiedRegion octets) =>
    checker.checkIdentifiedRegion location (geo.identifiedRegions octets)
  | some .nothing => false
  -- no region restriction applies
  | none => true

section Within

variable {P : Platform} {geo : Geodesy} {checker : DefaultLocationChecker} {location : PositionFix}
  (hdistance : ∀ a b, P.distance a b = geo.distance (convertLocation a) (convertLocation b))
  (htriangle : ∀ a b c, geo.distance a c ≤ geo.distance a b + geo.distance b c)

include hdistance htriangle

theorem isInsideCircle_of_within {inner outer : CircularRegion}
  (hw : isWithinCircle P (.circularRegion inner) outer = true)
  (hins : isInsideCircle geo location inner = true) :
  isInsideCircle geo location outer = true := by
  unfold isWithinCircle at hw
  dsimp only at hw
  split at hw
  · cases hw
  next hv =>
  simp only [Bool.or_eq_true, Bool.not_eq_true', decide_eq_true_eq, not_or, Bool.not_eq_false] at hv
  obtain ⟨⟨⟨hinn, ho⟩, hn⟩, hr⟩ := hv
  have hle := of_decide_eq_true hw
  rw [hdistance] at hle
  rw [isInsideCircle, hinn, Bool.true_and, if_pos (decide_eq_true (Int.not_lt.1 hn)),
    decide_eq_true_eq] at hins
  rw [isInsideCircle, ho, Bool.true_and,
    if_pos (decide_eq_true (Int.not_lt.1 hr)), decide_eq_true_eq]
  calc geo.distance location (convertLocation outer.center)
      ≤ geo.distance location (convertLocation inner.center) +
          geo.distance (convertLocation inner.center)
            (convertLocation outer.center) := htriangle _ _ _
    _ ≤ inner.radius + geo.distance (convertLocation inner.center)
          (convertLocation outer.center) := add_le_add_left hins _
    _ ≤ outer.radius := by rw [add_comm]; exact hle

theorem validAtLocation_of_regionIsWithin (hw : regionIsWithin P subject issuer = true)
  (hc : issuer.toBeSigned.region ≠ some .nothing)
  (ha : checker.validAtLocation geo subject location = true) :
  checker.validAtLocation geo issuer location = true := by
  unfold regionIsWithin at hw
  split at hw
  · next hiss => rw [validAtLocation, hiss]
  · cases hw
  next outer inner hiss hsub =>
  rw [validAtLocation, hsub] at ha
  rw [validAtLocation, hiss]
  cases outer with
  | nothing => exact absurd hiss hc
  | circularRegion circle =>
    cases inner with
    | circularRegion other => exact isInsideCircle_of_within hdistance htriangle hw ha
    | _ => cases hw
  | rectangularRegion rectangles =>
    rw [isWithin, decide_eq_true_eq] at hw
    subst hw
    exact ha
  | polygonalRegion corners | identifiedRegion octets => cases hw

theorem validAtLocation_of_chain {chain : List Certificate}
  (hlin : (cert :: chain).IsChain fun subject issuer =>
    regionIsWithin P subject issuer = true)
  (hc : ∀ c ∈ chain, c.toBeSigned.region ≠ some .nothing)
  (hacc : checker.validAtLocation geo cert location = true) :
  ∀ c ∈ cert :: chain, checker.validAtLocation geo c location = true := by
  induction chain generalizing cert with
  | nil => exact List.forall_mem_singleton.2 hacc
  | cons issuer rest ih =>
    obtain ⟨hl, hr⟩ := List.isChain_cons_cons.1 hlin
    obtain ⟨hiss, ha⟩ := List.forall_mem_cons.1 hc
    refine List.forall_mem_cons.2 ⟨hacc, ih hr ha ?_⟩
    exact validAtLocation_of_regionIsWithin hdistance htriangle hl hiss hacc

end Within

end DefaultLocationChecker

namespace DefaultCertificateValidator

variable {P : Platform} {v : DefaultCertificateValidator P}
  {lookup : IssuerLookup} {store : TrustStore P} {geo : Geodesy} {checker : DefaultLocationChecker}

theorem validAtLocation_of_locationVerdict
  (hc : v.locationChecker = some (checker.validAtLocation geo))
  (hl : v.disableLocationChecks = false) {location : PositionFix}
  (hp : v.positionProvider = some location) (h : v.locationVerdict cert = .valid) :
  checker.validAtLocation geo cert location = true := by
  cases hr : cert.toBeSigned.region with
  | none => rw [DefaultLocationChecker.validAtLocation, hr]
  | some region =>
    have hh : hasRegionRestriction cert = true := by
      rw [hasRegionRestriction, hr]
      rfl
    rw [locationVerdict, hl, if_neg Bool.false_ne_true, hp] at h
    dsimp only at h
    rw [if_pos hh, validAtLocation, hc] at h
    dsimp only at h
    split at h
    · next ha => exact ha
    · cases h

variable {aid : ItsAid}

theorem regionIsWithin_of_checkConsistency (hr : v.disableRegionConsistencyChecks = false)
  (h : v.checkConsistency subject issuer aid = true) :
  regionIsWithin P subject issuer = true := by
  unfold checkConsistency at h
  rw [hr, Bool.false_or, Bool.and_eq_true] at h
  exact h.2

theorem exists_position (hl : v.disableLocationChecks = false)
  (hv : v.validForSigning cert aid = .valid) :
  ∃ location, v.positionProvider = some location := by
  cases hp : v.positionProvider with
  | some location => exact ⟨location, rfl⟩
  | none =>
    unfold validForSigning at hv
    split at hv
    · cases hv
    · rw [hl, hp] at hv
      cases hv

/-- Under a valid verdict the position is accepted for every certificate of the
chain up to the trusted root. -/
theorem valid_along_chain (hstore : v.trustStore = some store)
  (hlookup : v.issuerLookup = some lookup)
  (hchecker : v.locationChecker = some (checker.validAtLocation geo))
  (hlocation : v.disableLocationChecks = false) (hchain : v.disableChainConsistencyChecks = false)
  (hregion : v.disableRegionConsistencyChecks = false)
  (hdistance : ∀ a b, P.distance a b = geo.distance (convertLocation a) (convertLocation b))
  (htriangle : ∀ a b c, geo.distance a c ≤ geo.distance a b + geo.distance b c)
  {cert : Certificate} {aid : ItsAid} (hvalid : v.validForSigning cert aid = .valid) :
  ∃ location chain, v.positionProvider = some location ∧ IssuerChain lookup cert chain ∧
    (∃ root, chain.getLast? = some root ∧ Anchored store root) ∧
    ((∀ c ∈ chain, c.toBeSigned.region ≠ some .nothing) →
      ∀ c ∈ chain, checker.validAtLocation geo c location = true) := by
  obtain ⟨location, hp⟩ := exists_position hlocation hvalid
  obtain ⟨-, -, ha, hco, -, hv⟩ := validForSigning_eq_valid hvalid
  rw [isChainAnchored, hstore, hlookup] at ha
  obtain ⟨chain, ht, hl, hr⟩ := anchored_chain ha
  refine ⟨location, chain, hp, ht, hr, fun hc => ?_⟩
  have hlin := (checkConsistency_of_consistent hlookup hchain ht hl
    hco).imp fun _ _ => regionIsWithin_of_checkConsistency hregion
  obtain ⟨rest, rfl⟩ := Trail.head ht
  exact DefaultLocationChecker.validAtLocation_of_chain hdistance htriangle
    hlin (List.forall_mem_cons.1 hc).2 (validAtLocation_of_locationVerdict hchecker hlocation hp hv)

def circle (radius : Int) : Option GeographicRegion :=
  some (.circularRegion ⟨⟨480000000, 20000000⟩, radius⟩)

def circularRoot : Certificate :=
  { sampleRoot with toBeSigned := { sampleRoot.toBeSigned with
      region := circle 3000 } }

def circularAuthority : Certificate :=
  { sampleAuthority with toBeSigned := { sampleAuthority.toBeSigned with
      region := circle 2000 } }

def circularTicket : Certificate :=
  { sampleTicket (.xOnly (coord 1)) with
    toBeSigned := { fakeCertificate.toBeSigned with region := circle 1000 } }

def meridian : Geodesy where
  distance a b := 111000 * |a.latitude - b.latitude|
  withinPolygon _ _ := false
  identifiedRegions _ := []

def circularPlatform : Platform :=
  { Platform.ofTable [circularRoot, circularAuthority, circularTicket]
      (by decide) with
    distance := fun a b =>
      meridian.distance (convertLocation a) (convertLocation b) }

def circularStore : TrustStore circularPlatform where
  certificates := [(digestAt 0, circularRoot)]
  rooted := by decide +kernel

def circularLookup : IssuerLookup := fun digest =>
  if digest = digestAt 0 then some circularRoot
  else if digest = digestAt 1 then some circularAuthority
  else none

def strictChecker : DefaultLocationChecker := ⟨false, none⟩

def circularValidator : DefaultCertificateValidator circularPlatform where
  runtime := none
  positionProvider := some ⟨48005 / 1000, 2⟩
  locationChecker := some (strictChecker.validAtLocation meridian)
  issuerLookup := some circularLookup
  revocationLookup := none
  trustStore := some circularStore
  disableTimeChecks := true
  disableLocationChecks := false
  disableChainConsistencyChecks := false
  disableRegionConsistencyChecks := false

theorem circularTicket_along_chain : ∃ location chain,
  circularValidator.positionProvider = some location ∧
  IssuerChain circularLookup circularTicket chain ∧
  (∃ root, chain.getLast? = some root ∧ Anchored circularStore root) ∧
  ((∀ c ∈ chain, c.toBeSigned.region ≠ some .nothing) →
    ∀ c ∈ chain, strictChecker.validAtLocation meridian c location = true) := by
  have htriangle : ∀ a b c, meridian.distance a c ≤
      meridian.distance a b + meridian.distance b c := by
    intro a b c
    show (111000 : ℚ) * _ ≤ 111000 * _ + 111000 * _
    rw [← mul_add]
    exact mul_le_mul_of_nonneg_left (abs_sub_le _ _ _) (by decide)
  have hv : circularValidator.validForSigning circularTicket 36 = .valid := by decide +kernel
  exact valid_along_chain rfl rfl rfl rfl rfl rfl (fun _ _ => rfl) htriangle hv

end DefaultCertificateValidator

end Vanetza.Security.V3
