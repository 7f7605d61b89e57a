import GamZ.Server.RadarPixels

/-! # Whether an alarm shows

A sector is red up to its reading. Near the centre it may have no pixel of its own, or
share them with a neighbour painted later, or lie under a spoke, so every slot has a
reading from which on it shows. -/

namespace GamZ.Server

open Raster

def AlarmVisible (xres : Nat) (ptr : Fin 70 → Int) : Prop :=
  ∀ pfbdata : FrameBuffer Color, ∃ repx repy, repx < 1024 ∧ repy < 600 ∧
    (makeRadar xres ptr pfbdata).pfbdata (repy * xres + repx) = red

/-- The least reading with which the sector of a slot shows. The sector of slot 0
never does: the next one goes over all of it. -/
def visibleFrom : List Nat :=
  [251, 2, 6, 4, 3, 5, 4, 5, 7, 16, 13, 7, 5, 4, 4, 8,
    3, 4, 3, 4, 5, 9, 11, 6, 4, 4, 3, 3, 4, 6, 11,
    11, 6, 4, 3, 3, 4, 4, 6, 11, 9, 5, 4, 3, 4, 8,
    3, 4, 4, 5, 7, 13, 16, 7, 5, 4, 5, 3, 4, 6, 2]

/-- The pixel with which the sector of a slot first shows, as distances from the two
axes. -/
def firstShown : List (Nat × Nat) :=
  [(0, 0), (3, 0), (10, 1), (7, 1), (5, 1), (8, 2), (7, 2), (9, 3), (13, 5), (29, 13), (21, 12),
    (11, 7), (7, 5), (5, 4), (6, 5), (11, 10),
    (3, 3), (5, 6), (3, 4), (4, 6), (5, 8), (8, 14), (9, 20), (4, 10), (2, 6), (2, 7), (1, 4),
    (1, 5), (1, 7), (1, 10), (1, 20),
    (1, 20), (1, 10), (1, 7), (1, 5), (1, 4), (2, 7), (2, 6), (4, 10), (9, 20), (8, 14), (5, 8),
    (4, 6), (3, 4), (5, 6), (10, 11),
    (3, 3), (6, 5), (5, 4), (7, 5), (11, 7), (21, 12), (29, 13), (13, 5), (9, 3), (7, 2), (8, 2),
    (5, 1), (7, 1), (10, 1), (3, 0)]

/-- The coordinate `m` pixels from the centre column, on the side of the octant. -/
def across : Octant → Nat → Int
  | .rightLower, m | .rightUpper, m => m
  | .leftUpper, m | .leftLower, m => -m

theorem abs_across (octant : Octant) (m : Nat) : |across octant m| = m := by
  cases octant <;> simp [across]

/-- Within the radius the sector has no pixel that is left to it. -/
def HiddenWithin (bearing : Bearing) (radius : Nat) : Prop :=
  ∀ m < radius + 1, ∀ n < radius + 1, m * m + n * n ≤ radius * radius →
    bearing.InSector (across bearing.octant m) n →
      OnFigure m n ∨ painter (across bearing.octant m) n ≠ some bearing

instance (bearing : Bearing) (radius : Nat) : Decidable (HiddenWithin bearing radius) :=
  inferInstanceAs (Decidable (∀ m < radius + 1, ∀ n < radius + 1, _ → _ → _ ∨ _))

/-- At the pixel the sector is left to itself, and the reading reaches it. -/
def ShownAt (bearing : Bearing) (m n : Nat) (reading : Nat) : Prop :=
  0 < m ∧ m * m + n * n ≤ 2 * reading * (2 * reading) ∧ ¬ OnFigure m n ∧
    painter (across bearing.octant m) n = some bearing

instance (bearing : Bearing) (m n reading : Nat) : Decidable (ShownAt bearing m n reading) :=
  inferInstanceAs (Decidable (_ ∧ _ ∧ ¬ _ ∧ _))

theorem sectors_hidden :
    ∀ bearing ∈ sectorBearings,
      HiddenWithin bearing (2 * (visibleFrom.getD bearing.slot 251 - 1)) := by
  decide +kernel

theorem sectors_shown :
    ∀ bearing ∈ sectorBearings,
      ShownAt bearing (firstShown.getD bearing.slot (0, 0)).1
        (firstShown.getD bearing.slot (0, 0)).2 (visibleFrom.getD bearing.slot 251) := by
  decide +kernel

/-! ## From the reading to the picture -/

theorem exists_sectorBearing {slot : Nat} (inside : slot < 61) (positive : 0 < slot) :
    ∃ bearing ∈ sectorBearings, bearing.slot = slot := by
  have listed : slot ∈ radarBearings.map Bearing.slot := by
    rw [radarBearings_slots]
    exact List.mem_range.mpr inside
  rcases List.mem_map.mp listed with ⟨bearing, member, isSlot⟩
  rw [radarBearings_cons, List.mem_cons] at member
  rcases member with first | later
  · subst first
    exact absurd isSlot (Nat.ne_of_lt positive)
  · exact ⟨bearing, later, isSlot⟩

theorem disc_across (octant : Octant) (m n : Nat) :
    disc (across octant m) n = (m * m + n * n : Nat) := by
  rw [← disc_abs, abs_across, disc]
  push_cast
  rfl

theorem pixelAt_eq (xres : Nat) {x y : Int} (near : |x| ≤ 500) (above : 0 ≤ y) :
    ∃ repx repy, repx < 1024 ∧ repy < 600 ∧ pixelAt xres x y = repy * xres + repx := by
  have bounds := abs_le.mp near
  exact ⟨(x + 512).toNat, (599 - y).toNat, by omega, by omega, rfl⟩

theorem radarSector_red {ptr : Fin 70 → Int} {slot : Nat}
    (alarming : copySlots ptr slot - 1 < warnValOf ptr) :
    radarColor (radarSector (warnValOf ptr) (copySlots ptr slot)) = red := by
  rw [radarColor, radarSector, decide_eq_true alarming]
  rfl

theorem alarmVisible_of {xres : Nat} (wide : 1024 ≤ xres) {ptr : Fin 70 → Int}
    (sent : SentFrame ptr) {slot : Nat} (inside : slot < 61)
    (alarming : copySlots ptr slot - 1 < warnValOf ptr)
    (shown : visibleFrom.getD slot 251 ≤ copySlots ptr slot - 1) : AlarmVisible xres ptr := by
  have bounded := (sent.slots slot inside).2
  have positive : 0 < slot := by
    by_contra first
    obtain rfl : slot = 0 := by omega
    have never : visibleFrom.getD 0 251 = 251 := rfl
    omega
  rcases exists_sectorBearing inside positive with ⟨bearing, member, isSlot⟩
  subst isSlot
  rcases sectors_shown bearing member with ⟨away, close, offFigure, found⟩
  generalize (firstShown.getD bearing.slot (0, 0)).1 = m at away close offFigure found
  generalize (firstShown.getD bearing.slot (0, 0)).2 = n at close offFigure found
  generalize visibleFrom.getD bearing.slot 251 = least at close shown
  have distance := disc_across bearing.octant m n
  have reached : disc (across bearing.octant m) n ≤
      (copySlots ptr bearing.slot - 1) * 2 * ((copySlots ptr bearing.slot - 1) * 2) := by
    have closeInt : ((m * m + n * n : Nat) : Int) ≤ 2 * least * (2 * least) := by
      exact_mod_cast close
    rw [distance]
    nlinarith
  have inDisc : disc (across bearing.octant m) n ≤ 250000 := by nlinarith
  have offRing : ¬ WarnRing (warnValOf ptr * 2) (across bearing.octant m) n := by
    intro ring
    have beyond := ring.2
    nlinarith
  have offCentre : across bearing.octant m ≠ 0 := by
    rw [← abs_pos, abs_across]
    exact_mod_cast away
  have near := (disc_bounds inDisc offCentre).1
  rw [← abs_across bearing.octant m] at offFigure
  intro pfbdata
  rcases pixelAt_eq xres near (Int.natCast_nonneg n) with ⟨repx, repy, column, row, place⟩
  refine ⟨repx, repy, column, row, ?_⟩
  rw [← place, makeRadar_plain wide ptr pfbdata offCentre (Int.natCast_nonneg n) inDisc offRing
    offFigure found, radarSector_red alarming, sectorColor, if_pos reached]

/-! ## From the picture to the reading -/

theorem backgroundPass_colors (tempWarn : Int) (repx repy : Nat) :
    PaintsOnly (fun color => color ≠ red) ((backgroundPass tempWarn).pixel repy repx) := by
  have notRed : white ≠ red ∧ yellow ≠ red ∧ black ≠ red := by decide
  rcases notRed with ⟨white, yellow, black⟩
  simp only [backgroundPass]
  repeat' apply paintsOnly_ite
  all_goals
    first
    | exact paintsOnly_none
    | exact paintsOnly_some white
    | exact paintsOnly_some yellow
    | exact paintsOnly_some black

/-- A red pixel of a pass lies off the figures and within the reading of its sector. -/
theorem bearingPass_red {warnVal : Int} {r : Nat → Int} {bearing : Bearing} {repx repy : Nat}
    (written : (bearingPass warnVal r bearing).writes repy repx = some red) :
    (repy ≤ 599 ∧ repx ∈ bearing.octant.columns) ∧
      disc ((repx : Int) - 512) (599 - (repy : Int)) ≤
        (r bearing.slot - 1) * 2 * ((r bearing.slot - 1) * 2) ∧
      ¬ WarnRing (warnVal * 2) ((repx : Int) - 512) (599 - repy) ∧
      ¬ OnFigure |(repx : Int) - 512| (599 - repy) := by
  have others : red ≠ white ∧ red ≠ yellow ∧ red ≠ black := by decide
  rcases Pass.writes_some written with ⟨⟨row, column⟩, painted⟩
  have rows : repy ≤ 599 := rows_le row
  simp only [bearingPass, sectorPass] at painted column
  split_ifs at painted with outer
  · exact absurd (Option.some.inj painted).symm others.1
  · rcases sectorPixel_own painted others.2.1 others.1 others.2.2 with
      ⟨-, near, offRing, offFigure⟩
    rw [columns_x column] at near offRing offFigure
    rw [WarnRing, disc_abs] at offRing
    rw [disc_abs] at near
    exact ⟨⟨rows, column⟩, near, offRing, offFigure⟩

theorem red_written (ptr : Fin 70 → Int) (repx repy : Nat) :
    ∀ pass ∈ radarPasses ptr, pass.writes repy repx = some red →
      ∃ bearing ∈ radarBearings, pass = bearingPass (warnValOf ptr) (copySlots ptr) bearing := by
  have notWhite : red ≠ white := by decide
  apply radarPasses_forall
  · intro written
    have painted := (Pass.writes_some written).2
    simp only [outerRingPass] at painted
    split_ifs at painted
    exact absurd (Option.some.inj painted).symm notWhite
  · intro written
    exact absurd rfl (backgroundPass_colors _ repx repy red (Pass.writes_some written).2)
  · intro written
    exact absurd (Option.some.inj (Pass.writes_some written).2).symm notWhite
  · exact fun bearing member _ => ⟨bearing, member, rfl⟩

theorem across_eq {octant : Octant} {x y : Int} (holds : octant.Holds x y) :
    across octant x.natAbs = x := by
  cases octant <;> have side := holds.1 <;> rw [across] <;> omega

/-- The last sector of a pixel off the figures reaches it from its own threshold on. -/
theorem visibleFrom_le {x y : Int} (above : 0 ≤ y) (offFigure : ¬ OnFigure |x| y)
    {bearing : Bearing} (found : painter x y = some bearing) {reading : Int}
    (nonneg : 0 ≤ reading) (reached : disc x y ≤ reading * 2 * (reading * 2)) :
    visibleFrom.getD bearing.slot 251 ≤ reading := by
  rcases painter_some found with ⟨member, inside⟩
  have hidden := sectors_hidden bearing member
  generalize visibleFrom.getD bearing.slot 251 = least at hidden
  by_contra below
  have isAcross := across_eq inside.1
  have isAbove : ((y.toNat : Nat) : Int) = y := Int.toNat_of_nonneg above
  have isAbs : ((x.natAbs : Nat) : Int) = |x| := (Int.abs_eq_natAbs x).symm
  have distance : ((x.natAbs * x.natAbs + y.toNat * y.toNat : Nat) : Int) = disc x y := by
    rw [← disc_across bearing.octant, isAcross, isAbove]
  have close : x.natAbs * x.natAbs + y.toNat * y.toNat ≤ 2 * (least - 1) * (2 * (least - 1)) := by
    have step : reading ≤ ((least - 1 : Nat) : Int) := by omega
    have closeInt : disc x y ≤ 2 * ((least - 1 : Nat) : Int) * (2 * ((least - 1 : Nat) : Int)) := by
      nlinarith
    rw [← distance] at closeInt
    exact_mod_cast closeInt
  have column : x.natAbs < 2 * (least - 1) + 1 := by nlinarith
  have row : y.toNat < 2 * (least - 1) + 1 := by nlinarith
  rw [← isAcross, ← isAbove] at found inside
  rcases hidden _ column _ row close inside with figure | painted
  · rw [isAbs, isAbove] at figure
    exact offFigure figure
  · exact painted found

theorem visible_of_alarmVisible {xres : Nat} (wide : 1024 ≤ xres) {ptr : Fin 70 → Int}
    (sent : SentFrame ptr) (visible : AlarmVisible xres ptr) :
    ∃ slot < 61, copySlots ptr slot - 1 < warnValOf ptr ∧
      visibleFrom.getD slot 251 ≤ copySlots ptr slot - 1 := by
  rcases visible fun _ => black with ⟨repx, repy, column, row, shown⟩
  have changed : overlay (radarPasses ptr) repy repx black = red := by
    rw [← shown, makeRadar_apply wide ptr _ (by omega)]
  have notBlack : red ≠ black := by decide
  rcases exists_writer (by rw [changed]; exact notBlack) with ⟨pass, member, written⟩
  rw [changed] at written
  rcases red_written ptr repx repy pass member written with ⟨first, firstMember, isPass⟩
  subst isPass
  rcases bearingPass_red written with ⟨⟨rows, columns⟩, near, offRing, offFigure⟩
  have firstBound := sent.slots first.slot (bearing_slot_lt firstMember)
  have inDisc : disc ((repx : Int) - 512) (599 - (repy : Int)) ≤ 250000 := by nlinarith
  have offCentre : (repx : Int) - 512 ≠ 0 := by
    intro centre
    obtain rfl : repx = 512 := by omega
    exact centre_notMem_columns first.octant columns
  have above : 0 ≤ 599 - (repy : Int) := by omega
  rcases exists_painter offCentre above with ⟨bearing, found⟩
  have slotInside := bearing_slot_lt (List.mem_of_mem_tail (painter_some found).1)
  have bound := sent.slots bearing.slot slotInside
  have place : pixelAt xres ((repx : Int) - 512) (599 - repy) = repy * xres + repx := by
    have isColumn : ((repx : Int) - 512 + 512).toNat = repx := by omega
    have isRow : (599 - (599 - (repy : Int))).toNat = repy := by omega
    rw [pixelAt, isColumn, isRow]
  rw [← place, makeRadar_plain wide ptr _ offCentre above inDisc offRing offFigure found,
    sectorColor, radarColor, radarSector] at shown
  split_ifs at shown with reached belowWarn
  · exact ⟨bearing.slot, slotInside, of_decide_eq_true belowWarn,
      visibleFrom_le above offFigure found (by omega) reached⟩
  · exact absurd shown (by decide)
  · exact absurd shown (by decide)

/-- A record shows red exactly if one of its alarming readings is at least the
threshold of its slot. -/
theorem alarmVisible_iff {xres : Nat} (wide : 1024 ≤ xres) {ptr : Fin 70 → Int}
    (sent : SentFrame ptr) :
    AlarmVisible xres ptr ↔
      ∃ slot < 61, copySlots ptr slot - 1 < warnValOf ptr ∧
        visibleFrom.getD slot 251 ≤ copySlots ptr slot - 1 := by
  constructor
  · exact visible_of_alarmVisible wide sent
  · intro found
    rcases found with ⟨slot, inside, alarming, shown⟩
    exact alarmVisible_of wide sent inside alarming shown

/-- An object at 5 cm straight to the right and nothing else, with the warn line at 20. -/
def rightFrame : Fin 70 → Int := fun k => if k = 67 then 20 else if k = 0 then 6 else 251

theorem sentFrame_rightFrame : SentFrame rightFrame := ⟨by decide, 2, by decide⟩

theorem alarmVisible_rightFrame :
    AlarmVisible 1024 rightFrame ↔
      ∃ slot < 61, copySlots rightFrame slot - 1 < warnValOf rightFrame ∧
        visibleFrom.getD slot 251 ≤ copySlots rightFrame slot - 1 :=
  alarmVisible_iff (by decide) sentFrame_rightFrame

theorem rightFrame_not_visible : ¬ ∀ (xres : Nat) (ptr : Fin 70 → Int), 1024 ≤ xres →
    SentFrame ptr → (∃ slot < 61, copySlots ptr slot - 1 < warnValOf ptr) →
      AlarmVisible xres ptr := by
  intro visible
  have alarm := visible 1024 rightFrame (by decide) sentFrame_rightFrame ⟨0, by decide⟩
  exact absurd (visible_of_alarmVisible (by decide) sentFrame_rightFrame alarm) (by decide)

end GamZ.Server
