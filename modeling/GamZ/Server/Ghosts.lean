import GamZ.Server.RadarPixels

/-! # What an earlier record leaves behind

`make_radar` paints over the screen of the record before. Whatever an earlier record
can have painted is painted again, but for one pixel just outside the outer ring. -/

namespace GamZ.Server

open Raster

def NoGhost (xres : Nat) (earlier later : Fin 70 → Int) (pfbdata : FrameBuffer Color) : Prop :=
  (makeRadar xres later (makeRadar xres earlier pfbdata).pfbdata).pfbdata =
    (makeRadar xres later pfbdata).pfbdata

/-! ## Beyond the outer ring -/

/-- The bands in which the background paints nothing beyond the rings. -/
def OnSpoke (x y : Int) : Prop :=
  SteepSpoke x y ∨ FlatSpoke x y ∨ SteepSpoke (-x) y ∨ FlatSpoke (-x) y

instance (x y : Int) : Decidable (OnSpoke x y) :=
  inferInstanceAs (Decidable (_ ∨ _ ∨ _ ∨ _))

/-- The widest warn ring reaches a little beyond the outer ring. -/
theorem warnRing_beyond {warnVal : Int} (warnLine : WarnValue warnVal) {x y : Int}
    (beyond : 260000 < disc x y) (ring : WarnRing (warnVal * 2) x y) :
    warnVal = 250 ∧ disc x y ≤ 260100 := by
  rcases warnLine with ⟨steps, positive, bounded, value⟩
  have enclosed := ring.1
  have widest : steps = 25 := by
    by_contra smaller
    have : warnVal ≤ 240 := by omega
    nlinarith
  constructor
  · omega
  · subst widest value
    exact enclosed

private theorem spoke_gap_steep {x y : Int} (above : 0 ≤ y) (spoke : SteepSpoke x y) :
    ¬ (260000 < disc x y ∧ disc x y ≤ 260100) := by
  rcases spoke with ⟨low, high⟩
  unfold disc
  intro gap
  have offset : y = 2 * x - 1 ∨ y = 2 * x ∨ y = 2 * x + 1 := by omega
  rcases offset with below | on | past
  · subst below
    rcases le_or_gt x 228 with near | far <;> nlinarith
  · subst on
    rcases le_or_gt x 228 with near | far <;> nlinarith
  · subst past
    rcases le_or_gt x 227 with near | far <;> nlinarith

private theorem spoke_gap_flat {x y : Int} (above : 0 ≤ y) (spoke : FlatSpoke x y) :
    ¬ (260000 < disc x y ∧ disc x y ≤ 260100) := by
  rcases spoke with ⟨low, high⟩
  unfold disc
  intro gap
  have offset : x = 2 * y - 2 ∨ x = 2 * y - 1 ∨ x = 2 * y ∨ x = 2 * y + 1 ∨ x = 2 * y + 2 := by
    omega
  rcases offset with shifted | shifted | shifted | shifted | shifted <;> subst shifted
  · rcases le_or_gt y 228 with near | far <;> nlinarith
  · rcases le_or_gt y 228 with near | far <;> nlinarith
  · rcases le_or_gt y 228 with near | far <;> nlinarith
  · rcases le_or_gt y 227 with near | far <;> nlinarith
  · rcases le_or_gt y 227 with near | far <;> nlinarith

/-- The spokes cross the gap between the two rings without meeting a pixel of it. -/
theorem spoke_gap {x y : Int} (above : 0 ≤ y) (spoke : OnSpoke x y) :
    ¬ (260000 < disc x y ∧ disc x y ≤ 260100) := by
  rcases spoke with steep | flat | steep | flat
  · exact spoke_gap_steep above steep
  · exact spoke_gap_flat above flat
  · rw [← disc_neg]
    exact spoke_gap_steep above steep
  · rw [← disc_neg]
    exact spoke_gap_flat above flat

theorem not_outerRing_far {x y : Int} (far : 260000 < disc x y) : ¬ OuterRing x y := by
  rw [OuterRing]
  omega

theorem not_rangeRing_far {x y : Int} (far : 260000 < disc x y) {radius : Int}
    (member : radius ∈ [100, 200, 300, 400]) : ¬ RangeRing radius x y := by
  intro ring
  have bound := ring.1
  simp only [List.mem_cons, List.not_mem_nil, or_false] at member
  rcases member with radius | radius | radius | radius <;> subst radius <;> omega

theorem backgroundPass_far {tempWarn : Int} {repx repy : Nat}
    (far : 260000 < disc ((repx : Int) - 512) (599 - (repy : Int))) :
    (backgroundPass tempWarn).pixel repy repx =
      if OnSpoke ((repx : Int) - 512) (599 - repy) then none else some black := by
  have outside : ∀ radius ∈ [100, 200, 300, 400],
      ¬ RangeRing radius ((repx : Int) - 512) (599 - repy) := fun _ => not_rangeRing_far far
  have offRing := not_outerRing_far far
  have offDisc : ¬ disc ((repx : Int) - 512) (599 - (repy : Int)) ≤ 250000 := by omega
  have offSquare : ¬ disc ((repx : Int) - 512) (599 - (repy : Int)) ≤ 500 * 500 := offDisc
  simp only [backgroundPass, if_neg offRing, if_neg offDisc, if_neg offSquare,
    if_neg (outside 100 (by decide)), if_neg (outside 200 (by decide)),
    if_neg (outside 300 (by decide)), if_neg (outside 400 (by decide))]
  by_cases steep : SteepSpoke ((repx : Int) - 512) (599 - repy)
  · rw [if_pos steep, if_pos (.inl steep)]
  by_cases flat : FlatSpoke ((repx : Int) - 512) (599 - repy)
  · rw [if_neg steep, if_pos flat, if_pos (.inr (.inl flat))]
  by_cases steepLeft : SteepSpoke (-((repx : Int) - 512)) (599 - repy)
  · rw [if_neg steep, if_neg flat, if_pos steepLeft, if_pos (.inr (.inr (.inl steepLeft)))]
  by_cases flatLeft : FlatSpoke (-((repx : Int) - 512)) (599 - repy)
  · rw [if_neg steep, if_neg flat, if_neg steepLeft, if_pos flatLeft,
      if_pos (.inr (.inr (.inr flatLeft)))]
  · have offSpoke : ¬ OnSpoke ((repx : Int) - 512) (599 - repy) := by
      simp only [OnSpoke, not_or]
      exact ⟨steep, flat, steepLeft, flatLeft⟩
    rw [if_neg steep, if_neg flat, if_neg steepLeft, if_neg flatLeft, if_neg offSpoke]

theorem sectorPixel_far {tempWarn radius x y temp : Int} {color : Color} {i : Nat}
    (far : 260000 < disc x y) (small : radius * radius ≤ 250000) :
    sectorPixel tempWarn color radius i x y temp =
      if WarnRing tempWarn x y then some yellow else none := by
  have offSquare : ¬ disc x y ≤ 500 * 500 := by omega
  by_cases onRing : WarnRing tempWarn x y
  · rw [sectorPixel_ring onRing, if_pos onRing]
  by_cases onFigure : OnFigure x y
  · rw [sectorPixel_figure onRing onFigure, if_neg offSquare, if_neg onRing]
  · rw [sectorPixel_plain onRing onFigure, if_neg onRing, if_neg]
    intro reached
    rcases reached.2 with near | inSquare
    · omega
    · exact offSquare inSquare

section Records

variable {ptr : Fin 70 → Int}

/-- Beyond the rings a sector pass paints nothing but the warn ring. -/
theorem bearingPass_far (sent : SentFrame ptr) {bearing : Bearing}
    (member : bearing ∈ radarBearings) {repx repy : Nat}
    (far : 260000 < disc ((repx : Int) - 512) (599 - (repy : Int))) :
    (bearingPass (warnValOf ptr) (copySlots ptr) bearing).writes repy repx =
      if (repy ∈ rowsDown (firstRow bearing.octant) 100 ∧ repx ∈ bearing.octant.columns) ∧
          WarnRing (warnValOf ptr * 2) (repx - 512) (599 - repy) then some yellow
      else none := by
  have bounds := sent.slots bearing.slot (bearing_slot_lt member)
  have small : (copySlots ptr bearing.slot - 1) * 2 * ((copySlots ptr bearing.slot - 1) * 2) ≤
      250000 := by nlinarith
  have farInOctant : 260000 < disc (bearing.octant.x repx) (599 - (repy : Int)) := by
    rw [bearing.octant.disc_x]
    exact far
  have offRing := not_outerRing_far farInOctant
  rw [ite_and]
  by_cases reached : repy ∈ rowsDown (firstRow bearing.octant) 100 ∧ repx ∈ bearing.octant.columns
  · rw [Pass.writes_of_mem _ reached.1 reached.2, if_pos reached]
    simp only [bearingPass, sectorPass, radarSector, if_neg offRing,
      sectorPixel_far farInOctant small, WarnRing, bearing.octant.disc_x]
  · rw [if_neg reached]
    exact Pass.writes_of_notMem _ (not_and_or.mp reached)

theorem outerRingPass_far {repx repy : Nat}
    (far : 260000 < disc ((repx : Int) - 512) (599 - (repy : Int))) :
    outerRingPass.writes repy repx = none := by
  have offRing := not_outerRing_far far
  rw [Pass.writes]
  simp only [outerRingPass, if_neg offRing, ite_self]

theorem centreColumn_far {repx repy : Nat}
    (far : 260000 < disc ((repx : Int) - 512) (599 - (repy : Int))) :
    centreColumn.writes repy repx = none := by
  apply Pass.writes_of_notMem
  by_contra inside
  rw [not_or, not_not, not_not] at inside
  rcases inside with ⟨row, column⟩
  rw [mem_centreColumn_rows] at row
  have isCentre : repx = 512 := List.mem_singleton.mp column
  subst isCentre
  have low : 0 ≤ 599 - (repy : Int) ∧ 599 - (repy : Int) ≤ 499 := by omega
  rw [centreColumn_x, disc] at far
  nlinarith

/-- The background pass leaves a pixel beyond the rings alone in the lowest row and in
the bands of the spokes. -/
theorem background_leaves_far (tempWarn : Int) {repx repy : Nat}
    (far : 260000 < disc ((repx : Int) - 512) (599 - (repy : Int)))
    (left : repy = 599 ∨ OnSpoke ((repx : Int) - 512) (599 - repy)) :
    (backgroundPass tempWarn).writes repy repx = none := by
  rcases left with lowest | spoke
  · subst lowest
    apply Pass.writes_of_notMem
    left
    rw [mem_backgroundPass_rows]
    decide
  · rw [Pass.writes, backgroundPass_far far, if_pos spoke, ite_self]

theorem octant_columns_le {octant : Octant} {repx : Nat} (column : repx ∈ octant.columns) :
    repx ≤ 1012 := by
  cases octant <;> rw [Octant.columns, List.mem_range'_1] at column <;> omega

/-- Beyond the rings a pixel that the background leaves alone is painted by the warn
ring only. -/
theorem untouched_far (sent : SentFrame ptr) {repx repy : Nat}
    (far : 260000 < disc ((repx : Int) - 512) (599 - (repy : Int)))
    (left : repy = 599 ∨ OnSpoke ((repx : Int) - 512) (599 - repy))
    (offRing : repx ≤ 1012 → ¬ WarnRing (warnValOf ptr * 2) ((repx : Int) - 512) (599 - repy)) :
    ∀ pass ∈ radarPasses ptr, pass.writes repy repx = none := by
  apply radarPasses_forall
  · exact outerRingPass_far far
  · exact background_leaves_far _ far left
  · exact centreColumn_far far
  · intro bearing member
    rw [bearingPass_far sent member far, if_neg]
    intro painted
    exact offRing (octant_columns_le painted.1.2) painted.2

/-- The passes leave everything off the screen alone. -/
theorem untouched_outside {repx repy : Nat} (outside : 1024 ≤ repx ∨ 600 ≤ repy) :
    ∀ pass ∈ radarPasses ptr, pass.writes repy repx = none := by
  rcases outside with right | below
  · intro pass member
    apply Pass.writes_of_notMem
    right
    intro column
    have := radarPasses_columns ptr pass member repx column
    omega
  · apply radarPasses_forall <;> try intro bearing _
    all_goals
      apply Pass.writes_of_notMem
      left
      intro row
    · rw [mem_outerRingPass_rows] at row
      omega
    · rw [mem_backgroundPass_rows] at row
      omega
    · rw [mem_centreColumn_rows] at row
      omega
    · simp only [bearingPass, sectorPass] at row
      have := rows_le row
      omega

end Records

/-! ## Painted over or never painted -/

/-- Off the centre column some sector paints each pixel of the half disc. -/
theorem sector_covers (ptr : Fin 70 → Int) {repx repy : Nat} (rows : repy ≤ 599)
    (offCentre : repx ≠ 512)
    (inDisc : disc ((repx : Int) - 512) (599 - (repy : Int)) ≤ 250000) :
    ∃ pass ∈ radarPasses ptr, pass.writes repy repx ≠ none := by
  have away : (repx : Int) - 512 ≠ 0 := by omega
  have above : 0 ≤ 599 - (repy : Int) := by omega
  rcases disc_bounds inDisc away with ⟨near, low⟩
  rcases exists_inSector away above with ⟨octant, holds, i, positive, wedge⟩
  have member := List.mem_of_mem_tail (mem_sectorBearings octant i positive)
  have column := holds_columns near holds
  refine ⟨_, bearingPass_mem ptr member, ?_⟩
  rw [bearingPass, Pass.writes_of_mem _ (holds_rows rows low offCentre holds) column,
    sectorPass_pixel _ _ _ inDisc, columns_x column]
  rw [← disc_abs] at inDisc
  exact sectorPixel_ne_none inDisc wedge

theorem outerRing_covers (ptr : Fin 70 → Int) {repx repy : Nat} (columns : repx < 1024)
    (rows : repy ≤ 599) (ring : OuterRing ((repx : Int) - 512) (599 - repy)) :
    ∃ pass ∈ radarPasses ptr, pass.writes repy repx ≠ none := by
  have column : repx ∈ outerRingPass.columns := by
    simp only [outerRingPass, List.mem_range'_1]
    omega
  have row : repy ∈ outerRingPass.rows := mem_outerRingPass_rows.mpr rows
  refine ⟨outerRingPass, by simp [radarPasses_eq], ?_⟩
  rw [Pass.writes_of_mem _ row column]
  simp only [outerRingPass, if_pos ring]
  exact Option.some_ne_none _

theorem centreColumn_covers (ptr : Fin 70 → Int) {repy : Nat} (rows : 100 ≤ repy)
    (bottom : repy ≤ 599) : ∃ pass ∈ radarPasses ptr, pass.writes repy 512 ≠ none := by
  refine ⟨centreColumn, by simp [radarPasses], ?_⟩
  rw [centreColumn_writes rows bottom]
  exact Option.some_ne_none _

theorem background_covers (ptr : Fin 70 → Int) {repx repy : Nat} (columns : repx < 1024)
    (rows : repy ≤ 598) (far : 260000 < disc ((repx : Int) - 512) (599 - (repy : Int)))
    (offSpoke : ¬ OnSpoke ((repx : Int) - 512) (599 - repy)) :
    ∃ pass ∈ radarPasses ptr, pass.writes repy repx ≠ none := by
  have column : repx ∈ (backgroundPass (warnValOf ptr * 2)).columns := by
    simp only [backgroundPass, List.mem_range'_1]
    omega
  have row : repy ∈ (backgroundPass (warnValOf ptr * 2)).rows := mem_backgroundPass_rows.mpr rows
  refine ⟨backgroundPass (warnValOf ptr * 2), by simp [radarPasses_eq], ?_⟩
  rw [Pass.writes_of_mem _ row column, backgroundPass_far far, if_neg offSpoke]
  exact Option.some_ne_none _

/-- The one pixel that a record with the warn line at 250 paints and another one does
not: the left end of the lowest row of the warn ring. -/
theorem ghost_pixel {repx repy : Nat} (columns : repx ≤ 1012) (rows : repy ≤ 599)
    {warnVal : Int} (warnLine : WarnValue warnVal)
    (far : 260000 < disc ((repx : Int) - 512) (599 - (repy : Int)))
    (left : repy = 599 ∨ OnSpoke ((repx : Int) - 512) (599 - repy))
    (onRing : WarnRing (warnVal * 2) ((repx : Int) - 512) (599 - repy)) :
    warnVal = 250 ∧ repx = 2 ∧ repy = 599 := by
  rcases warnRing_beyond warnLine far onRing with ⟨widest, near⟩
  rcases left with lowest | spoke
  · subst lowest
    rw [lowestRow_y] at far near
    simp only [disc] at far near
    have leftSide : (repx : Int) ≤ 512 := by nlinarith
    have low : (repx : Int) ≤ 2 := by nlinarith
    have high : 2 ≤ (repx : Int) := by nlinarith
    exact ⟨widest, by omega, rfl⟩
  · exact absurd ⟨far, near⟩ (spoke_gap (by omega) spoke)

/-- What an earlier record can have painted is painted over, the pixel apart. -/
theorem covered_or_untouched {earlier : Fin 70 → Int} (sent : SentFrame earlier)
    (later : Fin 70 → Int) (repx repy : Nat)
    (elsewhere : ¬ (warnValOf earlier = 250 ∧ repx = 2 ∧ repy = 599)) :
    (∃ pass ∈ radarPasses later, pass.writes repy repx ≠ none) ∨
      ∀ pass ∈ radarPasses earlier, pass.writes repy repx = none := by
  by_cases onScreen : repx < 1024 ∧ repy ≤ 599
  · rcases onScreen with ⟨columns, rows⟩
    rcases le_or_gt (disc ((repx : Int) - 512) (599 - (repy : Int))) 250000 with inDisc | outside
    · by_cases centre : repx = 512
      · subst centre
        rcases Nat.lt_or_ge 99 repy with below | high
        · exact .inl (centreColumn_covers later below rows)
        · have atTop : repy = 99 := by
            rw [centreColumn_x, disc] at inDisc
            have : (599 : Int) - repy ≤ 500 := by nlinarith
            omega
          subst atTop
          exact .inr (top_untouched sent.warnLine)
      · exact .inl (sector_covers later rows centre inDisc)
    · rcases le_or_gt (disc ((repx : Int) - 512) (599 - (repy : Int))) 260000 with near | far
      · exact .inl (outerRing_covers later columns rows ⟨near, outside⟩)
      · by_cases left : repy = 599 ∨ OnSpoke ((repx : Int) - 512) (599 - repy)
        · right
          apply untouched_far sent far left
          intro inColumns onRing
          exact elsewhere (ghost_pixel inColumns rows sent.warnLine far left onRing)
        · rw [not_or] at left
          exact .inl (background_covers later columns (by omega) far left.2)
  · exact .inr (untouched_outside (by omega))

/-! ## The pixel left behind -/

/-- The pixel shows whether the warn line was at 250. -/
theorem overlay_ghost {ptr : Fin 70 → Int} (sent : SentFrame ptr) (old : Color) :
    overlay (radarPasses ptr) 599 2 old = if warnValOf ptr = 250 then yellow else old := by
  have far : 260000 < disc (((2 : Nat) : Int) - 512) (599 - ((599 : Nat) : Int)) := by decide
  by_cases widest : warnValOf ptr = 250
  · have onRing : WarnRing (warnValOf ptr * 2) (((2 : Nat) : Int) - 512)
        (599 - ((599 : Nat) : Int)) := by
      rw [widest]
      decide
    have only : ∀ pass ∈ radarPasses ptr, PaintsOnly (· = yellow) (pass.writes 599 2) := by
      apply radarPasses_forall
      · rw [outerRingPass_far far]
        exact paintsOnly_none
      · rw [background_leaves_far _ far (.inl rfl)]
        exact paintsOnly_none
      · rw [centreColumn_far far]
        exact paintsOnly_none
      · intro bearing member
        rw [bearingPass_far sent member far]
        exact paintsOnly_ite (paintsOnly_some rfl) paintsOnly_none
    have member : (⟨.leftLower, 1, 60⟩ : Bearing) ∈ radarBearings := by decide
    have painted : (bearingPass (warnValOf ptr) (copySlots ptr) ⟨.leftLower, 1, 60⟩).writes 599 2 =
        some yellow := by
      rw [bearingPass_far sent member far, if_pos]
      refine ⟨⟨mem_rowsDown.mpr (by decide), ?_⟩, onRing⟩
      rw [Octant.columns, List.mem_range'_1]
      omega
    rw [if_pos widest, overlay_of_covered (bearingPass_mem ptr member)
      (by rw [painted]; exact Option.some_ne_none _) old yellow, overlay_of_only only]
  · rw [if_neg widest]
    apply overlay_of_forall_none
    apply untouched_far sent far (.inl rfl)
    intro columns onRing
    exact widest (ghost_pixel columns le_rfl sent.warnLine far (.inl rfl) onRing).1

/-- A second record shows exactly what it would show alone, unless the first had the
warn line at 250 and the second has not. Then one pixel stays yellow, which goes
unnoticed only if it was yellow before. -/
theorem noGhost_iff {xres : Nat} (wide : 1024 ≤ xres) {earlier later : Fin 70 → Int}
    (sentEarlier : SentFrame earlier) (sentLater : SentFrame later)
    (pfbdata : FrameBuffer Color) :
    NoGhost xres earlier later pfbdata ↔
      (warnValOf earlier = 250 → warnValOf later = 250 ∨ pfbdata (599 * xres + 2) = yellow) := by
  constructor
  · intro same widest
    have pixel := congrFun same (599 * xres + 2)
    rw [makeRadar_apply wide later _ (by omega), makeRadar_apply wide later _ (by omega),
      makeRadar_apply wide earlier _ (by omega), overlay_ghost sentLater, overlay_ghost sentLater,
      overlay_ghost sentEarlier, if_pos widest] at pixel
    split_ifs at pixel with alsoWidest
    · exact .inl alsoWidest
    · exact .inr pixel.symm
  · intro condition
    funext index
    have positive : 0 < xres := by omega
    have inside : index % xres < xres := Nat.mod_lt _ positive
    have place : index / xres * xres + index % xres = index := by
      rw [Nat.mul_comm]
      exact Nat.div_add_mod index xres
    generalize index / xres = repy at place
    generalize index % xres = repx at place inside
    subst place
    rw [makeRadar_apply wide later _ inside, makeRadar_apply wide later _ inside,
      makeRadar_apply wide earlier _ inside]
    by_cases ghost : warnValOf earlier = 250 ∧ repx = 2 ∧ repy = 599
    · rcases ghost with ⟨widest, isColumn, isRow⟩
      subst isColumn isRow
      rw [overlay_ghost sentLater, overlay_ghost sentLater, overlay_ghost sentEarlier,
        if_pos widest]
      rcases condition widest with alsoWidest | wasYellow
      · rw [if_pos alsoWidest, if_pos alsoWidest]
      · rw [wasYellow]
    · rcases covered_or_untouched sentEarlier later repx repy ghost with covered | untouched
      · rcases covered with ⟨pass, member, covers⟩
        exact overlay_of_covered member covers _ _
      · rw [overlay_of_forall_none untouched]

/-- Nothing within reach, with the given warn line. -/
def emptyFrame (warnVal : Int) : Fin 70 → Int := fun k => if k = 67 then warnVal else 251

theorem sentFrame_emptyFrame {warnVal : Int} (warnLine : WarnValue warnVal) :
    SentFrame (emptyFrame warnVal) where
  slots slot inside := by
    have notWarn : (⟨slot, by omega⟩ : Fin 70) ≠ 67 := by
      intro equal
      have : slot = 67 := congrArg Fin.val equal
      omega
    rw [copySlots, dif_pos inside, emptyFrame, if_neg notWarn]
    decide
  warnLine := warnLine

theorem warnValue_widest : WarnValue 250 := ⟨25, by decide⟩

theorem warnValue_narrowest : WarnValue 10 := ⟨1, by decide⟩

theorem noGhost_lowered_warn_line :
    NoGhost 1024 (emptyFrame 250) (emptyFrame 10) (fun _ => black) ↔
      (warnValOf (emptyFrame 250) = 250 →
        warnValOf (emptyFrame 10) = 250 ∨
          (fun _ => black : FrameBuffer Color) (599 * 1024 + 2) = yellow) :=
  noGhost_iff (by decide) (sentFrame_emptyFrame warnValue_widest)
    (sentFrame_emptyFrame warnValue_narrowest) _

theorem lowered_warn_line_leaves_ghost : ¬ ∀ (xres : Nat) (earlier later : Fin 70 → Int)
    (pfbdata : FrameBuffer Color), 1024 ≤ xres → SentFrame earlier → SentFrame later →
      NoGhost xres earlier later pfbdata := by
  intro noGhost
  have sentEarlier := sentFrame_emptyFrame warnValue_widest
  have sentLater := sentFrame_emptyFrame warnValue_narrowest
  have same := noGhost 1024 _ _ (fun _ => black) (by decide) sentEarlier sentLater
  have pixel := congrFun same (599 * 1024 + 2)
  rw [makeRadar_apply (by decide) _ _ (by decide), makeRadar_apply (by decide) _ _ (by decide),
    makeRadar_apply (by decide) _ _ (by decide), overlay_ghost sentLater, overlay_ghost sentLater,
    overlay_ghost sentEarlier] at pixel
  exact absurd pixel (by decide)

end GamZ.Server
