import GamZ.Foundation.LastWriter
import Mathlib.Tactic.Linarith

/-! # Row by row painting of a framebuffer

A painting pass visits the pixels of some rows and columns and may write each.
The colour of a pixel after several passes is that of the last pass that writes
it. -/

namespace GamZ.Raster

open LastWriter

variable {Color : Type*}

abbrev FrameBuffer (Color : Type*) := Nat → Color

/-- A pass over the given rows and columns, with what it writes at a row and a
column. -/
structure Pass (Color : Type*) where
  rows : List Nat
  columns : List Nat
  pixel : Nat → Nat → Option Color

namespace Pass

def plot (pass : Pass Color) (xres repy : Nat) (pfbdata : FrameBuffer Color) (repx : Nat) :
    FrameBuffer Color :=
  match pass.pixel repy repx with
  | some color => Function.update pfbdata (repy * xres + repx) color
  | none => pfbdata

def paintRow (pass : Pass Color) (xres : Nat) (pfbdata : FrameBuffer Color) (repy : Nat) :
    FrameBuffer Color :=
  pass.columns.foldl (pass.plot xres repy) pfbdata

def paint (pass : Pass Color) (xres : Nat) (pfbdata : FrameBuffer Color) : FrameBuffer Color :=
  pass.rows.foldl (pass.paintRow xres) pfbdata

def writes (pass : Pass Color) (repy repx : Nat) : Option Color :=
  if repy ∈ pass.rows ∧ repx ∈ pass.columns then pass.pixel repy repx else none

theorem writes_of_mem (pass : Pass Color) {repy repx : Nat} (row : repy ∈ pass.rows)
    (column : repx ∈ pass.columns) : pass.writes repy repx = pass.pixel repy repx :=
  if_pos ⟨row, column⟩

theorem writes_of_notMem (pass : Pass Color) {repy repx : Nat}
    (outside : repy ∉ pass.rows ∨ repx ∉ pass.columns) : pass.writes repy repx = none :=
  if_neg (by tauto)

theorem writes_some {pass : Pass Color} {repy repx : Nat} {color : Color}
    (written : pass.writes repy repx = some color) :
    (repy ∈ pass.rows ∧ repx ∈ pass.columns) ∧ pass.pixel repy repx = some color := by
  rw [writes] at written
  split_ifs at written with inside
  exact ⟨inside, written⟩

theorem mem_of_writes {pass : Pass Color} {repy repx : Nat}
    (written : pass.writes repy repx ≠ none) : repy ∈ pass.rows ∧ repx ∈ pass.columns := by
  rcases Option.ne_none_iff_exists'.mp written with ⟨color, isColor⟩
  exact (writes_some isColor).1

theorem index_inj {xres repy repx otherRow otherColumn : Nat} (inside : repx < xres)
    (otherInside : otherColumn < xres)
    (equal : repy * xres + repx = otherRow * xres + otherColumn) :
    repy = otherRow ∧ repx = otherColumn := by
  have positive : 0 < xres := by omega
  have rows := congrArg (· / xres) equal
  have columns := congrArg (· % xres) equal
  simp only [Nat.mul_comm _ xres, Nat.mul_add_div positive, Nat.div_eq_of_lt inside,
    Nat.div_eq_of_lt otherInside, Nat.mul_add_mod, Nat.mod_eq_of_lt inside,
    Nat.mod_eq_of_lt otherInside, Nat.add_zero] at rows columns
  exact ⟨rows, columns⟩

private theorem plot_apply (pass : Pass Color) {xres repy repx row column : Nat}
    (inside : repx < xres) (columnInside : column < xres) (pfbdata : FrameBuffer Color) :
    pass.plot xres row pfbdata column (repy * xres + repx) =
      if repy = row ∧ repx = column then (pass.pixel repy repx).getD (pfbdata (repy * xres + repx))
      else pfbdata (repy * xres + repx) := by
  by_cases here : repy = row ∧ repx = column
  · rcases here with ⟨sameRow, sameColumn⟩
    subst sameRow sameColumn
    rw [if_pos ⟨rfl, rfl⟩, plot]
    cases pass.pixel repy repx <;> simp
  · have elsewhere : repy * xres + repx ≠ row * xres + column := by
      intro equal
      rcases index_inj inside columnInside equal with ⟨sameRow, sameColumn⟩
      exact here ⟨sameRow, sameColumn⟩
    rw [if_neg here, plot]
    cases pass.pixel row column with
    | none => rfl
    | some color => exact Function.update_of_ne elsewhere ..

private theorem getD_getD (written : Option Color) (old : Color) :
    written.getD (written.getD old) = written.getD old := by
  cases written <;> rfl

private theorem foldl_plot_apply (pass : Pass Color) {xres repy repx row : Nat}
    (inside : repx < xres) (columns : List Nat) :
    ∀ pfbdata : FrameBuffer Color, (∀ column ∈ columns, column < xres) →
      columns.foldl (pass.plot xres row) pfbdata (repy * xres + repx) =
        if repy = row ∧ repx ∈ columns then
          (pass.pixel repy repx).getD (pfbdata (repy * xres + repx))
        else pfbdata (repy * xres + repx) := by
  induction columns with
  | nil => simp
  | cons column columns induction =>
      intro pfbdata allInside
      have columnInside := allInside column (by simp)
      rw [List.foldl_cons, induction _ (fun other member => allInside other (by simp [member])),
        plot_apply pass inside columnInside]
      by_cases sameRow : repy = row <;> by_cases sameColumn : repx = column <;>
        by_cases later : repx ∈ columns <;>
        simp [sameRow, sameColumn, later, getD_getD]

theorem paint_apply (pass : Pass Color) {xres repy repx : Nat} (inside : repx < xres)
    (allInside : ∀ column ∈ pass.columns, column < xres) (pfbdata : FrameBuffer Color) :
    pass.paint xres pfbdata (repy * xres + repx) =
      (pass.writes repy repx).getD (pfbdata (repy * xres + repx)) := by
  rw [paint, writes]
  generalize pass.rows = rows
  induction rows generalizing pfbdata with
  | nil => simp
  | cons row rows induction =>
      rw [List.foldl_cons, induction, paintRow, foldl_plot_apply pass inside _ _ allInside]
      by_cases sameRow : repy = row
      · subst sameRow
        by_cases later : repy ∈ rows <;> by_cases column : repx ∈ pass.columns <;>
          simp [later, column, getD_getD]
      · simp [sameRow]

/-! ## The stores of a pass -/

/-- What the pass stores and at which indices, one store after the other. -/
def stores (pass : Pass Color) (xres : Nat) : List (Nat × Color) :=
  pass.rows.flatMap fun repy => pass.columns.filterMap fun repx =>
    (pass.pixel repy repx).map fun color => (repy * xres + repx, color)

theorem exists_pixel_of_mem_stores {pass : Pass Color} {xres : Nat} {store : Nat × Color}
    (member : store ∈ pass.stores xres) :
    ∃ repy ∈ pass.rows, ∃ repx ∈ pass.columns,
      pass.pixel repy repx = some store.2 ∧ store.1 = repy * xres + repx := by
  rcases List.mem_flatMap.mp member with ⟨repy, row, inRow⟩
  rcases List.mem_filterMap.mp inRow with ⟨repx, column, stored⟩
  rcases Option.map_eq_some_iff.mp stored with ⟨color, painted, isStore⟩
  subst isStore
  exact ⟨repy, row, repx, column, painted, rfl⟩

private theorem paintRow_eq_writeAll (pass : Pass Color) (xres repy : Nat) (columns : List Nat) :
    ∀ pfbdata : FrameBuffer Color,
      columns.foldl (pass.plot xres repy) pfbdata =
        writeAll pfbdata (columns.filterMap fun repx =>
          (pass.pixel repy repx).map fun color => (repy * xres + repx, color)) := by
  induction columns with
  | nil => exact fun _ => rfl
  | cons repx columns induction =>
      intro pfbdata
      rw [List.foldl_cons, induction, plot]
      cases painted : pass.pixel repy repx with
      | none => rw [List.filterMap_cons_none (by rw [painted]; rfl)]
      | some color => rw [List.filterMap_cons_some (by rw [painted]; rfl), writeAll_cons]

theorem paint_eq_writeAll (pass : Pass Color) (xres : Nat) (pfbdata : FrameBuffer Color) :
    pass.paint xres pfbdata = writeAll pfbdata (pass.stores xres) := by
  rw [paint, stores]
  generalize pass.rows = rows
  induction rows generalizing pfbdata with
  | nil => rfl
  | cons repy rows induction =>
      rw [List.foldl_cons, induction, paintRow, paintRow_eq_writeAll, List.flatMap_cons,
        writeAll_append]

end Pass

/-- What a pixel may be painted with, if at all. -/
def PaintsOnly (allowed : Color → Prop) (pixel : Option Color) : Prop :=
  ∀ color, pixel = some color → allowed color

theorem paintsOnly_none {allowed : Color → Prop} : PaintsOnly allowed none :=
  fun _ painted => nomatch painted

theorem paintsOnly_some {allowed : Color → Prop} {color : Color} (isAllowed : allowed color) :
    PaintsOnly allowed (some color) := by
  intro shown painted
  rwa [← Option.some.inj painted]

theorem paintsOnly_ite {allowed : Color → Prop} {condition : Prop} [Decidable condition]
    {first second : Option Color} (ifTrue : PaintsOnly allowed first)
    (ifFalse : PaintsOnly allowed second) :
    PaintsOnly allowed (if condition then first else second) := by
  split_ifs
  · exact ifTrue
  · exact ifFalse

/-! ## Several passes -/

/-- The colour of a pixel after the passes, over its old colour. -/
def overlay (passes : List (Pass Color)) (repy repx : Nat) (old : Color) : Color :=
  passes.foldl (fun color pass => (pass.writes repy repx).getD color) old

theorem overlay_append (first second : List (Pass Color)) (repy repx : Nat) (old : Color) :
    overlay (first ++ second) repy repx old =
      overlay second repy repx (overlay first repy repx old) :=
  List.foldl_append

theorem paintAll_apply (passes : List (Pass Color)) {xres repy repx : Nat} (inside : repx < xres)
    (allInside : ∀ pass ∈ passes, ∀ column ∈ pass.columns, column < xres) :
    ∀ pfbdata : FrameBuffer Color,
      passes.foldl (fun pfbdata pass => pass.paint xres pfbdata) pfbdata (repy * xres + repx) =
        overlay passes repy repx (pfbdata (repy * xres + repx)) := by
  induction passes with
  | nil => exact fun _ => rfl
  | cons pass passes induction =>
      intro pfbdata
      rw [List.foldl_cons, induction (fun other member => allInside other (by simp [member])),
        pass.paint_apply inside (allInside pass (by simp))]
      rfl

theorem paintAll_eq_writeAll (passes : List (Pass Color)) (xres : Nat) :
    ∀ pfbdata : FrameBuffer Color,
      passes.foldl (fun pfbdata pass => pass.paint xres pfbdata) pfbdata =
        writeAll pfbdata (passes.flatMap fun pass => pass.stores xres) := by
  induction passes with
  | nil => exact fun _ => rfl
  | cons pass passes induction =>
      intro pfbdata
      rw [List.foldl_cons, induction, pass.paint_eq_writeAll, List.flatMap_cons, writeAll_append]

theorem overlay_of_forall_none {passes : List (Pass Color)} {repy repx : Nat}
    (untouched : ∀ pass ∈ passes, pass.writes repy repx = none) (old : Color) :
    overlay passes repy repx old = old := by
  induction passes with
  | nil => rfl
  | cons pass passes induction =>
      rw [overlay, List.foldl_cons, untouched pass (by simp)]
      exact induction fun other member => untouched other (by simp [member])

/-- Once some pass writes a pixel, its old colour does not matter. -/
theorem overlay_of_covered {passes : List (Pass Color)} {repy repx : Nat} {pass : Pass Color}
    (member : pass ∈ passes) (covered : pass.writes repy repx ≠ none) (old other : Color) :
    overlay passes repy repx old = overlay passes repy repx other := by
  induction passes generalizing old other with
  | nil => cases member
  | cons head tail induction =>
      rcases List.mem_cons.mp member with here | later
      · subst here
        cases written : pass.writes repy repx with
        | none => exact absurd written covered
        | some color => simp [overlay, written]
      · exact induction later _ _

theorem overlay_of_only {passes : List (Pass Color)} {repy repx : Nat} {color : Color}
    (only : ∀ pass ∈ passes, PaintsOnly (· = color) (pass.writes repy repx)) :
    overlay passes repy repx color = color := by
  induction passes with
  | nil => rfl
  | cons pass passes induction =>
      have same : (pass.writes repy repx).getD color = color := by
        cases written : pass.writes repy repx with
        | none => rfl
        | some shown => exact only pass (List.mem_cons_self ..) shown written
      rw [overlay, List.foldl_cons, same]
      exact induction fun other member => only other (List.mem_cons_of_mem _ member)

/-- A pixel that changed was given its colour by one of the passes. -/
theorem exists_writer {passes : List (Pass Color)} {repy repx : Nat} {old : Color}
    (changed : overlay passes repy repx old ≠ old) :
    ∃ pass ∈ passes, pass.writes repy repx = some (overlay passes repy repx old) := by
  induction passes generalizing old with
  | nil => exact absurd rfl changed
  | cons head tail induction =>
      rw [overlay, List.foldl_cons] at changed ⊢
      by_cases later : overlay tail repy repx ((head.writes repy repx).getD old) =
          (head.writes repy repx).getD old
      · rw [overlay] at later
        rw [later] at changed ⊢
        cases written : head.writes repy repx with
        | none => exact absurd (by rw [written]; rfl) changed
        | some color => exact ⟨head, List.mem_cons_self .., written⟩
      · rcases induction later with ⟨pass, member, writes⟩
        exact ⟨pass, List.mem_cons_of_mem _ member, writes⟩

/-- Where each pass of a family writes its own colour or nothing, the last member
that writes settles the colour. -/
theorem overlay_map {Item : Type*} {pass : Item → Pass Color} {repy repx : Nat}
    {Hits : Item → Prop} [DecidablePred Hits] {color : Item → Color} (items : List Item)
    (writes : ∀ item ∈ items,
      (pass item).writes repy repx = if Hits item then some (color item) else none)
    (old : Color) :
    overlay (items.map pass) repy repx old =
      ((items.reverse.find? fun item => Hits item).map color).getD old := by
  induction items generalizing old with
  | nil => rfl
  | cons head tail induction =>
      have headWrites := writes head (List.mem_cons_self ..)
      rw [List.map_cons, overlay, List.foldl_cons, headWrites]
      rw [← overlay, induction fun item member => writes item (List.mem_cons_of_mem _ member)]
      rw [List.reverse_cons, List.find?_append]
      cases tail.reverse.find? fun item => Hits item with
      | some item => rfl
      | none => by_cases hits : Hits head <;> simp [hits]

/-- Passes that write the same at a pixel give it the same colour. -/
theorem overlay_congr {first second : List (Pass Color)} {repy repx : Nat}
    (same : first.map (fun pass => pass.writes repy repx) =
      second.map fun pass => pass.writes repy repx) (old : Color) :
    overlay first repy repx old = overlay second repy repx old := by
  have asFold : ∀ passes : List (Pass Color), overlay passes repy repx old =
      (passes.map fun pass => pass.writes repy repx).foldl
        (fun color written => written.getD color) old := by
    intro passes
    rw [overlay, List.foldl_map]
  rw [asFold, asFold, same]

end GamZ.Raster
