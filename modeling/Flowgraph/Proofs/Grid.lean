import Flowgraph.Grid
/-!
# Drawn grids

A grid can be drawn, one character a cell. Looking at a place of it tells what is drawn there: `y`
counts the rows and `x` the characters of a row, and each row has a bound of its own. Where the
drawing is short enough to be counted in coordinates, every cell lies where it says that it lies.
-/
namespace Flowgraph

/-- What a character of a drawing stands for. -/
inductive Denotes : Char → CellKind → Prop where
  | wall : Denotes '#' .wall
  | start : Denotes 'S' .start
  | goal : Denotes 'G' .goal
  | treasure : Denotes 'T' .treasure
  | empty {ch : Char} (other : ch ∉ ['#', 'S', 'G', 'T']) : Denotes ch .empty

section
variable {ch : Char} {k : CellKind}

theorem denotes_ofChar (ch : Char) : Denotes ch (CellKind.ofChar ch) := by
  unfold CellKind.ofChar
  split
  · exact .wall
  · exact .start
  · exact .goal
  · exact .treasure
  · next hwall hstart hgoal htreasure =>
    apply Denotes.empty
    intro hmem
    simp only [List.mem_cons, List.not_mem_nil, or_false] at hmem
    rcases hmem with h | h | h | h
    · exact hwall h
    · exact hstart h
    · exact hgoal h
    · exact htreasure h

theorem denotes_iff : Denotes ch k ↔ CellKind.ofChar ch = k := by
  constructor
  · intro h
    cases h with
    | wall => rfl
    | start => rfl
    | goal => rfl
    | treasure => rfl
    | empty other =>
      simp only [List.mem_cons, List.not_mem_nil, or_false, not_or] at other
      obtain ⟨hwall, hstart, hgoal, htreasure⟩ := other
      unfold CellKind.ofChar
      split
      · exact absurd rfl hwall
      · exact absurd rfl hstart
      · exact absurd rfl hgoal
      · exact absurd rfl htreasure
      · rfl
  · rintro rfl
    exact denotes_ofChar ch

theorem denotes_wall_iff : Denotes ch .wall ↔ ch = '#' := by
  constructor
  · intro h
    cases h
    rfl
  · rintro rfl
    exact .wall

end

namespace Coord

theorem clamp_of_val {c : Coord} {n : Int} (h : c.val = n) : clamp n = c := by
  subst h
  exact Coord.ext (clamp_val c.val c.lower c.upper)

theorem clamp_val_of_lt {n : Nat} (h : n < 2147483648) : (clamp n).val = n :=
  clamp_val n (by omega) (by omega)

end Coord

namespace Grid
variable {g : Grid} {p : Position} {c : Cell} {k : CellKind}

theorem isOpen_iff : g.isOpen p = true ↔ g.look p = .free := by
  simp [isOpen]

theorem look_eq_wall_iff : g.look p = .wall ↔ ∃ c, g.cell? p = some c ∧ c.kind = .wall := by
  unfold look
  cases g.cell? p <;> simp

theorem look_eq_outOfBounds_iff : g.look p = .outOfBounds ↔ g.cell? p = none := by
  unfold look
  cases g.cell? p with
  | none => simp
  | some c => by_cases hc : c.kind = .wall <;> simp [hc]

/-- A cell is found by counting: the rows by `y`, then the cells of that row by `x`. -/
theorem cell?_eq_some_iff :
    g.cell? p = some c ↔
      ∃ x y : Nat, p.x.val = x ∧ p.y.val = y ∧
        ∃ row, g.rows[y]? = some row ∧ row[x]? = some c := by
  unfold cell?
  constructor
  · intro h
    by_cases hp : 0 ≤ p.x.val ∧ 0 ≤ p.y.val
    · rw [if_pos hp] at h
      obtain ⟨row, hrow, hc⟩ := Option.bind_eq_some_iff.mp h
      have hx : p.x.val = p.x.val.toNat := (Int.toNat_of_nonneg hp.1).symm
      have hy : p.y.val = p.y.val.toNat := (Int.toNat_of_nonneg hp.2).symm
      exact ⟨_, _, hx, hy, row, hrow, hc⟩
    · rw [if_neg hp] at h
      cases h
  · rintro ⟨x, y, hx, hy, row, hrow, hc⟩
    have hp : 0 ≤ p.x.val ∧ 0 ≤ p.y.val := by omega
    rw [if_pos hp, hx, hy, Int.toNat_natCast, Int.toNat_natCast, hrow]
    exact hc

section
variable {rows : List String}

theorem getElem?_rows_ofRows (rows : List String) (y : Nat) :
    (ofRows rows).rows[y]? = rows[y]?.map (drawRow y) := by
  rw [ofRows, List.getElem?_map, List.getElem?_zipIdx, Option.map_map, Nat.zero_add]
  rfl

theorem getElem?_drawRow (y : Nat) (row : String) (x : Nat) :
    (drawRow y row)[x]? =
      row.toList[x]?.map fun ch => ⟨.ofChar ch, .clamp x, .clamp y⟩ := by
  rw [drawRow, List.getElem?_map, List.getElem?_zipIdx, Option.map_map, Nat.zero_add]
  rfl

/-- In the row that `y` counts, `x` counts the character. -/
def DrawnAt (rows : List String) (p : Position) (ch : Char) : Prop :=
  ∃ x y : Nat, p.x.val = x ∧ p.y.val = y ∧
    ∃ row, rows[y]? = some row ∧ row.toList[x]? = some ch

/-- The drawing has the row that a place falls in, and that row reaches the place. -/
def Covers (rows : List String) (p : Position) : Prop :=
  0 ≤ p.y.val ∧ 0 ≤ p.x.val ∧
    ∃ inside : p.y.val.toNat < rows.length, p.x.val < rows[p.y.val.toNat].length

instance : Decidable (Covers rows p) := inferInstanceAs (Decidable (_ ∧ _ ∧ ∃ _, _))

theorem covers_iff : Covers rows p ↔ ∃ ch, DrawnAt rows p ch := by
  constructor
  · rintro ⟨hy, hx, inside, hreach⟩
    have hlt : p.x.val.toNat < rows[p.y.val.toNat].toList.length := by
      rw [String.length_toList]
      omega
    exact ⟨_, _, _, (Int.toNat_of_nonneg hx).symm, (Int.toNat_of_nonneg hy).symm, _,
      List.getElem?_eq_getElem inside, List.getElem?_eq_getElem hlt⟩
  · rintro ⟨ch, x, y, hx, hy, row, hrow, hch⟩
    obtain ⟨inside, rfl⟩ := List.getElem?_eq_some_iff.mp hrow
    obtain ⟨hlt, -⟩ := List.getElem?_eq_some_iff.mp hch
    rw [String.length_toList] at hlt
    unfold Covers
    simp only [hx, hy, Int.toNat_natCast]
    exact ⟨by omega, by omega, inside, by omega⟩

theorem cell?_ofRows_eq_some_iff :
    (ofRows rows).cell? p = some c ↔
      c.x = p.x ∧ c.y = p.y ∧ ∃ ch, DrawnAt rows p ch ∧ Denotes ch c.kind := by
  rw [cell?_eq_some_iff]
  constructor
  · rintro ⟨x, y, hx, hy, cells, hcells, hc⟩
    rw [getElem?_rows_ofRows] at hcells
    obtain ⟨row, hrow, rfl⟩ := Option.map_eq_some_iff.mp hcells
    rw [getElem?_drawRow] at hc
    obtain ⟨ch, hch, rfl⟩ := Option.map_eq_some_iff.mp hc
    exact ⟨Coord.clamp_of_val hx, Coord.clamp_of_val hy, ch, ⟨x, y, hx, hy, row, hrow, hch⟩,
      denotes_ofChar ch⟩
  · rintro ⟨hcx, hcy, ch, ⟨x, y, hx, hy, row, hrow, hch⟩, hkind⟩
    refine ⟨x, y, hx, hy, drawRow y row, ?_, ?_⟩
    · rw [getElem?_rows_ofRows, hrow]
      rfl
    · rw [getElem?_drawRow, hch, Option.map_some, denotes_iff.mp hkind, Coord.clamp_of_val hx,
        Coord.clamp_of_val hy, ← hcx, ← hcy]

theorem exists_cell?_ofRows_iff :
    (∃ c, (ofRows rows).cell? p = some c ∧ c.kind = k) ↔
      ∃ ch, DrawnAt rows p ch ∧ Denotes ch k := by
  constructor
  · rintro ⟨c, hc, rfl⟩
    exact (cell?_ofRows_eq_some_iff.mp hc).2.2
  · intro h
    exact ⟨⟨k, p.x, p.y⟩, cell?_ofRows_eq_some_iff.mpr ⟨rfl, rfl, h⟩, rfl⟩

theorem isSome_cell?_ofRows : ((ofRows rows).cell? p).isSome = true ↔ Covers rows p := by
  rw [Option.isSome_iff_exists, covers_iff]
  constructor
  · rintro ⟨c, hc⟩
    obtain ⟨-, -, ch, hch, -⟩ := cell?_ofRows_eq_some_iff.mp hc
    exact ⟨ch, hch⟩
  · rintro ⟨ch, hch⟩
    obtain ⟨c, hc, -⟩ := exists_cell?_ofRows_iff.mpr ⟨ch, hch, denotes_ofChar ch⟩
    exact ⟨c, hc⟩

theorem look_ofRows_eq_wall_iff : (ofRows rows).look p = .wall ↔ DrawnAt rows p '#' := by
  rw [look_eq_wall_iff, exists_cell?_ofRows_iff]
  simp only [denotes_wall_iff, exists_eq_right]

theorem look_ofRows_eq_outOfBounds_iff :
    (ofRows rows).look p = .outOfBounds ↔ ¬Covers rows p := by
  rw [look_eq_outOfBounds_iff, ← isSome_cell?_ofRows, Option.not_isSome_iff_eq_none]

theorem look_ofRows_eq_free_iff :
    (ofRows rows).look p = .free ↔ Covers rows p ∧ ¬DrawnAt rows p '#' := by
  constructor
  · intro hfree
    constructor
    · apply Classical.byContradiction
      intro hout
      rw [look_ofRows_eq_outOfBounds_iff.mpr hout] at hfree
      cases hfree
    · intro hwall
      rw [look_ofRows_eq_wall_iff.mpr hwall] at hfree
      cases hfree
  · rintro ⟨hcovers, hwall⟩
    cases hl : (ofRows rows).look p with
    | free => rfl
    | wall => exact absurd (look_ofRows_eq_wall_iff.mp hl) hwall
    | outOfBounds => exact absurd hcovers (look_ofRows_eq_outOfBounds_iff.mp hl)

/-- Coordinates can count the rows and the characters of each row: both are below `2 ^ 31`. -/
structure Short (rows : List String) : Prop where
  height : rows.length < 2147483648
  width : ∀ row ∈ rows, row.length < 2147483648

/-- The bounds on the drawing are needed here: a cell further out gives the last coordinate. -/
theorem cell?_of_mem (short : Short rows) {cells : List Cell} (hcells : cells ∈ (ofRows rows).rows)
    (hc : c ∈ cells) : (ofRows rows).cell? ⟨c.x, c.y⟩ = some c := by
  obtain ⟨y, hy⟩ := List.mem_iff_getElem?.mp hcells
  obtain ⟨x, hx⟩ := List.mem_iff_getElem?.mp hc
  rw [getElem?_rows_ofRows] at hy
  obtain ⟨row, hrow, rfl⟩ := Option.map_eq_some_iff.mp hy
  rw [getElem?_drawRow] at hx
  obtain ⟨ch, hch, rfl⟩ := Option.map_eq_some_iff.mp hx
  obtain ⟨hy, -⟩ := List.getElem?_eq_some_iff.mp hrow
  obtain ⟨hx, -⟩ := List.getElem?_eq_some_iff.mp hch
  rw [String.length_toList] at hx
  have hwidth : row.length < 2147483648 := short.width row (List.mem_of_getElem? hrow)
  apply cell?_ofRows_eq_some_iff.mpr
  refine ⟨rfl, rfl, ch, ⟨x, y, ?_, ?_, row, hrow, hch⟩, denotes_ofChar ch⟩
  · exact Coord.clamp_val_of_lt (Nat.lt_trans hx hwidth)
  · exact Coord.clamp_val_of_lt (Nat.lt_trans hy short.height)

end

/-- Every place of a drawn grid looks as it was drawn, however long the rows are; and in a short
drawing no cell is anywhere but where it says. -/
theorem looks_as_drawn (rows : List String) :
    (∀ p, ((ofRows rows).cell? p).isSome = true ↔ Covers rows p) ∧
      (∀ p c, (ofRows rows).cell? p = some c ↔
        c.x = p.x ∧ c.y = p.y ∧ ∃ ch, DrawnAt rows p ch ∧ Denotes ch c.kind) ∧
      (∀ p, ((ofRows rows).look p = .wall ↔ DrawnAt rows p '#') ∧
        ((ofRows rows).look p = .free ↔ Covers rows p ∧ ¬DrawnAt rows p '#') ∧
        ((ofRows rows).look p = .outOfBounds ↔ ¬Covers rows p)) ∧
      (Short rows → ∀ cells ∈ (ofRows rows).rows, ∀ c ∈ cells,
        (ofRows rows).cell? ⟨c.x, c.y⟩ = some c) := by
  refine ⟨?_, ?_, ?_, ?_⟩
  · intro p
    exact isSome_cell?_ofRows
  · intro p c
    exact cell?_ofRows_eq_some_iff
  · intro p
    exact ⟨look_ofRows_eq_wall_iff, look_ofRows_eq_free_iff, look_ofRows_eq_outOfBounds_iff⟩
  · intro short cells hcells c hc
    exact cell?_of_mem short hcells hc

/-- A row is empty, and the last one has characters of one, of two and of four bytes. -/
def hamlet : List String := ["S.#", "", "é#😀G"]

theorem hamlet_looks_as_drawn :
    Short hamlet ∧
      (∀ cells ∈ (ofRows hamlet).rows, ∀ c ∈ cells, (ofRows hamlet).cell? ⟨c.x, c.y⟩ = some c) ∧
      (ofRows hamlet).cell? ⟨.clamp 3, .clamp 2⟩ = some ⟨.goal, .clamp 3, .clamp 2⟩ ∧
      (ofRows hamlet).look ⟨.clamp 1, .clamp 2⟩ = .wall ∧
      (ofRows hamlet).look ⟨.clamp 4, .clamp 2⟩ = .outOfBounds ∧
      (ofRows hamlet).look ⟨0, .clamp 1⟩ = .outOfBounds := by
  have short : Short hamlet := ⟨by decide, by decide⟩
  obtain ⟨-, found, looks, placed⟩ := looks_as_drawn hamlet
  refine ⟨short, placed short, ?_, ?_, ?_, ?_⟩
  · exact (found _ _).mpr ⟨rfl, rfl, 'G', ⟨3, 2, rfl, rfl, _, rfl, by decide⟩, .goal⟩
  · exact (looks _).1.mpr ⟨1, 2, rfl, rfl, _, rfl, by decide⟩
  · exact (looks _).2.2.mpr (by decide)
  · exact (looks _).2.2.mpr (by decide)

end Grid
end Flowgraph
