import QuantityCalculus.Proofs.Matrix.Entries

/-!
# Reshaping of matrices

A matrix is made of rows of one length, and what is made of matrices has rows of one length again (`Constructed.rectangular`). The elements
in all places decide which matrix it is (`HasSize.ext`): transposing exchanges the two indices of a place, and a minor skips one row and one
column, so that the two can be exchanged (`HasSize.minor_transpose`).
-/

namespace QuantityCalculus

/-- Elements have a common one if they are all equal to one. -/
theorem isSome_commonElement?_iff {α : Type} [BEq α] [LawfulBEq α] {xs : List α} (hne : xs ≠ []) :
    (commonElement? xs).isSome ↔ ∃ x, ∀ y ∈ xs, y = x := by
  cases xs with
  | nil => exact absurd rfl hne
  | cons x xs =>
    have hall : (commonElement? (x :: xs)).isSome ↔ ∀ y ∈ xs, x = y := by
      simp [commonElement?]
    rw [hall]
    constructor
    · exact fun h => ⟨x, List.forall_mem_cons.2 ⟨rfl, fun y hy => (h y hy).symm⟩⟩
    · rintro ⟨z, hz⟩ y hy
      rw [hz y (List.mem_cons_of_mem x hy), hz x (List.mem_cons_self ..)]

namespace Matrix

variable {α β : Type} {m m' : Matrix α} {h w : ℕ}

/-! ## Rows of one length -/

/-- Rows make a matrix if they have one length, and then it is the matrix with these rows. -/
theorem ofRows?_eq_some_iff {rows : List (List α)} :
    ofRows? rows = some m ↔ m.rows = rows ∧ ∃ width, ∀ row ∈ rows, row.length = width := by
  have hlengths : (rows.isEmpty || (commonElement? (rows.map List.length)).isSome) = true ↔
      ∃ width, ∀ row ∈ rows, row.length = width := by
    cases rows with
    | nil => exact iff_of_true rfl ⟨0, nofun⟩
    | cons row rows =>
      rw [List.isEmpty_cons, Bool.false_or, List.map_cons, isSome_commonElement?_iff (List.cons_ne_nil _ _), ← List.map_cons]
      simp only [List.forall_mem_map]
  unfold ofRows?
  split
  · rename_i hlength
    obtain ⟨rows'⟩ := m
    rw [Option.some.injEq, Matrix.mk.injEq, eq_comm]
    exact (and_iff_left (hlengths.1 hlength)).symm
  · rename_i hlength
    exact iff_of_false nofun fun hrows => hlength (hlengths.2 hrows.2)

/-- A matrix with a size has rows of one length. -/
theorem HasSize.rectangular (hm : m.HasSize h w) : m.Rectangular := ⟨w, hm.width⟩

/-- A matrix with rows of one length has a size. -/
theorem Rectangular.exists_hasSize (hm : m.Rectangular) : ∃ w, m.HasSize m.height w := by
  obtain ⟨w, hw⟩ := hm
  exact ⟨w, rfl, hw⟩

/-- A matrix without rows has no columns. -/
theorem width_eq_zero (hzero : m.height = 0) : m.width = 0 := by
  rw [width, List.eq_nil_of_length_eq_zero hzero]
  rfl

/-- The number of columns is the length of the rows, if there are any. -/
theorem HasSize.width_eq (hm : m.HasSize h w) (hpos : 0 < h) : m.width = w := by
  obtain ⟨f, rfl⟩ := hm.exists_eq_ofEntries
  obtain ⟨h, rfl⟩ := Nat.exists_eq_add_one_of_ne_zero hpos.ne'
  exact width_ofEntries f

/-- A matrix has elements if it has rows and columns. -/
theorem HasSize.isEmpty_eq_false_iff (hm : m.HasSize h w) : m.isEmpty = false ↔ 0 < h ∧ 0 < w := by
  rw [isEmpty, beq_eq_false_iff_ne, ← Nat.pos_iff_ne_zero]
  rcases Nat.eq_zero_or_pos h with rfl | hpos
  · rw [width_eq_zero hm.height]
    exact iff_of_false (Nat.lt_irrefl 0) fun h => Nat.lt_irrefl 0 h.1
  · rw [hm.width_eq hpos]
    exact (and_iff_right hpos).symm

/-! ## Sizes -/

/-- The images of the elements have the same size. -/
theorem HasSize.map (hm : m.HasSize h w) (f : α → β) : (m.map f).HasSize h w where
  height := (List.length_map ..).trans hm.height
  width := List.forall_mem_map.2 fun row hrow => (List.length_map ..).trans (hm.width row hrow)

/-- A matrix that is given by a function has the size that is asked for. -/
theorem hasSize_ofFn (h w : ℕ) (f : ℕ → ℕ → α) : (ofFn h w f).HasSize h w := by
  rw [ofFn_eq_ofEntries]
  exact hasSize_ofEntries _

/-- Without a row and a column, a matrix has one less of each if they were there. -/
theorem HasSize.minor (hm : m.HasSize h w) (i j : ℕ) :
    (m.minor i j).HasSize (if i < h then h - 1 else h) (if j < w then w - 1 else w) where
  height := by
    rw [← hm.height]
    exact (List.length_map ..).trans (List.length_eraseIdx ..)
  width := by
    refine List.forall_mem_map.2 fun row hrow => ?_
    rw [List.length_eraseIdx, hm.width row (List.mem_of_mem_eraseIdx hrow)]

/-- The transpose has as many rows as there were columns, and as many columns as there were rows. -/
theorem HasSize.transpose (hm : m.HasSize h w) (hpos : 0 < h) : m.transpose.HasSize w h := by
  obtain ⟨f, rfl⟩ := hm.exists_eq_ofEntries
  obtain ⟨h, rfl⟩ := Nat.exists_eq_add_one_of_ne_zero hpos.ne'
  rw [transpose_ofEntries]
  exact hasSize_ofEntries _

/-- Matrices as they are made: of rows of one length or by a function of the place, and from there on by images, minors and transposes. -/
inductive Constructed : {α : Type} → Matrix α → Prop
  | ofRows {α : Type} {rows : List (List α)} {m : Matrix α} : ofRows? rows = some m → Constructed m
  | ofFn {α : Type} (h w : ℕ) (f : ℕ → ℕ → α) : Constructed (ofFn h w f)
  | map {α β : Type} {m : Matrix α} (f : α → β) : Constructed m → Constructed (m.map f)
  | minor {α : Type} {m : Matrix α} (i j : ℕ) : Constructed m → Constructed (m.minor i j)
  | transpose {α : Type} {m : Matrix α} : Constructed m → Constructed m.transpose

/-- All matrices that are made have rows of one length. -/
theorem Constructed.rectangular {α : Type} {m : Matrix α} (hm : Constructed m) : m.Rectangular := by
  induction hm with
  | ofRows hrows =>
    obtain ⟨rfl, hwidth⟩ := ofRows?_eq_some_iff.1 hrows
    exact hwidth
  | ofFn h w f => exact (hasSize_ofFn h w f).rectangular
  | map f _ ih =>
    obtain ⟨w, hm⟩ := ih.exists_hasSize
    exact (hm.map f).rectangular
  | minor i j _ ih =>
    obtain ⟨w, hm⟩ := ih.exists_hasSize
    exact (hm.minor i j).rectangular
  | @transpose α m _ ih =>
    obtain ⟨w, hm⟩ := ih.exists_hasSize
    rcases Nat.eq_zero_or_pos m.height with hzero | hpos
    · -- without rows there are no columns to make rows of
      refine ⟨0, ?_⟩
      rw [Matrix.transpose, width_eq_zero hzero]
      exact nofun
    · exact (hm.transpose hpos).rectangular

/-! ## Places -/

/-- There is an entry in every place, and nothing elsewhere. -/
theorem get?_ofEntries_eq (f : Fin h → Fin w → α) (y x : ℕ) :
    (ofEntries f).get? y x = if hp : y < h ∧ x < w then some (f ⟨y, hp.1⟩ ⟨x, hp.2⟩) else none := by
  unfold get? ofEntries
  rw [List.getElem?_ofFn]
  by_cases hy : y < h
  · rw [dif_pos hy, Option.bind_some, List.getElem?_ofFn]
    by_cases hx : x < w
    · rw [dif_pos hx, dif_pos ⟨hy, hx⟩]
    · rw [dif_neg hx, dif_neg fun hp => hx hp.2]
  · rw [dif_neg hy, dif_neg fun hp => hy hp.1, Option.bind_none]

/-- There is an element in every row and column of the matrix, and nowhere else. -/
theorem HasSize.isSome_get?_iff (hm : m.HasSize h w) {y x : ℕ} : (m.get? y x).isSome ↔ y < h ∧ x < w := by
  obtain ⟨f, rfl⟩ := hm.exists_eq_ofEntries
  rw [get?_ofEntries_eq]
  split
  · rename_i hp
    exact iff_of_true rfl hp
  · rename_i hp
    exact iff_of_false nofun hp

/-- Matrices of one size with the same elements are the same. -/
theorem HasSize.ext (hm : m.HasSize h w) (hm' : m'.HasSize h w) (hget : ∀ y x, m.get? y x = m'.get? y x) : m = m' := by
  obtain ⟨f, rfl⟩ := hm.exists_eq_ofEntries
  obtain ⟨g, rfl⟩ := hm'.exists_eq_ofEntries
  congr 1
  funext y x
  have hentry := hget y x
  rw [get?_ofEntries, get?_ofEntries] at hentry
  exact Option.some.inj hentry

/-- The transpose has the elements in the exchanged places. -/
theorem HasSize.get?_transpose (hm : m.HasSize h w) (hpos : 0 < h) (x y : ℕ) : m.transpose.get? x y = m.get? y x := by
  obtain ⟨f, rfl⟩ := hm.exists_eq_ofEntries
  obtain ⟨h, rfl⟩ := Nat.exists_eq_add_one_of_ne_zero hpos.ne'
  rw [transpose_ofEntries, get?_ofEntries_eq, get?_ofEntries_eq]
  simp only [and_comm]

/-- The row and the column that a minor leaves out are skipped. -/
theorem get?_minor (m : Matrix α) (i j y x : ℕ) :
    (m.minor i j).get? y x = m.get? (if y < i then y else y + 1) (if x < j then x else x + 1) := by
  have hrow (row : List α) : (row.eraseIdx j)[x]? = row[if x < j then x else x + 1]? := by
    rw [List.getElem?_eraseIdx]
    split <;> rfl
  have hrows : (m.rows.eraseIdx i)[y]? = m.rows[if y < i then y else y + 1]? := by
    rw [List.getElem?_eraseIdx]
    split <;> rfl
  unfold get? minor
  rw [List.getElem?_map, hrows, Option.bind_map]
  simp only [Function.comp_def, hrow]

/-- A matrix with elements is transposed back. -/
theorem HasSize.transpose_transpose (hm : m.HasSize h w) (hheight : 0 < h) (hwidth : 0 < w) : m.transpose.transpose = m := by
  have ht := hm.transpose hheight
  refine (ht.transpose hwidth).ext hm fun y x => ?_
  rw [ht.get?_transpose hwidth, hm.get?_transpose hheight]

/-- Where rows and columns are left, the transpose of a minor is the minor of the transpose. -/
theorem HasSize.minor_transpose (hm : m.HasSize h w) (hheight : 2 ≤ h) (i j : ℕ) :
    m.transpose.minor j i = (m.minor i j).transpose := by
  have hpos : 0 < h := by omega
  have hminor : 0 < if i < h then h - 1 else h := by
    split <;> omega
  refine ((hm.transpose hpos).minor j i).ext ((hm.minor i j).transpose hminor) fun x y => ?_
  rw [get?_minor, hm.get?_transpose hpos, (hm.minor i j).get?_transpose hminor, get?_minor]

/-- Matrices are rectangular, and reshaping takes each element to its place. Rows make a matrix if and only if they have one length, and
whatever is made from there on has rows of one length. The transpose of a matrix with elements has them in the exchanged places, with height
and width exchanged, and its own transpose is the matrix again; a minor skips one row and one column; and with two rows and columns at least,
the minor of the transpose is the transpose of the minor. -/
theorem reshaping_places_elements {α : Type} :
    (∀ (rows : List (List α)) (m : Matrix α),
      ofRows? rows = some m ↔ m.rows = rows ∧ ∃ width, ∀ row ∈ rows, row.length = width) ∧
    ∀ m : Matrix α, Constructed m →
      m.Rectangular ∧ (∀ y x, (m.get? y x).isSome ↔ y < m.height ∧ x < m.width) ∧
      (m.isEmpty = false → (∀ y x, m.transpose.get? x y = m.get? y x) ∧
        m.transpose.height = m.width ∧ m.transpose.width = m.height ∧ m.transpose.transpose = m) ∧
      (∀ i j y x, (m.minor i j).get? y x = m.get? (if y < i then y else y + 1) (if x < j then x else x + 1)) ∧
      (2 ≤ m.height → 2 ≤ m.width → ∀ i j, m.transpose.minor j i = (m.minor i j).transpose) := by
  refine ⟨fun _ _ => ofRows?_eq_some_iff, fun m hm => ?_⟩
  obtain ⟨w, hsize⟩ := hm.rectangular.exists_hasSize
  refine ⟨hm.rectangular, fun y x => ?_, fun hne => ?_, get?_minor m, fun hheight _ => hsize.minor_transpose hheight⟩
  · rw [hsize.isSome_get?_iff]
    exact and_congr_right fun hy => by rw [hsize.width_eq (Nat.zero_lt_of_lt hy)]
  · obtain ⟨hheight, hwidth⟩ := hsize.isEmpty_eq_false_iff.1 hne
    have htranspose := hsize.transpose hheight
    refine ⟨fun y x => hsize.get?_transpose hheight x y, ?_, htranspose.width_eq hwidth, hsize.transpose_transpose hheight hwidth⟩
    rw [htranspose.height, hsize.width_eq hheight]

/-- Two rows of three, each element doubled. -/
def sixDoubles : Matrix ℕ := (Matrix.mk [[1, 2, 3], [4, 5, 6]]).map (2 * ·)

/-- The doubles are transposed to three rows of two, and lose the first row and the second column before or after. -/
theorem reshaping_of_sixDoubles :
    (ofRows? [[1, 2, 3], [4, 5, 6]] = some (Matrix.mk [[1, 2, 3], [4, 5, 6]]) ∧ Constructed sixDoubles) ∧
      (sixDoubles.isEmpty = false ∧ 2 ≤ sixDoubles.height ∧ 2 ≤ sixDoubles.width) ∧
      sixDoubles.transpose.get? 2 0 = some 6 ∧ sixDoubles.transpose.transpose = sixDoubles ∧
      sixDoubles.transpose.minor 1 0 = (sixDoubles.minor 0 1).transpose := by
  have hrows : ofRows? [[1, 2, 3], [4, 5, 6]] = some (Matrix.mk [[1, 2, 3], [4, 5, 6]]) :=
    (reshaping_places_elements.1 _ _).2 ⟨rfl, 3, by decide⟩
  have hmade : Constructed sixDoubles := .map _ (.ofRows hrows)
  obtain ⟨-, -, htranspose, -, hminor⟩ := reshaping_places_elements.2 sixDoubles hmade
  obtain ⟨hplaces, -, -, hback⟩ := htranspose (by decide)
  exact ⟨⟨hrows, hmade⟩, by decide, hplaces 0 2, hback, hminor (by decide) (by decide) 0 1⟩

end Matrix

end QuantityCalculus
