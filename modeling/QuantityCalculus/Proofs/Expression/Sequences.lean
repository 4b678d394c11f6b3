import QuantityCalculus.Proofs.Expression.Combinators

/-!
# Sequences and rows as chains

What stands between brackets, read as a chain of assignments with separators between them and a function that makes a tree of
the whole: the left-recursive rules of the grammar unrolled.
-/

namespace QuantityCalculus.Expression

variable {F : Type}

/-- A comma or a semicolon binds least of all. -/
theorem binding_of_separatorOf (s : Lexeme F) (b : Bool) (h : separatorOf s = some b) : binding s = some 0 := by
  cases s <;> first | rfl | nomatch h

/-! ## Sequences -/

/-- Elements are a chain of assignments. -/
theorem Derives.elements_chained {w : List (Lexeme F)} {t : Expression F} (h : Derives .elements w t) :
    ∃ chain, Chained (Derives .assignment) separatorOf (Derives .assignment) w chain ∧
      t = .sequence (chain.1 :: chain.2.map (·.2)) := by
  generalize hp : Phrase.elements = p at h
  induction h with
  | @element w e he => exact ⟨(e, []), ⟨w, [], by simp, he, .nil⟩, rfl⟩
  | @furtherElement w s v es e _ hs he ih _ =>
    obtain ⟨⟨x, links⟩, ⟨u, w', rfl, hx, hlinks⟩, heq⟩ := ih rfl
    obtain ⟨b, hb⟩ : ∃ b, separatorOf s = some b := by
      rcases hs with rfl | rfl
      · exact ⟨false, rfl⟩
      · exact ⟨true, rfl⟩
    refine ⟨(x, links ++ [(b, e)]), ⟨u, w' ++ s :: v, by simp, hx, hlinks.snoc hb he⟩, ?_⟩
    obtain rfl := Expression.sequence.inj heq
    simp
  | _ => nomatch hp

/-- Links continue elements. -/
theorem Derives.elements_append {u w : List (Lexeme F)} {es : List (Expression F)} {links : List (Bool × Expression F)}
    (h : Derives .elements u (.sequence es)) (hlinks : Links separatorOf (Derives .assignment) w links) :
    Derives .elements (u ++ w) (.sequence (es ++ links.map (·.2))) := by
  induction hlinks generalizing u es with
  | nil => simpa using h
  | @cons s b v x w links hb hx _ ih =>
    have hs : s = .comma ∨ s = .semicolon := by cases s <;> simp [separatorOf] at hb ⊢
    simpa using ih (h.furtherElement hs hx)

/-- A sequence is a chain of assignments, one of which stands for itself. -/
theorem derives_sequence_iff (w : List (Lexeme F)) (e : Expression F) :
    (∃ chain, Chained (Derives .assignment) separatorOf (Derives .assignment) w chain ∧ ofSequence chain = e) ↔
      Derives .sequence w e := by
  constructor
  · rintro ⟨⟨x, links⟩, ⟨u, v, rfl, hx, hlinks⟩, rfl⟩
    have h := Derives.elements_append (.element hx) hlinks
    cases links with
    | nil => exact .single h
    | cons link links => exact .several h
  · intro h
    cases h with
    | single h =>
      obtain ⟨⟨x, links⟩, hchain, heq⟩ := h.elements_chained
      obtain ⟨rfl, hlinks⟩ := List.cons.inj (Expression.sequence.inj heq)
      obtain rfl := List.map_eq_nil_iff.1 hlinks.symm
      exact ⟨_, hchain, rfl⟩
    | several h =>
      obtain ⟨⟨x, links⟩, hchain, heq⟩ := h.elements_chained
      obtain ⟨rfl, hlinks⟩ := List.cons.inj (Expression.sequence.inj heq)
      cases links with
      | nil => nomatch hlinks
      | cons link links => exact ⟨_, hchain, heq.symm⟩

/-! ## Rows -/

/-- There is a first row. -/
theorem exists_rowsOf_eq_cons (x : Expression F) (links : List (Bool × Expression F)) :
    ∃ first others, rowsOf x links = first :: others := by
  cases links with
  | nil => exact ⟨[x], [], rfl⟩
  | cons link links =>
    obtain ⟨_ | _, y⟩ := link
    · rw [rowsOf]
      split <;> exact ⟨_, _, rfl⟩
    · exact ⟨[x], rowsOf y links, rfl⟩

/-- A semicolon starts another row after those before it. -/
theorem rowsOf_append_semicolon (x y : Expression F) (links : List (Bool × Expression F)) :
    rowsOf x (links ++ [(true, y)]) = rowsOf x links ++ [[y]] := by
  induction links generalizing x with
  | nil => rfl
  | cons link links ih =>
    obtain ⟨_ | _, z⟩ := link
    · obtain ⟨first, others, h⟩ := exists_rowsOf_eq_cons z links
      simp only [List.cons_append, rowsOf, ih, h]
    · simp only [List.cons_append, rowsOf, ih]

/-- A comma continues the last row. -/
theorem rowsOf_append_comma (x y : Expression F) (links : List (Bool × Expression F)) :
    ∃ rows row, rowsOf x links = rows ++ [row] ∧ rowsOf x (links ++ [(false, y)]) = rows ++ [row ++ [y]] := by
  induction links generalizing x with
  | nil => exact ⟨[], [x], rfl, rfl⟩
  | cons link links ih =>
    obtain ⟨_ | _, z⟩ := link
    · obtain ⟨rows, row, h, h'⟩ := ih z
      simp only [List.cons_append, rowsOf, h, h']
      cases rows with
      | nil => exact ⟨[], x :: row, rfl, rfl⟩
      | cons first rows => exact ⟨(x :: first) :: rows, row, rfl, rfl⟩
    · obtain ⟨rows, row, h, h'⟩ := ih z
      exact ⟨[x] :: rows, row, by rw [rowsOf, h]; rfl, by rw [List.cons_append, rowsOf, h']; rfl⟩

/-- Rows are a chain of assignments. -/
theorem Derives.rows_chained {w : List (Lexeme F)} {t : Expression F} (h : Derives .rows w t) :
    ∃ chain, Chained (Derives .assignment) separatorOf (Derives .assignment) w chain ∧
      t = .list (rowsOf chain.1 chain.2) := by
  generalize hp : Phrase.rows = p at h
  induction h with
  | @row w e he => exact ⟨(e, []), ⟨w, [], by simp, he, .nil⟩, rfl⟩
  | @rowElement w v rows row e _ he ih _ =>
    obtain ⟨⟨x, links⟩, ⟨u, w', rfl, hx, hlinks⟩, heq⟩ := ih rfl
    refine ⟨(x, links ++ [(false, e)]), ⟨u, w' ++ .comma :: v, by simp, hx, hlinks.snoc rfl he⟩, ?_⟩
    obtain ⟨rows', row', hbefore, hafter⟩ := rowsOf_append_comma x e links
    obtain ⟨rfl, hrow⟩ := List.append_inj' (hbefore.symm.trans (Expression.list.inj heq).symm) rfl
    obtain rfl := (List.cons.inj hrow).1
    rw [hafter]
  | @furtherRow w v rows e _ he ih _ =>
    obtain ⟨⟨x, links⟩, ⟨u, w', rfl, hx, hlinks⟩, heq⟩ := ih rfl
    refine ⟨(x, links ++ [(true, e)]), ⟨u, w' ++ .semicolon :: v, by simp, hx, hlinks.snoc rfl he⟩, ?_⟩
    rw [rowsOf_append_semicolon, Expression.list.inj heq]
  | _ => nomatch hp

/-- Links continue rows: up to the first semicolon, they continue the last row. -/
theorem Derives.rows_append {u w : List (Lexeme F)} {rows : List (List (Expression F))} {row : List (Expression F)}
    {x : Expression F} {links : List (Bool × Expression F)} {first : List (Expression F)}
    {others : List (List (Expression F))} (h : Derives .rows u (.list (rows ++ [row ++ [x]])))
    (hlinks : Links separatorOf (Derives .assignment) w links) (hrows : rowsOf x links = first :: others) :
    Derives .rows (u ++ w) (.list (rows ++ (row ++ first) :: others)) := by
  induction hlinks generalizing u rows row x first others with
  | nil =>
    obtain ⟨rfl, rfl⟩ := List.cons.inj hrows
    simpa using h
  | @cons s b v y w links hb hy _ ih =>
    obtain ⟨first', others', hrows'⟩ := exists_rowsOf_eq_cons y links
    cases b with
    | true =>
      obtain rfl : s = .semicolon := by cases s <;> simp [separatorOf] at hb ⊢
      rw [rowsOf, hrows'] at hrows
      obtain ⟨rfl, rfl⟩ := List.cons.inj hrows
      have hnext : Derives .rows (u ++ .semicolon :: v) (.list ((rows ++ [row ++ [x]]) ++ [[] ++ [y]])) :=
        h.furtherRow hy
      simpa using ih hnext hrows'
    | false =>
      obtain rfl : s = .comma := by cases s <;> simp [separatorOf] at hb ⊢
      rw [rowsOf, hrows'] at hrows
      obtain ⟨rfl, rfl⟩ := List.cons.inj hrows
      simpa using ih (h.rowElement hy) hrows'

/-- Rows are exactly the chains of assignments. -/
theorem derives_rows_iff (w : List (Lexeme F)) (rows : List (List (Expression F))) :
    (∃ chain, Chained (Derives .assignment) separatorOf (Derives .assignment) w chain ∧
      rowsOf chain.1 chain.2 = rows) ↔ Derives .rows w (.list rows) := by
  constructor
  · rintro ⟨⟨x, links⟩, ⟨u, v, rfl, hx, hlinks⟩, rfl⟩
    obtain ⟨first, others, hrows⟩ := exists_rowsOf_eq_cons x links
    have hfirst : Derives .rows u (.list ([] ++ [[] ++ [x]])) := .row hx
    simpa [hrows] using hfirst.rows_append hlinks hrows
  · intro h
    obtain ⟨chain, hchain, heq⟩ := h.rows_chained
    exact ⟨chain, hchain, (Expression.list.inj heq).symm⟩

end QuantityCalculus.Expression
