import QuantityCalculus.Proofs.Decimal.Numeral
import QuantityCalculus.Proofs.Fraction.Writing
import QuantityCalculus.Proofs.Text.Words

/-!
# Reading a mixed number back

In exact arithmetic a term is read as the integer or the fraction that it is written for, and the terms add up to the number
(`exists_read`). So what is written is read back, as the allowed fraction that is nearest to what was to be written
(`read_write_nearest`).
-/

namespace QuantityCalculus.Fraction

open ExactNumeric Decimal Text

/-! ## Terms -/

/-- A digit is not blank. -/
theorem isBlank_of_isDigit {c : Char} (h : c.isDigit = true) : isBlank c = false := by
  have hall : (['0', '1', '2', '3', '4', '5', '6', '7', '8', '9'].all fun c => !isBlank c) = true := by decide
  simpa using List.all_eq_true.1 hall c (mem_digits h)

/-- The digits of a natural number are read as an exact number. -/
theorem exists_readPiece {F : Type} [ExactNumeric F] (n : ℕ) : ∃ y : F, readPiece (Nat.toDigits 10 n) = some y ∧ toRat y = n := by
  refine ⟨Numeric.ofDecimal n 0, ?_, by rw [toRat_ofDecimal, zpow_zero, mul_one]⟩
  have hall : (Nat.toDigits 10 n).all (fun c => c.isDigit || c == '.') = true := by
    refine List.all_eq_true.2 fun c hc => ?_
    rw [isDigit_of_mem_toDigits hc, Bool.true_or]
  have hhead : ∀ c ∈ (Nat.toDigits 10 n).head?, c.isDigit = true := fun c hc => isDigit_of_mem_toDigits (List.mem_of_head? hc)
  unfold readPiece Numeric.read Numeral.read
  rw [if_pos hall, readSign_digits hhead]
  dsimp only
  rw [readMagnitude_toDigits]
  rfl

/-- Characters other than slashes continue a piece. -/
theorem piecesAfter_append {cs : List Char} (h : ∀ c ∈ cs, c ≠ '/') (piece rest : List Char) :
    piecesAfter piece (cs ++ rest) = piecesAfter (piece ++ cs) rest := by
  induction cs generalizing piece with
  | nil => rw [List.nil_append, List.append_nil]
  | cons c cs ih =>
    have hc : ¬(c == '/') = true := fun heq => h c (List.mem_cons_self ..) (eq_of_beq heq)
    rw [List.cons_append, piecesAfter, if_neg hc, ih (fun d hd => h d (List.mem_cons_of_mem _ hd)), List.append_assoc,
      List.singleton_append]

/-- Digits are no slashes. -/
theorem ne_slash_of_mem_toDigits {n : ℕ} {c : Char} (h : c ∈ Nat.toDigits 10 n) : c ≠ '/' := by
  rintro rfl
  nomatch isDigit_of_mem_toDigits h

/-- The pieces of digits. -/
theorem pieces_toDigits (n : ℕ) : piecesAfter [] (Nat.toDigits 10 n) = [Nat.toDigits 10 n] := by
  have hpieces := piecesAfter_append (fun _ => ne_slash_of_mem_toDigits (n := n)) [] []
  rwa [List.append_nil, List.nil_append] at hpieces

/-- The pieces of digits around a slash. -/
theorem pieces_fraction (p q : ℕ) :
    piecesAfter [] (Nat.toDigits 10 p ++ '/' :: Nat.toDigits 10 q) = [Nat.toDigits 10 p, Nat.toDigits 10 q] := by
  rw [piecesAfter_append fun _ => ne_slash_of_mem_toDigits, List.nil_append, piecesAfter, if_pos (beq_self_eq_true _),
    pieces_toDigits]

/-- The sign of a term. -/
def signOf (negative : Bool) : List Char := if negative then ['-'] else []

/-- A rational with a sign. -/
def signed (negative : Bool) (q : ℚ) : ℚ := if negative then -q else q

/-- A term: a word with digits that is read as a rational. -/
structure ReadsAs (F : Type) [ExactNumeric F] (w : List Char) (q : ℚ) : Prop where
  hasDigit : ∃ c ∈ w, c.isDigit = true
  noBlank : ∀ c ∈ w, isBlank c = false
  reads : ∃ y : F, readTerm w = some y ∧ toRat y = q

variable {F : Type} [ExactNumeric F]

/-- The sign of a term is read. -/
theorem readSign_signOf (negative : Bool) {cs : List Char} (h : ∀ c ∈ cs.head?, c.isDigit = true) :
    readSign (signOf negative ++ cs) = (negative, cs) := by
  cases negative with
  | false => exact readSign_digits h
  | true => rfl

/-- Signs, digits and slashes are not blank. -/
theorem isBlank_of_mem_term {negative : Bool} {cs : List Char} (h : ∀ c ∈ cs, c.isDigit = true ∨ c = '/') :
    ∀ c ∈ signOf negative ++ cs, isBlank c = false := by
  have hmarks : isBlank '-' = false ∧ isBlank '/' = false := by decide
  intro c hc
  rcases List.mem_append.1 hc with hc | hc
  · cases negative with
    | false => nomatch hc
    | true =>
      obtain rfl := List.mem_singleton.1 hc
      exact hmarks.1
  · rcases h c hc with hdigit | rfl
    · exact isBlank_of_isDigit hdigit
    · exact hmarks.2

/-- A number that starts with a digit and has no blanks is a term if its pieces are read. -/
theorem readsAs_of_pieces (negative : Bool) {cs : List Char} (hne : cs ≠ []) (hhead : ∀ c ∈ cs.head?, c.isDigit = true)
    (h : ∀ c ∈ cs, c.isDigit = true ∨ c = '/') {x : F} {divisors : List F}
    (hpieces : (piecesAfter [] cs).mapM readPiece = some (x :: divisors)) :
    ReadsAs F (signOf negative ++ cs) (signed negative (toRat (divisors.foldl (· / ·) x))) where
  hasDigit := by
    obtain ⟨c, cs, rfl⟩ := List.exists_cons_of_ne_nil hne
    exact ⟨c, List.mem_append_right _ (List.mem_cons_self ..), hhead c rfl⟩
  noBlank := isBlank_of_mem_term h
  reads := by
    unfold readTerm
    rw [readSign_signOf negative hhead]
    dsimp only
    rw [hpieces]
    cases negative with
    | false => exact ⟨_, rfl, rfl⟩
    | true => exact ⟨_, rfl, toRat_neg _⟩

/-- Digits with a sign are a term for the integer. -/
theorem readsAs_integer (negative : Bool) (n : ℕ) : ReadsAs F (signOf negative ++ Nat.toDigits 10 n) (signed negative n) := by
  obtain ⟨x, hx, hxRat⟩ := exists_readPiece (F := F) n
  have hpieces : (piecesAfter [] (Nat.toDigits 10 n)).mapM readPiece = some [x] := by
    rw [pieces_toDigits]
    simp [hx]
  rw [← hxRat]
  exact readsAs_of_pieces negative Nat.toDigits_ne_nil (fun c hc => isDigit_of_mem_toDigits (List.mem_of_head? hc))
    (fun c hc => .inl (isDigit_of_mem_toDigits hc)) hpieces

/-- Digits around a slash with a sign are a term for the fraction. -/
theorem readsAs_fraction (negative : Bool) (p : ℕ) {q : ℕ} (hq : 0 < q) :
    ReadsAs F (signOf negative ++ (Nat.toDigits 10 p ++ '/' :: Nat.toDigits 10 q)) (signed negative (p / q)) := by
  obtain ⟨x, hx, hxRat⟩ := exists_readPiece (F := F) p
  obtain ⟨y, hy, hyRat⟩ := exists_readPiece (F := F) q
  have hpieces : (piecesAfter [] (Nat.toDigits 10 p ++ '/' :: Nat.toDigits 10 q)).mapM readPiece = some [x, y] := by
    rw [pieces_fraction]
    simp [hx, hy]
  have hquotient : toRat (x / y) = p / q := by
    rw [toRat_div _ _ (by rw [hyRat]; exact_mod_cast hq.ne'), hxRat, hyRat]
  rw [← hquotient]
  refine readsAs_of_pieces negative (List.append_ne_nil_of_left_ne_nil Nat.toDigits_ne_nil _) (fun c hc => ?_) (fun c hc => ?_)
    hpieces
  · rw [List.head?_append_of_ne_nil _ Nat.toDigits_ne_nil] at hc
    exact isDigit_of_mem_toDigits (List.mem_of_head? hc)
  · rcases List.mem_append.1 hc with hc | hc
    · exact .inl (isDigit_of_mem_toDigits hc)
    rcases List.mem_cons.1 hc with rfl | hc
    · exact .inr rfl
    · exact .inl (isDigit_of_mem_toDigits hc)

/-! ## Sums of terms -/

/-- Terms are added up. -/
theorem exists_readTerms {ts : List (List Char × ℚ)} (h : ∀ t ∈ ts, ReadsAs F t.1 t.2) (total : F) :
    ∃ v, readTerms total (ts.map (·.1)) = some v ∧ toRat v = toRat total + (ts.map (·.2)).sum := by
  induction ts generalizing total with
  | nil => exact ⟨total, rfl, (add_zero _).symm⟩
  | cons t ts ih =>
    obtain ⟨y, hy, hyRat⟩ := (h t (List.mem_cons_self ..)).reads
    obtain ⟨v, hv, hvRat⟩ := ih (fun t' ht' => h t' (List.mem_cons_of_mem _ ht')) (total + y)
    refine ⟨v, ?_, by rw [hvRat, toRat_add, hyRat, List.map_cons, List.sum_cons, add_assoc]⟩
    rw [List.map_cons, readTerms, hy]
    exact hv

/-- A text of terms with spaces between them is read as their sum. -/
theorem exists_read {text : String} {q : ℚ} {ts : List (List Char × ℚ)} (hne : ts ≠ []) (h : ∀ t ∈ ts, ReadsAs F t.1 t.2)
    (htext : text.toList = [' '].intercalate (ts.map (·.1))) (hsum : (ts.map (·.2)).sum = q) :
    ∃ v : F, read text = .ok v ∧ toRat v = q := by
  have hwords : ∀ w ∈ ts.map (·.1), w ≠ [] ∧ ∀ c ∈ w, isBlank c = false := by
    refine List.forall_mem_map.2 fun t ht => ?_
    obtain ⟨c, hc, -⟩ := (h t ht).hasDigit
    exact ⟨List.ne_nil_of_mem hc, (h t ht).noBlank⟩
  have htrim : trim text.toList = text.toList := by rw [htext, trim_intercalate hwords]
  have hdigit : ∃ c ∈ text.toList, c.isDigit = true := by
    have hne' : ts.map (·.1) ≠ [] := fun hnil => hne (List.map_eq_nil_iff.1 hnil)
    obtain ⟨before, hbefore⟩ := exists_intercalate_eq_append hne'
    obtain ⟨t, ht, hlast⟩ := List.mem_map.1 (List.getLast_mem hne')
    obtain ⟨c, hc, hdigit⟩ := (h t ht).hasDigit
    rw [htext, hbefore, ← hlast]
    exact ⟨c, List.mem_append_right _ hc, hdigit⟩
  have hother {word : String} (hword : word.toList.any Char.isDigit = false) : text ≠ word := by
    rintro rfl
    rw [List.any_eq_true.2 hdigit] at hword
    nomatch hword
  obtain ⟨v, hv, hvRat⟩ := exists_readTerms h 0
  refine ⟨v, ?_, by rw [hvRat, toRat_zero, zero_add, hsum]⟩
  unfold read
  rw [htrim]
  dsimp only
  rw [String.ofList_toList]
  split
  · exact absurd rfl (hother (by decide))
  · exact absurd rfl (hother (by decide))
  · exact absurd rfl (hother (by decide))
  · exact absurd rfl (hother (by decide))
  · rw [htext, words_intercalate hwords, hv]

/-- The sign of a sum of terms with one sign. -/
theorem signed_add (negative : Bool) (p q : ℚ) : signed negative p + signed negative q = signed negative (p + q) := by
  cases negative with
  | false => rfl
  | true => exact (neg_add p q).symm

/-- What spells a mixed number is read as that number with the sign of its terms. -/
theorem exists_read_of_spells {negative : Bool} {text : String} {magnitude : ℚ}
    (h : Spells (if negative then "-" else "") text magnitude) :
    ∃ v : F, read text = .ok v ∧ toRat v = signed negative magnitude := by
  have hsign : (if negative then "-" else "").toList = signOf negative := by cases negative <;> rfl
  generalize (if negative then "-" else "") = sign at h hsign
  cases h with
  | zero =>
    have hterms : ∀ t ∈ [(signOf false ++ Nat.toDigits 10 0, signed false (0 : ℕ))], ReadsAs F t.1 t.2 :=
      List.forall_mem_singleton.2 (readsAs_integer false 0)
    refine exists_read (List.cons_ne_nil _ _) hterms (by decide) ?_
    cases negative <;> simp [signed]
  | @integer n _ =>
    have hterms : ∀ t ∈ [(signOf negative ++ Nat.toDigits 10 n, signed negative n)], ReadsAs F t.1 t.2 :=
      List.forall_mem_singleton.2 (readsAs_integer negative n)
    exact exists_read (List.cons_ne_nil _ _) hterms (by simp [hsign]) List.sum_singleton
  | @fraction p q hp hpq _ =>
    have hterms : ∀ t ∈ [(signOf negative ++ (Nat.toDigits 10 p ++ '/' :: Nat.toDigits 10 q), signed negative (p / q))],
        ReadsAs F t.1 t.2 :=
      List.forall_mem_singleton.2 (readsAs_fraction negative p (hp.trans hpq))
    exact exists_read (List.cons_ne_nil _ _) hterms (by simp [hsign]) List.sum_singleton
  | @mixed n p q _ hp hpq _ =>
    have hterms : ∀ t ∈ [(signOf negative ++ Nat.toDigits 10 n, signed negative n),
        (signOf negative ++ (Nat.toDigits 10 p ++ '/' :: Nat.toDigits 10 q), signed negative (p / q))], ReadsAs F t.1 t.2 :=
      List.forall_mem_cons.2 ⟨readsAs_integer negative n,
        List.forall_mem_singleton.2 (readsAs_fraction negative p (hp.trans hpq))⟩
    refine exists_read (List.cons_ne_nil _ _) hterms (by simp [hsign]) ?_
    rw [List.map_cons, List.map_singleton, List.sum_cons, List.sum_singleton, signed_add]

/-! ## What is written -/

/-- Every exact number is written as a mixed number with its sign, which is read back; and that is the nearest of the fractions with
allowed denominators. -/
theorem read_write_nearest {F : Type} [ExactText F] (x : F) (b : Bounds) :
    ∃ (v : F) (magnitude : ℚ), read (write x b) = .ok v ∧
      toRat v = (if x < 0 then -magnitude else magnitude) ∧ Spells (if x < 0 then "-" else "") (write x b) magnitude ∧
      (∃ (n : ℤ) (d : ℕ), (d = 1 ∨ b.Allows d) ∧ toRat v = n / d) ∧
      ∀ (n : ℤ) (d : ℕ), d = 1 ∨ b.Allows d → |toRat x - toRat v| ≤ |toRat x - n / d| := by
  obtain ⟨magnitude, hspells, ⟨k, d₀, hd₀, hmagnitude⟩, hnearest⟩ := exists_spells_write x b
  have hchoice {α : Type} (a b : α) : (if x < 0 then a else b) = if decide (x < 0) then a else b := by
    simp only [decide_eq_true_iff]
  rw [hchoice] at hspells
  obtain ⟨v, hv, hvRat⟩ := exists_read_of_spells (F := F) hspells
  rw [← hchoice] at hspells
  rw [signed, ← hchoice] at hvRat
  refine ⟨v, magnitude, hv, hvRat, hspells, ?_, fun n d hd => ?_⟩
  · rw [hvRat]
    split
    · exact ⟨-k, d₀, Bounds.mem_denominators_iff.1 hd₀, by rw [hmagnitude]; push_cast; ring⟩
    · exact ⟨k, d₀, Bounds.mem_denominators_iff.1 hd₀, by rw [hmagnitude]; push_cast; ring⟩
  · have hle (m : ℤ) := hnearest m d (Bounds.mem_denominators_iff.2 hd)
    rw [hvRat]
    split
    · rename_i hneg
      rw [← toRat_neg_iff] at hneg
      have hflip (q : ℚ) : |toRat x - q| = |(|toRat x| - -q)| := by
        rw [abs_of_neg hneg, ← abs_neg]
        ring_nf
      rw [hflip, hflip (n / d), neg_neg, ← neg_div, ← Int.cast_neg]
      exact hle (-n)
    · rename_i hnonneg
      rw [← toRat_neg_iff, not_lt] at hnonneg
      have hle := hle n
      rwa [abs_of_nonneg hnonneg] at hle

example : write (-5 / 2 : ℚ) ⟨0, 8, 0⟩ = "-2 -1/2" := by decide +kernel

end QuantityCalculus.Fraction
