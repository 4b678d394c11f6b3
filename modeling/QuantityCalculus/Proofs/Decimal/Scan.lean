import QuantityCalculus.Decimal.Numeral
import QuantityCalculus.Decimal.Scan

/-!
# Numerals are scanned as far as they go

The shape of integers and mantissas, and that scanning finds one exactly where the text starts with it and no further digit
follows.
-/

namespace QuantityCalculus.Decimal

/-- No digit of any script comes next. -/
def NoDigit (rest : List Char) : Prop := ∀ c ∈ rest.head?, Text.isDecimalDigit c = false

/-- Nothing, a plus or a minus. -/
inductive IsSign : List Char → Prop
  | none : IsSign []
  | plus : IsSign ['+']
  | minus : IsSign ['-']

/-- Digits, or digits and places around a point. -/
inductive IsMantissa : List Char → Prop
  | whole {ds} : ds ≠ [] → (∀ c ∈ ds, Text.isDecimalDigit c = true) → IsMantissa ds
  | places {ds es} : ds ≠ [] ∨ es ≠ [] → (∀ c ∈ ds, Text.isDecimalDigit c = true) →
      (∀ c ∈ es, Text.isDecimalDigit c = true) → IsMantissa (ds ++ '.' :: es)

/-- The digits with a value. -/
theorem mem_digits {c : Char} (h : c.isDigit = true) : c ∈ ['0', '1', '2', '3', '4', '5', '6', '7', '8', '9'] := by
  have hcode : ∀ n ≤ 57, 48 ≤ n → Char.ofNat n ∈ ['0', '1', '2', '3', '4', '5', '6', '7', '8', '9'] := by decide
  have hbounds : 48 ≤ c.toNat ∧ c.toNat ≤ 57 := by
    simpa [Char.isDigit, UInt32.le_iff_toNat_le] using h
  rw [← Char.ofNat_toNat c]
  exact hcode _ hbounds.2 hbounds.1

/-- A digit with a value is a digit. -/
theorem isDecimalDigit_of_isDigit {c : Char} (h : c.isDigit = true) : Text.isDecimalDigit c = true := by
  have hall : (['0', '1', '2', '3', '4', '5', '6', '7', '8', '9'].all Text.isDecimalDigit) = true := by decide +kernel
  exact List.all_eq_true.1 hall c (mem_digits h)

/-- Signs and points are no digits. -/
theorem isDecimalDigit_marks : Text.isDecimalDigit '+' = false ∧ Text.isDecimalDigit '-' = false ∧
    Text.isDecimalDigit '.' = false := by decide +kernel

/-! ## Digits -/

/-- Digits are read up to what does not continue them. -/
theorem spanDigits_append {ds rest : List Char} (h : ∀ c ∈ ds, Text.isDecimalDigit c = true) (hrest : NoDigit rest) :
    spanDigits (ds ++ rest) = (ds, rest) := by
  unfold spanDigits
  rw [List.takeWhile_append_of_pos h, List.dropWhile_append_of_pos h]
  cases rest with
  | nil => rw [List.takeWhile_nil, List.dropWhile_nil, List.append_nil]
  | cons c rest =>
    have hc : ¬Text.isDecimalDigit c = true := Bool.eq_false_iff.1 (hrest c rfl)
    rw [List.takeWhile_cons_of_neg hc, List.dropWhile_cons_of_neg hc, List.append_nil]

/-- What is read as digits are digits, and the rest follows them. -/
theorem spanDigits_eq {cs ds rest : List Char} (h : spanDigits cs = (ds, rest)) :
    cs = ds ++ rest ∧ ∀ c ∈ ds, Text.isDecimalDigit c = true := by
  obtain ⟨rfl, rfl⟩ := Prod.mk.inj h
  refine ⟨List.takeWhile_append_dropWhile.symm, fun c hc => ?_⟩
  exact List.all_eq_true.1 (List.all_takeWhile) c hc

/-! ## Signs -/

/-- A sign is read in front of anything that is not a sign itself. -/
theorem spanSign_append {sign : List Char} (h : IsSign sign) {c : Char} (hplus : c ≠ '+') (hminus : c ≠ '-')
    (rest : List Char) : spanSign (sign ++ c :: rest) = (sign, c :: rest) := by
  cases h with
  | none =>
    rw [List.nil_append, spanSign]
    · intro rest' heq
      exact hminus (List.cons.inj heq).1
    · intro rest' heq
      exact hplus (List.cons.inj heq).1
  | plus => rfl
  | minus => rfl

/-- What is read as a sign is one, and the rest follows it. -/
theorem spanSign_eq {cs sign rest : List Char} (h : spanSign cs = (sign, rest)) : cs = sign ++ rest ∧ IsSign sign := by
  unfold spanSign at h
  split at h
  · obtain ⟨rfl, rfl⟩ := Prod.mk.inj h
    exact ⟨rfl, .minus⟩
  · obtain ⟨rfl, rfl⟩ := Prod.mk.inj h
    exact ⟨rfl, .plus⟩
  · obtain ⟨rfl, rfl⟩ := Prod.mk.inj h
    exact ⟨rfl, .none⟩

/-- A digit is no sign. -/
theorem ne_sign_of_isDecimalDigit {c : Char} (h : Text.isDecimalDigit c = true) : c ≠ '+' ∧ c ≠ '-' := by
  constructor
  · rintro rfl
    rw [isDecimalDigit_marks.1] at h
    nomatch h
  · rintro rfl
    rw [isDecimalDigit_marks.2.1] at h
    nomatch h

/-! ## Integers -/

/-- An integer is read up to what does not continue it. -/
theorem spanInteger?_append {sign ds rest : List Char} (hsign : IsSign sign) (hne : ds ≠ [])
    (hds : ∀ c ∈ ds, Text.isDecimalDigit c = true) (hrest : NoDigit rest) :
    spanInteger? (sign ++ ds ++ rest) = some (sign ++ ds, rest) := by
  obtain ⟨c, ds', rfl⟩ := List.exists_cons_of_ne_nil hne
  have hc := ne_sign_of_isDecimalDigit (hds c (List.mem_cons_self ..))
  unfold spanInteger?
  rw [List.append_assoc, List.cons_append, spanSign_append hsign hc.1 hc.2]
  dsimp only
  rw [← List.cons_append, spanDigits_append hds hrest]
  rfl

/-- What is read as an integer stands before the rest. -/
theorem spanInteger?_eq_some {cs numeral rest : List Char} (h : spanInteger? cs = some (numeral, rest)) :
    cs = numeral ++ rest := by
  unfold spanInteger? at h
  dsimp only at h
  split at h
  · nomatch h
  · obtain ⟨rfl, rfl⟩ := Prod.mk.inj (Option.some.inj h)
    have hsign := (spanSign_eq (Prod.eta (spanSign cs)).symm).1
    have hdigits := (spanDigits_eq (Prod.eta (spanDigits (spanSign cs).2)).symm).1
    rw [List.append_assoc, ← hdigits, ← hsign]

/-- What is read as an integer is a sign and digits. -/
theorem exists_integer_of_spanInteger? {cs numeral rest : List Char} (h : spanInteger? cs = some (numeral, rest)) :
    ∃ sign ds, numeral = sign ++ ds ∧ IsSign sign ∧ ds ≠ [] ∧ ∀ c ∈ ds, Text.isDecimalDigit c = true := by
  unfold spanInteger? at h
  dsimp only at h
  split at h
  · nomatch h
  · rename_i hdigits
    obtain ⟨rfl, rfl⟩ := Prod.mk.inj (Option.some.inj h)
    have hsign := (spanSign_eq (Prod.eta (spanSign cs)).symm).2
    have hds := (spanDigits_eq (Prod.eta (spanDigits (spanSign cs).2)).symm).2
    exact ⟨_, _, rfl, hsign, by simpa using hdigits, hds⟩

/-- What is read as an integer is read as one by itself. -/
theorem spanInteger?_self {cs numeral rest : List Char} (h : spanInteger? cs = some (numeral, rest)) :
    spanInteger? numeral = some (numeral, []) := by
  obtain ⟨sign, ds, rfl, hsign, hne, hds⟩ := exists_integer_of_spanInteger? h
  have hspan : spanInteger? (sign ++ ds ++ []) = some (sign ++ ds, []) := spanInteger?_append hsign hne hds nofun
  rwa [List.append_nil] at hspan

/-- No integer starts with a character that is neither a sign nor a digit. -/
theorem spanInteger?_eq_none {c : Char} (hplus : c ≠ '+') (hminus : c ≠ '-') (hdigit : Text.isDecimalDigit c = false)
    (rest : List Char) : spanInteger? (c :: rest) = none := by
  have hsign := spanSign_append .none hplus hminus rest
  rw [List.nil_append] at hsign
  have hdigits := @spanDigits_append [] (c :: rest) (fun _ hd => nomatch hd) fun _ hd => by
    obtain rfl := Option.some.inj hd
    exact hdigit
  rw [List.nil_append] at hdigits
  unfold spanInteger?
  rw [hsign]
  dsimp only
  rw [hdigits]
  rfl

/-- An integer that is read from a whole text is a sign and digits. -/
theorem readInteger?_eq_some {low high n : Int} {cs : List Char} (h : readInteger? low high cs = some n) :
    ∃ sign ds, cs = sign ++ ds ∧ IsSign sign ∧ ds ≠ [] ∧ ∀ c ∈ ds, Text.isDecimalDigit c = true := by
  obtain ⟨m, hread, -⟩ := Option.bind_eq_some_iff.1 h
  have hsplit : ∃ sign, IsSign sign ∧ cs = sign ++ (readSign cs).2 := by
    unfold readSign
    split
    · exact ⟨['-'], .minus, rfl⟩
    · exact ⟨['+'], .plus, rfl⟩
    · exact ⟨[], .none, rfl⟩
  obtain ⟨sign, hsign, hcs⟩ := hsplit
  unfold readWholeInteger at hread
  dsimp only at hread
  split at hread
  · nomatch hread
  · rename_i hdigits
    simp only [Bool.or_eq_true, List.isEmpty_iff, Bool.not_eq_true', not_or, Bool.not_eq_false] at hdigits
    refine ⟨sign, _, hcs, hsign, hdigits.1, fun c hc => ?_⟩
    exact isDecimalDigit_of_isDigit (List.all_eq_true.1 hdigits.2 c hc)

/-! ## Numbers -/

/-- A mantissa is read up to what does not continue it. -/
theorem spanMantissa?_append {cs rest : List Char} (h : IsMantissa cs) (hrest : NoDigit rest)
    (hpoint : ∀ c ∈ rest.head?, c ≠ '.') : spanMantissa? (cs ++ rest) = some (cs, rest) := by
  cases h with
  | whole hne hds =>
    unfold spanMantissa?
    rw [spanDigits_append hds hrest]
    dsimp only
    split
    · exact absurd rfl (hpoint '.' rfl)
    · rw [if_neg (by simpa using hne)]
  | @places ds es hne hds hes =>
    have hpoint : NoDigit ('.' :: (es ++ rest)) := by
      intro c hc
      obtain rfl := Option.some.inj hc
      exact isDecimalDigit_marks.2.2
    unfold spanMantissa?
    rw [List.append_assoc, List.cons_append, spanDigits_append hds hpoint]
    show (if (ds.isEmpty && (spanDigits (es ++ rest)).1.isEmpty) = true then none
      else some (ds ++ '.' :: (spanDigits (es ++ rest)).1, (spanDigits (es ++ rest)).2)) = _
    rw [spanDigits_append hes hrest, if_neg]
    intro hempty
    rw [Bool.and_eq_true, List.isEmpty_iff, List.isEmpty_iff] at hempty
    exact hne.elim (· hempty.1) (· hempty.2)

/-- What is read as a mantissa is one, and the rest follows it. -/
theorem spanMantissa?_eq_some {cs mantissa rest : List Char} (h : spanMantissa? cs = some (mantissa, rest)) :
    cs = mantissa ++ rest ∧ IsMantissa mantissa := by
  unfold spanMantissa? at h
  cases hwhole : spanDigits cs with
  | mk whole after =>
    obtain ⟨rfl, hds⟩ := spanDigits_eq hwhole
    rw [hwhole] at h
    dsimp only at h
    split at h
    · rename_i after
      cases hplaces : spanDigits after with
      | mk places after' =>
        obtain ⟨rfl, hes⟩ := spanDigits_eq hplaces
        rw [hplaces] at h
        dsimp only at h
        split at h
        · nomatch h
        · rename_i hne
          obtain ⟨rfl, rfl⟩ := Prod.mk.inj (Option.some.inj h)
          refine ⟨by rw [List.append_assoc, List.cons_append], .places ?_ hds hes⟩
          rw [Bool.and_eq_true, List.isEmpty_iff, List.isEmpty_iff] at hne
          exact Decidable.not_and_iff_or_not.1 hne
    · split at h
      · nomatch h
      · rename_i hne
        obtain ⟨rfl, rfl⟩ := Prod.mk.inj (Option.some.inj h)
        exact ⟨rfl, .whole (by simpa using hne) hds⟩

/-- A mantissa starts with no sign. -/
theorem IsMantissa.exists_head {cs : List Char} (h : IsMantissa cs) : ∃ c cs', cs = c :: cs' ∧ c ≠ '+' ∧ c ≠ '-' := by
  cases h with
  | whole hne hds =>
    obtain ⟨c, ds', rfl⟩ := List.exists_cons_of_ne_nil hne
    exact ⟨c, ds', rfl, ne_sign_of_isDecimalDigit (hds c (List.mem_cons_self ..))⟩
  | @places ds es _ hds _ =>
    cases ds with
    | nil => exact ⟨'.', es, rfl, by decide, by decide⟩
    | cons c ds => exact ⟨c, _, rfl, ne_sign_of_isDecimalDigit (hds c (List.mem_cons_self ..))⟩

/-- A mantissa with a sign is read up to what does not continue it. -/
theorem spanSigned?_append {sign mantissa rest : List Char} (hsign : IsSign sign) (h : IsMantissa mantissa)
    (hrest : NoDigit rest) (hpoint : ∀ c ∈ rest.head?, c ≠ '.') :
    spanSigned? (sign ++ mantissa ++ rest) = some (sign ++ mantissa, rest) := by
  obtain ⟨c, cs', hhead, hplus, hminus⟩ := h.exists_head
  have hspan := spanMantissa?_append h hrest hpoint
  unfold spanSigned?
  rw [List.append_assoc, hhead, List.cons_append, spanSign_append hsign hplus hminus]
  dsimp only
  rw [← List.cons_append, ← hhead, hspan]
  rfl

/-- What is read as a number is a sign and a mantissa, and the rest follows them. -/
theorem spanSigned?_eq_some {cs numeral rest : List Char} (h : spanSigned? cs = some (numeral, rest)) :
    cs = numeral ++ rest ∧ ∃ sign mantissa, numeral = sign ++ mantissa ∧ IsSign sign ∧ IsMantissa mantissa := by
  unfold spanSigned? at h
  cases hsplit : spanSign cs with
  | mk sign after =>
    obtain ⟨rfl, hsign⟩ := spanSign_eq hsplit
    rw [hsplit] at h
    obtain ⟨⟨mantissa, after'⟩, hmantissa, hpair⟩ := Option.map_eq_some_iff.1 h
    obtain ⟨rfl, rfl⟩ := Prod.mk.inj hpair
    obtain ⟨rfl, hshape⟩ := spanMantissa?_eq_some hmantissa
    exact ⟨(List.append_assoc ..).symm, sign, mantissa, rfl, hsign, hshape⟩

end QuantityCalculus.Decimal
