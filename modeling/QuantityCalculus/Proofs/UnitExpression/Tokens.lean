import QuantityCalculus.Proofs.UnitExpression.Grammar

/-!
# Tokens of unit expressions

Each reader of a token reads what the grammar says the token is, after any blanks, and reads all of it where nothing follows that
continues it.
-/

namespace QuantityCalculus.UnitExpression

variable {F : Type}

/-! ## Classes of characters -/

/-- A code point in ranges lies in one of them. -/
theorem exists_of_inRanges {ranges : List (Nat × Nat)} {n : Nat} (h : Text.inRanges ranges n = true) :
    ∃ r ∈ ranges, r.1 ≤ n ∧ n ≤ r.2 := by
  induction ranges with
  | nil => nomatch h
  | cons r ranges ih =>
    rw [Text.inRanges] at h
    split at h
    · nomatch h
    split at h
    · rename_i hfirst hlast
      exact ⟨r, List.mem_cons_self .., Nat.not_lt.1 hfirst, hlast⟩
    · obtain ⟨r', hr', hn⟩ := ih h
      exact ⟨r', List.mem_cons_of_mem _ hr', hn⟩

/-- A digit is not blank. -/
theorem isBlank_of_isDecimalDigit {ch : Char} (h : Text.isDecimalDigit ch = true) : Text.isBlank ch = false := by
  have hdisjoint : ∀ r ∈ Text.decimalDigitRanges, ∀ r' ∈ Text.blankRanges, r.2 < r'.1 ∨ r'.2 < r.1 := by decide +kernel
  obtain ⟨r, hr, hlow, hhigh⟩ := exists_of_inRanges h
  rw [← Bool.not_eq_true]
  intro hblank
  obtain ⟨r', hr', hlow', hhigh'⟩ := exists_of_inRanges hblank
  have hapart := hdisjoint r hr r' hr'
  omega

/-- Signs, marks and parentheses are not blank. -/
theorem isBlank_marks : (['+', '-', '(', ')', '*', '/', '^', '%', ',', '_', '.', ':'].all fun ch => !Text.isBlank ch) = true := by
  decide +kernel

/-- A character among the marks is not blank. -/
theorem isBlank_of_mem {ch : Char} (h : ch ∈ ['+', '-', '(', ')', '*', '/', '^', '%', ',', '_', '.', ':']) :
    Text.isBlank ch = false := by
  simpa using List.all_eq_true.1 isBlank_marks ch h

/-- A character that starts a name is neither blank nor a parenthesis, a sign or a digit. -/
theorem class_of_startsName {ch : Char} (h : startsName ch = true) : isReserved ch = false ∧ Text.isBlank ch = false ∧
    ch ≠ '(' ∧ ch ≠ '+' ∧ ch ≠ '-' ∧ Text.isDecimalDigit ch = false := by
  simp only [startsName, Bool.and_eq_true, Bool.not_eq_true', bne_iff_ne] at h
  obtain ⟨⟨⟨hreserved, hdigit⟩, hplus⟩, hminus⟩ := h
  refine ⟨hreserved, ?_, ?_, hplus, hminus, hdigit⟩
  · exact (Bool.or_eq_false_iff.1 hreserved).1
  · rintro rfl
    have hparen : isReserved '(' = true := by decide +kernel
    rw [hparen] at hreserved
    nomatch hreserved

/-! ## Blanks -/

/-- Blanks in front are dropped. -/
theorem Blanks.trimStart_append {s : List Char} (h : Blanks s) (rest : List Char) :
    Text.trimStart (s ++ rest) = Text.trimStart rest :=
  List.dropWhile_append_of_pos h

/-- Nothing is dropped in front of a character that is not blank. -/
theorem trimStart_cons {ch : Char} (h : Text.isBlank ch = false) (rest : List Char) :
    Text.trimStart (ch :: rest) = ch :: rest :=
  List.dropWhile_cons_of_neg (by rw [h]; exact Bool.false_ne_true)

/-- Blanks and nothing else come to nothing. -/
theorem Blanks.trimStart_eq_nil {s : List Char} (h : Blanks s) : Text.trimStart s = [] := by
  have happend := h.trimStart_append []
  rw [List.append_nil] at happend
  exact happend

/-- What is dropped are blanks. -/
theorem exists_blanks (cs : List Char) : ∃ s, cs = s ++ Text.trimStart cs ∧ Blanks s :=
  ⟨cs.takeWhile Text.isBlank, List.takeWhile_append_dropWhile.symm, fun ch hch =>
    List.all_eq_true.1 List.all_takeWhile ch hch⟩

/-! ## Marks -/

/-- A mark is found after blanks. -/
theorem after?_append {s : List Char} (hs : Blanks s) {ch : Char} (hch : Text.isBlank ch = false) (rest : List Char) :
    after? ch (s ++ ch :: rest) = some rest := by
  unfold after?
  rw [hs.trimStart_append, trimStart_cons hch]
  exact if_pos (beq_self_eq_true ch)

/-- A mark that is found stands after blanks. -/
theorem after?_eq_some {cs rest : List Char} {ch : Char} (h : after? ch cs = some rest) :
    ∃ s, cs = s ++ ch :: rest ∧ Blanks s := by
  obtain ⟨s, hcs, hs⟩ := exists_blanks cs
  unfold after? at h
  split at h
  · cases h
  · rename_i d rest' htrim
    split at h
    · rename_i hd
      obtain rfl := Option.some.inj h
      obtain rfl := eq_of_beq hd
      exact ⟨s, by rw [← htrim]; exact hcs, hs⟩
    · cases h

/-- A mark is not found where another character comes next. -/
theorem after?_eq_none {cs : List Char} {ch : Char} (h : ∀ d ∈ (Text.trimStart cs).head?, d ≠ ch) :
    after? ch cs = none := by
  unfold after?
  split
  · rfl
  · rename_i d rest htrim
    refine if_neg fun hd => h d ?_ (eq_of_beq hd)
    rw [htrim]
    rfl

/-- The mark of a prefix is not blank. -/
theorem isBlank_of_markBase? {mark : Char} {base : Nat} (h : markBase? mark = some base) : Text.isBlank mark = false := by
  unfold markBase? at h
  split at h
  · exact isBlank_of_mem (by decide)
  · exact isBlank_of_mem (by decide)
  · exact isBlank_of_mem (by decide)
  · nomatch h

/-- The mark of a prefix is found after blanks. -/
theorem prefixBase?_append {s : List Char} (hs : Blanks s) {mark : Char} {base : Nat} (hmark : markBase? mark = some base)
    (rest : List Char) : prefixBase? (s ++ mark :: rest) = some (base, rest) := by
  have htrim := trimStart_cons (isBlank_of_markBase? hmark) rest
  unfold prefixBase?
  rw [hs.trimStart_append, htrim]
  unfold markBase? at hmark
  split at hmark
  · obtain rfl := Option.some.inj hmark
    rfl
  · obtain rfl := Option.some.inj hmark
    rfl
  · obtain rfl := Option.some.inj hmark
    rfl
  · nomatch hmark

/-- The mark of a prefix that is found stands after blanks. -/
theorem prefixBase?_eq_some {cs rest : List Char} {base : Nat} (h : prefixBase? cs = some (base, rest)) :
    ∃ s mark, cs = s ++ mark :: rest ∧ Blanks s ∧ markBase? mark = some base := by
  obtain ⟨s, hcs, hs⟩ := exists_blanks cs
  unfold prefixBase? at h
  split at h
  · rename_i htrim
    obtain ⟨rfl, rfl⟩ := Prod.mk.inj (Option.some.inj h)
    exact ⟨s, '_', by rw [← htrim]; exact hcs, hs, rfl⟩
  · rename_i htrim
    obtain ⟨rfl, rfl⟩ := Prod.mk.inj (Option.some.inj h)
    exact ⟨s, '.', by rw [← htrim]; exact hcs, hs, rfl⟩
  · rename_i htrim
    obtain ⟨rfl, rfl⟩ := Prod.mk.inj (Option.some.inj h)
    exact ⟨s, ':', by rw [← htrim]; exact hcs, hs, rfl⟩
  · nomatch h

/-- The mark of a prefix is not found where another character comes next. -/
theorem prefixBase?_eq_none {cs : List Char} (h : ∀ d ∈ (Text.trimStart cs).head?, markBase? d = none) :
    prefixBase? cs = none := by
  cases hbase : prefixBase? cs with
  | none => rfl
  | some found =>
    obtain ⟨base, rest⟩ := found
    obtain ⟨s, mark, rfl, hs, hmark⟩ := prefixBase?_eq_some hbase
    rw [hs.trimStart_append, trimStart_cons (isBlank_of_markBase? hmark)] at h
    rw [h mark rfl] at hmark
    nomatch hmark

/-! ## Names -/

/-- A name is looked up after blanks, up to a reserved character. -/
theorem named_name {c : Catalog F} {s name rest : List Char} (hs : Blanks s) (h : IsName name)
    (hrest : ∀ ch ∈ rest.head?, isReserved ch = true) :
    named c (s ++ name ++ rest) =
      match c.unit? (String.ofList name) with
      | none => malformed (name ++ rest)
      | some u => .ok (u, rest) := by
  obtain @⟨ch, tail, hstart, htail⟩ := h
  have hnone : rest.takeWhile (!isReserved ·) = [] ∧ rest.dropWhile (!isReserved ·) = rest := by
    cases rest with
    | nil => exact ⟨rfl, rfl⟩
    | cons d rest =>
      have hd : ¬(!isReserved d) = true := by
        rw [hrest d rfl]
        decide
      exact ⟨List.takeWhile_cons_of_neg hd, List.dropWhile_cons_of_neg hd⟩
  have htail' : ∀ d ∈ tail, (!isReserved d) = true := by
    intro d hd
    rw [htail d hd]
    rfl
  have htake : (tail ++ rest).takeWhile (!isReserved ·) = tail := by
    rw [List.takeWhile_append_of_pos htail', hnone.1, List.append_nil]
  have hdrop : (tail ++ rest).dropWhile (!isReserved ·) = rest := by
    rw [List.dropWhile_append_of_pos htail', hnone.2]
  unfold named
  rw [List.append_assoc, hs.trimStart_append, List.cons_append, trimStart_cons (class_of_startsName hstart).2.1]
  dsimp only
  cases hu : c.unit? (String.ofList (ch :: tail)) with
  | none => rw [if_pos hstart, htake, hu]
  | some u => rw [if_pos hstart, htake, hdrop, hu]

/-- The name of a unit is read after blanks, up to a reserved character. -/
theorem named_append {c : Catalog F} {s name rest : List Char} {u : UnitOfMeasure F} (hs : Blanks s) (h : IsName name)
    (hu : c.unit? (String.ofList name) = some u) (hrest : ∀ ch ∈ rest.head?, isReserved ch = true) :
    named c (s ++ name ++ rest) = .ok (u, rest) := by
  rw [named_name hs h hrest, hu]

/-- What is read as the name of a unit is one, after blanks. -/
theorem named_eq_ok {c : Catalog F} {cs rest : List Char} {u : UnitOfMeasure F} (h : named c cs = .ok (u, rest)) :
    ∃ s name, cs = s ++ name ++ rest ∧ Blanks s ∧ IsName name ∧ c.unit? (String.ofList name) = some u := by
  obtain ⟨s, hcs, hs⟩ := exists_blanks cs
  unfold named at h
  dsimp only at h
  split at h
  · cases h
  · rename_i ch tail htrim
    split at h
    · rename_i hstart
      split at h
      · cases h
      · rename_i v hv
        obtain ⟨rfl, rfl⟩ := Prod.mk.inj (Except.ok.inj h)
        refine ⟨s, _, ?_, hs, .mk hstart fun d hd => ?_, hv⟩
        · rw [List.append_assoc, List.cons_append, List.takeWhile_append_dropWhile, ← htrim]
          exact hcs
        · simpa using List.all_eq_true.1 List.all_takeWhile d hd
    · cases h

/-! ## Integers and numbers -/

/-- The text of an integer starts with a character that is not blank. -/
theorem trimStart_integer {low high n : Int} {v : List Char} (h : Decimal.readInteger? low high v = some n)
    (rest : List Char) : Text.trimStart (v ++ rest) = v ++ rest := by
  obtain ⟨sign, ds, rfl, hsign, hne, hds⟩ := Decimal.readInteger?_eq_some h
  obtain ⟨d, ds', rfl⟩ := List.exists_cons_of_ne_nil hne
  cases hsign with
  | none => exact trimStart_cons (isBlank_of_isDecimalDigit (hds d (List.mem_cons_self ..))) _
  | plus => exact trimStart_cons (isBlank_of_mem (by decide)) _
  | minus => exact trimStart_cons (isBlank_of_mem (by decide)) _

/-- The text of an integer is scanned as one. -/
theorem spanInteger?_integer {low high n : Int} {v rest : List Char} (h : Decimal.readInteger? low high v = some n)
    (hrest : Decimal.NoDigit rest) : Decimal.spanInteger? (v ++ rest) = some (v, rest) := by
  obtain ⟨sign, ds, rfl, hsign, hne, hds⟩ := Decimal.readInteger?_eq_some h
  exact Decimal.spanInteger?_append hsign hne hds hrest

/-- An integer is read after blanks. -/
theorem integer_append {low high n : Int} {s v rest : List Char} (hs : Blanks s)
    (h : Decimal.readInteger? low high v = some n) (hrest : Decimal.NoDigit rest) :
    integer low high (s ++ v ++ rest) = .ok (n, rest) := by
  unfold integer
  rw [List.append_assoc, hs.trimStart_append, trimStart_integer h]
  dsimp only
  rw [spanInteger?_integer h hrest]
  dsimp only
  rw [h]

/-- What is read as an integer is one, after blanks. -/
theorem integer_eq_ok {low high n : Int} {cs rest : List Char} (h : integer low high cs = .ok (n, rest)) :
    ∃ s v, cs = s ++ v ++ rest ∧ Blanks s ∧ Decimal.readInteger? low high v = some n := by
  obtain ⟨s, hcs, hs⟩ := exists_blanks cs
  unfold integer at h
  dsimp only at h
  split at h
  · nomatch h
  · rename_i numeral rest' hspan
    split at h
    · nomatch h
    · rename_i m hm
      obtain ⟨rfl, rfl⟩ := Prod.mk.inj (Except.ok.inj h)
      refine ⟨s, numeral, ?_, hs, hm⟩
      rw [List.append_assoc, ← Decimal.spanInteger?_eq_some hspan]
      exact hcs

variable [Numeric F]

/-- A mantissa with a sign starts with a character that is not blank. -/
theorem trimStart_signed {sign mantissa : List Char} (hsign : Decimal.IsSign sign) (h : Decimal.IsMantissa mantissa)
    (rest : List Char) : Text.trimStart (sign ++ mantissa ++ rest) = sign ++ mantissa ++ rest := by
  cases hsign with
  | none =>
    cases h with
    | whole hne hds =>
      obtain ⟨d, ds', rfl⟩ := List.exists_cons_of_ne_nil hne
      exact trimStart_cons (isBlank_of_isDecimalDigit (hds d (List.mem_cons_self ..))) _
    | @places ds es _ hds _ =>
      cases ds with
      | nil => exact trimStart_cons (isBlank_of_mem (by decide)) _
      | cons d ds => exact trimStart_cons (isBlank_of_isDecimalDigit (hds d (List.mem_cons_self ..))) _
  | plus => exact trimStart_cons (isBlank_of_mem (by decide)) _
  | minus => exact trimStart_cons (isBlank_of_mem (by decide)) _

/-- A number is read after blanks. -/
theorem number_append {s v rest : List Char} {x : F} (hs : Blanks s) (h : IsNumber v x) (hrest : Decimal.NoDigit rest)
    (hpoint : ∀ ch ∈ rest.head?, ch ≠ '.') : number (s ++ v ++ rest) = .ok (x, rest) := by
  obtain ⟨hsign, hmantissa, hread⟩ := h
  unfold number
  rw [List.append_assoc, hs.trimStart_append, trimStart_signed hsign hmantissa]
  dsimp only
  rw [Decimal.spanSigned?_append hsign hmantissa hrest hpoint]
  dsimp only
  rw [hread]

/-- What is read as a number is one, after blanks. -/
theorem number_eq_ok {cs rest : List Char} {x : F} (h : number cs = .ok (x, rest)) :
    ∃ s v, cs = s ++ v ++ rest ∧ Blanks s ∧ IsNumber v x := by
  obtain ⟨s, hcs, hs⟩ := exists_blanks cs
  unfold number at h
  dsimp only at h
  split at h
  · nomatch h
  · rename_i numeral rest' hspan
    split at h
    · nomatch h
    · rename_i y hy
      obtain ⟨rfl, rfl⟩ := Prod.mk.inj (Except.ok.inj h)
      obtain ⟨htrim, sign, mantissa, rfl, hsign, hmantissa⟩ := Decimal.spanSigned?_eq_some hspan
      refine ⟨s, sign ++ mantissa, ?_, hs, .mk hsign hmantissa hy⟩
      rw [List.append_assoc, ← htrim]
      exact hcs

/-! ## Bounds -/

omit [Numeric F]

/-- No comma with an integer after it comes next. -/
def NoBound (rest : List Char) : Prop :=
  ∀ after, after? ',' rest = some after → Decimal.spanInteger? (Text.trimStart after) = none

/-- A bound is read after blanks. -/
theorem bound_append {v rest : List Char} {n : Nat} (h : IsBound v n) (hrest : Decimal.NoDigit rest) :
    bound (v ++ rest) = .ok (n, rest) := by
  obtain ⟨hs, hread⟩ := h
  unfold bound
  rw [integer_append hs hread hrest]

/-- What is read as a bound is one. -/
theorem bound_eq_ok {cs rest : List Char} {n : Nat} (h : bound cs = .ok (n, rest)) :
    ∃ v, cs = v ++ rest ∧ IsBound v n := by
  unfold bound at h
  split at h
  · nomatch h
  · rename_i m rest' hm
    obtain ⟨rfl, rfl⟩ := Prod.mk.inj (Except.ok.inj h)
    obtain ⟨s, v, rfl, hs, hv⟩ := integer_eq_ok hm
    exact ⟨s ++ v, rfl, .mk hs hv⟩

/-- A bound is read after a comma. -/
theorem furtherBound_append {s w rest : List Char} {n : Nat} (hs : Blanks s) (h : IsBound w n)
    (hrest : Decimal.NoDigit rest) : furtherBound (s ++ ',' :: (w ++ rest)) = .ok (some n, rest) := by
  have hscan : (Decimal.spanInteger? (Text.trimStart (w ++ rest))).isSome = true := by
    obtain ⟨hs', hread⟩ := h
    rw [List.append_assoc, hs'.trimStart_append, trimStart_integer hread, spanInteger?_integer hread hrest]
    rfl
  unfold furtherBound
  rw [after?_append hs (isBlank_of_mem (by decide))]
  dsimp only
  rw [if_pos hscan, bound_append h hrest]

/-- No bound is read where no comma with an integer comes next. -/
theorem furtherBound_eq_none {rest : List Char} (h : NoBound rest) : furtherBound rest = .ok (none, rest) := by
  unfold furtherBound
  split
  · rfl
  · rename_i after hafter
    rw [h after hafter]
    rfl

/-- What is read as a further bound, if anything is, is one after a comma. -/
theorem furtherBound_eq_ok {cs rest : List Char} {n : Option Nat} (h : furtherBound cs = .ok (n, rest)) :
    (n = none ∧ rest = cs) ∨ ∃ s w m, cs = s ++ ',' :: (w ++ rest) ∧ Blanks s ∧ IsBound w m ∧ n = some m := by
  unfold furtherBound at h
  split at h
  · obtain ⟨rfl, rfl⟩ := Prod.mk.inj (Except.ok.inj h)
    exact .inl ⟨rfl, rfl⟩
  · rename_i after hafter
    obtain ⟨s, rfl, hs⟩ := after?_eq_some hafter
    split at h
    · split at h
      · cases h
      · rename_i m rest' hm
        obtain ⟨rfl, rfl⟩ := Prod.mk.inj (Except.ok.inj h)
        obtain ⟨w, rfl, hw⟩ := bound_eq_ok hm
        exact .inr ⟨s, w, m, rfl, hs, hw, rfl⟩
    · obtain ⟨rfl, rfl⟩ := Prod.mk.inj (Except.ok.inj h)
      exact .inl ⟨rfl, rfl⟩

/-- No digit follows where blanks and a comma do. -/
theorem noDigit_comma {s : List Char} (hs : Blanks s) (rest : List Char) : Decimal.NoDigit (s ++ ',' :: rest) := by
  intro ch hch
  cases s with
  | nil =>
    obtain rfl := Option.some.inj hch
    decide +kernel
  | cons d s =>
    obtain rfl := Option.some.inj hch
    rw [← Bool.not_eq_true]
    intro hdigit
    have hblank := hs d (List.mem_cons_self ..)
    rw [isBlank_of_isDecimalDigit hdigit] at hblank
    nomatch hblank

/-- Bounds are read up to what does not continue them. -/
theorem bounds_append {v rest : List Char} {b : Fraction.Bounds} (h : AreBounds v b) (hdigit : Decimal.NoDigit rest)
    (hbound : NoBound rest) : bounds (v ++ rest) = .ok (b, rest) := by
  unfold bounds
  cases h with
  | one ha =>
    rw [bound_append ha hdigit]
    dsimp only
    rw [furtherBound_eq_none hbound]
  | two ha hs hb =>
    rw [List.append_assoc, List.append_assoc, List.cons_append, bound_append ha (noDigit_comma hs _)]
    dsimp only
    rw [furtherBound_append hs hb hdigit]
    dsimp only
    rw [furtherBound_eq_none hbound]
    rfl
  | three ha hs hb hs' hd =>
    rw [List.append_assoc, List.append_assoc, List.cons_append, bound_append ha (noDigit_comma hs _)]
    dsimp only
    rw [List.append_assoc, List.append_assoc, List.cons_append, furtherBound_append hs hb (noDigit_comma hs' _)]
    dsimp only
    rw [furtherBound_append hs' hd hdigit]
    rfl

/-- What is read as bounds are bounds. -/
theorem bounds_eq_ok {cs rest : List Char} {b : Fraction.Bounds} (h : bounds cs = .ok (b, rest)) :
    ∃ v, cs = v ++ rest ∧ AreBounds v b := by
  unfold bounds at h
  split at h
  · nomatch h
  rename_i a after hfirst
  obtain ⟨v, rfl, ha⟩ := bound_eq_ok hfirst
  split at h
  · nomatch h
  · rename_i after' hnone
    obtain ⟨rfl, rfl⟩ := Prod.mk.inj (Except.ok.inj h)
    rcases furtherBound_eq_ok hnone with ⟨-, rfl⟩ | ⟨_, _, _, -, -, -, heq⟩
    · exact ⟨v, rfl, .one ha⟩
    · nomatch heq
  · rename_i m after' hsome
    rcases furtherBound_eq_ok hsome with ⟨heq, -⟩ | ⟨s, w, _, rfl, hs, hb, heq⟩
    · nomatch heq
    obtain rfl := Option.some.inj heq
    split at h
    · nomatch h
    rename_i d after'' hlast
    obtain ⟨rfl, rfl⟩ := Prod.mk.inj (Except.ok.inj h)
    rcases furtherBound_eq_ok hlast with ⟨rfl, rfl⟩ | ⟨s', w', d, rfl, hs', hd, rfl⟩
    · exact ⟨v ++ s ++ ',' :: w, by simp, .two ha hs hb⟩
    · exact ⟨v ++ s ++ ',' :: (w ++ s' ++ ',' :: w'), by simp, .three ha hs hb hs' hd⟩

end QuantityCalculus.UnitExpression
