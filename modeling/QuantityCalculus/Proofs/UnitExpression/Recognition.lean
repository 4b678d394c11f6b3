import QuantityCalculus.Proofs.UnitExpression.Tokens

/-!
# Readers of atoms and suffixes recognize the grammar

`Recognizes` ties a reader to a kind of phrase in both directions: what it reads is such a phrase, and it reads every such phrase before
what does not go on with it, with the unit or the error that the tree of the phrase evaluates to. The readers of atoms and of units
with a suffix keep this tie.
-/

namespace QuantityCalculus.UnitExpression

variable {F : Type}

/-! ## Where a phrase stops -/

/-- How tightly a character binds to the unit before it. -/
def binding : Char → Option Nat
  | '_' | '.' | ':' => some 6
  | '^' => some 5
  | '*' => some 4
  | '/' => some 3
  | '%' => some 2
  | ',' => some 1
  | _ => none

/-- What comes next continues no name or number, does not bind as tightly as `p` after blanks, and is no further bound. -/
structure Stops (p : Nat) (rest : List Char) : Prop where
  reserved : ∀ ch ∈ rest.head?, isReserved ch = true
  loose : ∀ ch ∈ (Text.trimStart rest).head?, ∀ q ∈ binding ch, q < p
  noBound : NoBound rest

/-- What stops a phrase stops every tighter one. -/
theorem Stops.mono {p q : Nat} {rest : List Char} (h : Stops p rest) (hpq : p ≤ q) : Stops q rest :=
  ⟨h.reserved, fun ch hch r hr => Nat.lt_of_lt_of_le (h.loose ch hch r hr) hpq, h.noBound⟩

/-- No digit comes next where a phrase stops. -/
theorem Stops.noDigit {p : Nat} {rest : List Char} (h : Stops p rest) : Decimal.NoDigit rest := by
  intro ch hch
  have hreserved := h.reserved ch hch
  rw [← Bool.not_eq_true]
  intro hdigit
  have hmarks : (['(', ')', '*', '/', '^', '%', ',', '_', '.', ':'].all fun ch => !Text.isDecimalDigit ch) = true := by
    decide +kernel
  unfold isReserved at hreserved
  rw [isBlank_of_isDecimalDigit hdigit, Bool.false_or, List.contains_iff_mem] at hreserved
  have hmark := List.all_eq_true.1 hmarks ch hreserved
  rw [hdigit] at hmark
  nomatch hmark

/-- A mark that binds too tightly does not come next. -/
theorem Stops.ne_of_binding {p q : Nat} {rest : List Char} (h : Stops p rest) (hpq : p ≤ q) :
    ∀ ch ∈ (Text.trimStart rest).head?, binding ch ≠ some q := by
  intro ch hch hbinding
  have hlt := h.loose ch hch q hbinding
  omega

/-- A mark that binds so tightly is not read where a phrase stops. -/
theorem Stops.after?_eq_none {p : Nat} {rest : List Char} (h : Stops p rest) {ch : Char} (hbinding : binding ch = some p) :
    after? ch rest = none := by
  refine UnitExpression.after?_eq_none fun d hd => ?_
  rintro rfl
  exact h.ne_of_binding (Nat.le_refl p) d hd hbinding

/-- Where a power stops, no point comes next. -/
theorem Stops.ne_point {p : Nat} {rest : List Char} (h : Stops p rest) (hp : p ≤ 6) : ∀ ch ∈ rest.head?, ch ≠ '.' := by
  rintro ch hch rfl
  cases rest with
  | nil => nomatch hch
  | cons d rest =>
    obtain rfl := Option.some.inj hch
    refine h.ne_of_binding hp '.' ?_ rfl
    rw [trimStart_cons (isBlank_of_mem (by decide))]
    rfl

/-- Nothing but blanks stops every phrase. -/
theorem Blanks.stops {s : List Char} (h : Blanks s) (p : Nat) : Stops p s where
  reserved ch hch := by
    unfold isReserved
    rw [h ch (List.mem_of_mem_head? hch), Bool.true_or]
  loose ch hch := by
    rw [h.trimStart_eq_nil] at hch
    nomatch hch
  noBound after hafter := by
    unfold after? at hafter
    rw [h.trimStart_eq_nil] at hafter
    nomatch hafter

/-- Before a mark that does not bind so tightly a phrase stops, unless the mark is a comma with an integer after it. -/
theorem stops_mark {p : Nat} {s rest : List Char} {ch : Char} (hs : Blanks s)
    (hmark : ch ∈ ['(', ')', '*', '/', '^', '%', ',', '_', '.', ':']) (hloose : ∀ q ∈ binding ch, q < p)
    (hcomma : ch = ',' → Decimal.spanInteger? (Text.trimStart rest) = none) : Stops p (s ++ ch :: rest) := by
  have hblank : Text.isBlank ch = false := isBlank_of_mem (List.mem_cons_of_mem _ (List.mem_cons_of_mem _ hmark))
  have htrim : Text.trimStart (s ++ ch :: rest) = ch :: rest := by
    rw [hs.trimStart_append, trimStart_cons hblank]
  refine ⟨?_, ?_, ?_⟩
  · intro d hd
    unfold isReserved
    cases s with
    | nil =>
      obtain rfl := Option.some.inj hd
      rw [List.contains_iff_mem.2 hmark, Bool.or_true]
    | cons b s =>
      obtain rfl := Option.some.inj hd
      rw [hs b (List.mem_cons_self ..), Bool.true_or]
  · intro d hd
    rw [htrim] at hd
    obtain rfl := Option.some.inj hd
    exact hloose
  · intro after hafter
    unfold after? at hafter
    rw [htrim] at hafter
    dsimp only at hafter
    split at hafter
    · rename_i heq
      obtain rfl := Option.some.inj hafter
      exact hcomma (eq_of_beq heq)
    · nomatch hafter

/-! ## How a phrase starts -/

variable [Numeric F] {c : Catalog F}

/-- A member of a chain is not links. -/
theorem Chain.member_ne_links (k k' : Chain) : k.member ≠ .links k' := by
  cases k <;> nofun

/-- A phrase starts with a parenthesis or a name, after blanks, unless it is links. -/
theorem Derives.exists_head {p : Phrase} {w : List Char} {t : Tree F} (h : Derives c p w t) (hp : ∀ k, p ≠ .links k) :
    ∃ s ch v, w = s ++ ch :: v ∧ Blanks s ∧ (ch = '(' ∨ startsName ch = true) := by
  induction h with
  | single _ ih => exact ih (Chain.member_ne_links _)
  | several _ _ ih _ =>
    obtain ⟨s, ch, v, rfl, hs, hch⟩ := ih (Chain.member_ne_links _)
    exact ⟨s, ch, _, List.append_assoc .., hs, hch⟩
  | noLinks => exact absurd rfl (hp _)
  | link => exact absurd rfl (hp _)
  | whole _ ih | first _ ih | plain _ ih => exact ih nofun
  | fraction _ _ _ ih | power _ _ _ _ ih | prefixed _ _ _ _ _ ih =>
    obtain ⟨s, ch, v, rfl, hs, hch⟩ := ih nofun
    exact ⟨s, ch, _, by rw [List.append_assoc, List.append_assoc, List.cons_append], hs, hch⟩
  | @named s name u hs hname _ =>
    obtain ⟨hstart, -⟩ := hname
    exact ⟨s, _, _, rfl, hs, .inr hstart⟩
  | @parenthesized s w s' t hs _ _ _ => exact ⟨s, '(', _, rfl, hs, .inl rfl⟩

/-- No integer starts where a phrase does, so that a comma before an integer continues the bounds of a fraction. -/
theorem Derives.spanInteger?_eq_none {p : Phrase} {w : List Char} {t : Tree F} (h : Derives c p w t)
    (hp : ∀ k, p ≠ .links k) (rest : List Char) : Decimal.spanInteger? (Text.trimStart (w ++ rest)) = none := by
  obtain ⟨s, ch, v, rfl, hs, hch⟩ := h.exists_head hp
  rw [List.append_assoc, hs.trimStart_append, List.cons_append]
  rcases hch with rfl | hstart
  · rw [trimStart_cons (isBlank_of_mem (by decide))]
    exact Decimal.spanInteger?_eq_none (by decide) (by decide) (by decide +kernel) _
  · obtain ⟨-, hblank, -, hplus, hminus, hdigit⟩ := class_of_startsName hstart
    rw [trimStart_cons hblank]
    exact Decimal.spanInteger?_eq_none hplus hminus hdigit _

/-! ## Recognition -/

/-- The reader reads phrases of the kind only, and every one of at most `n` characters before what stops at `p`, with the outcome of
its tree. -/
structure Recognizes (c : Catalog F) (n p : Nat) (reader : Reader (UnitOfMeasure F)) (phrase : Phrase) : Prop where
  sound : ∀ {cs u rest}, reader cs = .ok (u, rest) →
    ∃ w t, cs = w ++ rest ∧ Derives c phrase w t ∧ t.evaluate c = .ok u
  complete : ∀ {w t}, Derives c phrase w t → w.length ≤ n →
    ∀ {rest}, Stops p rest → reader (w ++ rest) = (t.evaluate c).map (·, rest)

section Atoms

variable {n : Nat} {inner : Reader (UnitOfMeasure F)}

/-- Atoms are read if what may stand in parentheses is. -/
theorem recognizes_atom (hinner : Recognizes c n 1 inner (.chain .hierarchy)) :
    Recognizes c (n + 1) 7 (atom c inner) .atom where
  sound {cs u rest} h := by
    unfold atom at h
    split at h
    · obtain ⟨s, name, rfl, hs, hname, hu⟩ := named_eq_ok h
      exact ⟨s ++ name, .unit u, rfl, .named hs hname hu, rfl⟩
    rename_i after hafter
    obtain ⟨s, rfl, hs⟩ := after?_eq_some hafter
    split at h
    · cases h
    rename_i v rest' hv
    obtain ⟨w, t, rfl, ht, heval⟩ := hinner.sound hv
    split at h
    · cases h
    rename_i rest'' hclose
    obtain ⟨s', rfl, hs'⟩ := after?_eq_some hclose
    obtain ⟨rfl, rfl⟩ := Prod.mk.inj (Except.ok.inj h)
    exact ⟨s ++ '(' :: (w ++ s' ++ [')']), t, by simp, .parenthesized hs ht hs', heval⟩
  complete {w t} h hn rest hstop := by
    unfold atom
    cases h with
    | @named s name u hs hname hu =>
      have hparen : after? '(' (s ++ name ++ rest) = none := by
        refine after?_eq_none fun d hd => ?_
        obtain ⟨hstart, -⟩ := hname
        have hclass := class_of_startsName hstart
        rw [List.append_assoc, hs.trimStart_append, List.cons_append, trimStart_cons hclass.2.1] at hd
        obtain rfl := Option.some.inj hd
        exact hclass.2.2.1
      rw [hparen, named_append hs hname hu hstop.reserved]
      rfl
    | @parenthesized s w s' _ hs ht hs' =>
      have hstop' : Stops 1 (s' ++ ')' :: rest) := stops_mark hs' (by decide) (fun _ hq => by cases hq) fun h => by cases h
      have hlength : w.length ≤ n := by
        simp only [List.length_append, List.length_cons] at hn
        omega
      have hread := hinner.complete ht hlength hstop'
      have htext : s ++ '(' :: (w ++ s' ++ [')']) ++ rest = s ++ '(' :: (w ++ (s' ++ ')' :: rest)) := by simp
      rw [htext, after?_append hs (isBlank_of_mem (by decide))]
      dsimp only
      rw [hread]
      cases t.evaluate c with
      | error e => rfl
      | ok u =>
        dsimp only [Except.map]
        rw [after?_append hs' (isBlank_of_mem (by decide))]

end Atoms

/-! ## Suffixes -/

section Suffixes

variable {α β : Type} {n p q : Nat}

/-- The mark of a suffix is found where it is next, and not where the phrase before it stops with all its suffixes. -/
structure FindsMark (p q : Nat) (suffix? : List Char → Option (β × List Char)) (M : List Char → β → Prop) : Prop where
  sound : ∀ {cs b rest}, suffix? cs = some (b, rest) → ∃ m, cs = m ++ rest ∧ M m b
  complete : ∀ {m b}, M m b → ∀ rest, suffix? (m ++ rest) = some (b, rest)
  absent : ∀ {rest}, Stops p rest → suffix? rest = none
  stops : ∀ {m b}, M m b → ∀ rest, Stops q (m ++ rest)

/-- The argument of a suffix is read up to where the phrase stops. -/
structure ReadsArgument (p : Nat) (reader : Reader α) (A : List Char → α → Prop) : Prop where
  sound : ∀ {cs a rest}, reader cs = .ok (a, rest) → ∃ v, cs = v ++ rest ∧ A v a
  complete : ∀ {v a}, A v a → ∀ {rest}, Stops p rest → reader (v ++ rest) = .ok (a, rest)

/-- A suffix is read if its operand, its mark and its argument are. -/
theorem recognizes_suffixed {operand : Reader (UnitOfMeasure F)} {phrase phrase' : Phrase}
    {suffix? : List Char → Option (β × List Char)} {M : List Char → β → Prop} {argument : Reader α}
    {A : List Char → α → Prop} {compose : β → α → UnitOfMeasure F → Except CompositionError (UnitOfMeasure F)}
    (node : Tree F → β → α → Tree F) (hoperand : Recognizes c n q operand phrase) (hpq : p ≤ q)
    (hmark : FindsMark p q suffix? M) (hargument : ReadsArgument p argument A)
    (hnode : ∀ t b a, (node t b a).evaluate c = (t.evaluate c).bind fun u => composed c [u] (compose b a u))
    (hphrase : ∀ w t, Derives c phrase' w t ↔ Derives c phrase w t ∨
      ∃ w' t' m b v a, w = w' ++ m ++ v ∧ t = node t' b a ∧ Derives c phrase w' t' ∧ M m b ∧ A v a) :
    Recognizes c n p (suffixed c operand suffix? argument compose) phrase' where
  sound {cs u rest} h := by
    unfold suffixed at h
    split at h
    · cases h
    rename_i u' rest' hu'
    obtain ⟨w, t, rfl, ht, heval⟩ := hoperand.sound hu'
    split at h
    · obtain ⟨rfl, rfl⟩ := Prod.mk.inj (Except.ok.inj h)
      exact ⟨w, t, rfl, (hphrase w t).2 (.inl ht), heval⟩
    rename_i b after hb
    obtain ⟨m, rfl, hm⟩ := hmark.sound hb
    split at h
    · cases h
    rename_i a rest'' ha
    obtain ⟨v, rfl, hv⟩ := hargument.sound ha
    cases hcomposed : composed c [u'] (compose b a u') with
    | error e =>
      rw [hcomposed] at h
      cases h
    | ok v' =>
      rw [hcomposed] at h
      obtain ⟨rfl, rfl⟩ := Prod.mk.inj (Except.ok.inj h)
      refine ⟨w ++ m ++ v, node t b a, ?_, (hphrase _ _).2 (.inr ⟨w, t, m, b, v, a, rfl, rfl, ht, hm, hv⟩), ?_⟩
      · rw [List.append_assoc, List.append_assoc]
      · rw [hnode, heval]
        exact hcomposed
  complete {w t} h hn rest hstop := by
    unfold suffixed
    rcases (hphrase w t).1 h with ht | ⟨w', t', m, b, v, a, rfl, rfl, ht, hm, hv⟩
    · rw [hoperand.complete ht hn (hstop.mono hpq)]
      cases t.evaluate c with
      | error e => rfl
      | ok u =>
        dsimp only [Except.map]
        rw [hmark.absent hstop]
    · rw [List.length_append, List.length_append] at hn
      have hread := hoperand.complete ht (by omega) (hmark.stops hm (v ++ rest))
      rw [List.append_assoc, List.append_assoc, hread, hnode]
      cases t'.evaluate c with
      | error e => rfl
      | ok u =>
        dsimp only [Except.map]
        rw [hmark.complete hm]
        dsimp only
        rw [hargument.complete hv hstop]
        rfl

/-- A mark of one character is found. -/
theorem findsMark_mark {ch : Char} (hch : ch ∈ ['(', ')', '*', '/', '^', '%', ',', '_', '.', ':']) (hcomma : ch ≠ ',')
    (hbinding : binding ch = some p) :
    FindsMark p (p + 1) (mark? ch) fun m _ => ∃ s, m = s ++ [ch] ∧ Blanks s where
  sound {cs b rest} h := by
    obtain ⟨after, hafter, hpair⟩ := Option.map_eq_some_iff.1 h
    obtain ⟨-, rfl⟩ := Prod.mk.inj hpair
    obtain ⟨s, rfl, hs⟩ := after?_eq_some hafter
    exact ⟨s ++ [ch], by simp, s, rfl, hs⟩
  complete {m b} h rest := by
    obtain ⟨s, rfl, hs⟩ := h
    rw [List.append_assoc, List.singleton_append, mark?,
      after?_append hs (isBlank_of_mem (List.mem_cons_of_mem _ (List.mem_cons_of_mem _ hch)))]
    rfl
  absent {rest} h := by
    rw [mark?, Option.map_eq_none_iff]
    exact h.after?_eq_none hbinding
  stops {m b} h rest := by
    obtain ⟨s, rfl, hs⟩ := h
    rw [List.append_assoc, List.singleton_append]
    refine stops_mark hs hch (fun q hq => ?_) fun h => absurd h hcomma
    rw [hbinding] at hq
    obtain rfl := Option.some.inj hq
    exact Nat.lt_succ_self p

/-- The mark of a prefix is found. -/
theorem findsMark_prefixBase :
    FindsMark 6 7 prefixBase? fun m base => ∃ s ch, m = s ++ [ch] ∧ Blanks s ∧ markBase? ch = some base where
  sound {cs base rest} h := by
    obtain ⟨s, ch, rfl, hs, hmark⟩ := prefixBase?_eq_some h
    exact ⟨s ++ [ch], by simp, s, ch, rfl, hs, hmark⟩
  complete {m base} h rest := by
    obtain ⟨s, ch, rfl, hs, hmark⟩ := h
    rw [List.append_assoc, List.singleton_append, prefixBase?_append hs hmark]
  absent {rest} h := by
    refine prefixBase?_eq_none fun d hd => ?_
    have hne := h.ne_of_binding (Nat.le_refl 6) d hd
    unfold markBase?
    split <;> first | exact absurd rfl hne | rfl
  stops {m base} h rest := by
    obtain ⟨s, ch, rfl, hs, hmark⟩ := h
    rw [List.append_assoc, List.singleton_append]
    unfold markBase? at hmark
    split at hmark
    · exact stops_mark hs (by decide) (by decide) fun h => nomatch h
    · exact stops_mark hs (by decide) (by decide) fun h => nomatch h
    · exact stops_mark hs (by decide) (by decide) fun h => nomatch h
    · nomatch hmark

/-- Prefixed units are read if what may be prefixed is. -/
theorem recognizes_prefixed {operand : Reader (UnitOfMeasure F)} (hoperand : Recognizes c n 7 operand .atom) :
    Recognizes c n 6 (prefixed c operand) .prefixed := by
  have hargument : ReadsArgument 6 (integer (-(2 ^ 31)) (2 ^ 31 - 1)) fun v exponent =>
      ∃ s numeral, v = s ++ numeral ∧ Blanks s ∧ Decimal.readInteger? (-(2 ^ 31)) (2 ^ 31 - 1) numeral = some exponent := by
    constructor
    · intro cs exponent rest h
      obtain ⟨s, numeral, rfl, hs, hnumeral⟩ := integer_eq_ok h
      exact ⟨s ++ numeral, rfl, s, numeral, rfl, hs, hnumeral⟩
    · rintro v exponent ⟨s, numeral, rfl, hs, hnumeral⟩ rest hstop
      exact integer_append hs hnumeral hstop.noDigit
  refine recognizes_suffixed Tree.prefixed hoperand (by decide) findsMark_prefixBase hargument ?_ ?_
  · intro t base exponent
    rw [Tree.evaluate]
    rfl
  · intro w t
    constructor
    · intro h
      cases h with
      | plain h => exact .inl h
      | @prefixed w t s mark base s' v exponent h hs hmark hs' hv =>
        exact .inr ⟨w, t, s ++ [mark], base, s' ++ v, exponent, by simp, rfl, h, ⟨s, mark, rfl, hs, hmark⟩,
          ⟨s', v, rfl, hs', hv⟩⟩
    · rintro (h | ⟨w, t, m, base, v, exponent, rfl, rfl, h, ⟨s, mark, rfl, hs, hmark⟩, ⟨s', v, rfl, hs', hv⟩⟩)
      · exact .plain h
      · have hphrase := Derives.prefixed h hs hmark hs' hv
        simpa using hphrase

/-- Powers are read if what may be raised is. -/
theorem recognizes_powered {operand : Reader (UnitOfMeasure F)} (hoperand : Recognizes c n 6 operand .prefixed) :
    Recognizes c n 5 (powered c operand) .power := by
  have hargument : ReadsArgument 5 number fun v (exponent : F) =>
      ∃ s numeral, v = s ++ numeral ∧ Blanks s ∧ IsNumber numeral exponent := by
    constructor
    · intro cs exponent rest h
      obtain ⟨s, numeral, rfl, hs, hnumeral⟩ := number_eq_ok h
      exact ⟨s ++ numeral, rfl, s, numeral, rfl, hs, hnumeral⟩
    · rintro v exponent ⟨s, numeral, rfl, hs, hnumeral⟩ rest hstop
      exact number_append hs hnumeral hstop.noDigit (hstop.ne_point (by decide))
  refine recognizes_suffixed (fun t _ exponent => .power t exponent) hoperand (by decide)
    (findsMark_mark (by decide) (by decide) rfl) hargument ?_ ?_
  · intro t _ exponent
    rw [Tree.evaluate]
    rfl
  · intro w t
    constructor
    · intro h
      cases h with
      | first h => exact .inl h
      | @power w t s s' v x h hs hs' hv =>
        exact .inr ⟨w, t, s ++ ['^'], (), s' ++ v, x, by simp, rfl, h, ⟨s, rfl, hs⟩, ⟨s', v, rfl, hs', hv⟩⟩
    · rintro (h | ⟨w, t, m, _, v, exponent, rfl, rfl, h, ⟨s, rfl, hs⟩, ⟨s', v, rfl, hs', hv⟩⟩)
      · exact .first h
      · have hphrase := Derives.power h hs hs' hv
        simpa using hphrase

/-- Fractions are read if quotients are. -/
theorem recognizes_fractional {operand : Reader (UnitOfMeasure F)}
    (hoperand : Recognizes c n 3 operand (.chain .quotient)) :
    Recognizes c n 2 (fractional c operand) .fraction := by
  have hargument : ReadsArgument 2 bounds AreBounds :=
    ⟨bounds_eq_ok, fun h _ hstop => bounds_append h hstop.noDigit hstop.noBound⟩
  refine recognizes_suffixed (fun t _ bounds => .fraction t bounds) hoperand (by decide)
    (findsMark_mark (by decide) (by decide) rfl) hargument ?_ ?_
  · intro t _ bounds
    rw [Tree.evaluate]
    rfl
  · intro w t
    constructor
    · intro h
      cases h with
      | whole h => exact .inl h
      | @fraction w t s v bounds h hs hv =>
        exact .inr ⟨w, t, s ++ ['%'], (), v, bounds, by simp, rfl, h, ⟨s, rfl, hs⟩, hv⟩
    · rintro (h | ⟨w, t, m, _, v, bounds, rfl, rfl, h, ⟨s, rfl, hs⟩, hv⟩)
      · exact .whole h
      · have hphrase := Derives.fraction h hs hv
        simpa using hphrase

end Suffixes

end QuantityCalculus.UnitExpression
