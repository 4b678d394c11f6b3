import QuantityCalculus.Proofs.Expression.Recognition

/-!
# Associativity read from the table

A table may let each of its operators group to either side. A chain of literals and operators of one level is read by that level
alone: the tighter levels stop at its operators, and the looser ones find nothing after it (`parse_chain`). So the chain groups as
its operators say at the exponents and at every level of the table. Bindings of a variable and conversions do not ask the table:
their chains group to the left even where all their operators say right.
-/

namespace QuantityCalculus

/-- The table in which each operator groups to the side that is given for its symbol. -/
def OperatorTable.withSides (t : OperatorTable) (side : String → Associativity) : OperatorTable :=
  ⟨t.operators.map fun o => { o with associativity := side o.symbol }⟩

/-- The sides leave the levels as they are. -/
theorem OperatorTable.binaryLevels_withSides (t : OperatorTable) (side : String → Associativity) :
    (t.withSides side).binaryLevels = t.binaryLevels := by
  unfold binaryLevels withSides
  rw [List.map_map]
  rfl

/-- A table in which some operators are reversed is the common one with other sides. -/
theorem OperatorTable.exists_withSides_reverse (symbols : List String) :
    ∃ side, common.reverse symbols = common.withSides side := by
  refine ⟨fun symbol => (((common.reverse symbols).get? symbol).map (·.associativity)).getD .left, ?_⟩
  unfold withSides
  rw [reverse]
  generalize symbols.filterMap (fun s => (common.get? s).map (·.op)) = ops
  refine congrArg OperatorTable.mk (List.map_congr_left fun o ho => ?_)
  have hget : common.get? o.symbol = some o := Expression.get?_common_eq_some.2 ⟨ho, rfl⟩
  have hsymbol (o' : Operator) : (if ops.contains o'.op then { o' with associativity := o'.associativity.reverse } else o').symbol =
      o'.symbol := by
    split <;> rfl
  have hreversed : (OperatorTable.mk (common.operators.map fun o =>
      if ops.contains o.op then { o with associativity := o.associativity.reverse } else o)).get? o.symbol =
      some (if ops.contains o.op then { o with associativity := o.associativity.reverse } else o) := by
    unfold get? at hget ⊢
    simp only [List.find?_map, Function.comp_def, hsymbol, hget, Option.map_some]
  simp only [hreversed, Option.map_some, Option.getD_some]
  split <;> rfl

/-- A number that is inserted is the only one that may be new. -/
theorem OperatorTable.mem_of_mem_insertIncreasing {m n : Nat} {ms : List Nat} (h : m ∈ insertIncreasing n ms) :
    m = n ∨ m ∈ ms := by
  induction ms with
  | nil => exact .inl (List.mem_singleton.1 h)
  | cons k ms ih =>
    rw [insertIncreasing] at h
    split at h
    · exact List.mem_cons.1 h
    split at h
    · exact .inr h
    · rcases List.mem_cons.1 h with rfl | h
      · exact .inr (List.mem_cons_self ..)
      · exact (ih h).imp_right (List.mem_cons_of_mem _)

/-- The levels are looser than conversions. -/
theorem OperatorTable.lt_of_mem_binaryLevels {t : OperatorTable} {p : Nat} (h : p ∈ t.binaryLevels) : p < convertPrecedence := by
  unfold binaryLevels at h
  have hfilter : ∀ q ∈ (t.operators.map (·.precedence)).filter fun p => assignPrecedence < p && p < convertPrecedence,
      q < convertPrecedence := by
    intro q hq
    obtain ⟨-, hq⟩ := List.mem_filter.1 hq
    exact of_decide_eq_true (Bool.and_eq_true_iff.1 hq).2
  generalize (t.operators.map (·.precedence)).filter (fun p => assignPrecedence < p && p < convertPrecedence) = precedences
    at h hfilter
  induction precedences with
  | nil => nomatch h
  | cons q precedences ih =>
    obtain rfl | h := mem_of_mem_insertIncreasing h
    · exact hfilter p (List.mem_cons_self ..)
    · exact ih h fun q hq => hfilter q (List.mem_cons_of_mem _ hq)

namespace Expression

variable {F γ : Type}

/-- The tree of a chain of operators that groups to the right whatever the operators say. -/
def groupRight : Expression F → List (Operator × Expression F) → Expression F
  | left, [] => left
  | left, (o, right) :: links => .binary o.op left (groupRight right links)

/-- Operators that all group to the right group as the chain does. -/
theorem group_eq_groupRight {links : List (Operator × Expression F)} (h : ∀ link ∈ links, link.1.associativity = .right)
    (e : Expression F) : group e links = groupRight e links := by
  induction links generalizing e with
  | nil => rfl
  | cons link links ih =>
    obtain ⟨o, right⟩ := link
    have hright : o.associativity = .right := h (o, right) (List.mem_cons_self ..)
    have hlinks : ∀ link ∈ links, link.1.associativity = .right := fun link hlink => h link (List.mem_cons_of_mem _ hlink)
    simp only [group, hright, groupRight, ih hlinks]

/-- Operands without signs group as they do where no signs are allowed. -/
theorem groupSigned_unsigned (e : Expression F) (links : List (Operator × Expression F)) :
    groupSigned e (links.map fun link => (link.1, [], link.2)) = group e links := by
  induction links generalizing e with
  | nil => rfl
  | cons link links ih =>
    obtain ⟨o, right⟩ := link
    cases h : o.associativity with
    | left => simp [groupSigned, group, h, applySigns, ih]
    | right => simp [groupSigned, group, h, applySigns, ih]

/-! ## Literals before operators of one precedence -/

/-- The words that are literals. -/
inductive Literal : Language F (Expression F)
  | number (x) : Literal [.number x] (.number x)
  | string (s) : Literal [.string s] (.string s)
  | boolean (b) : Literal [.boolean b] (.boolean b)

/-- A literal is one lexeme. -/
theorem Literal.exists_eq_singleton {w : List (Lexeme F)} {e : Expression F} (h : Literal w e) : ∃ s, w = [s] := by
  cases h with
  | number | string | boolean => exact ⟨_, rfl⟩

variable {t : OperatorTable} {p q : Nat}

/-- Nothing, or an operator of the precedence, comes next. -/
def Awaits (t : OperatorTable) (p : Nat) (rest : List (Token F)) : Prop :=
  ∀ token ∈ rest.head?, ∃ o, operatorAt t p token.lexeme = some o

/-- What continues a chain is awaited after its operands. -/
theorem awaits_of_links {tokens : List (Token F)} {L : Language F γ} {links : List (Operator × γ)}
    (h : Links (operatorAt t p) L (lexemes tokens) links) : Awaits t p tokens := by
  intro token htoken
  obtain ⟨rest, rfl⟩ := List.head?_eq_some_iff.1 htoken
  rw [lexemes_cons] at h
  generalize hw : token.lexeme :: lexemes rest = w at h
  cases h with
  | nil => nomatch hw
  | cons hs _ _ =>
    obtain ⟨rfl, -⟩ := List.cons.inj hw
    exact ⟨_, hs⟩

/-- An operator of one precedence is none of another. -/
theorem operatorAt_eq_none_of_ne {s : Lexeme F} {o : Operator} (h : operatorAt t p s = some o) (hpq : p ≠ q) :
    operatorAt t q s = none := by
  cases s with
  | operator symbol =>
    simp only [operatorAt, Option.filter_eq_some_iff, beq_iff_eq] at h
    obtain ⟨hget, rfl⟩ := h
    simpa [operatorAt, hget, Option.filter_some] using hpq
  | _ => simp [operatorAt] at h

/-- Where operators of one precedence are awaited, there is none of another. -/
theorem Awaits.separator?_eq_none {rest : List (Token F)} (h : Awaits t p rest) (hpq : p ≠ q) :
    separator? (operatorAt t q) rest = none := by
  cases rest with
  | nil => rfl
  | cons token rest =>
    obtain ⟨o, ho⟩ := h token rfl
    rw [separator?, operatorAt_eq_none_of_ne ho hpq, Option.map_none]

/-- Where operators are awaited, no factor starts. -/
theorem Awaits.not_startsFactor {rest : List (Token F)} (h : Awaits t p rest) :
    (rest.head?.any fun token => startsFactor token.lexeme) = false := by
  cases rest with
  | nil => rfl
  | cons token rest =>
    obtain ⟨o, ho⟩ := h token rfl
    cases hs : token.lexeme with
    | operator symbol => simp [startsFactor, hs]
    | _ => simp [hs, operatorAt] at ho

/-- The parser reads every literal before operators of the precedence, and makes what the function says of it. -/
def ReadsLiterals (t : OperatorTable) (p : Nat) (parser : Parser F γ) (f : Expression F → γ) : Prop :=
  ∀ (token : Token F) (e rest), Literal [token.lexeme] e → Awaits t p rest → parser (token :: rest) = .ok (f e, rest)

/-! ## Chains of literals -/

/-- A chain ends where no separator comes next. -/
theorem chain_of_separator?_eq_none {α β : Type} {first : Parser F α} {isSeparator : Lexeme F → Option β} {operand : Parser F γ}
    {tokens rest : List (Token F)} {x : α} (hfirst : first tokens = .ok (x, rest)) (hsep : separator? isSeparator rest = none) :
    chain first isSeparator operand tokens = .ok ((x, []), rest) := by
  have hrest : chainRest isSeparator operand rest.length rest = .ok ([], rest) := by
    cases rest with
    | nil => rfl
    | cons token rest => rw [List.length_cons, chainRest, hsep]
  simp only [chain, hfirst, hrest]

/-- Links of literals are read to their end, by induction on the links. -/
theorem chainRest_literals {operand : Parser F γ} {f : Expression F → γ} (hop : ReadsLiterals t p operand f)
    {w : List (Lexeme F)} {links : List (Operator × Expression F)} (h : Links (operatorAt t p) Literal w links)
    {tokens : List (Token F)} (hw : lexemes tokens = w) {fuel : Nat} (hfuel : tokens.length ≤ fuel) :
    chainRest (operatorAt t p) operand fuel tokens = .ok (links.map fun link => (link.1, f link.2), []) := by
  induction h generalizing tokens fuel with
  | nil =>
    obtain rfl := List.map_eq_nil_iff.1 hw
    cases fuel <;> rfl
  | @cons s o v e w links hs he hlinks ih =>
    obtain ⟨lexeme, rfl⟩ := he.exists_eq_singleton
    obtain ⟨sign, after, rfl, rfl, hafter⟩ := lexemes_eq_cons hw
    obtain ⟨token, tokens, rfl, rfl, rfl⟩ := lexemes_eq_cons hafter
    rw [List.length_cons, List.length_cons] at hfuel
    obtain ⟨fuel, rfl⟩ : ∃ n, fuel = n + 1 := ⟨fuel - 1, by omega⟩
    have hoperand := hop token e tokens he (awaits_of_links hlinks)
    have hrest := ih rfl (by omega : tokens.length ≤ fuel)
    simp only [chainRest, separator?, hs, Option.map_some, hoperand, hrest, List.map_cons]

/-- A chain of literals is read to its end. -/
theorem chain_literals {first : Parser F (Expression F)} {operand : Parser F γ} {f : Expression F → γ}
    (hfirst : ReadsLiterals t p first id) (hop : ReadsLiterals t p operand f) {tokens : List (Token F)}
    {e : Expression F} {links : List (Operator × Expression F)}
    (h : Chained Literal (operatorAt t p) Literal (lexemes tokens) (e, links)) :
    chain first (operatorAt t p) operand tokens = .ok ((e, links.map fun link => (link.1, f link.2)), []) := by
  obtain ⟨u, v, hw, he, hlinks⟩ := h
  obtain ⟨lexeme, rfl⟩ := he.exists_eq_singleton
  obtain ⟨token, rest, rfl, rfl, rfl⟩ := lexemes_eq_cons hw
  have hread : first (token :: rest) = .ok (e, rest) := hfirst token e rest he (awaits_of_links hlinks)
  have hrest := chainRest_literals hop hlinks rfl (Nat.le_refl _)
  simp only [chain, hread, hrest]

/-! ## Tighter levels -/

/-- A literal is a factor. -/
theorem readsLiterals_factor (element : Parser F (Expression F)) : ReadsLiterals t p (factor element) id := by
  intro token e rest he hrest
  obtain ⟨lexeme, span⟩ := token
  cases he with
  | number | string | boolean => rfl

/-- A literal has no signs. -/
theorem ReadsLiterals.signed {operand : Parser F (Expression F)} (h : ReadsLiterals t p operand id) :
    ReadsLiterals t p (signed operand) ([], ·) := by
  intro token e rest he hrest
  have hsign : ∀ t' ∈ (token :: rest).head?, signOf t'.lexeme = none := by
    rintro _ ⟨⟩
    obtain ⟨lexeme, span⟩ := token
    cases he with
    | number | string | boolean => rfl
  have hread : operand (token :: rest) = .ok (e, rest) := h token e rest he hrest
  rw [signed_of_unsigned hsign, Parser.map, hread]

/-- A chain of tighter operators ends after one literal. -/
theorem ReadsLiterals.chain {first : Parser F (Expression F)} (h : ReadsLiterals t p first id) (hpq : p ≠ q)
    (operand : Parser F γ) : ReadsLiterals t p (chain first (operatorAt t q) operand) (·, []) := by
  intro token e rest he hrest
  exact chain_of_separator?_eq_none (h token e rest he hrest) (hrest.separator?_eq_none hpq)

/-- What is made of a literal may be changed by a function. -/
theorem ReadsLiterals.map {δ : Type} {parser : Parser F γ} {f : Expression F → γ} (h : ReadsLiterals t p parser f) (g : γ → δ) :
    ReadsLiterals t p (Parser.map g parser) fun e => g (f e) := by
  intro token e rest he hrest
  rw [Parser.map, h token e rest he hrest]

/-- Literals are exponents where exponent operators are not awaited. -/
theorem readsLiterals_exponent (element : Parser F (Expression F)) (hp : p ≠ OperatorTable.exponentPrecedence) :
    ReadsLiterals t p (exponent t element) id :=
  ((readsLiterals_factor element).chain hp _).map _

/-- An exponent by itself is a juxtaposition without signs. -/
theorem prefixed_of_exponent {element : Parser F (Expression F)} {token : Token F} {tokens rest : List (Token F)}
    {e : Expression F} (hsign : signOf token.lexeme = none) (hread : exponent t element (token :: tokens) = .ok (e, rest))
    (hrest : (rest.head?.any fun token => startsFactor token.lexeme) = false) :
    prefixed t element (token :: tokens) = .ok (e, rest) := by
  have hmore : juxtaposedRest (exponent t element) rest.length rest = .ok ([], rest) := by
    rw [juxtaposedRest_eq_many, many_of_not_starts hrest]
  have hjuxtaposed : juxtaposition (exponent t element) (token :: tokens) = .ok (e, rest) := by
    simp only [juxtaposition, hread, hmore, List.foldl_nil]
  have hunsigned : ∀ t' ∈ (token :: tokens).head?, signOf t'.lexeme = none := by
    rintro _ ⟨⟩
    exact hsign
  simp only [prefixed, Parser.map, signed_of_unsigned hunsigned, hjuxtaposed, applySigns, List.foldr_nil]

/-- A literal is not a sign. -/
theorem Literal.signOf_eq_none {s : Lexeme F} {e : Expression F} (h : Literal [s] e) : signOf s = none := by
  cases h with
  | number | string | boolean => rfl

/-- Literals are juxtapositions where exponent operators are not awaited. -/
theorem readsLiterals_prefixed (element : Parser F (Expression F)) (hp : p ≠ OperatorTable.exponentPrecedence) :
    ReadsLiterals t p (prefixed t element) id := by
  intro token e rest he hrest
  exact prefixed_of_exponent he.signOf_eq_none (readsLiterals_exponent element hp token e rest he hrest) hrest.not_startsFactor

/-- Literals are operands of every level but that of the operators that are awaited. -/
theorem readsLiterals_levels {operand : Parser F (Expression F)} (h : ReadsLiterals t p operand id) {precedences : List Nat}
    (hp : p ∉ precedences) : ReadsLiterals t p (precedences.foldr (level t) operand) id := by
  induction precedences with
  | nil => exact h
  | cons q precedences ih =>
    rw [List.mem_cons, not_or] at hp
    exact ((ih hp.2).chain hp.1 _).map _

/-! ## The level of the operators -/

/-- A chain of literals at its level. -/
theorem level_literals {operand : Parser F (Expression F)} (h : ReadsLiterals t p operand id) {tokens : List (Token F)}
    {e : Expression F} {links : List (Operator × Expression F)}
    (hchain : Chained Literal (operatorAt t p) Literal (lexemes tokens) (e, links)) :
    level t p operand tokens = .ok (group e links, []) ∧ leftLevel t p operand tokens = .ok (groupLeft e links, []) := by
  have hread := chain_literals h h hchain
  have hlinks : (links.map fun link => (link.1, id link.2)) = links := List.map_id _
  rw [hlinks] at hread
  simp only [level, leftLevel, Parser.map, hread, and_self]

/-- A chain of literals as an exponent. -/
theorem exponent_literals (element : Parser F (Expression F)) {tokens : List (Token F)} {e : Expression F}
    {links : List (Operator × Expression F)}
    (hchain : Chained Literal (operatorAt t OperatorTable.exponentPrecedence) Literal (lexemes tokens) (e, links)) :
    exponent t element tokens = .ok (group e links, []) := by
  have hread := chain_literals (readsLiterals_factor element) (readsLiterals_factor element).signed hchain
  rw [exponent, Parser.map, hread]
  simp only [groupSigned_unsigned]

/-! ## Looser levels -/

/-- What is read to its end is read so by a looser level. -/
theorem level_of_read {operand : Parser F (Expression F)} {tokens : List (Token F)} {e : Expression F}
    (h : operand tokens = .ok (e, [])) (q : Nat) :
    level t q operand tokens = .ok (e, []) ∧ leftLevel t q operand tokens = .ok (e, []) := by
  have hread : chain operand (operatorAt t q) operand tokens = .ok ((e, []), []) := chain_of_separator?_eq_none h rfl
  simp only [level, leftLevel, Parser.map, hread, group, groupLeft, List.foldl_nil, and_self]

/-- What is read to its end is read so by all looser levels. -/
theorem levels_of_read {operand : Parser F (Expression F)} {tokens : List (Token F)} {e : Expression F}
    (h : operand tokens = .ok (e, [])) (precedences : List Nat) :
    precedences.foldr (level t) operand tokens = .ok (e, []) := by
  induction precedences with
  | nil => exact h
  | cons q precedences ih => exact (level_of_read ih q).1

/-- A chain of literals is read by its own level among others, by induction from the tightest level. -/
theorem levels_literals {operand : Parser F (Expression F)} (h : ReadsLiterals t p operand id) {tokens : List (Token F)}
    {e : Expression F} {links : List (Operator × Expression F)}
    (hchain : Chained Literal (operatorAt t p) Literal (lexemes tokens) (e, links)) {precedences : List Nat}
    (hp : p ∈ precedences) : precedences.foldr (level t) operand tokens = .ok (group e links, []) := by
  induction precedences with
  | nil => nomatch hp
  | cons q precedences ih =>
    by_cases htail : p ∈ precedences
    · exact (level_of_read (ih htail) q).1
    · obtain rfl | hmem := List.mem_cons.1 hp
      · exact (level_literals (readsLiterals_levels h htail) hchain).1
      · exact absurd hmem htail

/-- What the levels read to its end is the whole expression. -/
theorem parse_of_levels {tokens : List (Token F)} {e : Expression F}
    (h : ∀ element, levels t element tokens = .ok (e, [])) : parse t tokens = .ok e := by
  have helement : element t (tokens.length + 1) tokens = .ok (e, []) := by
    simp only [element, assignment, h, separator?]
  have hsequence : chain (element t (tokens.length + 1)) separatorOf (element t (tokens.length + 1)) tokens = .ok ((e, []), []) :=
    chain_of_separator?_eq_none helement rfl
  simp only [parse, sequenceOf, Parser.map, hsequence, ofSequence]

/-- What is an exponent to its end is read so by all levels. -/
theorem levels_of_exponent {element : Parser F (Expression F)} {token : Token F} {tokens : List (Token F)} {e : Expression F}
    (hsign : signOf token.lexeme = none) (hread : exponent t element (token :: tokens) = .ok (e, [])) :
    levels t element (token :: tokens) = .ok (e, []) :=
  levels_of_read (level_of_read (level_of_read (prefixed_of_exponent hsign hread rfl) _).2 _).2 _

/-- A chain of literals and operators of one precedence is read as one tree: at the exponents and at the levels of the table the
operators say how it groups, and bindings and conversions group to the left. -/
theorem parse_chain {tokens : List (Token F)} {e : Expression F} {links : List (Operator × Expression F)}
    (hchain : Chained Literal (operatorAt t p) Literal (lexemes tokens) (e, links)) :
    (p = OperatorTable.exponentPrecedence ∨ p ∈ t.binaryLevels → parse t tokens = .ok (group e links)) ∧
      (p = OperatorTable.atPrecedence ∨ p = OperatorTable.convertPrecedence → parse t tokens = .ok (groupLeft e links)) := by
  refine ⟨?_, ?_⟩
  · rintro (rfl | hp)
    · obtain ⟨u, v, hw, he, -⟩ := id hchain
      obtain ⟨lexeme, rfl⟩ := he.exists_eq_singleton
      obtain ⟨token, rest, rfl, rfl, -⟩ := lexemes_eq_cons hw
      exact parse_of_levels fun element => levels_of_exponent he.signOf_eq_none (exponent_literals element hchain)
    · have hlt := OperatorTable.lt_of_mem_binaryLevels hp
      unfold OperatorTable.convertPrecedence at hlt
      have hexponent : p ≠ OperatorTable.exponentPrecedence := by unfold OperatorTable.exponentPrecedence; omega
      have hat : p ≠ OperatorTable.atPrecedence := by unfold OperatorTable.atPrecedence; omega
      have hconvert : p ≠ OperatorTable.convertPrecedence := by unfold OperatorTable.convertPrecedence; omega
      exact parse_of_levels fun element => levels_literals
        ((((readsLiterals_prefixed element hexponent).chain hat _).map _).chain hconvert _ |>.map _) hchain hp
  · rintro (rfl | rfl)
    · exact parse_of_levels fun element => levels_of_read (level_of_read (level_literals
        (readsLiterals_prefixed element (by decide)) hchain).2 _).2 _
    · exact parse_of_levels fun element => levels_of_read (level_literals
        (((readsLiterals_prefixed element (by decide)).chain (by decide) _).map _) hchain).2 _

/-- A chain of literals and operators of one level of the common table, whatever sides its operators are given, groups to the left
where all of them are left-associative and to the right where all of them are right-associative; but bindings and conversions
group to the left in any case. -/
theorem chain_groups_by_table (side : String → Associativity)
    (hp : p ∈ OperatorTable.exponentPrecedence :: levelPrecedences) {tokens : List (Token F)} {e : Expression F}
    {links : List (Operator × Expression F)}
    (hchain : Chained Literal (operatorAt (OperatorTable.common.withSides side) p) Literal (tokens.map (·.lexeme)) (e, links)) :
    (p ≠ OperatorTable.atPrecedence → p ≠ OperatorTable.convertPrecedence →
      ((∀ link ∈ links, link.1.associativity = .left) →
        parse (OperatorTable.common.withSides side) tokens = .ok (groupLeft e links)) ∧
      ((∀ link ∈ links, link.1.associativity = .right) →
        parse (OperatorTable.common.withSides side) tokens = .ok (groupRight e links))) ∧
    (p = OperatorTable.atPrecedence ∨ p = OperatorTable.convertPrecedence →
      parse (OperatorTable.common.withSides side) tokens = .ok (groupLeft e links)) := by
  obtain ⟨hgroup, hleft⟩ := parse_chain hchain
  refine ⟨fun hat hconvert => ?_, hleft⟩
  have hlevels : (OperatorTable.common.withSides side).binaryLevels = [50, 60, 70, 80, 90, 100, 110, 120, 130, 140, 150] := by
    rw [OperatorTable.binaryLevels_withSides]
    decide
  have hlevel : p = OperatorTable.exponentPrecedence ∨ p ∈ (OperatorTable.common.withSides side).binaryLevels := by
    rw [hlevels]
    rcases List.mem_cons.1 hp with hp | hp
    · exact .inl hp
    rcases List.mem_append.1 hp with hp | hp
    · exact .inr hp
    · simp [hat, hconvert] at hp
  have hparse := hgroup hlevel
  refine ⟨fun h => ?_, fun h => ?_⟩
  · rw [hparse, group_eq_groupLeft h]
  · rw [hparse, group_eq_groupRight h]

/-- Subtractions in a table where they group to the right. -/
theorem subtractions_group_right :
    let t := OperatorTable.common.withSides fun _ => .right
    let tokens : List (Token Float) := [⟨.number 8, ⟨0, 1⟩⟩, ⟨.operator "-", ⟨2, 3⟩⟩, ⟨.number 2, ⟨4, 5⟩⟩,
      ⟨.operator "−", ⟨6, 9⟩⟩, ⟨.number 1, ⟨10, 11⟩⟩]
    parse t tokens = .ok (.binary .sub (.number 8) (.binary .sub (.number 2) (.number 1))) := by
  intro t tokens
  have hchain : Chained Literal (operatorAt t 140) Literal (tokens.map (·.lexeme))
      (.number 8, [(⟨"-", .sub, .right, 140⟩, .number 2), (⟨"−", .sub, .right, 140⟩, .number 1)]) :=
    ⟨[.number 8], _, rfl, .number 8, .cons (v := [.number 2]) rfl (.number 2) (.cons (v := [.number 1]) rfl (.number 1) .nil)⟩
  have hright : ∀ link ∈ [((⟨"-", .sub, .right, 140⟩ : Operator), (.number 2 : Expression Float)),
      (⟨"−", .sub, .right, 140⟩, .number 1)], link.1.associativity = .right := by
    simp
  exact ((chain_groups_by_table (fun _ => .right) (by decide) hchain).1 (by decide) (by decide)).2 hright

/-- Conversions group to the left in the table in which they are right-associative. -/
theorem right_associative_conversions_group_left :
    let t := OperatorTable.common.reverse ["to"]
    let conversion : Operator := ⟨"to", .convert, .right, OperatorTable.convertPrecedence⟩
    let tokens : List (Token Float) := [⟨.number 1, ⟨0, 1⟩⟩, ⟨.operator "to", ⟨2, 4⟩⟩, ⟨.number 2, ⟨5, 6⟩⟩,
      ⟨.operator "to", ⟨7, 9⟩⟩, ⟨.number 3, ⟨10, 11⟩⟩]
    (∃ side, t = OperatorTable.common.withSides side) ∧
      Chained Literal (operatorAt t OperatorTable.convertPrecedence) Literal (tokens.map (·.lexeme))
        (.number 1, [(conversion, .number 2), (conversion, .number 3)]) ∧
      parse t tokens = .ok (.binary .convert (.binary .convert (.number 1) (.number 2)) (.number 3)) ∧
      parse t tokens ≠ .ok (groupRight (.number 1) [(conversion, .number 2), (conversion, .number 3)]) := by
  intro t conversion tokens
  have hparse : parse t tokens = .ok (.binary .convert (.binary .convert (.number 1) (.number 2)) (.number 3)) := rfl
  refine ⟨OperatorTable.exists_withSides_reverse ["to"], ?_, hparse, ?_⟩
  · exact ⟨[.number 1], _, rfl, .number 1, .cons (v := [.number 2]) rfl (.number 2) (.cons (v := [.number 3]) rfl (.number 3) .nil)⟩
  · rw [hparse]
    intro h
    obtain ⟨-, hnumber, -⟩ := Expression.binary.inj (Except.ok.inj h)
    nomatch hnumber

end Expression

end QuantityCalculus
