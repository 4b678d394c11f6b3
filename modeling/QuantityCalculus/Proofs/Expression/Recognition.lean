import Mathlib.Data.Nat.Init
import QuantityCalculus.Proofs.Expression.Levels
import QuantityCalculus.Proofs.Expression.Sequences

/-!
# The parser recognizes the grammar

Every parser of the expression language recognizes its kind of phrase, given that the parser of elements recognizes assignments of
bounded length. Brackets and assignments take a lexeme on the way down, so the bound is met by induction on the depth, and a
list of tokens is an expression exactly if its lexemes derive one.
-/

namespace QuantityCalculus.Expression

variable {F : Type} {n : Nat} {element : Parser F (Expression F)}

/-! ## Brackets -/

/-- Sequences are recognized where elements are. -/
theorem recognizes_sequenceOf (h : Recognizes n OperatorTable.assignPrecedence element (Derives .assignment)) :
    Recognizes n 0 (sequenceOf element) (Derives .sequence) :=
  ((h.chain h binding_of_separatorOf (by decide) (by decide)).map ofSequence).congr derives_sequence_iff

/-- What is read after an opening parenthesis is nothing or a sequence, and the closing parenthesis. -/
theorem parenthesized_sound (h : Recognizes n OperatorTable.assignPrecedence element (Derives .assignment))
    {tokens rest : List (Token F)} {e : Expression F} (hp : parenthesized element tokens = .ok (e, rest)) :
    ∃ used, tokens = used ++ rest ∧ Derives .factor (.leftParen :: lexemes used) e := by
  unfold parenthesized at hp
  split at hp
  · rename_i span rest'
    obtain ⟨rfl, rfl⟩ := Prod.mk.inj (Except.ok.inj hp)
    exact ⟨[⟨.rightParen, span⟩], rfl, .nothing⟩
  · split at hp
    · nomatch hp
    · rename_i e' span rest' hseq
      obtain ⟨rfl, rfl⟩ := Prod.mk.inj (Except.ok.inj hp)
      obtain ⟨used, rfl, hused⟩ := (recognizes_sequenceOf h).sound hseq
      refine ⟨used ++ [⟨.rightParen, span⟩], by simp, ?_⟩
      rw [lexemes_append]
      exact .parenthesized hused
    · rename_i e' rest' _ _
      cases rest' <;> nomatch hp

/-- A sequence and the closing parenthesis are read after an opening one. -/
theorem parenthesized_complete (h : Recognizes n OperatorTable.assignPrecedence element (Derives .assignment))
    {used : List (Token F)} {e : Expression F} (he : Derives .sequence (lexemes used) e) (hn : used.length ≤ n)
    (span : Span) (rest : List (Token F)) :
    parenthesized element (used ++ ⟨.rightParen, span⟩ :: rest) = .ok (e, rest) := by
  have hseq := (recognizes_sequenceOf h).complete he hn (stops_of_not_binding (t := ⟨.rightParen, span⟩) rfl rest)
  unfold parenthesized
  split
  · rename_i span' rest' heq
    obtain ⟨s, v, hw, -⟩ := he.exists_head
    obtain ⟨t, ts, rfl, rfl, -⟩ := lexemes_eq_cons hw
    have ht : t.lexeme = .rightParen := by rw [(List.cons.inj heq).1]
    exact absurd ht (Derives.ne_closing he).1
  · rw [hseq]

/-- The tokens after a closing bracket. -/
theorem closing?_eq_some {b : Bracket} {tokens rest : List (Token F)} (h : closing? b tokens = some rest) :
    ∃ span, tokens = ⟨.rightBracket b, span⟩ :: rest := by
  unfold closing? at h
  split at h
  · rename_i b' span rest'
    split at h
    · rename_i hb
      obtain rfl := Option.some.inj h
      exact ⟨span, by rw [hb]⟩
    · nomatch h
  · nomatch h

/-- A closing bracket is found. -/
theorem closing?_cons (b : Bracket) (span : Span) (rest : List (Token F)) :
    closing? b (⟨.rightBracket b, span⟩ :: rest) = some rest := by
  simp [closing?]

/-- What is read after an opening bracket is nothing or rows, and the closing bracket. -/
theorem bracketed_sound (h : Recognizes n OperatorTable.assignPrecedence element (Derives .assignment)) {b : Bracket}
    {tokens rest : List (Token F)} {e : Expression F} (hp : bracketed element b tokens = .ok (e, rest)) :
    ∃ used, tokens = used ++ rest ∧ Derives .factor (.leftBracket b :: lexemes used) e := by
  unfold bracketed at hp
  split at hp
  · rename_i rest' hclosing
    obtain ⟨rfl, rfl⟩ := Prod.mk.inj (Except.ok.inj hp)
    obtain ⟨span, rfl⟩ := closing?_eq_some hclosing
    exact ⟨[⟨.rightBracket b, span⟩], rfl, .emptyList b⟩
  · split at hp
    · nomatch hp
    · rename_i first links rest' hchain
      split at hp
      · rename_i rest'' hclosing
        obtain ⟨rfl, rfl⟩ := Prod.mk.inj (Except.ok.inj hp)
        obtain ⟨span, rfl⟩ := closing?_eq_some hclosing
        obtain ⟨used, rfl, hused⟩ := (h.chain h binding_of_separatorOf (by decide) (by decide)).sound hchain
        refine ⟨used ++ [⟨.rightBracket b, span⟩], by simp, ?_⟩
        rw [lexemes_append]
        exact .list b ((derives_rows_iff _ _).1 ⟨(first, links), hused, rfl⟩)
      · cases rest' <;> nomatch hp

/-- Rows and the closing bracket are read after an opening one. -/
theorem bracketed_complete (h : Recognizes n OperatorTable.assignPrecedence element (Derives .assignment)) {b : Bracket}
    {used : List (Token F)} {rows : List (List (Expression F))} (hrows : Derives .rows (lexemes used) (.list rows))
    (hn : used.length ≤ n) (span : Span) (rest : List (Token F)) :
    bracketed element b (used ++ ⟨.rightBracket b, span⟩ :: rest) = .ok (.list rows, rest) := by
  obtain ⟨s, v, hw, -⟩ := hrows.exists_head
  obtain ⟨t, ts, rfl, rfl, -⟩ := lexemes_eq_cons hw
  have hclosing : closing? b (t :: ts ++ ⟨.rightBracket b, span⟩ :: rest) = none := by
    rw [← Option.not_isSome_iff_eq_none, Option.isSome_iff_exists]
    rintro ⟨rest', hrest⟩
    obtain ⟨span', heq⟩ := closing?_eq_some hrest
    have ht : t.lexeme = .rightBracket b := by rw [(List.cons.inj heq).1]
    exact hrows.ne_closing.2 b ht
  obtain ⟨chain, hchain, rfl⟩ := (derives_rows_iff _ _).2 hrows
  have hread := (h.chain h binding_of_separatorOf (by decide) (by decide)).complete hchain hn
    (stops_of_not_binding (t := ⟨.rightBracket b, span⟩) rfl rest)
  unfold bracketed
  rw [hclosing]
  simp only [hread, closing?_cons]

/-! ## Factors -/

/-- Factors are recognized where the elements between their brackets are. -/
theorem recognizes_factor (h : Recognizes n OperatorTable.assignPrecedence element (Derives .assignment)) (p : Nat) :
    Recognizes (n + 1) p (factor element) (Derives .factor) where
  sound {tokens e rest} hp := by
    cases tokens with
    | nil => nomatch hp
    | cons t tokens =>
      obtain ⟨s, span⟩ := t
      cases s with
      | number x =>
        obtain ⟨rfl, rfl⟩ := Prod.mk.inj (Except.ok.inj hp)
        exact ⟨[⟨.number x, span⟩], rfl, .number x⟩
      | string s =>
        obtain ⟨rfl, rfl⟩ := Prod.mk.inj (Except.ok.inj hp)
        exact ⟨[⟨.string s, span⟩], rfl, .string s⟩
      | boolean b =>
        obtain ⟨rfl, rfl⟩ := Prod.mk.inj (Except.ok.inj hp)
        exact ⟨[⟨.boolean b, span⟩], rfl, .boolean b⟩
      | identifier name =>
        obtain ⟨rfl, rfl⟩ := Prod.mk.inj (Except.ok.inj hp)
        exact ⟨[⟨.identifier name, span⟩], rfl, .identifier name⟩
      | leftParen =>
        obtain ⟨used, rfl, hused⟩ := parenthesized_sound h hp
        exact ⟨⟨.leftParen, span⟩ :: used, rfl, hused⟩
      | leftBracket b =>
        obtain ⟨used, rfl, hused⟩ := bracketed_sound h hp
        exact ⟨⟨.leftBracket b, span⟩ :: used, rfl, hused⟩
      | operator | rightParen | rightBracket | comma | semicolon => nomatch hp
  complete {used e} he hn rest _ := by
    generalize hw : lexemes used = w at he
    cases he with
    | number | string | boolean | identifier =>
      obtain ⟨span, rfl⟩ := lexemes_eq_singleton hw
      rfl
    | nothing =>
      obtain ⟨⟨_, span⟩, ts, rfl, rfl, hts⟩ := lexemes_eq_cons hw
      obtain ⟨span', rfl⟩ := lexemes_eq_singleton hts
      rfl
    | emptyList b =>
      obtain ⟨⟨_, span⟩, ts, rfl, rfl, hts⟩ := lexemes_eq_cons hw
      obtain ⟨span', rfl⟩ := lexemes_eq_singleton hts
      simp [factor, bracketed, closing?_cons]
    | parenthesized he =>
      obtain ⟨span, us, span', rfl, rfl⟩ := lexemes_eq_enclosed hw
      simp only [List.length_cons, List.length_append, List.length_nil] at hn
      simpa [factor] using parenthesized_complete h he (by omega) span' rest
    | list b hrows =>
      obtain ⟨span, us, span', rfl, rfl⟩ := lexemes_eq_enclosed hw
      simp only [List.length_cons, List.length_append, List.length_nil] at hn
      simpa [factor] using bracketed_complete h hrows (by omega) span' rest

/-! ## Operators -/

/-- Exponents are recognized where elements are. -/
theorem recognizes_exponent (h : Recognizes n OperatorTable.assignPrecedence element (Derives .assignment)) :
    Recognizes (n + 1) OperatorTable.exponentPrecedence (exponent .common element) (Derives .exponent) := by
  have hfactor := recognizes_factor h (OperatorTable.exponentPrecedence + 1)
  have hsigned := hfactor.signed fun _ _ he => he.exists_head_of_startsTightly trivial
  have hchain := hfactor.chain hsigned binding_of_operatorAt (Nat.lt_succ_self _) (Nat.lt_succ_self _)
  exact (hchain.map fun chain => groupSigned chain.1 chain.2).congr derives_exponent_iff

/-- Signed phrases are recognized where elements are. -/
theorem recognizes_prefixed (h : Recognizes n OperatorTable.assignPrecedence element (Derives .assignment)) :
    Recognizes (n + 1) juxtaposedBinding (prefixed .common element) (Derives .unary) := by
  have hexponent := recognizes_exponent h
  have hjuxtaposition := (hexponent.juxtaposition (fun _ _ he => he.exists_head_of_startsTightly trivial)
    (by decide)).congr derives_juxtaposition_iff
  have hsigned := hjuxtaposition.signed fun _ _ he => he.exists_head_of_startsTightly trivial
  exact (hsigned.map fun x => applySigns x.1 x.2).congr derives_unary_iff

/-- The parser of a level. -/
def levelParser (element : Parser F (Expression F)) (i : Nat) : Parser F (Expression F) :=
  (levelPrecedences.drop i).foldr (leftLevel .common) (prefixed .common element)

/-- The precedence of a level, below which its phrases stop. -/
def levelBinding (i : Nat) : Nat := levelPrecedences.getD i juxtaposedBinding

/-- A level binds less than the next one. -/
theorem levelBinding_lt_succ : ∀ i < levelPrecedences.length, levelBinding i < levelBinding (i + 1) := by decide

/-- The precedence of a level is that of its place. -/
theorem getElem?_levelPrecedences {i : Nat} (hi : i < levelPrecedences.length) :
    levelPrecedences[i]? = some (levelBinding i) := by
  rw [levelBinding, List.getD_eq_getElem?_getD, List.getElem?_eq_getElem hi, Option.getD_some]

/-- A level is a chain of phrases of the next one. -/
theorem levelParser_eq_leftLevel {i : Nat} (hi : i < levelPrecedences.length) :
    levelParser element i = leftLevel .common (levelBinding i) (levelParser element (i + 1)) := by
  rw [levelParser, List.drop_eq_getElem_cons hi, List.foldr_cons, levelBinding, List.getD_eq_getElem?_getD,
    List.getElem?_eq_getElem hi, Option.getD_some, levelParser]

/-- A level is recognized where the next one is. -/
theorem recognizes_levelParser_step {i : Nat} (hi : i < levelPrecedences.length)
    (h : Recognizes n (levelBinding (i + 1)) (levelParser element (i + 1)) (Derives (.level (i + 1)))) :
    Recognizes n (levelBinding i) (levelParser element i) (Derives (.level i)) := by
  have hlt := levelBinding_lt_succ i hi
  rw [levelParser_eq_leftLevel hi]
  exact ((h.chain h binding_of_operatorAt hlt hlt).map fun chain => groupLeft chain.1 chain.2).congr
    (derives_level_iff (getElem?_levelPrecedences hi))

/-- Every level is recognized where elements are, by induction from the tightest level to the loosest. -/
theorem recognizes_levelParser (h : Recognizes n OperatorTable.assignPrecedence element (Derives .assignment)) {i : Nat}
    (hi : i ≤ levelPrecedences.length) :
    Recognizes (n + 1) (levelBinding i) (levelParser element i) (Derives (.level i)) := by
  induction hi using Nat.decreasingInduction with
  | self => exact (recognizes_prefixed h).congr derives_lastLevel_iff
  | of_succ i hi ih => exact recognizes_levelParser_step hi ih

/-- Operators that all group to the left group as the chain does. -/
theorem group_eq_groupLeft {links : List (Operator × Expression F)} (h : ∀ link ∈ links, link.1.associativity = .left)
    (e : Expression F) : group e links = groupLeft e links := by
  induction links generalizing e with
  | nil => rfl
  | cons link links ih =>
    obtain ⟨o, right⟩ := link
    rw [group, h (o, right) (List.mem_cons_self ..)]
    exact ih (fun link hlink => h link (List.mem_cons_of_mem _ hlink)) _

/-- The operators of the links that a parser reads are those of its level. -/
theorem mem_of_chainRest {p : Nat} {operand : Parser F (Expression F)} {fuel : Nat} {tokens rest : List (Token F)}
    {links : List (Operator × Expression F)}
    (h : chainRest (operatorAt OperatorTable.common p) operand fuel tokens = .ok (links, rest)) :
    ∀ link ∈ links, link.1 ∈ OperatorTable.common.operators ∧ link.1.precedence = p := by
  induction links generalizing fuel tokens with
  | nil => simp
  | cons link links ih =>
    obtain ⟨hlinks, -⟩ | ⟨_, t, o, _, x, _, _, -, -, ho, -, hrest, hlinks⟩ := chainRest_eq_ok h
    · nomatch hlinks
    · obtain ⟨rfl, rfl⟩ := List.cons.inj hlinks
      intro link hlink
      rcases List.mem_cons.1 hlink with rfl | hlink
      · exact (operatorAt_common_eq_some.1 ho).2
      · exact ih hrest link hlink

/-- A level of the common table groups to the left. -/
theorem level_eq_leftLevel {p : Nat} (hp : p ∈ levelPrecedences) (operand : Parser F (Expression F)) :
    level .common p operand = leftLevel .common p operand := by
  funext tokens
  unfold level leftLevel Parser.map
  cases hchain : chain operand (operatorAt .common p) operand tokens with
  | error e => rfl
  | ok result =>
    obtain ⟨⟨first, links⟩, rest⟩ := result
    obtain ⟨after, -, hlinks⟩ := chain_eq_ok hchain
    have hleft : ∀ link ∈ links, link.1.associativity = .left := by
      intro link hlink
      obtain ⟨hmem, hprecedence⟩ := mem_of_chainRest hlinks link hlink
      exact associativity_of_mem_levelPrecedences _ hmem (by rw [hprecedence]; exact hp)
    simp only [group_eq_groupLeft hleft]

/-- The levels of the common table and the conversions below them are the levels of the grammar. -/
theorem levels_common_eq_levelParser (element : Parser F (Expression F)) :
    levels .common element = levelParser element 0 := by
  have hlevels : OperatorTable.common.binaryLevels = [50, 60, 70, 80, 90, 100, 110, 120, 130, 140, 150] := by decide
  rw [levels, hlevels, levelParser, List.drop_zero, levelPrecedences, List.foldr_append]
  refine List.foldr_ext _ _ _ fun p hp operand => level_eq_leftLevel ?_ operand
  exact List.mem_append_left _ hp

/-! ## Assignments and whole expressions -/

/-- Assignments are recognized where the shorter ones are. -/
theorem recognizes_assignment (h : Recognizes n OperatorTable.assignPrecedence element (Derives .assignment)) :
    Recognizes (n + 1) OperatorTable.assignPrecedence (assignment .common element) (Derives .assignment) := by
  have hlevels : Recognizes (n + 1) 50 (levels .common element) (Derives (.level 0)) := by
    rw [levels_common_eq_levelParser]
    exact recognizes_levelParser h (Nat.zero_le _)
  refine ⟨fun {tokens e rest} hp => ?_, fun {used e} he hn rest hs => ?_⟩
  · unfold assignment at hp
    split at hp
    · nomatch hp
    · rename_i left rest' hleft
      obtain ⟨us, rfl, hus⟩ := hlevels.sound hleft
      split at hp
      · obtain ⟨rfl, rfl⟩ := Prod.mk.inj (Except.ok.inj hp)
        exact ⟨us, rfl, .unassigned hus⟩
      · rename_i o after ho
        split at hp
        · rename_i name
          obtain ⟨t, rfl, ho'⟩ := separator?_eq_some ho
          obtain ⟨ht, hmem, hprecedence⟩ := operatorAt_common_eq_some.1 ho'
          have hop : IsOperator OperatorTable.assignPrecedence o.symbol .assign :=
            ⟨o, hmem, rfl, hprecedence, op_eq_assign_of_precedence o hmem hprecedence⟩
          obtain ⟨vs, rfl, value, hvalue, rfl⟩ := (h.map (Expression.assign name)).sound hp
          refine ⟨us ++ t :: vs, by simp, ?_⟩
          rw [lexemes_append, lexemes_cons, ht]
          exact .assign hus hop hvalue
        · nomatch hp
  · unfold assignment
    generalize hw : lexemes used = w at he
    cases he with
    | unassigned he =>
      subst hw
      rw [hlevels.complete he hn (hs.mono (by decide))]
      simp only [hs.separator?_eq_none binding_of_operatorAt]
    | @assign w name s v e hleft hop he =>
      obtain ⟨us, ts, rfl, rfl, hts⟩ := lexemes_eq_append hw
      obtain ⟨t, vs, rfl, ht, rfl⟩ := lexemes_eq_cons hts
      obtain ⟨o, ho, -, -⟩ := hop.operatorAt
      rw [← ht] at ho
      have hstop : Stops 50 (t :: (vs ++ rest)) := stops_of_binding (binding_of_operatorAt _ _ ho) (by decide) _
      rw [List.length_append, List.length_cons] at hn
      have hvalue := (h.map (Expression.assign name)).complete ⟨e, he, rfl⟩ (by omega) hs
      rw [List.append_assoc, List.cons_append, hlevels.complete hleft (by omega) hstop]
      simp only [separator?, ho, Option.map_some, hvalue]

/-- Assignments of at most so many lexemes are recognized by the parser of elements of so great a depth. -/
theorem recognizes_element (depth : Nat) :
    Recognizes depth OperatorTable.assignPrecedence (Expression.element .common depth)
      (Derives (F := F) .assignment) := by
  induction depth with
  | zero =>
    refine ⟨fun {tokens e rest} hp => ?_, fun {used e} he hn rest hs => ?_⟩
    · cases tokens <;> nomatch hp
    · obtain rfl := List.eq_nil_of_length_eq_zero (Nat.le_zero.1 hn)
      obtain ⟨s, v, hw, -⟩ := he.exists_head
      nomatch hw
  | succ depth ih => exact recognizes_assignment ih

/-- A list of tokens is an expression exactly if its lexemes derive it. -/
theorem parse_common_eq_ok_iff (tokens : List (Token F)) (e : Expression F) :
    parse .common tokens = .ok e ↔ Derives .sequence (lexemes tokens) e := by
  have hseq := recognizes_sequenceOf (recognizes_element (F := F) (tokens.length + 1))
  constructor
  · intro h
    unfold parse at h
    split at h
    · nomatch h
    · rename_i e' hread
      obtain rfl := Except.ok.inj h
      obtain ⟨used, hused, he⟩ := hseq.sound hread
      rw [List.append_nil] at hused
      rwa [hused]
    · nomatch h
  · intro h
    have hread := hseq.complete h (Nat.le_succ _) (stops_nil 0)
    rw [List.append_nil] at hread
    unfold parse
    rw [hread]

/-- The expressions of the language are exactly those of the grammar: tokens are read as a tree if and only if the grammar derives
that tree from their lexemes, so that it derives at most one. -/
theorem ofTokens_recognizes_grammar (tokens : List (Token F)) :
    (∀ e, ofTokens tokens = .ok e ↔ Derives .sequence (tokens.map (·.lexeme)) e) ∧
      ∀ e e', Derives .sequence (tokens.map (·.lexeme)) e → Derives .sequence (tokens.map (·.lexeme)) e' → e = e' := by
  refine ⟨parse_common_eq_ok_iff tokens, fun e e' he he' => ?_⟩
  have h := (parse_common_eq_ok_iff tokens e).2 he
  have h' := (parse_common_eq_ok_iff tokens e').2 he'
  exact Except.ok.inj (h.symm.trans h')

end QuantityCalculus.Expression
