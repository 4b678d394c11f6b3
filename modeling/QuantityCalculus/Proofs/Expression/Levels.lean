import Mathlib.Data.List.Nodup
import QuantityCalculus.Proofs.Expression.Combinators

/-!
# Operator phrases as chains

The phrases of the grammar between assignments and factors, read as operands with something between them and a function that makes
a tree of the whole. The left-recursive rules become chains that group to the left; the right-recursive ones, of exponents, become
chains that group to the right.
-/

namespace QuantityCalculus.Expression

variable {F : Type}

/-! ## Operators of the common table -/

/-- The common table has no symbol twice. -/
theorem nodup_symbols_common : (OperatorTable.common.operators.map (·.symbol)).Nodup := by decide

/-- The only assignment operator of the common table is that of assignment. -/
theorem op_eq_assign_of_precedence : ∀ o ∈ OperatorTable.common.operators,
    o.precedence = OperatorTable.assignPrecedence → o.op = .assign := by decide

/-- Exponent operators group to the right. -/
theorem associativity_of_exponentPrecedence : ∀ o ∈ OperatorTable.common.operators,
    o.precedence = OperatorTable.exponentPrecedence → o.associativity = .right := by decide

/-- The operators of the levels group to the left. -/
theorem associativity_of_mem_levelPrecedences : ∀ o ∈ OperatorTable.common.operators,
    o.precedence ∈ levelPrecedences → o.associativity = .left := by decide

/-- Looking up a symbol finds the operator that has it. -/
theorem get?_common_eq_some {symbol : String} {o : Operator} :
    OperatorTable.common.get? symbol = some o ↔ o ∈ OperatorTable.common.operators ∧ o.symbol = symbol := by
  constructor
  · intro h
    exact ⟨List.mem_of_find?_eq_some h, by simpa using List.find?_some h⟩
  · rintro ⟨ho, rfl⟩
    obtain ⟨o', ho'⟩ : ∃ o', OperatorTable.common.get? o.symbol = some o' := by
      rw [← Option.isSome_iff_exists]
      exact List.find?_isSome.2 ⟨o, ho, by simp⟩
    have hmem := List.mem_of_find?_eq_some ho'
    have hsymbol : o'.symbol = o.symbol := by simpa using List.find?_some ho'
    rw [ho', List.inj_on_of_nodup_map nodup_symbols_common hmem ho hsymbol]

/-- The operators that a level of the parser takes. -/
theorem operatorAt_common_eq_some {p : Nat} {s : Lexeme F} {o : Operator} :
    operatorAt OperatorTable.common p s = some o ↔
      s = .operator o.symbol ∧ o ∈ OperatorTable.common.operators ∧ o.precedence = p := by
  cases s with
  | operator symbol =>
    simp only [operatorAt, Option.filter_eq_some_iff, get?_common_eq_some, beq_iff_eq, Lexeme.operator.injEq]
    constructor
    · rintro ⟨⟨ho, rfl⟩, hp⟩
      exact ⟨rfl, ho, hp⟩
    · rintro ⟨rfl, ho, hp⟩
      exact ⟨⟨ho, rfl⟩, hp⟩
  | _ => simp [operatorAt]

/-- The operator that a level takes is one of the grammar. -/
theorem isOperator_of_operatorAt {p : Nat} {s : Lexeme F} {o : Operator}
    (h : operatorAt OperatorTable.common p s = some o) : ∃ symbol, s = .operator symbol ∧ IsOperator p symbol o.op := by
  obtain ⟨hs, ho, hp⟩ := operatorAt_common_eq_some.1 h
  exact ⟨o.symbol, hs, o, ho, rfl, hp, rfl⟩

/-- An operator of the grammar is one that a level takes. -/
theorem IsOperator.operatorAt {p : Nat} {symbol : String} {op : BinaryOp} (h : IsOperator p symbol op) :
    ∃ o, operatorAt OperatorTable.common p (.operator symbol : Lexeme F) = some o ∧ o.op = op ∧
      o ∈ OperatorTable.common.operators := by
  obtain ⟨o, ho, rfl, hp, hop⟩ := h
  exact ⟨o, operatorAt_common_eq_some.2 ⟨rfl, ho, hp⟩, hop, ho⟩

/-- An operator binds as its precedence says. -/
theorem binding_of_operatorAt {p : Nat} (s : Lexeme F) (o : Operator)
    (h : operatorAt OperatorTable.common p s = some o) : binding s = some p := by
  obtain ⟨rfl, ho, rfl⟩ := operatorAt_common_eq_some.1 h
  simp [binding, get?_common_eq_some.2 ⟨ho, rfl⟩]

/-! ## Levels -/

/-- A phrase of a level is a chain of operands that groups to the left. -/
theorem Derives.level_chained {i p : Nat} {w : List (Lexeme F)} {e : Expression F} (hp : levelPrecedences[i]? = some p)
    (h : Derives (.level i) w e) :
    ∃ chain, Chained (Derives (.level (i + 1))) (operatorAt OperatorTable.common p) (Derives (.level (i + 1))) w chain ∧
      groupLeft chain.1 chain.2 = e := by
  generalize hphrase : Phrase.level i = phrase at h
  induction h with
  | @tighter j w e _ he =>
    obtain rfl := Phrase.level.inj hphrase
    exact ⟨(e, []), ⟨w, [], by simp, he, .nil⟩, rfl⟩
  | @binary j p' w l s op v r hp' _ hs hr ih _ =>
    obtain rfl := Phrase.level.inj hphrase
    obtain rfl := Option.some.inj (hp'.symm.trans hp)
    obtain ⟨⟨x, links⟩, ⟨u, w', rfl, hx, hlinks⟩, rfl⟩ := ih rfl
    obtain ⟨o, ho, rfl, -⟩ := hs.operatorAt
    refine ⟨(x, links ++ [(o, r)]), ⟨u, w' ++ .operator s :: v, by simp, hx, hlinks.snoc ho hr⟩, ?_⟩
    simp [groupLeft]
  | tightest _ _ =>
    obtain rfl := Phrase.level.inj hphrase
    nomatch hp
  | _ => nomatch hphrase

/-- Links continue a phrase of a level. -/
theorem Derives.level_append {i p : Nat} {u w : List (Lexeme F)} {e : Expression F}
    {links : List (Operator × Expression F)} (hp : levelPrecedences[i]? = some p) (h : Derives (.level i) u e)
    (hlinks : Links (operatorAt OperatorTable.common p) (Derives (.level (i + 1))) w links) :
    Derives (.level i) (u ++ w) (groupLeft e links) := by
  induction hlinks generalizing u e with
  | nil => simpa [groupLeft] using h
  | @cons s o v x w links hs hx _ ih =>
    obtain ⟨symbol, rfl, hop⟩ := isOperator_of_operatorAt hs
    simpa [groupLeft] using ih (h.binary hp hop hx)

/-- The phrases of a level are exactly the chains of operands. -/
theorem derives_level_iff {i p : Nat} (hp : levelPrecedences[i]? = some p) (w : List (Lexeme F)) (e : Expression F) :
    (∃ chain, Chained (Derives (.level (i + 1))) (operatorAt OperatorTable.common p) (Derives (.level (i + 1))) w chain ∧
      groupLeft chain.1 chain.2 = e) ↔ Derives (.level i) w e := by
  constructor
  · rintro ⟨⟨x, links⟩, ⟨u, v, rfl, hx, hlinks⟩, rfl⟩
    have hi : i < levelPrecedences.length := (List.getElem?_eq_some_iff.1 hp).1
    exact Derives.level_append hp (.tighter hi hx) hlinks
  · exact Derives.level_chained hp

/-- Below the last level are the signed phrases. -/
theorem derives_lastLevel_iff (w : List (Lexeme F)) (e : Expression F) :
    Derives .unary w e ↔ Derives (.level levelPrecedences.length) w e := by
  constructor
  · exact .tightest
  · intro h
    generalize hphrase : Phrase.level levelPrecedences.length = phrase at h
    cases h with
    | tightest h => exact h
    | tighter hi _ =>
      obtain rfl := Phrase.level.inj hphrase
      exact absurd hi (Nat.lt_irrefl _)
    | binary hp =>
      obtain rfl := Phrase.level.inj hphrase
      nomatch hp
    | _ => nomatch hphrase

/-! ## Signs and juxtaposition -/

/-- A signed phrase is a juxtaposition under signs. -/
theorem derives_unary_iff (w : List (Lexeme F)) (e : Expression F) :
    (∃ x, Signed (Derives .juxtaposition) w x ∧ applySigns x.1 x.2 = e) ↔ Derives .unary w e := by
  constructor
  · rintro ⟨⟨ops, x⟩, h, rfl⟩
    generalize hpair : (ops, x) = pair at h
    induction h generalizing ops with
    | unsigned h =>
      obtain ⟨rfl, rfl⟩ := Prod.mk.inj hpair
      exact .unsigned h
    | sign hs _ ih =>
      obtain ⟨rfl, rfl⟩ := Prod.mk.inj hpair
      exact .unary hs (ih _ rfl)
  · intro h
    generalize hphrase : Phrase.unary = phrase at h
    induction h with
    | unsigned h => exact ⟨([], _), .unsigned h, rfl⟩
    | unary hs _ ih =>
      obtain ⟨⟨ops, x⟩, h, rfl⟩ := ih rfl
      exact ⟨(_ :: ops, x), .sign hs h, rfl⟩
    | _ => nomatch hphrase

/-- Further exponents continue a juxtaposition. -/
theorem Derives.juxtaposition_append {u v : List (Lexeme F)} {x : Expression F} {xs : List (Expression F)}
    (h : Derives .juxtaposition u x) (hxs : Juxtaposed (Derives .exponent) v xs) :
    Derives .juxtaposition (u ++ v) (xs.foldl .juxtapose x) := by
  induction hxs generalizing u x with
  | nil => simpa using h
  | cons hy _ ih => simpa using ih (h.juxtapose hy)

/-- A juxtaposition is one exponent after another, grouped to the left. -/
theorem derives_juxtaposition_iff (w : List (Lexeme F)) (e : Expression F) :
    (∃ u v x xs, w = u ++ v ∧ Derives .exponent u x ∧ Juxtaposed (Derives .exponent) v xs ∧
      xs.foldl .juxtapose x = e) ↔ Derives .juxtaposition w e := by
  constructor
  · rintro ⟨u, v, x, xs, rfl, hx, hxs, rfl⟩
    exact Derives.juxtaposition_append (.alone hx) hxs
  · intro h
    generalize hphrase : Phrase.juxtaposition = phrase at h
    induction h with
    | @alone w e he => exact ⟨w, [], e, [], by simp, he, .nil, rfl⟩
    | @juxtapose w l v r _ hr ih _ =>
      obtain ⟨u, v', x, xs, rfl, hx, hxs, rfl⟩ := ih rfl
      exact ⟨u, v' ++ v, x, xs ++ [r], by simp, hx, hxs.snoc hr, by simp⟩
    | _ => nomatch hphrase

/-! ## Exponents -/

/-- What stands to the right of an exponent operator, where `right` completes the phrase after the signs. -/
theorem Signed.derives_signed {u w : List (Lexeme F)} {x : List UnaryOp × Expression F} {e : Expression F}
    (h : Signed (Derives .factor) u x) (right : ∀ v, Derives .factor v x.2 → Derives .exponent (v ++ w) e) :
    Derives .signed (u ++ w) (applySigns x.1 e) := by
  induction h with
  | unsigned h => exact .signless (right _ h)
  | sign hs _ ih => exact .sign hs (ih right)

/-- Links continue a factor to an exponent. -/
theorem Derives.exponent_append {u w : List (Lexeme F)} {x : Expression F}
    {links : List (Operator × List UnaryOp × Expression F)} (h : Derives .factor u x)
    (hlinks : Links (operatorAt OperatorTable.common OperatorTable.exponentPrecedence) (Signed (Derives .factor))
      w links) : Derives .exponent (u ++ w) (groupSigned x links) := by
  induction hlinks generalizing u x with
  | nil => simpa [groupSigned] using Derives.base h
  | @cons s o v y w links hs hy _ ih =>
    obtain ⟨ops, y⟩ := y
    obtain ⟨symbol, rfl, hop⟩ := isOperator_of_operatorAt hs
    obtain ⟨-, ho, hp⟩ := operatorAt_common_eq_some.1 hs
    have hright := hy.derives_signed fun v hv => ih hv
    rw [groupSigned, associativity_of_exponentPrecedence o ho hp]
    exact .power h hop hright

/-- Factors with links, for an exponent; and for a signed exponent, under the signs. -/
theorem Derives.exponent_chained {p : Phrase} {w : List (Lexeme F)} {e : Expression F} (h : Derives p w e) :
    (p = .exponent → ∃ chain, Chained (Derives .factor)
      (operatorAt OperatorTable.common OperatorTable.exponentPrecedence) (Signed (Derives .factor)) w chain ∧
      groupSigned chain.1 chain.2 = e) ∧
    (p = .signed → ∃ chain, Chained (Signed (Derives .factor))
      (operatorAt OperatorTable.common OperatorTable.exponentPrecedence) (Signed (Derives .factor)) w chain ∧
      applySigns chain.1.1 (groupSigned chain.1.2 chain.2) = e) := by
  induction h with
  | @base w e he => exact ⟨fun _ => ⟨(e, []), ⟨w, [], by simp, he, .nil⟩, rfl⟩, nofun⟩
  | @power w l s op v r hl hs _ _ ih =>
    refine ⟨fun _ => ?_, nofun⟩
    obtain ⟨⟨⟨ops, x⟩, links⟩, ⟨u, v', rfl, hx, hlinks⟩, rfl⟩ := ih.2 rfl
    obtain ⟨o, ho, rfl, hmem⟩ := hs.operatorAt
    have hassoc := associativity_of_exponentPrecedence o hmem (operatorAt_common_eq_some.1 ho).2.2
    exact ⟨(l, (o, ops, x) :: links), ⟨w, .operator s :: u ++ v', by simp, hl, .cons ho hx hlinks⟩,
      by simp only [groupSigned, hassoc]⟩
  | signless _ ih =>
    refine ⟨nofun, fun _ => ?_⟩
    obtain ⟨⟨x, links⟩, ⟨u, v, rfl, hx, hlinks⟩, rfl⟩ := ih.1 rfl
    exact ⟨(([], x), links), ⟨u, v, rfl, .unsigned hx, hlinks⟩, rfl⟩
  | sign hs _ ih =>
    refine ⟨nofun, fun _ => ?_⟩
    obtain ⟨⟨⟨ops, x⟩, links⟩, ⟨u, v, rfl, hx, hlinks⟩, rfl⟩ := ih.2 rfl
    exact ⟨((_ :: ops, x), links), ⟨_, v, rfl, .sign hs hx, hlinks⟩, rfl⟩
  | _ => exact ⟨nofun, nofun⟩

/-- An exponent is a chain of factors that groups to the right. -/
theorem derives_exponent_iff (w : List (Lexeme F)) (e : Expression F) :
    (∃ chain, Chained (Derives .factor) (operatorAt OperatorTable.common OperatorTable.exponentPrecedence)
      (Signed (Derives .factor)) w chain ∧ groupSigned chain.1 chain.2 = e) ↔ Derives .exponent w e := by
  constructor
  · rintro ⟨⟨x, links⟩, ⟨u, v, rfl, hx, hlinks⟩, rfl⟩
    exact Derives.exponent_append hx hlinks
  · exact fun h => h.exponent_chained.1 rfl

end QuantityCalculus.Expression
