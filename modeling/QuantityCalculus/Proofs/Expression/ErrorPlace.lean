import QuantityCalculus.Proofs.Expression.Lookahead
import QuantityCalculus.Proofs.Expression.Recognition

/-!
# Where the tokens of an expression go wrong

The parser of the language refuses a list of tokens at the first token that no expression has after the tokens before it. From
the factors up to the assignments every kind of phrase is decided by one token (`Decides`) if the elements between brackets are,
and these are by induction on how deeply they may be nested.
-/

namespace QuantityCalculus.Expression

variable {F : Type}

/-! ## Phrases between brackets -/

/-- The lexeme is a closing parenthesis. -/
def isRightParen : Lexeme F → Bool
  | .rightParen => true
  | _ => false

/-- The lexeme closes a bracket. -/
def isRightBracket (bracket : Bracket) : Lexeme F → Bool
  | .rightBracket b => b = bracket
  | _ => false

/-- A lexeme that closes a parenthesis is known. -/
theorem isRightParen_iff {s : Lexeme F} : isRightParen s = true ↔ s = .rightParen := by
  cases s <;> simp [isRightParen]

/-- A lexeme that closes a bracket is known. -/
theorem isRightBracket_iff {s : Lexeme F} {bracket : Bracket} :
    isRightBracket bracket s = true ↔ s = .rightBracket bracket := by
  cases s <;> simp [isRightBracket]

/-- Tokens that do not start with a closing parenthesis have another first lexeme, or none. -/
theorem any_isRightParen_eq_false {tokens : List (Token F)}
    (h : ∀ span rest, tokens = ⟨.rightParen, span⟩ :: rest → False) :
    (tokens.head?.any fun t => isRightParen t.lexeme) = false := by
  rcases tokens with _ | ⟨⟨s, span⟩, rest⟩
  · rfl
  · cases s with
    | rightParen => exact (h span rest rfl).elim
    | _ => rfl

/-- What follows an opening parenthesis is a sequence enclosed. -/
theorem parenthesized_eq_enclosed (element : Parser F (Expression F)) :
    parenthesized element = enclosed (sequenceOf element) isRightParen .closingParen (.sequence []) id := by
  funext tokens
  unfold parenthesized enclosed
  split
  · rfl
  · rename_i hopen
    rw [any_isRightParen_eq_false hopen, if_neg Bool.false_ne_true, Parser.bind]
    split
    · rename_i e he
      rw [he]
    · rename_i e span rest he
      rw [he]
      rfl
    · rename_i e rest hrest he
      rw [he]
      simp only [id, closedBy]
      rw [any_isRightParen_eq_false hrest, if_neg Bool.false_ne_true]

/-- A closing bracket is next if the first lexeme is one. -/
theorem closing?_eq (bracket : Bracket) (tokens : List (Token F)) :
    closing? bracket tokens =
      if tokens.head?.any fun t => isRightBracket bracket t.lexeme then some tokens.tail else none := by
  rcases tokens with _ | ⟨⟨s, span⟩, rest⟩
  · rfl
  · cases s <;> simp [closing?, isRightBracket]

/-- What follows an opening bracket is a chain enclosed. -/
theorem bracketed_eq_enclosed (element : Parser F (Expression F)) (bracket : Bracket) :
    bracketed element bracket = enclosed (chain element separatorOf element) (isRightBracket bracket)
      (.listContinuation bracket) (.list []) fun chain => .list (rowsOf chain.1 chain.2) := by
  funext tokens
  unfold bracketed enclosed
  rw [closing?_eq]
  cases tokens.head?.any fun t => isRightBracket bracket t.lexeme with
  | true => rfl
  | false =>
    simp only [Bool.false_eq_true, if_false, Parser.bind]
    rcases chain element separatorOf element tokens with e | ⟨⟨first, links⟩, rest⟩
    · rfl
    · simp only [closing?_eq, closedBy]
      cases rest.head?.any fun t => isRightBracket bracket t.lexeme <;> rfl

/-- No phrase is empty. -/
theorem Derives.ne_nil {p : Phrase} {w : List (Lexeme F)} {e : Expression F} (h : Derives p w e) : w ≠ [] := by
  obtain ⟨lexeme, v, rfl, -⟩ := h.exists_head
  exact List.cons_ne_nil lexeme v

/-- No signed phrase is empty. -/
theorem Signed.ne_nil {p : Phrase} {w : List (Lexeme F)} {x : List UnaryOp × Expression F}
    (h : Signed (Derives p) w x) : w ≠ [] := by
  cases h with
  | unsigned h => exact h.ne_nil
  | sign _ _ => exact List.cons_ne_nil _ _

section Phrases

variable {n d : Nat}

/-- Chains of elements are decided as elements are. -/
theorem decides_elements (h : Decides n (element .common) (Derives (F := F) .assignment) d) :
    Decides n (fun d => chain (element .common d) separatorOf (element .common d))
      (Chained (Derives (F := F) .assignment) separatorOf (Derives .assignment)) d :=
  h.chain h fun d => (recognizes_element d).shortens fun _ _ he => he.ne_nil

/-- Sequences are decided as elements are. -/
theorem decides_sequenceOf (h : Decides n (element .common) (Derives (F := F) .assignment) d) :
    Decides n (fun d => sequenceOf (element .common d)) (Derives (F := F) .sequence) d := by
  intro tokens
  refine (decides_elements h tokens).map ofSequence fun w chain hchain => ?_
  exact (derives_sequence_iff _ _).1 ⟨chain, hchain, rfl⟩

/-- What follows an opening parenthesis is decided as elements are. -/
theorem decides_parenthesized (h : Decides n (element .common) (Derives (F := F) .assignment) d) :
    Decides n (fun d => parenthesized (element .common d)) (fun w e => Derives (F := F) .factor (.leftParen :: w) e) d := by
  simp only [parenthesized_eq_enclosed]
  refine (decides_sequenceOf h).enclosed ⟨.rightParen, rfl⟩ (fun s hs => ?_) fun w e s he hs => ?_
  · rw [isRightParen_iff.1 hs]
    exact .nothing
  · rw [isRightParen_iff.1 hs]
    exact .parenthesized he

/-- What follows an opening bracket is decided as elements are. -/
theorem decides_bracketed (h : Decides n (element .common) (Derives (F := F) .assignment) d) (b : Bracket) :
    Decides n (fun d => bracketed (element .common d) b) (fun w e => Derives (F := F) .factor (.leftBracket b :: w) e)
      d := by
  simp only [bracketed_eq_enclosed]
  refine (decides_elements h).enclosed ⟨.rightBracket b, isRightBracket_iff.2 rfl⟩ (fun s hs => ?_)
    fun w chain s hchain hs => ?_
  · rw [isRightBracket_iff.1 hs]
    exact .emptyList b
  · rw [isRightBracket_iff.1 hs]
    exact .list b ((derives_rows_iff _ _).1 ⟨chain, hchain, rfl⟩)

/-- Factors are decided as the elements between their brackets are. The bracket is one token more. -/
theorem decides_factor (h : Decides n (element .common) (Derives (F := F) .assignment) d) :
    Decides (n + 1) (fun d => factor (element .common d)) (Derives (F := F) .factor) d := by
  have hrefused : (Verdict.refused .expression).Fits (Derives (F := F) .factor) [] := ⟨_, _, .boolean true⟩
  intro tokens
  rcases tokens with _ | ⟨⟨s, span⟩, rest⟩
  · refine .here (.refused .expression) hrefused fun d' tokens' hhead => ?_
    obtain rfl := List.head?_eq_none_iff.1 hhead
    rfl
  · cases s with
    | number x => exact .head (.number x) fun _ _ => rfl
    | string s => exact .head (.string s) fun _ _ => rfl
    | boolean b => exact .head (.boolean b) fun _ _ => rfl
    | identifier name => exact .head (.identifier name) fun _ _ => rfl
    | leftParen =>
      exact (decides_parenthesized h rest).cons (fun w e he => he) fun _ _ => rfl
    | leftBracket b =>
      exact (decides_bracketed h b rest).cons (fun w e he => he) fun _ _ => rfl
    | operator | rightParen | rightBracket | comma | semicolon =>
      refine .here (.refused .expression) hrefused fun d' tokens' hhead => ?_
      obtain ⟨rest', rfl⟩ := exists_of_head?_eq_cons hhead
      rfl

/-- Exponents are decided as elements are. -/
theorem decides_exponent (h : Decides n (element .common) (Derives (F := F) .assignment) d) :
    Decides (n + 1) (fun d => exponent .common (element .common d)) (Derives (F := F) .exponent) d := by
  have hfactor := decides_factor h
  have hshort : ∀ d, Shortens (signed (factor (F := F) (element .common d))) := fun d =>
    ((recognizes_factor (recognizes_element d) 0).signed fun _ _ he => he.exists_head_of_startsTightly trivial).shortens
      fun _ _ he => he.ne_nil
  intro tokens
  refine (hfactor.chain hfactor.signed hshort tokens).map _ fun w chain hchain => ?_
  exact (derives_exponent_iff _ _).1 ⟨chain, hchain, rfl⟩

/-- Signed phrases are decided as elements are. -/
theorem decides_prefixed (h : Decides n (element .common) (Derives (F := F) .assignment) d) :
    Decides (n + 1) (fun d => prefixed .common (element .common d)) (Derives (F := F) .unary) d := by
  have hshort : ∀ d, Shortens (exponent (F := F) .common (element .common d)) := fun d =>
    (recognizes_exponent (recognizes_element d)).shortens fun _ _ he => he.ne_nil
  have hjuxtaposition : Decides (n + 1) (fun d => juxtaposition (exponent .common (element .common d)))
      (Derives (F := F) .juxtaposition) d := fun tokens =>
    ((decides_exponent h).juxtaposition hshort tokens).imp fun w e he => (derives_juxtaposition_iff w e).1 he
  intro tokens
  refine (hjuxtaposition.signed tokens).map _ fun w x hx => ?_
  exact (derives_unary_iff _ _).1 ⟨x, hx, rfl⟩

/-- Every level is decided as elements are, by induction from the tightest level to the loosest. -/
theorem decides_levelParser (h : Decides n (element .common) (Derives (F := F) .assignment) d) {i : Nat}
    (hi : i ≤ levelPrecedences.length) :
    Decides (n + 1) (fun d => levelParser (element .common d) i) (Derives (F := F) (.level i)) d := by
  induction hi using Nat.decreasingInduction with
  | self => exact fun tokens => (decides_prefixed h tokens).imp fun w e he => (derives_lastLevel_iff w e).1 he
  | of_succ i hi ih =>
    have hshort : ∀ d, Shortens (levelParser (F := F) (element .common d) (i + 1)) := fun d =>
      (recognizes_levelParser (recognizes_element d) hi).shortens fun _ _ he => he.ne_nil
    intro tokens
    simp only [levelParser_eq_leftLevel hi]
    refine (ih.chain ih hshort tokens).map _ fun w chain hchain => ?_
    exact (derives_level_iff (getElem?_levelPrecedences hi) _ _).1 ⟨chain, hchain, rfl⟩

end Phrases

/-! ## Assignments -/

/-- What follows what was read at the loosest level, starting at the tokens: nothing of the assignment, or its sign and a value. -/
def assigned (element : Parser F (Expression F)) (tokens : List (Token F)) (left : Expression F) :
    Parser F (Expression F) := fun rest =>
  match separator? (operatorAt .common OperatorTable.assignPrecedence) rest with
  | none => .ok (left, rest)
  | some (_, after) =>
    match left with
    | .identifier name => Parser.map (.assign name) element after
    | _ => .error (.invalidAssignment (spanBefore tokens rest))

/-- An assignment is a phrase of the loosest level and what follows it. -/
theorem assignment_eq_bind (element : Parser F (Expression F)) :
    assignment .common element = (levelParser element 0).bind (assigned element) := by
  funext tokens
  rw [assignment, levels_common_eq_levelParser, Parser.bind]
  rcases levelParser element 0 tokens with e | ⟨left, rest⟩
  · rfl
  · simp only
    unfold assigned
    cases separator? (operatorAt .common OperatorTable.assignPrecedence) rest with
    | none => rfl
    | some found => cases left <;> rfl

/-- What was read at the loosest level is an assignment if nothing follows. -/
theorem remainder_nil (left : Expression F) :
    Remainder (Derives (.level 0)) left (Derives (F := F) .assignment) [] left := by
  intro u hu
  rw [List.append_nil]
  exact .unassigned hu

section Assignments

variable {n d : Nat}

/-- What follows what was read at the loosest level is decided as the values of assignments are. The sign is one token more. -/
theorem decides_assigned (h : Decides n (element .common) (Derives (F := F) .assignment) d) (left : Expression F)
    (used : List (Token F)) :
    Decides (n + 1) (fun d rest => assigned (element .common d) (used ++ rest) left rest)
      (Remainder (Derives (.level 0)) left (Derives .assignment)) d := by
  intro rest
  cases rest with
  | nil =>
    refine .here (.read left) (remainder_nil left) fun d' tokens' hhead => ?_
    obtain rfl := List.head?_eq_none_iff.1 hhead
    rfl
  | cons t rest =>
    cases ho : operatorAt .common OperatorTable.assignPrecedence t.lexeme with
    | none =>
      refine .here (.read left) (remainder_nil left) fun d' tokens' hhead => ?_
      obtain ⟨rest', rfl⟩ := exists_of_head?_eq_cons hhead
      simp [assigned, separator?, ho, Verdict.answer]
    | some o =>
      obtain ⟨ht, hmem, hprecedence⟩ := operatorAt_common_eq_some.1 ho
      have hop : IsOperator OperatorTable.assignPrecedence o.symbol .assign :=
        ⟨o, hmem, rfl, hprecedence, op_eq_assign_of_precedence o hmem hprecedence⟩
      cases left with
      | identifier name =>
        have hvalue := (h rest).map (N := fun v e => ∃ e', e = .assign name e' ∧ Derives .assignment v e')
          (Expression.assign name) fun v e he => ⟨e, rfl, he⟩
        refine hvalue.cons ?_ fun d' tokens' => ?_
        · rintro v _ ⟨e, rfl, he⟩ u hu
          rw [ht]
          exact .assign hu hop he
        · simp [assigned, separator?, ho]
      | _ =>
        refine .misassigned (spanBefore (used ++ t :: rest) (t :: rest)) ?_
        simp only [assigned, separator?, ho, Option.map_some]

/-- Assignments are decided as their values are. -/
theorem decides_assignment (h : Decides n (element .common) (Derives (F := F) .assignment) d) :
    Decides (n + 1) (fun d => assignment .common (element .common d)) (Derives (F := F) .assignment) d := by
  intro tokens
  simp only [assignment_eq_bind]
  refine (decides_levelParser h (Nat.zero_le _) tokens).bind (fun left => ⟨[], left, remainder_nil left⟩)
    fun {used left rest} _ _ => ?_
  exact decides_assigned h left used rest

end Assignments

/-! ## Elements -/

/-- A factor is a phrase of every level. -/
theorem derives_level_of_factor {w : List (Lexeme F)} {e : Expression F} (h : Derives .factor w e) {i : Nat}
    (hi : i ≤ levelPrecedences.length) : Derives (.level i) w e := by
  induction hi using Nat.decreasingInduction with
  | self => exact .tightest (.unsigned (.alone (.base h)))
  | of_succ i hi ih => exact .tighter hi ih

/-- Elements are decided by one token at every depth, by induction on the depth. -/
theorem decides_element (d : Nat) : Decides 0 (element .common) (Derives (F := F) .assignment) d := by
  induction d with
  | zero =>
    have hfits : (Verdict.refused .expression).Fits (Derives (F := F) .assignment) [] :=
      ⟨_, _, .unassigned (derives_level_of_factor (.boolean true) (Nat.zero_le _))⟩
    intro tokens
    refine .verdict [] tokens (.refused .expression) rfl rfl hfits fun d' rest' hused => ?_
    simp at hused
  | succ d ih =>
    intro tokens
    -- the elements of depth `d' + 1` are the assignments over those of depth `d'`, and there are none of depth 0
    cases decides_assignment ih tokens with
    | misassigned span h => exact .misassigned span h
    | verdict used rest v ht hv hfits hagain =>
      refine .verdict used rest v ht hv hfits fun d' rest' hused hhead => ?_
      cases d' with
      | zero => simp at hused
      | succ d' => exact hagain d' rest' (by omega) hhead

/-! ## Expressions -/

/-- The tokens are the first ones of an expression. -/
def Viable (tokens : List (Token F)) : Prop := ∃ rest e, ofTokens (tokens ++ rest) = .ok e

/-- Tokens before which a verdict fits their lexemes are viable. -/
theorem Verdict.Fits.viable {v : Verdict (Expression F)} {tokens : List (Token F)}
    (h : v.Fits (Derives .sequence) (lexemes tokens)) : Viable tokens := by
  obtain ⟨u, e, he⟩ : ∃ u e, Derives .sequence (lexemes tokens ++ u) e := by
    cases v with
    | read e => exact ⟨[], e, by rw [List.append_nil]; exact h⟩
    | refused expected => exact h
  refine ⟨u.map fun s => ⟨s, ⟨0, 0⟩⟩, e, (parse_common_eq_ok_iff _ e).2 ?_⟩
  rw [lexemes_append]
  simpa [lexemes, Function.comp_def] using he

/-- Where a sequence is followed by a token, or one is refused, the tokens are no expression. -/
theorem ofTokens_of_answer {tokens rest : List (Token F)} {t : Token F} {v : Verdict (Expression F)}
    (h : sequenceOf (element .common (tokens.length + 1)) tokens = v.answer (t :: rest)) :
    ∃ expected, ofTokens tokens = .error (.unexpected t expected) := by
  rw [ofTokens, parse, h]
  cases v with
  | read e => exact ⟨.endOfInput, rfl⟩
  | refused expected => exact ⟨expected, rfl⟩

/-- Tokens that are not an expression, if it is not for an assignment to something other than a name, fall into viable ones and a rest
which is refused at its first token: with this one they are not viable any more. -/
theorem exists_refused_of_ofTokens_eq_error {tokens : List (Token F)} {error : ParseError F}
    (h : ofTokens tokens = .error error) :
    (∃ span, error = .invalidAssignment span) ∨
      ∃ used rest, tokens = used ++ rest ∧ Viable used ∧
        match rest with
        | [] => ∃ expected, error = .unexpectedEnd expected
        | t :: _ => (∃ expected, error = .unexpected t expected) ∧ ¬Viable (used ++ [t]) := by
  cases decides_sequenceOf (decides_element (tokens.length + 1)) tokens with
  | misassigned span hspan =>
    rw [ofTokens, parse, hspan] at h
    exact .inl ⟨span, (Except.error.inj h).symm⟩
  | verdict used rest v ht hv hfits hagain =>
    refine .inr ⟨used, rest, ht, hfits.viable, ?_⟩
    cases rest with
    | nil =>
      rw [ofTokens, parse, hv] at h
      cases v with
      | read e => nomatch h
      | refused expected => exact ⟨expected, (Except.error.inj h).symm⟩
    | cons t rest =>
      obtain ⟨expected, herror⟩ := ofTokens_of_answer hv
      refine ⟨⟨expected, Except.error.inj (h.symm.trans herror)⟩, ?_⟩
      rintro ⟨rest', e, he⟩
      rw [← List.append_cons] at he
      -- the used tokens are fewer than those of both lists, so that the depth of neither parser matters
      have hlength : used.length < min (tokens.length + 1) ((used ++ t :: rest').length + 1) + 0 := by
        rw [ht]
        simp only [List.length_append, List.length_cons]
        omega
      have hagain' : sequenceOf (element .common ((used ++ t :: rest').length + 1)) (used ++ t :: rest') =
          v.answer (t :: rest') := hagain _ (t :: rest') hlength rfl
      obtain ⟨expected', herror'⟩ := ofTokens_of_answer hagain'
      rw [he] at herror'
      nomatch herror'

/-- An error is at the first token that no expression has after the tokens before it, or at the end of tokens that begin an
expression. -/
theorem ofTokens_error_at_first_unacceptable (tokens : List (Token F)) :
    (∀ found expected, ofTokens tokens = .error (.unexpected found expected) →
      ∃ i, tokens[i]? = some found ∧ Viable (tokens.take i) ∧ ¬Viable (tokens.take (i + 1))) ∧
    ∀ expected, ofTokens tokens = .error (.unexpectedEnd expected) →
      ∃ rest e, rest ≠ [] ∧ ofTokens (tokens ++ rest) = .ok e := by
  constructor
  · intro found expected h
    obtain ⟨span, hspan⟩ | ⟨used, rest, rfl, hused, hrest⟩ := exists_refused_of_ofTokens_eq_error h
    · nomatch hspan
    · cases rest with
      | nil => nomatch hrest
      | cons t rest =>
        obtain ⟨⟨expected', hfound⟩, ht⟩ := hrest
        obtain ⟨rfl, -⟩ := ParseError.unexpected.inj hfound
        refine ⟨used.length, by simp, by simpa using hused, ?_⟩
        rwa [List.take_length_add_append]
  · intro expected h
    obtain ⟨span, hspan⟩ | ⟨used, rest, rfl, hused, hrest⟩ := exists_refused_of_ofTokens_eq_error h
    · nomatch hspan
    · cases rest with
      | nil =>
        obtain ⟨rest, e, he⟩ := hused
        refine ⟨rest, e, ?_, by simpa using he⟩
        rintro rfl
        rw [he] at h
        nomatch h
      | cons t rest => nomatch hrest.1

/-- The tokens of `[1)`. -/
def listBeforeParenthesis : List (Token Nat) :=
  [⟨.leftBracket .square, ⟨0, 1⟩⟩, ⟨.number 1, ⟨1, 2⟩⟩, ⟨.rightParen, ⟨2, 3⟩⟩]

/-- The tokens of `1 +`. -/
def unfinishedSum : List (Token Nat) := [⟨.number 1, ⟨0, 1⟩⟩, ⟨.operator "+", ⟨2, 3⟩⟩]

/-- A parenthesis does not close a bracket, and a sum without its second part can be finished. -/
theorem error_places_of_list_and_sum :
    (ofTokens listBeforeParenthesis = .error (.unexpected ⟨.rightParen, ⟨2, 3⟩⟩ (.listContinuation .square)) ∧
      ∃ i, listBeforeParenthesis[i]? = some ⟨.rightParen, ⟨2, 3⟩⟩ ∧ Viable (listBeforeParenthesis.take i) ∧
        ¬Viable (listBeforeParenthesis.take (i + 1))) ∧
    ofTokens unfinishedSum = .error (.unexpectedEnd .expression) ∧
      ∃ rest e, rest ≠ [] ∧ ofTokens (unfinishedSum ++ rest) = .ok e :=
  ⟨⟨rfl, (ofTokens_error_at_first_unacceptable _).1 _ _ rfl⟩, rfl,
    (ofTokens_error_at_first_unacceptable _).2 .expression rfl⟩

end QuantityCalculus.Expression
