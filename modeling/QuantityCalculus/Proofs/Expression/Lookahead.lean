import QuantityCalculus.Proofs.Expression.Combinators

/-!
# What parsers made of parsers decide by one token

A parser goes through its tokens once, and whatever it decides it decides by the next token: where it refuses, the tokens before
begin a word of its language, and nothing after the refused token would have changed that. `Decides` says this of the parsers
of a kind of phrase, one for every depth to which the phrases may be nested, and that they all decide the same as far as their
depths allow. Each way to make a parser of parsers keeps it.
-/

namespace QuantityCalculus.Expression

variable {F α β γ : Type}

/-! ## Verdicts -/

/-- What comes of the tokens that a parser uses: something that they stand for, or the refusal of what comes next. -/
inductive Verdict (α : Type) where
  | read (x : α)
  | refused (expected : Expected)

namespace Verdict

/-- The answer of a parser with a verdict, at the tokens that it has not used. -/
def answer : Verdict α → Parser F α
  | .read x, rest => .ok (x, rest)
  | .refused expected, rest => unexpected expected rest

/-- The lexemes are a word that stands for what is read, or they begin a word. -/
def Fits (L : Language F α) (w : List (Lexeme F)) : Verdict α → Prop
  | .read x => L w x
  | .refused _ => ∃ v x, L (w ++ v) x

/-- What is read may be changed by a function. -/
def map (f : α → β) : Verdict α → Verdict β
  | .read x => .read (f x)
  | .refused expected => .refused expected

/-- A parser whose results are changed answers with the changed verdict. -/
theorem answer_map {p : Parser F α} {tokens rest : List (Token F)} {v : Verdict α} (f : α → β)
    (h : p tokens = v.answer rest) : Parser.map f p tokens = (v.map f).answer rest := by
  rw [Parser.map, h]
  cases v with
  | read x => rfl
  | refused expected => cases rest <;> rfl

/-- A verdict that fits lexemes fits those that make words of another language in the same way. -/
theorem Fits.imp {L N : Language F α} {w w' : List (Lexeme F)} {v : Verdict α} (h : v.Fits L w)
    (hL : ∀ u x, L (w ++ u) x → N (w' ++ u) x) : v.Fits N w' := by
  cases v with
  | read x =>
    have hx : L (w ++ []) x := by
      rw [List.append_nil]
      exact h
    have hx' := hL [] x hx
    rwa [List.append_nil] at hx'
  | refused expected =>
    obtain ⟨u, x, hx⟩ := h
    exact ⟨u, x, hL u x hx⟩

/-- A verdict that is changed by a function fits what the function makes of its language. -/
theorem Fits.map {N : Language F β} {w : List (Lexeme F)} {v : Verdict α} {f : α → β}
    (h : v.Fits (fun w x => N w (f x)) w) : (v.map f).Fits N w := by
  cases v with
  | read x => exact h
  | refused expected =>
    obtain ⟨u, x, hx⟩ := h
    exact ⟨u, f x, hx⟩

end Verdict

/-- What the parser of depth `d` answers is the error of an assignment to something other than a name, or it is a verdict on the
first tokens that fits their lexemes. The parsers of other depths have the same verdict on them before every rest that starts
with the same token, if these are not more tokens than the depths and `n` allow. -/
inductive Decided (n : Nat) (p : Nat → Parser F α) (L : Language F α) (d : Nat) (tokens : List (Token F)) : Prop
  | misassigned (span : Span) : p d tokens = .error (.invalidAssignment span) → Decided n p L d tokens
  | verdict (used rest : List (Token F)) (v : Verdict α) : tokens = used ++ rest → p d tokens = v.answer rest →
      v.Fits L (lexemes used) →
      (∀ d' rest', used.length < min d d' + n → rest'.head? = rest.head? → p d' (used ++ rest') = v.answer rest') →
      Decided n p L d tokens

/-- The parser of depth `d` decides by one token everywhere. -/
def Decides (n : Nat) (p : Nat → Parser F α) (L : Language F α) (d : Nat) : Prop :=
  ∀ tokens, Decided n p L d tokens

/-- The first of more tokens depends only on the first of those that follow. -/
theorem head?_append_congr (used : List (Token F)) {rest rest' : List (Token F)} (h : rest'.head? = rest.head?) :
    (used ++ rest').head? = (used ++ rest).head? := by
  rw [List.head?_append, List.head?_append, h]

/-- Tokens of which the first one is known. -/
theorem exists_of_head?_eq_cons {t : Token F} {tokens tokens' : List (Token F)}
    (h : tokens'.head? = (t :: tokens).head?) : ∃ rest, tokens' = t :: rest := by
  cases tokens' with
  | nil => nomatch h
  | cons t' rest =>
    obtain rfl := Option.some.inj h
    exact ⟨rest, rfl⟩

namespace Decided

variable {n m d : Nat} {p q : Nat → Parser F α} {L N : Language F α} {tokens : List (Token F)} {t : Token F}

/-- Fewer tokens may be allowed. -/
theorem mono (h : Decided n p L d tokens) (hmn : m ≤ n) : Decided m p L d tokens := by
  cases h with
  | misassigned span h => exact .misassigned span h
  | verdict used rest v ht hv hfits hagain =>
    exact .verdict used rest v ht hv hfits fun d' rest' hused => hagain d' rest' (by omega)

/-- What is decided of words is decided of those of a greater language. -/
theorem imp (h : Decided n p L d tokens) (hL : ∀ w x, L w x → N w x) : Decided n p N d tokens := by
  cases h with
  | misassigned span h => exact .misassigned span h
  | verdict used rest v ht hv hfits hagain =>
    exact .verdict used rest v ht hv (hfits.imp fun u x hx => hL _ x hx) hagain

/-- Parsers that go on like others wherever the first of these tokens comes first decide as the others do. -/
theorem of_head (h : Decided n p L d tokens)
    (heq : ∀ d' tokens', tokens'.head? = tokens.head? → q d' tokens' = p d' tokens') : Decided n q L d tokens := by
  have hq := heq d tokens rfl
  cases h with
  | misassigned span h => exact .misassigned span (hq.trans h)
  | verdict used rest v ht hv hfits hagain =>
    subst ht
    refine .verdict used rest v rfl (hq.trans hv) hfits fun d' rest' hused hhead => ?_
    rw [heq d' _ (head?_append_congr used hhead)]
    exact hagain d' rest' hused hhead

/-- A verdict on no token at all. -/
theorem here (v : Verdict α) (hfits : v.Fits L [])
    (heq : ∀ d' tokens', tokens'.head? = tokens.head? → p d' tokens' = v.answer tokens') : Decided n p L d tokens :=
  .verdict [] tokens v rfl (heq d tokens rfl) hfits fun d' rest' _ hhead => heq d' rest' hhead

/-- The first token may be all that is used. -/
theorem head {x : α} (hx : L [t.lexeme] x) (heq : ∀ d' tokens, p d' (t :: tokens) = .ok (x, tokens)) :
    Decided n p L d (t :: tokens) :=
  .verdict [t] tokens (.read x) rfl (heq d tokens) hx fun d' rest' _ _ => heq d' rest'

/-- The first token may be used before anything else. -/
theorem cons (h : Decided n p L d tokens) (hL : ∀ w x, L w x → N (t.lexeme :: w) x)
    (heq : ∀ d' tokens, q d' (t :: tokens) = p d' tokens) : Decided (n + 1) q N d (t :: tokens) := by
  cases h with
  | misassigned span h => exact .misassigned span ((heq d tokens).trans h)
  | verdict used rest v ht hv hfits hagain =>
    subst ht
    refine .verdict (t :: used) rest v rfl ((heq d _).trans hv) (hfits.imp fun u x hx => hL _ x hx)
      fun d' rest' hused hhead => ?_
    rw [List.length_cons] at hused
    rw [List.cons_append, heq d']
    exact hagain d' rest' (by omega) hhead

/-- What is read may be changed by a function. -/
theorem map (h : Decided n p L d tokens) {N : Language F β} (f : α → β) (hL : ∀ w x, L w x → N w (f x)) :
    Decided n (fun d => Parser.map f (p d)) N d tokens := by
  cases h with
  | misassigned span h => exact .misassigned span (by rw [Parser.map, h])
  | verdict used rest v ht hv hfits hagain =>
    exact .verdict used rest (v.map f) ht (Verdict.answer_map f hv) (hfits.imp fun u x hx => hL _ x hx).map
      fun d' rest' hused hhead => Verdict.answer_map f (hagain d' rest' hused hhead)

end Decided

/-! ## One parser after another -/

/-- What makes a word of `N` of every word of `L` that stands for `x`, when it follows. -/
def Remainder (L : Language F α) (x : α) (N : Language F β) : Language F β := fun v y => ∀ u, L u x → N (u ++ v) y

/-- One parser after another decides as each of them does. Where the first one refuses, its word can be finished, and then there is a
remainder of that. -/
theorem Decided.bind {n d : Nat} {p : Nat → Parser F α} {next : Nat → List (Token F) → α → Parser F β} {L : Language F α}
    {N : Language F β} {tokens : List (Token F)} (h : Decided n p L d tokens)
    (hremainder : ∀ x, ∃ v y, Remainder L x N v y)
    (hnext : ∀ {used x rest}, tokens = used ++ rest → p d tokens = .ok (x, rest) →
      Decided n (fun d' rest' => next d' (used ++ rest') x rest') (Remainder L x N) d rest) :
    Decided n (fun d => (p d).bind (next d)) N d tokens := by
  cases h with
  | misassigned span h => exact .misassigned span (by rw [Parser.bind, h])
  | verdict used rest v ht hv hfits hagain =>
    cases v with
    | refused expected =>
      obtain ⟨u, x, hx⟩ := hfits
      obtain ⟨u', y, hy⟩ := hremainder x
      have hbegins : (Verdict.refused expected).Fits N (lexemes used) := ⟨u ++ u', y, by simpa using hy _ hx⟩
      refine .verdict used rest (.refused expected) ht ?_ hbegins fun d' rest' hused hhead => ?_
      · rw [Parser.bind, hv]
        cases rest <;> rfl
      · rw [Parser.bind, hagain d' rest' hused hhead]
        cases rest' <;> rfl
    | read x =>
      subst ht
      have hbind : (p d).bind (next d) (used ++ rest) = next d (used ++ rest) x rest := by
        rw [Parser.bind, hv]
        rfl
      cases hnext rfl hv with
      | misassigned span h => exact .misassigned span (hbind.trans h)
      | verdict used' rest' v ht' hv' hfits' hagain' =>
        subst ht'
        refine .verdict (used ++ used') rest' v (List.append_assoc ..).symm (hbind.trans hv')
          (hfits'.imp fun u y hy => by simpa using hy _ hfits) fun d' rest'' hused hhead => ?_
        rw [List.length_append] at hused
        have hfirst := hagain d' (used' ++ rest'') (by omega) (head?_append_congr used' hhead)
        rw [List.append_assoc, Parser.bind, hfirst]
        exact hagain' d' rest'' (by omega) hhead

/-! ## As many as there are -/

/-- The parser leaves fewer tokens than it is given. -/
def Shortens (p : Parser F α) : Prop := ∀ tokens x rest, p tokens = .ok (x, rest) → rest.length < tokens.length

/-- What reads the words of a language shortens, if there is no empty word. -/
theorem Recognizes.shortens {n k : Nat} {p : Parser F α} {L : Language F α} (h : Recognizes n k p L)
    (hne : ∀ w x, L w x → w ≠ []) : Shortens p := by
  intro tokens x rest hp
  obtain ⟨used, rfl, hused⟩ := h.sound hp
  have hnil : used ≠ [] := fun hnil => hne _ x hused (by rw [hnil]; rfl)
  have hlength := List.length_pos_iff.2 hnil
  rw [List.length_append]
  omega

section Many

variable {starts : Lexeme F → Bool} {item : Parser F α}

/-- Any fuel does that is no less than the number of tokens. -/
theorem many_congr_fuel (h : Shortens item) {fuel fuel' : Nat} {tokens : List (Token F)} (hfuel : tokens.length ≤ fuel)
    (hfuel' : tokens.length ≤ fuel') : many starts item fuel tokens = many starts item fuel' tokens := by
  induction fuel generalizing fuel' tokens with
  | zero =>
    obtain rfl := List.eq_nil_of_length_eq_zero (Nat.le_zero.1 hfuel)
    cases fuel' <;> rfl
  | succ fuel ih =>
    cases fuel' with
    | zero =>
      obtain rfl := List.eq_nil_of_length_eq_zero (Nat.le_zero.1 hfuel')
      rfl
    | succ fuel' =>
      rw [many, many]
      split
      · rw [Parser.bind, Parser.bind]
        split
        · rfl
        · rename_i x rest hx
          have hrest := h _ _ _ hx
          rw [Parser.map, Parser.map, ih (by omega) (by omega : rest.length ≤ fuel')]
      · rfl

/-- With an item in front, there are that item and those after it. -/
theorem many_of_starts (h : Shortens item) {tokens : List (Token F)}
    (hstarts : (tokens.head?.any fun t => starts t.lexeme) = true) :
    many starts item tokens.length tokens =
      item.bind (fun _ x => Parser.map (x :: ·) fun rest => many starts item rest.length rest) tokens := by
  cases tokens with
  | nil => nomatch hstarts
  | cons t tokens =>
    rw [List.length_cons, many, if_pos hstarts, Parser.bind, Parser.bind]
    split
    · rfl
    · rename_i x rest hx
      have hrest := h _ _ _ hx
      rw [List.length_cons] at hrest
      rw [Parser.map, Parser.map, many_congr_fuel h (by omega) (Nat.le_refl _)]

/-- As many items as there are decide as an item does. The induction is on the tokens, of which each item uses some. -/
theorem decides_many {n d : Nat} {item : Nat → Parser F α} {L : Language F α}
    (h : ∀ tokens, (tokens.head?.any fun t => starts t.lexeme) = true → Decided n item L d tokens)
    (hitem : ∀ d, Shortens (item d)) :
    Decides n (fun d tokens => many starts (item d) tokens.length tokens) (Juxtaposed L) d := by
  intro tokens
  induction hlength : tokens.length using Nat.strongRecOn generalizing tokens with
  | ind length ih =>
    subst hlength
    cases hstarts : tokens.head?.any fun t => starts t.lexeme with
    | false =>
      refine .here (.read []) .nil fun d' tokens' hhead => ?_
      rw [← hhead] at hstarts
      exact many_of_not_starts hstarts _
    | true =>
      have hbind : Decided n (fun d => (item d).bind fun _ x =>
          Parser.map (x :: ·) fun rest => many starts (item d) rest.length rest) (Juxtaposed L) d tokens := by
        refine (h tokens hstarts).bind (fun x => ⟨[], [x], fun u hu => .cons hu .nil⟩) fun {used x rest} _ hx => ?_
        exact (ih rest.length (hitem d _ _ _ hx) rest rfl).map _ fun w xs hxs u hu => .cons hu hxs
      refine hbind.of_head fun d' tokens' hhead => ?_
      rw [← hhead] at hstarts
      exact many_of_starts (hitem d') hstarts

/-- Something and items after it decide as they do by themselves. -/
theorem Decides.thenMany {n d : Nat} {first : Nat → Parser F α} {item : Nat → Parser F β} {L : Language F α}
    {L' : Language F β} {starts : Lexeme F → Bool} (hfirst : Decides n first L d)
    (h : ∀ tokens, (tokens.head?.any fun t => starts t.lexeme) = true → Decided n item L' d tokens)
    (hitem : ∀ d, Shortens (item d)) (f : α → List β → γ) :
    Decides n (fun d => thenMany (first d) starts (item d) f)
      (fun w y => ∃ u v x xs, w = u ++ v ∧ L u x ∧ Juxtaposed L' v xs ∧ f x xs = y) d := by
  intro tokens
  refine (hfirst tokens).bind (fun x => ⟨[], f x [], fun u hu => ⟨u, [], x, [], rfl, hu, .nil, rfl⟩⟩) fun _ _ => ?_
  exact (decides_many h hitem _).map _ fun w xs hxs u hu => ⟨u, w, _, xs, rfl, hu, hxs, rfl⟩

end Many

/-! ## Chains, juxtaposition and signs -/

section Operands

variable {n d : Nat} {isSeparator : Lexeme F → Option β}

/-- A link uses more than its operand. -/
theorem Shortens.link {operand : Parser F γ} (h : Shortens operand) : Shortens (link isSeparator operand) := by
  intro tokens x rest hx
  rw [Expression.link] at hx
  split at hx
  · cases tokens <;> simp [unexpected] at hx
  · rename_i b after hsep
    obtain ⟨t, rfl, -⟩ := separator?_eq_some hsep
    rw [Parser.map] at hx
    split at hx
    · cases hx
    · rename_i y rest' hy
      obtain ⟨-, rfl⟩ := Prod.mk.inj (Except.ok.inj hx)
      exact Nat.lt_succ_of_lt (h _ _ _ hy)

/-- A link decides as its operand does. -/
theorem decided_link {operand : Nat → Parser F γ} {L : Language F γ} (h : Decides n operand L d)
    (tokens : List (Token F)) (hstarts : (tokens.head?.any fun t => (isSeparator t.lexeme).isSome) = true) :
    Decided n (fun d => link isSeparator (operand d)) (Link isSeparator L) d tokens := by
  cases tokens with
  | nil => nomatch hstarts
  | cons t tokens =>
    obtain ⟨b, hb⟩ := Option.isSome_iff_exists.1 hstarts
    have hmap := (h tokens).map (N := fun w x => Link isSeparator L (t.lexeme :: w) x) (b, ·)
      fun w x hx => ⟨_, _, rfl, hb, hx⟩
    refine Decided.mono (hmap.cons (fun w x hx => hx) fun d' tokens => ?_) (Nat.le_succ n)
    simp [link, separator?, hb]

/-- Chains decide as their operands do. -/
theorem Decides.chain {first : Nat → Parser F α} {operand : Nat → Parser F γ} {L : Language F α} {L' : Language F γ}
    (hfirst : Decides n first L d) (h : Decides n operand L' d) (hop : ∀ d, Shortens (operand d)) :
    Decides n (fun d => chain (first d) isSeparator (operand d)) (Chained L isSeparator L') d := by
  intro tokens
  simp only [chain_eq_thenMany]
  refine (hfirst.thenMany (decided_link h) (fun d => (hop d).link) Prod.mk tokens).imp ?_
  rintro w y ⟨u, v, x, links, rfl, hu, hv, rfl⟩
  exact ⟨u, v, rfl, hu, juxtaposed_link_iff.1 hv⟩

variable {operand : Nat → Parser F (Expression F)} {L : Language F (Expression F)}

/-- Juxtapositions decide as their operands do. -/
theorem Decides.juxtaposition (h : Decides n operand L d) (hop : ∀ d, Shortens (operand d)) :
    Decides n (fun d => juxtaposition (operand d))
      (fun w e => ∃ u v x xs, w = u ++ v ∧ L u x ∧ Juxtaposed L v xs ∧ xs.foldl .juxtapose x = e) d := by
  simp only [juxtaposition_eq_thenMany]
  exact h.thenMany (fun tokens _ => h tokens) hop _

/-- Operands under signs decide as operands do. The induction is on the tokens, of which each sign is one. -/
theorem Decides.signed (h : Decides n operand L d) :
    Decides n (fun d => signed (operand d)) (Signed L) d := by
  intro tokens
  have hunsigned := fun tokens => (h tokens).map (N := Signed L) ([], ·) fun w x hx => .unsigned hx
  induction tokens with
  | nil =>
    refine (hunsigned []).of_head fun d' tokens' hhead => ?_
    obtain rfl := List.head?_eq_none_iff.1 hhead
    rfl
  | cons t tokens ih =>
    cases ht : signOf t.lexeme with
    | none =>
      refine (hunsigned (t :: tokens)).of_head fun d' tokens' hhead => signed_of_unsigned ?_ _
      rw [hhead]
      rintro _ ⟨⟩
      exact ht
    | some op =>
      obtain ⟨symbol, hsymbol, hop⟩ := signOf_eq_some ht
      have hmap := ih.map (N := fun w x => Signed L (t.lexeme :: w) x) (fun x => (op :: x.1, x.2)) fun w x hx => by
        rw [hsymbol]
        exact .sign hop hx
      exact Decided.mono (hmap.cons (fun _ _ hx => hx) fun d' tokens' => signed_cons ht _ _) (Nat.le_succ n)

end Operands

/-! ## Between brackets -/

/-- What was read already, and then a closing lexeme. -/
def closedBy (closes : Lexeme F → Bool) (expected : Expected) (x : α) : Parser F α := fun tokens =>
  if tokens.head?.any fun t => closes t.lexeme then .ok (x, tokens.tail) else unexpected expected tokens

/-- A closing lexeme at once, or something and then a closing lexeme. -/
def enclosed (inner : Parser F α) (closes : Lexeme F → Bool) (expected : Expected) (nothing : β) (f : α → β) :
    Parser F β := fun tokens =>
  if tokens.head?.any fun t => closes t.lexeme then .ok (nothing, tokens.tail)
  else inner.bind (fun _ x => closedBy closes expected (f x)) tokens

section Enclosed

variable {n d : Nat} {closes : Lexeme F → Bool} {expected : Expected}

/-- A closing lexeme is there or it is not. -/
theorem decides_closedBy {N : Language F α} {x : α} (hcloses : ∃ s, closes s = true)
    (hN : ∀ s, closes s = true → N [s] x) : Decides n (fun _ => closedBy closes expected x) N d := by
  intro tokens
  cases hhead : tokens.head?.any fun t => closes t.lexeme with
  | true =>
    cases tokens with
    | nil => nomatch hhead
    | cons t tokens =>
      have ht : closes t.lexeme = true := hhead
      exact .head (hN _ ht) fun _ tokens => by simp [closedBy, ht]
  | false =>
    obtain ⟨s, hs⟩ := hcloses
    refine .here (.refused expected) ⟨[s], x, hN s hs⟩ fun _ tokens' hhead' => ?_
    rw [← hhead'] at hhead
    rw [closedBy, hhead]
    rfl

/-- What is enclosed decides as what it encloses does. -/
theorem Decides.enclosed {inner : Nat → Parser F α} {L : Language F α} {N : Language F β} {nothing : β} {f : α → β}
    (h : Decides n inner L d) (hcloses : ∃ s, closes s = true) (hnothing : ∀ s, closes s = true → N [s] nothing)
    (hN : ∀ w x s, L w x → closes s = true → N (w ++ [s]) (f x)) :
    Decides n (fun d => enclosed (inner d) closes expected nothing f) N d := by
  intro tokens
  cases hhead : tokens.head?.any fun t => closes t.lexeme with
  | true =>
    cases tokens with
    | nil => nomatch hhead
    | cons t tokens =>
      have ht : closes t.lexeme = true := hhead
      exact .head (hnothing _ ht) fun _ tokens => by simp [Expression.enclosed, ht]
  | false =>
    have hbind : Decided n (fun d => (inner d).bind fun _ x => closedBy closes expected (f x)) N d tokens := by
      refine (h tokens).bind (fun x => ?_) fun {used x rest} _ _ => ?_
      · obtain ⟨s, hs⟩ := hcloses
        exact ⟨[s], f x, fun u hu => hN u x s hu hs⟩
      · exact decides_closedBy hcloses (fun s hs u hu => hN u x s hu hs) rest
    refine hbind.of_head fun d' tokens' hhead' => ?_
    rw [← hhead'] at hhead
    rw [Expression.enclosed, hhead]
    rfl

end Enclosed

end QuantityCalculus.Expression
