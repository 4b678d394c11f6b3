import QuantityCalculus.Proofs.Expression.Grammar

/-!
# What parsers made of parsers recognize

A language is a set of words, each with what it stands for. `Recognizes` ties a parser to a language in both directions: what the
parser reads is a word, and it reads every word, up to a length, that stands before tokens which do not continue it. Each way
to make a parser of parsers has its way to make a language of languages, and keeps this tie.
-/

namespace QuantityCalculus.Expression

variable {F α β γ : Type}

/-- Words, each with what it stands for. -/
abbrev Language (F α : Type) := List (Lexeme F) → α → Prop

/-- The lexemes of tokens. -/
def lexemes (tokens : List (Token F)) : List (Lexeme F) := tokens.map (·.lexeme)

@[simp] theorem lexemes_nil : lexemes ([] : List (Token F)) = [] := rfl

@[simp] theorem lexemes_cons (t : Token F) (tokens : List (Token F)) :
    lexemes (t :: tokens) = t.lexeme :: lexemes tokens := rfl

@[simp] theorem lexemes_append (tokens tokens' : List (Token F)) :
    lexemes (tokens ++ tokens') = lexemes tokens ++ lexemes tokens' := List.map_append

/-- Tokens whose lexemes fall into two parts fall into two parts themselves. -/
theorem lexemes_eq_append {tokens : List (Token F)} {u v : List (Lexeme F)} (h : lexemes tokens = u ++ v) :
    ∃ us vs, tokens = us ++ vs ∧ lexemes us = u ∧ lexemes vs = v := by
  obtain ⟨us, vs, h, hu, hv⟩ := List.map_eq_append_iff.1 h
  exact ⟨us, vs, h, hu, hv⟩

/-- Tokens whose lexemes have a first one have a first one themselves. -/
theorem lexemes_eq_cons {tokens : List (Token F)} {s : Lexeme F} {v : List (Lexeme F)} (h : lexemes tokens = s :: v) :
    ∃ t vs, tokens = t :: vs ∧ t.lexeme = s ∧ lexemes vs = v := by
  obtain ⟨t, vs, h, hs, hv⟩ := List.map_eq_cons_iff.1 h
  exact ⟨t, vs, h, hs, hv⟩

/-- A token whose lexeme is known is known but for where it stands. -/
theorem lexemes_eq_singleton {tokens : List (Token F)} {s : Lexeme F} (h : lexemes tokens = [s]) :
    ∃ span, tokens = [⟨s, span⟩] := by
  obtain ⟨⟨_, span⟩, ts, rfl, rfl, hts⟩ := lexemes_eq_cons h
  obtain rfl := List.map_eq_nil_iff.1 hts
  exact ⟨span, rfl⟩

/-- Tokens whose lexemes are enclosed by two others are enclosed themselves. -/
theorem lexemes_eq_enclosed {tokens : List (Token F)} {s s' : Lexeme F} {w : List (Lexeme F)}
    (h : lexemes tokens = s :: (w ++ [s'])) :
    ∃ span us span', tokens = ⟨s, span⟩ :: (us ++ [⟨s', span'⟩]) ∧ lexemes us = w := by
  obtain ⟨⟨_, span⟩, ts, rfl, rfl, hts⟩ := lexemes_eq_cons h
  obtain ⟨us, vs, rfl, hus, hvs⟩ := lexemes_eq_append hts
  obtain ⟨span', rfl⟩ := lexemes_eq_singleton hvs
  exact ⟨span, us, span', rfl, hus⟩

/-! ## Where a phrase stops -/

/-- How tightly factors that stand next to each other bind: less than exponents, more than any other operator. -/
def juxtaposedBinding : Nat := 190

/-- How tightly a lexeme binds to the phrase before it; one that closes something, or that is no binary operator, does not
bind. -/
def binding : Lexeme F → Option Nat
  | .operator symbol => (OperatorTable.common.get? symbol).map (·.precedence)
  | .comma | .semicolon => some 0
  | .rightParen | .rightBracket _ => none
  | _ => some juxtaposedBinding

/-- No token, or one that does not bind as tightly as `p`, comes next. -/
def Stops (p : Nat) (rest : List (Token F)) : Prop := ∀ t ∈ rest.head?, ∀ q ∈ binding t.lexeme, q < p

theorem stops_nil (p : Nat) : Stops p ([] : List (Token F)) := by
  simp [Stops]

theorem stops_cons {p : Nat} {t : Token F} {rest : List (Token F)} :
    Stops p (t :: rest) ↔ ∀ q ∈ binding t.lexeme, q < p := by
  simp [Stops]

/-- What stops a phrase stops every tighter one. -/
theorem Stops.mono {p q : Nat} {rest : List (Token F)} (h : Stops p rest) (hpq : p ≤ q) : Stops q rest :=
  fun t ht r hr => Nat.lt_of_lt_of_le (h t ht r hr) hpq

/-- A token that binds with strength `p` stops what is tighter. -/
theorem stops_of_binding {p q : Nat} {t : Token F} (h : binding t.lexeme = some p) (hpq : p < q)
    (rest : List (Token F)) : Stops q (t :: rest) := by
  rw [stops_cons, h]
  rintro _ ⟨⟩
  exact hpq

/-- A token that does not bind stops everything. -/
theorem stops_of_not_binding {p : Nat} {t : Token F} (h : binding t.lexeme = none) (rest : List (Token F)) :
    Stops p (t :: rest) := by
  rw [stops_cons, h]
  rintro _ ⟨⟩

/-- A separator that is found is the first token. -/
theorem separator?_eq_some {isSeparator : Lexeme F → Option β} {tokens rest : List (Token F)} {b : β}
    (h : separator? isSeparator tokens = some (b, rest)) :
    ∃ t, tokens = t :: rest ∧ isSeparator t.lexeme = some b := by
  cases tokens with
  | nil => nomatch h
  | cons t tokens =>
    obtain ⟨b', hb, hpair⟩ := Option.map_eq_some_iff.1 h
    obtain ⟨rfl, rfl⟩ := Prod.mk.inj hpair
    exact ⟨t, rfl, hb⟩

/-- What binds with strength `p` does not come next where `p` stops. -/
theorem Stops.separator?_eq_none {p : Nat} {rest : List (Token F)} {isSeparator : Lexeme F → Option β}
    (h : Stops p rest) (hsep : ∀ s b, isSeparator s = some b → binding s = some p) :
    separator? isSeparator rest = none := by
  cases rest with
  | nil => rfl
  | cons t rest =>
    rw [separator?, Option.map_eq_none_iff]
    cases hs : isSeparator t.lexeme with
    | none => rfl
    | some b => exact absurd (stops_cons.1 h p (hsep _ _ hs)) (Nat.lt_irrefl p)

/-! ## Recognition -/

/-- The parser reads words of the language only, and every word of at most `n` lexemes before tokens that stop at `p`. -/
structure Recognizes (n p : Nat) (parser : Parser F α) (L : Language F α) : Prop where
  sound : ∀ {tokens x rest}, parser tokens = .ok (x, rest) → ∃ used, tokens = used ++ rest ∧ L (lexemes used) x
  complete : ∀ {used x}, L (lexemes used) x → used.length ≤ n →
    ∀ {rest}, Stops p rest → parser (used ++ rest) = .ok (x, rest)

namespace Recognizes

variable {n p q : Nat} {parser : Parser F α} {L : Language F α}

/-- Recognition depends on the words only. -/
theorem congr {L' : Language F α} (h : Recognizes n p parser L) (hL : ∀ w x, L w x ↔ L' w x) :
    Recognizes n p parser L' where
  sound hp := by
    obtain ⟨used, ht, hx⟩ := h.sound hp
    exact ⟨used, ht, (hL _ _).1 hx⟩
  complete hx := h.complete ((hL _ _).2 hx)

/-- What a parser reads may be changed by a function. -/
theorem map (h : Recognizes n p parser L) (f : α → β) :
    Recognizes n p (Parser.map f parser) fun w y => ∃ x, L w x ∧ f x = y where
  sound {tokens y rest} hp := by
    rw [Parser.map] at hp
    split at hp
    · nomatch hp
    · rename_i x rest' hx
      obtain ⟨rfl, rfl⟩ := Prod.mk.inj (Except.ok.inj hp)
      obtain ⟨used, ht, hw⟩ := h.sound hx
      exact ⟨used, ht, x, hw, rfl⟩
  complete {used y} hy hn rest hs := by
    obtain ⟨x, hx, rfl⟩ := hy
    rw [Parser.map, h.complete hx hn hs]

end Recognizes

/-! ## As many as there are -/

/-- One parser after another, which is told where the first one started and what it read. -/
def Parser.bind (p : Parser F α) (next : List (Token F) → α → Parser F β) : Parser F β := fun tokens =>
  match p tokens with
  | .error e => .error e
  | .ok (x, rest) => next tokens x rest

/-- Items one after another as long as the next lexeme starts one. There are no more of them than there are tokens. -/
def many (starts : Lexeme F → Bool) (item : Parser F α) : Nat → Parser F (List α)
  | 0, tokens => .ok ([], tokens)
  | fuel + 1, tokens =>
    if tokens.head?.any fun t => starts t.lexeme then
      Parser.bind item (fun _ x => Parser.map (x :: ·) (many starts item fuel)) tokens
    else .ok ([], tokens)

/-- Something, as many items after it as there are, and a function of all of them. -/
def thenMany (first : Parser F α) (starts : Lexeme F → Bool) (item : Parser F β) (f : α → List β → γ) : Parser F γ :=
  first.bind fun _ x => Parser.map (f x) fun rest => many starts item rest.length rest

/-- Words one after another. -/
inductive Juxtaposed (L : Language F α) : Language F (List α)
  | nil : Juxtaposed L [] []
  | cons {v x w xs} : L v x → Juxtaposed L w xs → Juxtaposed L (v ++ w) (x :: xs)

section Many

variable {n p q q' : Nat} {starts : Lexeme F → Bool} {first : Parser F α} {item : Parser F β} {L : Language F α}
  {L' : Language F β}

/-- Words may be added at the end. -/
theorem Juxtaposed.snoc {v w : List (Lexeme F)} {x : β} {xs : List β} (h : Juxtaposed L' w xs) (hx : L' v x) :
    Juxtaposed L' (w ++ v) (xs ++ [x]) := by
  induction h with
  | nil => simpa using Juxtaposed.cons hx .nil
  | cons hx' _ ih => simpa using Juxtaposed.cons hx' ih

/-- Where items stop, none starts. -/
theorem Stops.not_starts {rest : List (Token F)} (h : Stops p rest) (hbind : ∀ s, starts s = true → binding s = some p) :
    (rest.head?.any fun t => starts t.lexeme) = false := by
  cases rest with
  | nil => rfl
  | cons t rest =>
    cases hs : starts t.lexeme with
    | false => exact hs
    | true => exact absurd (stops_cons.1 h p (hbind _ hs)) (Nat.lt_irrefl p)

/-- Before items, and before what follows them, a tighter phrase stops. -/
theorem Juxtaposed.stops {used rest : List (Token F)} {xs : List β} (h : Juxtaposed L' (lexemes used) xs)
    (hstart : ∀ w x, L' w x → ∃ s v, w = s :: v ∧ starts s = true) (hbind : ∀ s, starts s = true → binding s = some p)
    (hpq : p < q) (hs : Stops p rest) : Stops q (used ++ rest) := by
  generalize hw : lexemes used = w at h
  cases h with
  | nil =>
    obtain rfl := List.map_eq_nil_iff.1 hw
    exact hs.mono (Nat.le_of_lt hpq)
  | cons hx _ =>
    obtain ⟨s, v, rfl, hstarts⟩ := hstart _ _ hx
    obtain ⟨t, ts, rfl, rfl, -⟩ := lexemes_eq_cons hw
    exact stops_of_binding (hbind _ hstarts) hpq _

/-- Without an item in front there is none. -/
theorem many_of_not_starts {tokens : List (Token F)} (hstarts : (tokens.head?.any fun t => starts t.lexeme) = false)
    (fuel : Nat) : many starts item fuel tokens = .ok ([], tokens) := by
  cases fuel with
  | zero => rfl
  | succ fuel => rw [many, hstarts, if_neg Bool.false_ne_true]

/-- What is read of many items is words. -/
theorem many_sound (hitem : Recognizes n q item L') {fuel : Nat} {tokens rest : List (Token F)} {xs : List β}
    (h : many starts item fuel tokens = .ok (xs, rest)) :
    ∃ used, tokens = used ++ rest ∧ Juxtaposed L' (lexemes used) xs := by
  induction fuel generalizing tokens xs with
  | zero =>
    obtain ⟨rfl, rfl⟩ := Prod.mk.inj (Except.ok.inj h)
    exact ⟨[], rfl, .nil⟩
  | succ fuel ih =>
    rw [many] at h
    split at h
    · rw [Parser.bind] at h
      split at h
      · nomatch h
      · rename_i x after hx
        rw [Parser.map] at h
        split at h
        · nomatch h
        · rename_i xs' after' hxs
          obtain ⟨rfl, rfl⟩ := Prod.mk.inj (Except.ok.inj h)
          obtain ⟨us, rfl, hus⟩ := hitem.sound hx
          obtain ⟨vs, rfl, hvs⟩ := ih hxs
          exact ⟨us ++ vs, by simp, by simpa using Juxtaposed.cons hus hvs⟩
    · obtain ⟨rfl, rfl⟩ := Prod.mk.inj (Except.ok.inj h)
      exact ⟨[], rfl, .nil⟩

/-- Words one after another are read as a whole, if no item continues the one before it. -/
theorem many_complete (hitem : Recognizes n q item L') (hstart : ∀ w x, L' w x → ∃ s v, w = s :: v ∧ starts s = true)
    (hbind : ∀ s, starts s = true → binding s = some p) (hpq : p < q) {w : List (Lexeme F)} {xs : List β}
    (h : Juxtaposed L' w xs) {used rest : List (Token F)} {fuel : Nat} (hw : lexemes used = w) (hn : used.length ≤ n)
    (hfuel : used.length ≤ fuel) (hs : Stops p rest) : many starts item fuel (used ++ rest) = .ok (xs, rest) := by
  induction h generalizing used fuel with
  | nil =>
    obtain rfl := List.map_eq_nil_iff.1 hw
    exact many_of_not_starts (hs.not_starts hbind) fuel
  | @cons v x w xs hx hxs ih =>
    obtain ⟨us, vs, rfl, rfl, rfl⟩ := lexemes_eq_append hw
    obtain ⟨s, v, hv, hstarts⟩ := hstart _ _ hx
    obtain ⟨t, ts, rfl, rfl, -⟩ := lexemes_eq_cons hv
    rw [List.length_append, List.length_cons] at hn hfuel
    obtain ⟨fuel, rfl⟩ : ∃ m, fuel = m + 1 := ⟨fuel - 1, by omega⟩
    have hx' := hitem.complete hx (by simp; omega) (hxs.stops hstart hbind hpq hs)
    have hrest := ih rfl (by omega) (by omega : vs.length ≤ fuel)
    have hhead : ((t :: ts ++ vs ++ rest).head?.any fun t => starts t.lexeme) = true := hstarts
    rw [many, if_pos hhead, Parser.bind, List.append_assoc, hx']
    simp only [Parser.map, hrest]

/-- Something and items after it are read as they are by themselves, if no item continues what is before it. -/
theorem Recognizes.thenMany (hfirst : Recognizes n q' first L) (hitem : Recognizes n q item L')
    (hstart : ∀ w x, L' w x → ∃ s v, w = s :: v ∧ starts s = true) (hbind : ∀ s, starts s = true → binding s = some p)
    (hpq' : p < q') (hpq : p < q) (f : α → List β → γ) :
    Recognizes n p (thenMany first starts item f) fun w y =>
      ∃ u v x xs, w = u ++ v ∧ L u x ∧ Juxtaposed L' v xs ∧ f x xs = y where
  sound {tokens y rest} h := by
    rw [Expression.thenMany, Parser.bind] at h
    split at h
    · nomatch h
    · rename_i x after hx
      rw [Parser.map] at h
      split at h
      · nomatch h
      · rename_i xs after' hxs
        obtain ⟨rfl, rfl⟩ := Prod.mk.inj (Except.ok.inj h)
        obtain ⟨us, rfl, hus⟩ := hfirst.sound hx
        obtain ⟨vs, rfl, hvs⟩ := many_sound hitem hxs
        exact ⟨us ++ vs, by simp, _, _, _, _, lexemes_append us vs, hus, hvs, rfl⟩
  complete {used y} h hn rest hs := by
    obtain ⟨u, v, x, xs, hw, hu, hv, rfl⟩ := h
    obtain ⟨us, vs, rfl, rfl, rfl⟩ := lexemes_eq_append hw
    rw [List.length_append] at hn
    have hx := hfirst.complete hu (by omega) (hv.stops hstart hbind hpq' hs)
    have hxs := many_complete hitem hstart hbind hpq hv rfl (by omega) (by simp : vs.length ≤ (vs ++ rest).length) hs
    rw [Expression.thenMany, Parser.bind, List.append_assoc, hx]
    simp only [Parser.map, hxs]

end Many

/-! ## Chains -/

/-- Separators with operands after them. -/
inductive Links (isSeparator : Lexeme F → Option β) (L : Language F γ) : Language F (List (β × γ))
  | nil : Links isSeparator L [] []
  | cons {s b v x w links} : isSeparator s = some b → L v x → Links isSeparator L w links →
      Links isSeparator L (s :: v ++ w) ((b, x) :: links)

/-- An operand with links after it. -/
def Chained (L : Language F α) (isSeparator : Lexeme F → Option β) (L' : Language F γ) :
    Language F (α × List (β × γ)) := fun w chain =>
  ∃ u v, w = u ++ v ∧ L u chain.1 ∧ Links isSeparator L' v chain.2

/-- A separator and an operand. -/
def link (isSeparator : Lexeme F → Option β) (operand : Parser F γ) : Parser F (β × γ) := fun tokens =>
  match separator? isSeparator tokens with
  | none => unexpected .expression tokens
  | some (separator, rest) => Parser.map (separator, ·) operand rest

/-- A separator and a word after it. -/
def Link (isSeparator : Lexeme F → Option β) (L : Language F γ) : Language F (β × γ) := fun w x =>
  ∃ s v, w = s :: v ∧ isSeparator s = some x.1 ∧ L v x.2

section Chains

variable {n p q q' : Nat} {isSeparator : Lexeme F → Option β} {first : Parser F α} {operand : Parser F γ}
  {L : Language F α} {L' : Language F γ}

/-- Links may be added at the end. -/
theorem Links.snoc {s : Lexeme F} {b : β} {v w : List (Lexeme F)} {x : γ} {links : List (β × γ)}
    (h : Links isSeparator L' w links) (hs : isSeparator s = some b) (hx : L' v x) :
    Links isSeparator L' (w ++ s :: v) (links ++ [(b, x)]) := by
  induction h with
  | nil => simpa using Links.cons hs hx .nil
  | cons hs' hx' _ ih => simpa using Links.cons hs' hx' ih

/-- The links of a chain are separators and operands one after another. -/
theorem juxtaposed_link_iff {w : List (Lexeme F)} {links : List (β × γ)} :
    Juxtaposed (Link isSeparator L') w links ↔ Links isSeparator L' w links := by
  constructor
  · intro h
    induction h with
    | nil => exact .nil
    | cons hx _ ih =>
      obtain ⟨s, v, rfl, hs, hv⟩ := hx
      exact .cons hs hv ih
  · intro h
    induction h with
    | nil => exact .nil
    | cons hs hx _ ih => exact .cons ⟨_, _, rfl, hs, hx⟩ ih

/-- What continues a chain is as many links as there are. -/
theorem chainRest_eq_many (fuel : Nat) :
    chainRest isSeparator operand fuel = many (fun s => (isSeparator s).isSome) (link isSeparator operand) fuel := by
  induction fuel with
  | zero => rfl
  | succ fuel ih =>
    funext tokens
    cases tokens with
    | nil => rfl
    | cons t tokens =>
      cases hs : isSeparator t.lexeme with
      | none => simp [chainRest, many, separator?, hs]
      | some b =>
        simp only [chainRest, many, separator?, hs, Option.map_some, List.head?_cons, Option.any_some, Option.isSome_some,
          if_true, Parser.bind, link, Parser.map, ih]
        rcases operand tokens with e | ⟨x, rest⟩
        · rfl
        · simp only
          cases many (fun s => (isSeparator s).isSome) (link isSeparator operand) fuel rest <;> rfl

/-- A chain is an operand and as many links after it as there are. -/
theorem chain_eq_thenMany (first : Parser F α) (isSeparator : Lexeme F → Option β) (operand : Parser F γ) :
    chain first isSeparator operand =
      thenMany first (fun s => (isSeparator s).isSome) (link isSeparator operand) Prod.mk := by
  funext tokens
  simp only [chain, chainRest_eq_many, thenMany, Parser.bind, Parser.map]
  rcases first tokens with e | ⟨x, rest⟩
  · rfl
  · simp only
    cases many (fun s => (isSeparator s).isSome) (link isSeparator operand) rest.length rest <;> rfl

/-- What continues a chain is nothing, or a separator with an operand and what continues the chain after it. -/
theorem chainRest_eq_ok {fuel : Nat} {tokens rest : List (Token F)} {links : List (β × γ)}
    (h : chainRest isSeparator operand fuel tokens = .ok (links, rest)) :
    links = [] ∧ tokens = rest ∨
      ∃ fuel' t b after x after' links', fuel = fuel' + 1 ∧ tokens = t :: after ∧ isSeparator t.lexeme = some b ∧
        operand after = .ok (x, after') ∧ chainRest isSeparator operand fuel' after' = .ok (links', rest) ∧
        links = (b, x) :: links' := by
  cases fuel with
  | zero =>
    obtain ⟨rfl, rfl⟩ := Prod.mk.inj (Except.ok.inj h)
    exact .inl ⟨rfl, rfl⟩
  | succ fuel =>
    rw [chainRest] at h
    split at h
    · obtain ⟨rfl, rfl⟩ := Prod.mk.inj (Except.ok.inj h)
      exact .inl ⟨rfl, rfl⟩
    rename_i b after hb
    obtain ⟨t, rfl, ht⟩ := separator?_eq_some hb
    split at h
    · nomatch h
    rename_i x after' hx
    split at h
    · nomatch h
    rename_i links' after'' hlinks
    obtain ⟨rfl, rfl⟩ := Prod.mk.inj (Except.ok.inj h)
    exact .inr ⟨fuel, t, b, after, x, after', links', rfl, rfl, ht, hx, hlinks, rfl⟩

/-- A chain is its first operand and what continues it. -/
theorem chain_eq_ok {tokens rest : List (Token F)} {x : α} {links : List (β × γ)}
    (h : chain first isSeparator operand tokens = .ok ((x, links), rest)) :
    ∃ after, first tokens = .ok (x, after) ∧ chainRest isSeparator operand after.length after = .ok (links, rest) := by
  unfold chain at h
  split at h
  · nomatch h
  rename_i x' after hx
  split at h
  · nomatch h
  rename_i links' after' hlinks
  obtain ⟨hpair, rfl⟩ := Prod.mk.inj (Except.ok.inj h)
  obtain ⟨rfl, rfl⟩ := Prod.mk.inj hpair
  exact ⟨after, hx, hlinks⟩

/-- A link is read as its operand is. -/
theorem Recognizes.link (hop : Recognizes n q operand L') :
    Recognizes n q (link isSeparator operand) (Link isSeparator L') where
  sound {tokens x rest} h := by
    rw [Expression.link] at h
    split at h
    · cases tokens <;> nomatch h
    · rename_i b after hb
      obtain ⟨t, rfl, ht⟩ := separator?_eq_some hb
      obtain ⟨used, rfl, y, hy, rfl⟩ := (hop.map (b, ·)).sound h
      exact ⟨t :: used, rfl, t.lexeme, lexemes used, rfl, ht, hy⟩
  complete {used x} h hn rest hs := by
    obtain ⟨s, v, hw, hb, hx⟩ := h
    obtain ⟨t, ts, rfl, rfl, rfl⟩ := lexemes_eq_cons hw
    have hread := (hop.map (x.1, ·)).complete ⟨x.2, hx, rfl⟩ (Nat.le_of_succ_le hn) hs
    simp only [Expression.link, List.cons_append, separator?, hb, Option.map_some]
    exact hread

/-- A chain is read as its operands and separators are, if no separator continues an operand. -/
theorem Recognizes.chain (hfirst : Recognizes n q' first L) (hop : Recognizes n q operand L')
    (hsep : ∀ s b, isSeparator s = some b → binding s = some p) (hpq' : p < q') (hpq : p < q) :
    Recognizes n p (chain first isSeparator operand) (Chained L isSeparator L') := by
  have hstart : ∀ w x, Link isSeparator L' w x → ∃ s v, w = s :: v ∧ (isSeparator s).isSome = true := by
    rintro w x ⟨s, v, rfl, hs, -⟩
    exact ⟨s, v, rfl, by rw [hs]; rfl⟩
  have hbind : ∀ s, (isSeparator s).isSome = true → binding s = some p := by
    intro s hs
    obtain ⟨b, hb⟩ := Option.isSome_iff_exists.1 hs
    exact hsep s b hb
  rw [chain_eq_thenMany]
  refine (hfirst.thenMany hop.link hstart hbind hpq' hpq Prod.mk).congr fun w y => ?_
  constructor
  · rintro ⟨u, v, x, links, rfl, hu, hv, rfl⟩
    exact ⟨u, v, rfl, hu, juxtaposed_link_iff.1 hv⟩
  · rintro ⟨u, v, rfl, hu, hv⟩
    exact ⟨u, v, y.1, y.2, rfl, hu, juxtaposed_link_iff.2 hv, rfl⟩

end Chains

/-! ## Juxtaposition -/

section Juxtapositions

variable {n q : Nat} {operand : Parser F (Expression F)} {L : Language F (Expression F)}

/-- A lexeme that starts a factor binds as juxtaposed factors do. -/
theorem binding_of_startsFactor {s : Lexeme F} (h : startsFactor s = true) : binding s = some juxtaposedBinding := by
  cases s <;> first | rfl | nomatch h

/-- What continues a juxtaposition is as many operands as there are. -/
theorem juxtaposedRest_eq_many (operand : Parser F (Expression F)) (fuel : Nat) :
    juxtaposedRest operand fuel = many startsFactor operand fuel := by
  induction fuel with
  | zero => rfl
  | succ fuel ih =>
    funext tokens
    simp only [juxtaposedRest, many, Parser.bind, Parser.map, ih]
    split
    · rcases operand tokens with e | ⟨x, rest⟩
      · rfl
      · simp only
        cases many startsFactor operand fuel rest <;> rfl
    · rfl

/-- A juxtaposition is an operand and as many others after it as there are. -/
theorem juxtaposition_eq_thenMany (operand : Parser F (Expression F)) :
    juxtaposition operand = thenMany operand startsFactor operand fun x xs => xs.foldl .juxtapose x := by
  funext tokens
  simp only [juxtaposition, juxtaposedRest_eq_many, thenMany, Parser.bind, Parser.map]
  rcases operand tokens with e | ⟨x, rest⟩
  · rfl
  · simp only
    cases many startsFactor operand rest.length rest <;> rfl

/-- A juxtaposition is read as its parts are, if each starts with a factor. -/
theorem Recognizes.juxtaposition (hop : Recognizes n q operand L)
    (hstart : ∀ w x, L w x → ∃ s v, w = s :: v ∧ startsFactor s = true) (hq : juxtaposedBinding < q) :
    Recognizes n juxtaposedBinding (juxtaposition operand) fun w e =>
      ∃ u v x xs, w = u ++ v ∧ L u x ∧ Juxtaposed L v xs ∧ xs.foldl .juxtapose x = e := by
  rw [juxtaposition_eq_thenMany]
  exact hop.thenMany hop hstart (fun _ => binding_of_startsFactor) hq hq _

end Juxtapositions

/-! ## Signs -/

/-- Words under prefix operators. -/
inductive Signed (L : Language F α) : Language F (List UnaryOp × α)
  | unsigned {w x} : L w x → Signed L w ([], x)
  | sign {s op w ops x} : UnaryOp.ofSymbol? s = some op → Signed L w (ops, x) →
      Signed L (.operator s :: w) (op :: ops, x)

section Signs

variable {n p : Nat} {operand : Parser F (Expression F)} {L : Language F (Expression F)}

/-- A prefix operator is read before the others. -/
theorem signed_cons {t : Token F} {op : UnaryOp} (h : signOf t.lexeme = some op) (operand : Parser F (Expression F))
    (tokens : List (Token F)) :
    signed operand (t :: tokens) = Parser.map (fun (ops, e) => (op :: ops, e)) (signed operand) tokens := by
  simp only [signed, splitSigns, h, Parser.map]
  cases operand (splitSigns tokens).2 <;> rfl

/-- Without a prefix operator the operand is read at once. -/
theorem signed_of_unsigned {tokens : List (Token F)} (h : ∀ t ∈ tokens.head?, signOf t.lexeme = none)
    (operand : Parser F (Expression F)) : signed operand tokens = Parser.map ([], ·) operand tokens := by
  cases tokens with
  | nil => rfl
  | cons t tokens => simp only [signed, splitSigns, h t rfl]

/-- The symbol of a prefix operator. -/
theorem signOf_eq_some {s : Lexeme F} {op : UnaryOp} (h : signOf s = some op) :
    ∃ symbol, s = .operator symbol ∧ UnaryOp.ofSymbol? symbol = some op := by
  cases s with
  | operator symbol => exact ⟨symbol, rfl, h⟩
  | _ => nomatch h

/-- Signed words are read as words are, if no word starts with a sign. -/
theorem Recognizes.signed (hop : Recognizes n p operand L)
    (hstart : ∀ w x, L w x → ∃ s v, w = s :: v ∧ startsFactor s = true) :
    Recognizes n p (signed operand) (Signed L) where
  sound {tokens x rest} h := by
    induction tokens generalizing x with
    | nil =>
      rw [signed_of_unsigned (by simp)] at h
      obtain ⟨used, ht, e, he, rfl⟩ := (hop.map ([], ·)).sound h
      exact ⟨used, ht, .unsigned he⟩
    | cons t tokens ih =>
      cases ht : signOf t.lexeme with
      | none =>
        rw [signed_of_unsigned (by rintro _ ⟨⟩; exact ht)] at h
        obtain ⟨used, ht, e, he, rfl⟩ := (hop.map ([], ·)).sound h
        exact ⟨used, ht, .unsigned he⟩
      | some op =>
        rw [signed_cons ht, Parser.map] at h
        split at h
        · nomatch h
        · rename_i y rest' hy
          obtain ⟨rfl, rfl⟩ := Prod.mk.inj (Except.ok.inj h)
          obtain ⟨used, rfl, hused⟩ := ih hy
          obtain ⟨symbol, hsymbol, hop'⟩ := signOf_eq_some ht
          refine ⟨t :: used, rfl, ?_⟩
          rw [lexemes_cons, hsymbol]
          exact .sign hop' hused
  complete {used x} h hn rest hs := by
    generalize hw : lexemes used = w at h
    induction h generalizing used with
    | @unsigned w e he =>
      obtain ⟨s, v, rfl, hstart'⟩ := hstart _ _ he
      obtain ⟨t, ts, rfl, rfl, rfl⟩ := lexemes_eq_cons hw
      have he' : L (lexemes (t :: ts)) e := he
      rw [signed_of_unsigned (by rintro _ ⟨⟩; exact signOf_of_startsFactor hstart'), Parser.map,
        hop.complete he' hn hs]
    | @sign s op w ops e hop' _ ih =>
      obtain ⟨t, ts, rfl, ht, rfl⟩ := lexemes_eq_cons hw
      have hsign : signOf t.lexeme = some op := by rw [ht]; exact hop'
      rw [List.cons_append, signed_cons hsign, Parser.map, ih (Nat.le_of_succ_le hn) rfl]

end Signs

end QuantityCalculus.Expression
