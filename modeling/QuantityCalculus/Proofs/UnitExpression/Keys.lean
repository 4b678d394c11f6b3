import QuantityCalculus.Catalog.Standard
import QuantityCalculus.Numeric.Binary64
import QuantityCalculus.Proofs.Text.Ranges
import QuantityCalculus.Proofs.UnitExpression.Chains
import QuantityCalculus.Text.Letter

/-!
# Keys in unit expressions

Most keys of units are letters, some with underscores between them. An underscore is the mark of a prefix, so the name of a unit ends
before it. A key is therefore read as its unit if there is no underscore in it, and is malformed otherwise (`read_key`): nothing that
follows an underscore in a key is the exponent of a prefix.
-/

namespace QuantityCalculus

namespace UnitExpression

/-! ## Letters -/

/-- A letter is no sign, mark or parenthesis. -/
theorem ne_of_isLetter {ch mark : Char} (h : Text.isLetter ch = true)
    (hmark : mark ∈ ['+', '-', '(', ')', '*', '/', '^', '%', ',', '_', '.', ':']) : ch ≠ mark := by
  have hnone : ['+', '-', '(', ')', '*', '/', '^', '%', ',', '_', '.', ':'].any Text.isLetter = false := by
    decide +kernel
  rintro rfl
  exact List.any_eq_false.1 hnone ch hmark h

/-- A letter is not reserved. -/
theorem isReserved_of_isLetter {ch : Char} (h : Text.isLetter ch = true) : isReserved ch = false := by
  have hblank : Text.isBlank ch = false := Text.inRanges_eq_false (by decide +kernel) h
  rw [isReserved, hblank, Bool.false_or, ← Bool.not_eq_true, List.contains_iff_mem]
  intro hmark
  exact ne_of_isLetter h (List.mem_cons_of_mem _ (List.mem_cons_of_mem _ hmark)) rfl

/-- A letter starts a name. -/
theorem startsName_of_isLetter {ch : Char} (h : Text.isLetter ch = true) : startsName ch = true := by
  have hdigit : Text.isDecimalDigit ch = false := Text.inRanges_eq_false (by decide +kernel) h
  have hplus : ch ≠ '+' := ne_of_isLetter h (by simp)
  have hminus : ch ≠ '-' := ne_of_isLetter h (by simp)
  simp [startsName, isReserved_of_isLetter h, hdigit, hplus, hminus]

/-! ## Keys -/

/-- A letter, with letters and underscores after it. -/
def IsKey : List Char → Prop
  | [] => False
  | ch :: rest => Text.isLetter ch = true ∧ ∀ d ∈ rest, Text.isLetter d = true ∨ d = '_'

instance : DecidablePred IsKey
  | [] => inferInstanceAs (Decidable False)
  | ch :: rest => @instDecidableAnd (Text.isLetter ch = true) _ inferInstance
      (List.decidableBAll (fun d => Text.isLetter d = true ∨ d = '_') rest)

/-- A key is made of letters and underscores. -/
theorem IsKey.letter_or_underscore {key : List Char} (h : IsKey key) : ∀ ch ∈ key, Text.isLetter ch = true ∨ ch = '_' := by
  cases key with
  | nil => exact h.elim
  | cons first rest => exact List.forall_mem_cons.2 ⟨.inl h.1, h.2⟩

/-- A key is a name up to an underscore. -/
theorem IsKey.isName {head rest : List Char} (h : IsKey (head ++ rest)) (hrest : ∀ ch ∈ rest.head?, ch = '_')
    (hhead : '_' ∉ head) : IsName head := by
  cases head with
  | nil =>
    -- The key would start with an underscore.
    cases rest with
    | nil => exact h.elim
    | cons ch rest => exact absurd (hrest ch rfl) (ne_of_isLetter h.1 (by simp))
  | cons first head =>
    refine .mk (startsName_of_isLetter h.1) fun d hd => ?_
    rcases h.2 d (List.mem_append_left _ hd) with hletter | rfl
    · exact isReserved_of_isLetter hletter
    · exact absurd (List.mem_cons_of_mem _ hd) hhead

/-- Letters and underscores are no integer. -/
theorem integer_eq_malformed {cs : List Char} (h : ∀ ch ∈ cs, Text.isLetter ch = true ∨ ch = '_') (low high : Int) :
    integer low high cs = malformed cs := by
  cases cs with
  | nil => rfl
  | cons ch cs =>
    have hclass : Text.isBlank ch = false ∧ ch ≠ '+' ∧ ch ≠ '-' ∧ Text.isDecimalDigit ch = false := by
      rcases h ch (List.mem_cons_self ..) with hletter | rfl
      · obtain ⟨-, hblank, -, hplus, hminus, hdigit⟩ := class_of_startsName (startsName_of_isLetter hletter)
        exact ⟨hblank, hplus, hminus, hdigit⟩
      · decide +kernel
    obtain ⟨hblank, hplus, hminus, hdigit⟩ := hclass
    unfold integer
    rw [trimStart_cons hblank]
    dsimp only
    rw [Decimal.spanInteger?_eq_none hplus hminus hdigit]

/-! ## Errors of the first part -/

section Errors

variable {F : Type} {c : Catalog F} {e : UnitExpressionError} {cs : List Char}

/-- A unit with an optional suffix fails as the unit does. -/
theorem suffixed_eq_error {α β : Type} {operand : Reader (UnitOfMeasure F)} (suffix? : List Char → Option (β × List Char))
    (argument : Reader α) (compose : β → α → UnitOfMeasure F → Except CompositionError (UnitOfMeasure F))
    (h : operand cs = .error e) : suffixed c operand suffix? argument compose cs = .error e := by
  rw [suffixed, h]

/-- A chain of units fails as its first member does. -/
theorem composedChain_eq_error {member : Reader (UnitOfMeasure F)} (separator : Char)
    (compose : List (UnitOfMeasure F) → Except CompositionError (UnitOfMeasure F)) (h : member cs = .error e) :
    composedChain c separator compose member cs = .error e := by
  rw [composedChain, chain, h]

variable [Numeric F]

/-- Units with all that may follow them fail as the unit with an optional prefix does that they start with. -/
theorem hierarchy_eq_error {inner : Reader (UnitOfMeasure F)} (h : prefixed c (atom c inner) cs = .error e) :
    hierarchy c inner cs = .error e := by
  have hpower : powered c (prefixed c (atom c inner)) cs = .error e := by
    rw [powered]
    exact suffixed_eq_error _ _ _ h
  rw [hierarchy]
  refine composedChain_eq_error _ _ ?_
  rw [fractional]
  exact suffixed_eq_error _ _ _ (composedChain_eq_error _ _ (composedChain_eq_error _ _ hpower))

/-- A unit expression fails as the unit with an optional prefix does that it starts with. -/
theorem read_eq_error {text : String} (h : ∀ inner, prefixed c (atom c inner) text.toList = .error e) :
    read c text = .error e := by
  have hhierarchy : hierarchy c (nested c text.toList.length) text.toList = .error e := hierarchy_eq_error (h _)
  unfold read
  dsimp only
  rw [nested, hhierarchy]

end Errors

/-! ## Reading a key -/

variable {F : Type} {c : Catalog F}

/-- What is looked up is a name up to an underscore. -/
theorem atom_key {head rest : List Char} (h : IsName head) (hrest : ∀ ch ∈ rest.head?, ch = '_')
    (inner : Reader (UnitOfMeasure F)) :
    atom c inner (head ++ rest) =
      match c.unit? (String.ofList head) with
      | none => malformed (head ++ rest)
      | some u => .ok (u, rest) := by
  have hreserved : ∀ ch ∈ rest.head?, isReserved ch = true := by
    intro ch hch
    rw [hrest ch hch]
    decide +kernel
  have hparen : after? '(' (head ++ rest) = none := by
    obtain ⟨hstart, -⟩ := h
    obtain ⟨-, hblank, hparen, -⟩ := class_of_startsName hstart
    refine after?_eq_none fun d hd => ?_
    rw [List.cons_append, trimStart_cons hblank] at hd
    obtain rfl := Option.some.inj hd
    exact hparen
  have hnamed := named_name (c := c) (s := []) nofun h hreserved
  rw [atom, hparen]
  exact hnamed

variable [Numeric F]

/-- The prefix after an underscore in a key has no exponent. -/
theorem prefixed_key {head tail : List Char} (h : IsKey (head ++ '_' :: tail)) (hhead : '_' ∉ head)
    (inner : Reader (UnitOfMeasure F)) :
    prefixed c (atom c inner) (head ++ '_' :: tail) =
      malformed (if (c.unit? (String.ofList head)).isSome then tail else head ++ '_' :: tail) := by
  have hunderscore : ∀ ch ∈ ('_' :: tail).head?, ch = '_' := fun ch hch => (Option.some.inj hch).symm
  have hatom := atom_key (c := c) (h.isName hunderscore hhead) hunderscore inner
  have hbase : prefixBase? ('_' :: tail) = some (10, tail) := prefixBase?_append (s := []) nofun rfl tail
  have htail : ∀ ch ∈ tail, Text.isLetter ch = true ∨ ch = '_' := fun ch hch => h.letter_or_underscore ch (by simp [hch])
  cases hu : c.unit? (String.ofList head) with
  | none =>
    rw [hu] at hatom
    exact suffixed_eq_error _ _ _ hatom
  | some u =>
    rw [hu] at hatom
    rw [prefixed, suffixed, hatom]
    dsimp only
    rw [hbase]
    dsimp only
    rw [integer_eq_malformed htail]
    rfl

/-- A key of a unit is read as the unit if there is no underscore in it. Otherwise it is malformed: after the first underscore if what
stands before that is the key of a unit as well, and from the start if not. -/
theorem read_key {key : String} {u : UnitOfMeasure F} (hu : c.unit? key = some u) (hkey : IsKey key.toList) :
    (read c key = .ok u ↔ '_' ∉ key.toList) ∧
      ∀ head tail, key.toList = head ++ '_' :: tail → '_' ∉ head →
        read c key = malformed (if (c.unit? (String.ofList head)).isSome then tail else key.toList) := by
  have hmalformed (head tail : List Char) (hsplit : key.toList = head ++ '_' :: tail) (hhead : '_' ∉ head) :
      read c key = malformed (if (c.unit? (String.ofList head)).isSome then tail else key.toList) := by
    rw [hsplit] at hkey
    refine read_eq_error fun inner => ?_
    rw [hsplit]
    exact prefixed_key hkey hhead inner
  refine ⟨⟨fun hread hmem => ?_, fun hnone => ?_⟩, hmalformed⟩
  · obtain ⟨head, tail, hsplit, hhead⟩ := List.eq_append_cons_of_mem hmem
    rw [hmalformed head tail hsplit hhead] at hread
    nomatch hread
  · have hname : IsName key.toList := @IsKey.isName key.toList [] (by rwa [List.append_nil]) nofun hnone
    have hatom : Derives c .atom key.toList (.unit u) :=
      @Derives.named _ _ _ [] key.toList u nofun hname (by rwa [String.ofList_toList])
    have hspells : Spells c key (.unit u) :=
      ⟨key.toList, [], (List.append_nil _).symm, .single (.whole (.single (.single (.first (.plain hatom))))), nofun⟩
    exact read_eq_evaluate hspells

/-- Meters are read by their key, and what follows the pound in the key of the pound sterling is not read. -/
theorem read_meter_and_pound_sterling :
    (∃ u, (Catalog.standard : Catalog Float).unit? "meter" = some u ∧ read (Catalog.standard : Catalog Float) "meter" = .ok u) ∧
      ∃ u, (Catalog.standard : Catalog Float).unit? "pound_sterling" = some u ∧
        read (Catalog.standard : Catalog Float) "pound_sterling" = .error (.malformed "sterling") := by
  constructor
  · obtain ⟨u, hu⟩ : ∃ u, (Catalog.standard : Catalog Float).unit? "meter" = some u := ⟨_, rfl⟩
    have hread := (read_key hu (by decide +kernel)).1
    exact ⟨u, hu, hread.2 (by decide)⟩
  · obtain ⟨u, hu⟩ : ∃ u, (Catalog.standard : Catalog Float).unit? "pound_sterling" = some u := ⟨_, rfl⟩
    have hread := (read_key hu (by decide +kernel)).2 "pound".toList "sterling".toList rfl (by decide)
    rw [if_pos (by decide +kernel)] at hread
    exact ⟨u, hu, hread⟩

/-- The key of nautical miles is that of a unit, and is not read. -/
theorem read_nautical_mile :
    ∃ u, (Catalog.standard : Catalog Float).unit? "nautical_mile" = some u ∧ IsKey "nautical_mile".toList ∧
      read (Catalog.standard : Catalog Float) "nautical_mile" = .error (.malformed "nautical_mile") := by
  have hkey : IsKey "nautical_mile".toList := by decide +kernel
  have hread : read (Catalog.standard : Catalog Float) "nautical_mile" = malformed "nautical_mile".toList := by
    refine read_eq_error fun inner => ?_
    have hprefixed := @prefixed_key Float Catalog.standard _ "nautical".toList "mile".toList hkey (by decide) inner
    rw [if_neg (by decide +kernel)] at hprefixed
    exact hprefixed
  exact ⟨_, rfl, hkey, hread⟩

end UnitExpression

end QuantityCalculus
