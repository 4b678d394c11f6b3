import QuantityCalculus.Catalog

/-!
# Composed units

Products, quotients, powers and prefixed forms of units. The operands have to be composable: numeric, and without a base dimension
that the catalog marks as not composable. Products, quotients and powers also need a scale. Names and symbols are joined from
those of the operands.
-/

namespace QuantityCalculus

-- Powers of integers are those of the core library, whatever else is loaded.
attribute [local instance (1001)] instPowNat

/-- Why units do not compose. -/
inductive CompositionError where
  | noOperands
  | notNumeric (unit : String) (datatype : Datatype)
  | notComposable (unit base : String)
  | notRationalizable (unit : String)
  | dimensionsDiffer (first second : String)
  | unknownDegree (exponent : String)
  | unknownPrefix (base : Nat) (exponent : Int)
  | undefinedPower (unit exponent : String)
  deriving DecidableEq, Repr

/-- The text of a composition error. -/
def CompositionError.message : CompositionError → String
  | .noOperands => "Nothing to compose"
  | .notNumeric unit datatype => "Unit \x60" ++ unit ++ "\x60 is " ++ datatype.name ++ ", not numeric"
  | .notComposable unit base => "Unit \x60" ++ unit ++ "\x60 has a non-composable dimension \x60" ++ base ++ "\x60"
  | .notRationalizable unit => "Unit \x60" ++ unit ++ "\x60 is not a simple ratio of its base unit"
  | .dimensionsDiffer first second =>
    "Units \x60" ++ first ++ "\x60 and \x60" ++ second ++ "\x60 have different dimensions"
  | .unknownDegree exponent => "No degree is defined for the power " ++ exponent
  | .unknownPrefix base exponent => "No prefix is defined for " ++ toString base ++ "^" ++ toString exponent
  | .undefinedPower unit exponent => "Raising \x60" ++ unit ++ "\x60 to the power " ++ exponent ++ " is undefined"

namespace Composition

variable {F : Type}

/-- The name of a unit in the language of a catalog. -/
def nameOf (c : Catalog F) (u : UnitOfMeasure F) : String := u.displayName c.language

/-- No base dimension of the unit is marked as not composable. -/
def checkDimension (c : Catalog F) (u : UnitOfMeasure F) : Except CompositionError Unit :=
  match c.nonComposableBase? u.dimension with
  | none => .ok ()
  | some base => .error (.notComposable (nameOf c u) base)

/-- The unit is numeric and composable. -/
def check (c : Catalog F) (u : UnitOfMeasure F) : Except CompositionError Unit :=
  if u.datatype = .numeric then checkDimension c u else .error (.notNumeric (nameOf c u) u.datatype)

/-- The symbols of units, if each has a single one, joined in the language of the catalog. -/
def joinedSymbol (c : Catalog F) (joiner : Joiner) (us : List (UnitOfMeasure F)) : Option String :=
  let symbols := us.mapM fun u =>
    match u.symbol with
    | some (.single symbol) => some (LanguageString.plain symbol)
    | _ => none
  symbols.bind fun symbols =>
    (LanguageString.join joiner.symbol joiner.order symbols).lookup? c.language .other

/-- Joined names. -/
def joinedName (joiner : Joiner) (names : List LanguageString) : LanguageString :=
  LanguageString.join joiner.name joiner.order names

/-- A numeric unit with a scale. -/
def scaledUnit (dimension : Dimension) (r : Ratio F) (symbol : Option String) (name : Option LanguageString) :
    UnitOfMeasure F :=
  { (UnitOfMeasure.base dimension).withConversion (.ratio r) with symbol := symbol.map .single, name := name }

variable [Numeric F]

/-- The scale of a unit that is composable. -/
def scaleOf (c : Catalog F) (u : UnitOfMeasure F) : Except CompositionError (Ratio F) :=
  match check c u with
  | .error e => .error e
  | .ok () =>
    match u.ratio? with
    | none => .error (.notRationalizable (nameOf c u))
    | some r => .ok r

/-- A scale multiplied by those of units, or divided by them. -/
def foldScales (c : Catalog F) (combine : Ratio F → Ratio F → Ratio F) :
    Ratio F → List (UnitOfMeasure F) → Except CompositionError (Ratio F)
  | r, [] => .ok r
  | r, u :: us =>
    match scaleOf c u with
    | .error e => .error e
    | .ok s => foldScales c combine (combine r s) us

/-- The product of units. -/
def multiply (c : Catalog F) (us : List (UnitOfMeasure F)) : Except CompositionError (UnitOfMeasure F) :=
  if us.isEmpty then .error .noOperands
  else
    match foldScales c (fun r s => ⟨r.multiplier * s.multiplier, r.divisor * s.divisor⟩) .one us with
    | .error e => .error e
    | .ok r =>
      let joiner := c.joiners.product
      .ok (scaledUnit (.product (us.map (·.dimension))) r (joinedSymbol c joiner us)
        ((us.mapM UnitOfMeasure.name).map (joinedName joiner)))

/-- The names of a quotient: those of the divisors are singular, as in meters per second. -/
def quotientNames : List LanguageString → List LanguageString
  | [] => []
  | name :: names => name :: names.map LanguageString.singular

/-- The quotient of the first unit by each of the others. -/
def divide (c : Catalog F) : List (UnitOfMeasure F) → Except CompositionError (UnitOfMeasure F)
  | [] => .error .noOperands
  | u :: us =>
    match scaleOf c u with
    | .error e => .error e
    | .ok r =>
      match foldScales c (fun r s => ⟨r.multiplier * s.divisor, r.divisor * s.multiplier⟩) r us with
      | .error e => .error e
      | .ok r =>
        let joiner := c.joiners.quotient
        .ok (scaledUnit (u.dimension.quotient (us.map (·.dimension))) r (joinedSymbol c joiner (u :: us))
          (((u :: us).mapM UnitOfMeasure.name).map fun names => joinedName joiner (quotientNames names)))

/-- The rational with a given denominator that an exponent is, up to a small error. -/
def exponentOver? (exponent : F) (denominator : Nat) : Option Rat :=
  let d : F := Numeric.ofNat denominator
  let n := Numeric.round (exponent * d)
  if Numeric.abs (n / d - exponent) < Numeric.ofDecimal 1 (-9) ∧ Numeric.abs n < Numeric.ofInt (2 ^ (63 : Nat) - 1) then
    some (mkRat (Numeric.truncate n) denominator)
  else none

/-- The rational with a denominator up to twelve that an exponent is, up to a small error. -/
def rationalExponent? (exponent : F) : Option Rat :=
  if Numeric.isFinite exponent then (List.range' 1 12).findSome? (exponentOver? exponent) else none

/-- The power of a unit with an exponent that the catalog has a degree for. -/
def power (c : Catalog F) (u : UnitOfMeasure F) (exponent : F) : Except CompositionError (UnitOfMeasure F) :=
  match check c u with
  | .error e => .error e
  | .ok () =>
    match (rationalExponent? exponent).bind fun e => (c.findDegree? e).map (e, ·) with
    | none => .error (.unknownDegree (Numeric.text exponent))
    | some (e, degree) =>
      match u.ratio? with
      | none => .error (.notRationalizable (nameOf c u))
      | some r =>
        let r : Ratio F := ⟨Numeric.pow r.multiplier exponent, Numeric.pow r.divisor exponent⟩
        if r.isNaN then .error (.undefinedPower (nameOf c u) (Numeric.text exponent))
        else
          .ok (scaledUnit (u.dimension.pow e) r (u.symbolText?.map (· ++ degree.symbol))
            (u.name.map fun name => degree.name.format [if exponent < 0 then name.singular else name]))

/-- The conversion of numbers that are multiplied by a factor first. -/
def scaledTransform (u : UnitOfMeasure F) (factor : F) : Transform F :=
  ⟨fun x dep => x.expectNumber.bind fun x => u.toBase (.number (x * factor)) dep,
    fun x dep => (u.fromBase x dep).bind fun y => y.expectNumber.map fun y => .number (y / factor)⟩

/-- The unit with the prefix of a power. A scale is scaled; any other conversion has its numbers scaled. -/
def withPrefix (c : Catalog F) (u : UnitOfMeasure F) (base : Nat) (exponent : Int) :
    Except CompositionError (UnitOfMeasure F) :=
  match c.findPrefix? base exponent with
  | none => .error (.unknownPrefix base exponent)
  | some affix =>
    let symbol := u.symbolText?.map (affix.symbol ++ ·)
    let name := u.name.map fun name => affix.name.format [name]
    match u.ratio? with
    | some r =>
      match check c u with
      | .error e => .error e
      | .ok () =>
        let scale : F := Numeric.powInt (Numeric.ofNat base) exponent.natAbs
        let r := if 0 < exponent then ⟨r.multiplier * scale, r.divisor⟩ else ⟨r.multiplier, r.divisor * scale⟩
        .ok (scaledUnit u.dimension r symbol name)
    | none =>
      match checkDimension c u with
      | .error e => .error e
      | .ok () =>
        let transform := scaledTransform u (Numeric.powInt (Numeric.ofNat base) exponent)
        .ok { u.withConversion (.functions transform) with id := none, symbol := symbol.map .single, name := name }

end Composition

end QuantityCalculus
