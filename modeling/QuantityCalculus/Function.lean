import QuantityCalculus.Evaluation.Error
import QuantityCalculus.RepeatedSquaring

/-!
# Functions

A function is a rule for calling it, perhaps one for its inverse, an arity, and a name. Rules are data: a built-in function, the
identity, a conversion between two units, or one rule after another. Names are products of powers, so that composing and
inverting functions composes and inverts their names: the inverse of a function `f∘g²` is named `g⁻²∘f⁻¹`.

Two functions are the same if they are the same built-in function, or if both are the value that some variable was first
assigned; any other function is a new one each time it is made.
-/

namespace QuantityCalculus

/-- The functions that round a number or take its magnitude. -/
inductive Rounding where
  | abs | floor | ceil | round | trunc
  deriving DecidableEq, Repr

/-- The functions that reduce several numbers to one that is written in the same unit. -/
inductive Statistic where
  | rss | rms | mean | gmean | hmean | stdev | median | min | max
  deriving DecidableEq, Repr

/-- The functions that reduce several integers to one. -/
inductive IntegerReduction where
  | gcd | lcm | band | bor | bxor
  deriving DecidableEq, Repr

/-- The built-in functions. -/
inductive Builtin where
  | rounding (r : Rounding)
  | sign | len | ascending | descending | unit
  | elementary (e : Elementary)
  | exp10 | gamma | lgamma | beta | sq | cube | sqrt | cbrt | root | log | atan2 | hypot
  | sum | product | var
  | statistic (s : Statistic)
  | integers (r : IntegerReduction)
  | fact | binom | perm
  | det | minor | cofactor | comatrix | adj | inv | transpose | identity
  deriving DecidableEq, Repr

/-- The name of a rounding function. -/
def Rounding.name : Rounding → String
  | .abs => "abs" | .floor => "floor" | .ceil => "ceil" | .round => "round" | .trunc => "trunc"

/-- The name of a statistic. -/
def Statistic.name : Statistic → String
  | .rss => "rss" | .rms => "rms" | .mean => "mean" | .gmean => "gmean" | .hmean => "hmean" | .stdev => "stdev"
  | .median => "median" | .min => "min" | .max => "max"

/-- The name of a reduction of integers. -/
def IntegerReduction.name : IntegerReduction → String
  | .gcd => "gcd" | .lcm => "lcm" | .band => "band" | .bor => "bor" | .bxor => "bxor"

/-- The name of an elementary function. -/
def Elementary.name : Elementary → String
  | .sin => "sin" | .cos => "cos" | .tan => "tan" | .asin => "asin" | .acos => "acos" | .atan => "atan"
  | .sinh => "sinh" | .cosh => "cosh" | .tanh => "tanh" | .asinh => "asinh" | .acosh => "acosh" | .atanh => "atanh"
  | .exp => "exp" | .ln => "ln" | .exp2 => "exp2" | .log2 => "log2" | .log10 => "log10"

namespace Builtin

/-- The name of a built-in function. -/
def name : Builtin → String
  | .rounding r => r.name
  | .sign => "sign" | .len => "len" | .ascending => "ascending" | .descending => "descending" | .unit => "unit"
  | .elementary e => e.name
  | .exp10 => "exp10" | .gamma => "gamma" | .lgamma => "lgamma" | .beta => "beta" | .sq => "sq" | .cube => "cube"
  | .sqrt => "sqrt" | .cbrt => "cbrt" | .root => "root" | .log => "log" | .atan2 => "atan2" | .hypot => "hypot"
  | .sum => "sum" | .product => "product" | .var => "var"
  | .statistic s => s.name
  | .integers r => r.name
  | .fact => "fact" | .binom => "binom" | .perm => "perm"
  | .det => "det" | .minor => "minor" | .cofactor => "cofactor" | .comatrix => "comatrix" | .adj => "adj"
  | .inv => "inv" | .transpose => "transpose" | .identity => "identity"

/-- The arity of a built-in function. -/
def arity : Builtin → Arity
  | .root | .atan2 | .hypot | .beta | .binom | .perm => .exactly 2
  | .log => ⟨1, some 2⟩
  | .minor | .cofactor => .exactly 3
  | .ascending | .descending | .sum | .product | .var | .statistic _ | .integers _ => .variadic
  | _ => .unary

/-- Pairs of built-in functions each of which is the inverse of the other. -/
def inversePairs : List (Builtin × Builtin) :=
  [(.elementary .sin, .elementary .asin), (.elementary .cos, .elementary .acos),
    (.elementary .tan, .elementary .atan), (.elementary .sinh, .elementary .asinh),
    (.elementary .cosh, .elementary .acosh), (.elementary .tanh, .elementary .atanh),
    (.elementary .exp, .elementary .ln), (.exp10, .elementary .log10), (.elementary .exp2, .elementary .log2),
    (.sq, .sqrt), (.cube, .cbrt)]

/-- The inverse of a built-in function, if it is a built-in function too. -/
def inverse? (b : Builtin) : Option Builtin :=
  (inversePairs ++ inversePairs.map Prod.swap).lookup b

/-- Every built-in function. -/
def all : List Builtin :=
  [.rounding .abs, .rounding .floor, .rounding .ceil, .rounding .round, .rounding .trunc, .sign, .len, .ascending,
    .descending, .unit] ++
  inversePairs.flatMap (fun (b, b') => [b, b']) ++
  [.root, .log, .atan2, .hypot, .gamma, .lgamma, .beta, .sum, .product, .statistic .rss, .statistic .rms,
    .statistic .mean, .statistic .gmean, .statistic .hmean, .var, .statistic .stdev, .statistic .median,
    .statistic .min, .statistic .max, .integers .gcd, .integers .lcm, .integers .band, .integers .bor,
    .integers .bxor, .fact, .binom, .perm, .det, .minor, .cofactor, .comatrix, .adj, .inv, .transpose, .identity]

/-- The built-in function of a name. -/
def ofName? (name : String) : Option Builtin := all.find? (·.name == name)

end Builtin

/-- A factor of the name of a function. -/
structure NameTerm where
  base : String
  exponent : Int
  deriving DecidableEq, Repr

/-- The superscript form of a decimal digit. -/
def superscriptDigit (c : Char) : Char :=
  (['⁰', '¹', '²', '³', '⁴', '⁵', '⁶', '⁷', '⁸', '⁹'][c.toNat - '0'.toNat]?).getD c

/-- An integer in superscript. -/
def superscript (n : Int) : String :=
  (if n < 0 then "⁻" else "") ++ String.ofList ((Nat.toDigits 10 n.natAbs).map superscriptDigit)

/-- The text of a factor of a name. -/
def NameTerm.text (t : NameTerm) : String :=
  if t.exponent = 1 then t.base else t.base ++ superscript t.exponent

/-- A name with a further factor on its inner side; powers of one base with the same sign are added up. -/
def appendTerm (names : List NameTerm) (term : NameTerm) : List NameTerm :=
  match names.getLast? with
  | some last =>
    if last.base = term.base ∧ last.exponent.sign = term.exponent.sign then
      names.dropLast ++ [⟨last.base, last.exponent + term.exponent⟩]
    else names ++ [term]
  | none => [term]

/-- The name of an outer function after an inner one. -/
def mergeNames (outer inner : List NameTerm) : List NameTerm :=
  inner.foldl appendTerm outer

/-- The name of the inverse of a function. -/
def invertNames (names : List NameTerm) : List NameTerm :=
  (names.map fun t => ⟨t.base, -t.exponent⟩).reverse

/-- The text of the name of a function; the empty product is the identity. -/
def nameText (names : List NameTerm) : String :=
  if names.isEmpty then "id" else String.intercalate "∘" (names.map NameTerm.text)

/-- What a call looks at before it follows the rule of a function. -/
structure Signature where
  names : List NameTerm
  arity : Arity
  deriving DecidableEq, Repr

/-- The error of a call with a number of arguments, unless the arity accepts it. -/
def Signature.check (s : Signature) (count : Nat) : Outcome Unit :=
  if s.arity.accepts count then .ok () else .error (.arity (nameText s.names) s.arity count)

/-- How a function is called. A rule `compose` checks the arities of the outer and the inner function, and a rule `chain` follows one
rule and then the other. -/
inductive Rule (F : Type) where
  | builtin (b : Builtin)
  | identity
  | convert (source : UnitOfMeasure F) (sourceDep : Option (Scalar F)) (target : UnitOfMeasure F)
      (targetDep : Option (Scalar F))
  | compose (outer : Rule F) (outerSignature : Signature) (inner : Rule F) (innerSignature : Signature)
  | chain (first second : Rule F)

/-- The place where a function was first kept: which assignment to which variable, where inside the assigned value, and whether the
function is the inverse of what was kept. -/
structure Owner where
  variableName : String
  generation : Nat
  path : List Nat
  inverted : Bool
  deriving DecidableEq, Repr

/-- A function with its name and arity, its inverse if it has one, and its owner if a variable was assigned it. -/
structure FunctionValue (F : Type) where
  forward : Rule F
  inverse : Option (Rule F)
  signature : Signature
  owner : Option Owner

namespace FunctionValue

variable {F : Type}

/-- A built-in function. -/
def ofBuiltin (b : Builtin) : FunctionValue F :=
  ⟨.builtin b, b.inverse?.map .builtin, ⟨[⟨b.name, 1⟩], b.arity⟩, none⟩

/-- The identity, whose name is the empty product. -/
def identity : FunctionValue F := ⟨.identity, some .identity, ⟨[], .unary⟩, none⟩

/-- The conversion from one unit to another, given their independent variables. -/
def conversion (name : String) (source target : UnitOfMeasure F) (targetDep : Option (Scalar F)) : FunctionValue F :=
  ⟨.convert source none target targetDep, some (.convert target targetDep source none), ⟨[⟨name, 1⟩], .unary⟩, none⟩

/-- The text of the name. -/
def name (f : FunctionValue F) : String := nameText f.signature.names

/-- Whether there is an inverse. -/
def isInvertible (f : FunctionValue F) : Bool := f.inverse.isSome

/-- The rule of the inverse of a composition. -/
def chainInverse (outer inner : FunctionValue F) : Option (Rule F) :=
  match outer.inverse, inner.inverse with
  | some f, some g => some (.chain f g)
  | _, _ => none

/-- The outer function after the inner one, invertible when both are. -/
def compose (outer inner : FunctionValue F) : FunctionValue F :=
  ⟨.compose outer.forward outer.signature inner.forward inner.signature, chainInverse outer inner,
    ⟨mergeNames outer.signature.names inner.signature.names, inner.signature.arity⟩, none⟩

/-- The inverse, whose inverse is the function. -/
def invert (f : FunctionValue F) : Outcome (FunctionValue F) :=
  match f.inverse with
  | none => .error (.domain f.name .noInverse)
  | some inverse =>
    .ok ⟨inverse, some f.forward, ⟨invertNames f.signature.names, .unary⟩,
      f.owner.map fun o => { o with inverted := !o.inverted }⟩

/-- The function composed with itself; a negative exponent composes the inverse. -/
def pow (f : FunctionValue F) (exponent : Int) : Outcome (FunctionValue F) :=
  (if exponent < 0 then f.invert else .ok f).bind fun base =>
    powBySquaring (fun f g => .ok (compose f g)) identity base exponent.natAbs

/-- Whether two functions are the same. -/
def same (f g : FunctionValue F) : Bool :=
  match f.forward, g.forward with
  | .builtin b, .builtin b' => b == b'
  | _, _ => f.owner.isSome && f.owner == g.owner

end FunctionValue

end QuantityCalculus
