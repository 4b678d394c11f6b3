import QuantityCalculus.Builtin.Elementary
import QuantityCalculus.Builtin.General
import QuantityCalculus.Builtin.Integers
import QuantityCalculus.Builtin.Matrices
import QuantityCalculus.Builtin.Statistics

/-!
# Calling functions

The value of a function at its arguments. What is called first checks the number of arguments; the inverse of a composition calls the
two inverses one after the other without a check.
-/

namespace QuantityCalculus

variable {F : Type} [Numeric F] (c : Catalog F)

/-- The value of a built-in function. -/
def Builtin.apply (b : Builtin) (args : List (Value F)) : Outcome (Value F) :=
  match b, args with
  | .rounding r, [a] => Algebra.mapPayload c b.name r.of a
  | .sign, [a] => signum c a
  | .len, [a] => length c a
  | .ascending, args => ordered c b.name Ordering.isLE args
  | .descending, args => ordered c b.name Ordering.isGE args
  | .unit, [a] => readUnit c a
  | .elementary e, [a] => onReal c b.name (Numeric.elementary e) a
  | .exp10, [a] => onReal c b.name powerOfTen a
  | .gamma, [a] => onReal c b.name Numeric.gamma a
  | .lgamma, [a] => onReal c b.name Numeric.logGamma a
  | .beta, [x, y] => onReals c b.name betaOf x y
  | .sq, [a] => square c a
  | .cube, [a] => powerOfThree c a
  | .sqrt, [a] => Algebra.root c (.number (Numeric.ofNat 2)) a
  | .cbrt, [a] => Algebra.root c (.number (Numeric.ofNat 3)) a
  | .root, [a, degree] => Algebra.root c degree a
  | .log, [a] => logarithm c a none
  | .log, [a, base] => logarithm c a (some base)
  | .atan2, [y, x] => onReals c b.name (fun y x => .ok (Numeric.angle y x)) y x
  | .hypot, [x, y] => hypotenuse c x y
  | .sum, args => accumulate (Algebra.add c) (.number 0) args
  | .product, args => accumulate (Algebra.mul c) (.number 1) args
  | .var, args => variance c args
  | .statistic s, args => reduceNumbers c s args
  | .integers r, args => reduceIntegers c r args
  | .fact, [a] => factorial c a
  | .binom, [n, k] => combinations c n k
  | .perm, [n, k] => permutations c n k
  | .det, [a] => determinant c a
  | .minor, [a, i, j] => atPlace c b.name (Matrix.minorDeterminant (elements c)) a i j
  | .cofactor, [a, i, j] => atPlace c b.name (Matrix.cofactor (elements c)) a i j
  | .comatrix, [a] => onMatrix c b.name (Matrix.comatrix (elements c)) a
  | .adj, [a] => onMatrix c b.name (Matrix.adjugate (elements c)) a
  | .inv, [a] => onMatrix c b.name (Matrix.inverse (elements c) (Algebra.div c)) a
  | .transpose, [a] => onMatrix c b.name (fun m => .ok m.transpose) a
  | .identity, [a] => identityMatrix c a
  | b, args => .error (.arity b.name b.arity args.length)

/-- The value of what a rule says at arguments. -/
def Rule.apply : Rule F → List (Value F) → Outcome (Value F)
  | .builtin b, args => b.apply c args
  | .identity, [a] => .ok a
  | .convert source sourceDep target targetDep, [a] => Algebra.convertPayload c source sourceDep target targetDep a
  | .compose outer outerSignature inner innerSignature, args => do
    innerSignature.check args.length
    let a ← inner.apply args
    outerSignature.check 1
    outer.apply [a]
  | .chain first second, args => do
    let a ← first.apply args
    second.apply [a]
  | _, args => .error (.arity (nameText []) .unary args.length)

/-- The value of a function at arguments. -/
def FunctionValue.call (f : FunctionValue F) (args : List (Value F)) : Outcome (Value F) := do
  f.signature.check args.length
  f.forward.apply c args

end QuantityCalculus
