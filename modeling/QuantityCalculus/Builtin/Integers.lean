import QuantityCalculus.Builtin.Arguments
import QuantityCalculus.Numeric.Gamma

/-!
# Integer functions

Divisors and multiples, bits, and the counting of permutations and combinations.
-/

namespace QuantityCalculus

/-- An integer, or the bound of 64 bits that it is beyond. -/
def saturate (i : Int) : Int := max Algebra.minInteger (min i Algebra.maxInteger)

/-- The greatest common divisor of two numbers, by repeated division with a remainder. -/
def euclid (m n : Nat) : Nat :=
  if n = 0 then m else euclid n (m % n)
termination_by n
decreasing_by exact Nat.mod_lt m (Nat.pos_of_ne_zero ‹n ≠ 0›)

/-- The greatest common divisor, within 64 bits. -/
def boundedGcd (i j : Int) : Int := saturate (euclid i.natAbs j.natAbs)

/-- The least common multiple, within 64 bits. -/
def boundedLcm (i j : Int) : Int :=
  if i = 0 ∨ j = 0 then 0 else saturate (saturate (i.tdiv (boundedGcd i j) * j)).natAbs

/-- What a reduction does with two integers. -/
def IntegerReduction.combine : IntegerReduction → Int → Int → Int
  | .gcd => boundedGcd
  | .lcm => boundedLcm
  | .band => Algebra.onBits (· &&& ·)
  | .bor => Algebra.onBits (· ||| ·)
  | .bxor => Algebra.onBits (· ^^^ ·)

/-- The result of a reduction, which starts from the first integer. -/
def IntegerReduction.apply? (r : IntegerReduction) : List Int → Option Int
  | [] => none
  | i :: is => some (is.foldl r.combine i)

variable {F : Type} [Numeric F]

/-- A result times the `count` factors `n - i`, `n - i - 1` and so on, as long as it is finite. -/
def timesFalling (n : F) : (count : Nat) → (i result : F) → F
  | 0, _, result => result
  | count + 1, i, result =>
    if Numeric.isFinite result then timesFalling n count (i + 1) (result * (n - i)) else result

/-- The falling factorial `n * (n - 1) * …` with a number of factors. -/
def fallingFactorial (n : F) (count : Nat) : F := timesFalling n count 0 1

namespace Builtin

variable (c : Catalog F)

/-- A reduction of integers. -/
def reduceIntegers (r : IntegerReduction) (args : List (Value F)) : Outcome (Value F) := do
  let is ← (spread args).mapM (integerArgument c r.name)
  match r.apply? is with
  | some i => return .number (Numeric.ofInt i)
  | none => .error (.domain r.name .noValues)

/-- The factorial; the gamma function extends it to numbers that are not integers. -/
def factorial (a : Value F) : Outcome (Value F) := do
  let x ← Algebra.real c "fact" a
  if Numeric.fract x == 0 then
    if x < 0 then .error (.domain "fact" .negativeInteger)
    else return .number (fallingFactorial x (Numeric.truncate x).toNat)
  else return .number (Numeric.gamma (x + 1))

/-- Two counts, the second of which is not beyond the first. -/
def counts (name : String) (a b : Value F) : Outcome (Nat × Nat) := do
  let n ← integerArgument c name a
  let k ← integerArgument c name b
  if n < 0 ∨ k < 0 ∨ n < k then .error (.domain name (.badCounts n k)) else return (n.toNat, k.toNat)

/-- The number of ways to choose some of several things in order. -/
def permutations (a b : Value F) : Outcome (Value F) := do
  let (n, k) ← counts c "perm" a b
  return .number (fallingFactorial (Numeric.ofNat n) k)

/-- The number of ways to choose some of several things, where those left out may be counted instead. -/
def combinations (a b : Value F) : Outcome (Value F) := do
  let (n, k) ← counts c "binom" a b
  let k := min k (n - k)
  return .number (fallingFactorial (Numeric.ofNat n) k / fallingFactorial (Numeric.ofNat k) k)

end Builtin

end QuantityCalculus
