/-!
# Powers by repeated squaring

The power of an element of a monoid with a natural exponent. The binary digits of the exponent are read from the lowest one up; the
base is squared from one digit to the next, and multiplied into the result at each digit one. Multiplication may have effects,
such as failing.
-/

namespace QuantityCalculus

-- Powers of integers are those of the core library, whatever else is loaded.
attribute [local instance (1001)] instPowNat

/-- `result * square ^ exponent`, where each product is asked of `mul`. Nothing is squared after the highest digit. -/
def powFrom {m : Type → Type} [Monad m] {α : Type} (mul : α → α → m α) (result square : α) (exponent : Nat) : m α :=
  if exponent = 0 then pure result
  else do
    let result ← if exponent % 2 = 1 then mul result square else pure result
    if _h : exponent / 2 = 0 then pure result
    else powFrom mul result (← mul square square) (exponent / 2)
termination_by exponent
decreasing_by omega

/-- The power of a base, given the neutral element. -/
def powBySquaring {m : Type → Type} [Monad m] {α : Type} (mul : α → α → m α) (one base : α) (exponent : Nat) : m α :=
  powFrom mul one base exponent

/-- A multiplication that may fail, as one that also records what it is asked for. -/
def recording {ε α : Type} (mul : α → α → Except ε α) (x y : α) : ExceptT ε (StateM (List (α × α))) α :=
  ExceptT.mk fun calls => (mul x y, calls ++ [(x, y)])

/-- The power of an integer by products that have to fit into 64 bits, with the factors of every product asked for. -/
def recordedPower (base : Int) (exponent : Nat) : Option Int × List (Int × Int) :=
  let mul (x y : Int) : Except Unit Int :=
    if -(2 ^ (63 : Nat)) ≤ x * y && x * y < 2 ^ (63 : Nat) then .ok (x * y) else .error ()
  let (outcome, products) := ((powBySquaring (recording mul) 1 base exponent).run).run []
  (outcome.toOption, products)

end QuantityCalculus
