/-!
# Keeping a value within bounds
-/

namespace QuantityCalculus

/-- The value, or the bound that it is beyond; the lower bound decides where the bounds are in the wrong order. -/
def clamp {α : Type} [LT α] [DecidableLT α] (value low high : α) : α :=
  if value < low then low else if high < value then high else value

end QuantityCalculus
