import QuantityCalculus.Numeric

/-!
# The gamma function

The Lanczos approximation with nine coefficients, for arguments from one half on, and the reflection formula below.
-/

namespace QuantityCalculus.Numeric

variable {F : Type} [Numeric F]

/-- One half. -/
def half : F := ofDecimal 5 (-1)

/-- The parameter of the approximation. -/
def lanczosG : F := ofNat 7

/-- The constant coefficient. -/
def lanczosConstant : F := ofDecimal 9999999999998099 (-16)

/-- The coefficients of the poles at -1, -2 and so on. -/
def lanczosCoefficients : List F :=
  [ofDecimal 6765203681218851 (-13), -ofDecimal 12591392167224028 (-13), ofDecimal 7713234287776531 (-13),
    -ofDecimal 1766150291621406 (-13), ofDecimal 12507343278686905 (-15), -ofDecimal 13857109526572012 (-17),
    ofDecimal 9984369578019572 (-21), ofDecimal 15056327351493116 (-23)]

/-- The sum of the approximation for the gamma function of `x + 1`. -/
def lanczosSum (x : F) : F :=
  (lanczosCoefficients.zipIdx 1).foldl (fun total (coefficient, i) => total + coefficient / (x + ofNat i)) lanczosConstant

/-- The shifted argument of the approximation for the gamma function of `x + 1`. -/
def lanczosShift (x : F) : F := x + lanczosG + half

/-- Whether the gamma function has a pole. -/
def isGammaPole (x : F) : Bool := x ≤ 0 && fract x == 0

/-- The approximation of the gamma function from one half on. -/
def gammaAboveHalf (x : F) : F :=
  let t := lanczosShift (x - 1)
  sqrt ((1 + 1) * pi) * pow t (x - half) * elementary .exp (-t) * lanczosSum (x - 1)

/-- The gamma function; not a number at its poles. -/
def gamma (x : F) : F :=
  if isGammaPole x then notANumber
  else if x < half then pi / (elementary .sin (pi * x) * gammaAboveHalf (1 - x))
  else gammaAboveHalf x

/-- The approximation of the logarithm of the gamma function from one half on. -/
def logGammaAboveHalf (x : F) : F :=
  let t := lanczosShift (x - 1)
  half * elementary .ln ((1 + 1) * pi) + (x - half) * elementary .ln t - t + elementary .ln (lanczosSum (x - 1))

/-- The logarithm of the magnitude of the gamma function; infinite at its poles. -/
def logGamma (x : F) : F :=
  if isGammaPole x then infinity
  else if x < half then elementary .ln (abs (pi / elementary .sin (pi * x))) - logGammaAboveHalf (1 - x)
  else logGammaAboveHalf x

/-- The beta function of positive numbers. -/
def beta (x y : F) : F :=
  elementary .exp (logGamma x + logGamma y - logGamma (x + y))

end QuantityCalculus.Numeric
