import QuantityCalculus.Catalog
import QuantityCalculus.ColorCode

/-!
# The standard catalog

Common units of length, time, mass, angle, information, temperature and money with some derived ones, the usual prefixes and
degrees, and a few entries of every kind. The base units are the meter, the second, the gram, the radian, the bit, the
kelvin and the dollar.
-/

namespace QuantityCalculus.Catalog.Standard

/-- The joiners, in English and French. -/
def joiners : Joiners where
  product := ⟨.plain "·", (LanguageString.plain " ").insert "fr" .other "-", .empty⟩
  quotient := ⟨.plain "/", (LanguageString.plain " per ").insert "fr" .other " par ", .empty⟩
  hierarchical := ⟨.plain " ", (LanguageString.plain " and ").insert "fr" .other " et ", .empty⟩

/-- The base dimensions; money is not composable. -/
def dimensions : List (String × Bool) :=
  [("length", true), ("mass", true), ("time", true), ("temperature", true), ("current", true),
    ("luminous_intensity", true), ("amount", true), ("angle", true), ("information", true), ("currency", false)]

/-- Symbols, names and exponents of the decimal prefixes. -/
def decimalPrefixes : List (String × String × Int) :=
  [("Q", "quetta", 30), ("R", "ronna", 27), ("Y", "yotta", 24), ("Z", "zetta", 21), ("E", "exa", 18),
    ("P", "peta", 15), ("T", "tera", 12), ("G", "giga", 9), ("M", "mega", 6), ("k", "kilo", 3), ("h", "hecto", 2),
    ("da", "deca", 1), ("d", "deci", -1), ("c", "centi", -2), ("m", "milli", -3), ("μ", "micro", -6),
    ("n", "nano", -9), ("p", "pico", -12), ("f", "femto", -15), ("a", "atto", -18), ("z", "zepto", -21),
    ("y", "yocto", -24), ("r", "ronto", -27), ("q", "quecto", -30)]

/-- Symbols, names and exponents of the binary prefixes. -/
def binaryPrefixes : List (String × String × Int) :=
  [("Ki", "kibi", 10), ("Mi", "mebi", 20), ("Gi", "gibi", 30), ("Ti", "tebi", 40), ("Pi", "pebi", 50),
    ("Ei", "exbi", 60)]

/-- Exponents, symbols and name templates of the degrees. -/
def degrees : List (Rat × String × String) :=
  [(-3, "⁻³", "per cubic \x7b0\x7d"), (-2, "⁻²", "per square \x7b0\x7d"), (-1, "⁻¹", "per \x7b0\x7d"),
    (2, "²", "square \x7b0\x7d"), (3, "³", "cubic \x7b0\x7d"), (4, "⁴", "\x7b0\x7d to the fourth"),
    (1 / 2, "^½", "square root of \x7b0\x7d"), (1 / 3, "^⅓", "cube root of \x7b0\x7d")]

/-- The dimension of a velocity. -/
def speed : Dimension := .single "length" / .single "time"

/-- The dimension of an electric resistance. -/
def resistance : Dimension :=
  .product [.single "mass", (Dimension.single "length").pow 2, (Dimension.single "time").pow (-3),
    (Dimension.single "current").pow (-2)]

section

variable {F : Type} [Numeric F]

/-- A unit with a symbol, a singular and a plural. -/
def named (dimension : Dimension) (symbol one other : String) : UnitOfMeasure F :=
  { UnitOfMeasure.base dimension with symbol := some (.single symbol), name := some (.english one other) }

/-- A unit of which one is `multiplier / divisor` base units. -/
def scaled (dimension : Dimension) (symbol one other : String) (multiplier divisor : F) : UnitOfMeasure F :=
  (named dimension symbol one other).withConversion (.ratio ⟨multiplier, divisor⟩)

/-- A unit of which one is a quotient of two integers of base units. -/
def multiple (dimension : Dimension) (symbol one other : String) (multiplier divisor : Nat) : UnitOfMeasure F :=
  scaled dimension symbol one other (Numeric.ofNat multiplier) (Numeric.ofNat divisor)

/-- A unit of temperature that is converted by instructions. -/
def temperature (symbol one other instructions : String) : UnitOfMeasure F :=
  (named (.single "temperature") symbol one other).withConversion (.instructions ⟨instructions⟩)

/-- A base unit with French names beside the English ones. -/
def withFrench (u : UnitOfMeasure F) (one other : String) : UnitOfMeasure F :=
  { u with name := u.name.map fun name => (name.insert "fr" .one one).insert "fr" .other other }

/-- The speed of sound in dry air in meters per second, at a temperature in kelvins. -/
def speedOfSound (temperature : Option (Scalar F)) : Except ConversionError F :=
  match temperature with
  | none => .error .missingIndependentVariable
  | some kelvins => kelvins.expectNumber.map fun t => Numeric.ofDecimal 200468 (-4) * Numeric.sqrt t

/-- Multiples of the speed of sound, which depends on the temperature of the air. -/
def mach : UnitOfMeasure F :=
  let scale (f : F → F → F) : Converter F := fun x dep =>
    x.expectNumber.bind fun x => (speedOfSound dep).map fun s => .number (f x s)
  ((named speed "Ma" "mach" "mach").withConversion (.functions ⟨scale (· * ·), scale (· / ·)⟩)).withDependent
    ⟨.single "temperature", .plain "temperature"⟩

/-- Resistances written as colored bands. -/
def resistorCode : UnitOfMeasure F :=
  let bands : Transform F :=
    ⟨fun x _ => x.expectText.bind fun text => (ColorCode.read text).map fun ohms =>
        .number (ohms * Numeric.ofNat 1000),
      fun x _ => x.expectNumber.bind fun x => (ColorCode.write (x / Numeric.ofNat 1000)).map .text⟩
  let u : UnitOfMeasure F := (UnitOfMeasure.base resistance).withConversion (.functions bands)
  { u with name := some (.english "resistor color code" "resistor color codes"), datatype := .colorCode }

/-- The units with their keys. -/
def units : List (String × UnitOfMeasure F) :=
  let length := Dimension.single "length"
  let time := Dimension.single "time"
  let mass := Dimension.single "mass"
  let angle := Dimension.single "angle"
  let information := Dimension.single "information"
  let currency := Dimension.single "currency"
  let frequency := time.pow (-1)
  [("meter", withFrench (named length "m" "meter" "meters") "mètre" "mètres"),
    ("inch", multiple length "in" "inch" "inches" 254 10000),
    ("foot", multiple length "ft" "foot" "feet" 3048 10000),
    ("yard", multiple length "yd" "yard" "yards" 9144 10000),
    ("mile", multiple length "mi" "mile" "miles" 1609344 1000),
    ("nautical_mile", multiple length "nmi" "nautical mile" "nautical miles" 1852 1),
    ("astronomical_unit", multiple length "au" "astronomical unit" "astronomical units" 149597870700 1),
    ("second", withFrench (named time "s" "second" "seconds") "seconde" "secondes"),
    ("minute", multiple time "min" "minute" "minutes" 60 1),
    ("hour", multiple time "hr" "hour" "hours" 3600 1),
    ("day", multiple time "d" "day" "days" 86400 1),
    ("week", multiple time "wk" "week" "weeks" 604800 1),
    ("year", multiple time "yr" "year" "years" 31557600 1),
    ("gram", named mass "g" "gram" "grams"),
    ("pound", multiple mass "lb" "pound" "pounds" 45359237 100000),
    ("ounce", multiple mass "oz" "ounce" "ounces" 45359237 1600000),
    ("tonne", multiple mass "t" "tonne" "tonnes" 1000000 1),
    ("radian", named angle "rad" "radian" "radians"),
    ("degree", scaled angle "°" "degree" "degrees" Numeric.pi (Numeric.ofNat 180)),
    ("turn", scaled angle "tr" "turn" "turns" (Numeric.ofNat 2 * Numeric.pi) 1),
    ("bit", named information "bit" "bit" "bits"),
    ("byte", multiple information "B" "byte" "bytes" 8 1),
    ("hertz", named frequency "Hz" "hertz" "hertz"),
    ("liter", multiple (length.pow 3) "L" "liter" "liters" 1 1000),
    ("knot", multiple speed "kn" "knot" "knots" 463 900),
    ("newton", multiple (.product [mass, speed, frequency]) "N" "newton" "newtons" 1000 1),
    ("joule", multiple (.product [mass, speed, speed]) "J" "joule" "joules" 1000 1),
    ("ohm", multiple resistance "Ω" "ohm" "ohms" 1000 1),
    ("dollar", named currency "$" "dollar" "dollars"),
    ("euro", multiple currency "€" "euro" "euros" 108 100),
    ("pound_sterling", multiple currency "£" "pound" "pounds" 127 100),
    ("kelvin", named (.single "temperature") "K" "kelvin" "kelvins"),
    ("celsius", temperature "°C" "degree Celsius" "degrees Celsius" "+273.15"),
    ("fahrenheit", temperature "°F" "degree Fahrenheit" "degrees Fahrenheit" "-32 *5 /9 +273.15"),
    ("rankine", temperature "°R" "degree Rankine" "degrees Rankine" "*5 /9"),
    ("mach", mach),
    ("resistor_code", resistorCode)]

end

/-- The entries with their kinds, keys and names, and symbols if they have one. -/
def entries : List (EntryKind × String × String × Option String) :=
  [(.unitType, "length", "Length", none), (.unitType, "mass", "Mass", none), (.unitType, "time", "Time", none),
    (.unitType, "temperature", "Temperature", none), (.unitType, "speed", "Speed", none),
    (.unitType, "angle", "Angle", none),
    (.function, "sqrt", "square root", none), (.function, "ln", "natural logarithm", none),
    (.function, "abs", "absolute value", none),
    (.element, "hydrogen", "Hydrogen", some "H"), (.element, "helium", "Helium", some "He"),
    (.element, "carbon", "Carbon", some "C"), (.element, "oxygen", "Oxygen", some "O"),
    (.include, "constants", "physical constants", none), (.solver, "ideal_gas", "ideal gas law", none),
    (.solver, "ohms_law", "Ohm's law", none)]

end Standard

/-- The standard catalog. -/
def standard {F : Type} [Numeric F] : Catalog F :=
  let c : Catalog F := empty.withJoiners Standard.joiners
  let c := Standard.dimensions.foldl (fun c (key, composable) => c.addDimension key composable) c
  let addPrefixes (base : Nat) (c : Catalog F) (affixes : List (String × String × Int)) : Catalog F :=
    affixes.foldl (fun c (symbol, name, exponent) =>
      c.addPrefix base exponent ⟨symbol, .plain (name ++ "\x7b0\x7d")⟩) c
  let c := addPrefixes 10 c Standard.decimalPrefixes
  let c := addPrefixes 2 c Standard.binaryPrefixes
  let c := Standard.degrees.foldl (fun c (exponent, symbol, name) => c.addDegree exponent ⟨symbol, .plain name⟩) c
  let c := Standard.units.foldl (fun c (key, u) => c.addUnit key u) c
  Standard.entries.foldl (fun c (kind, key, name, symbol) => c.addEntry kind key ⟨.plain name, symbol⟩) c

end QuantityCalculus.Catalog
