import QuantityCalculus.Algebra
import QuantityCalculus.Algebra.Arithmetic
import QuantityCalculus.Algebra.Comparison
import QuantityCalculus.Algebra.Conversion
import QuantityCalculus.Algebra.Elementwise
import QuantityCalculus.Algebra.Integer
import QuantityCalculus.Arity
import QuantityCalculus.Bounds
import QuantityCalculus.Builtin.Arguments
import QuantityCalculus.Builtin.Calls
import QuantityCalculus.Builtin.Elementary
import QuantityCalculus.Builtin.General
import QuantityCalculus.Builtin.Integers
import QuantityCalculus.Builtin.Matrices
import QuantityCalculus.Builtin.Statistics
import QuantityCalculus.Catalog
import QuantityCalculus.Catalog.Search
import QuantityCalculus.Catalog.Standard
import QuantityCalculus.ColorCode
import QuantityCalculus.CommandLine
import QuantityCalculus.Composition
import QuantityCalculus.Composition.Fraction
import QuantityCalculus.Composition.Hierarchy
import QuantityCalculus.Conversion
import QuantityCalculus.Cursor
import QuantityCalculus.Decimal.Digits
import QuantityCalculus.Decimal.Dyadic
import QuantityCalculus.Decimal.Numeral
import QuantityCalculus.Decimal.Scan
import QuantityCalculus.Decimal.Shortest
import QuantityCalculus.Dimension
import QuantityCalculus.Disambiguation
import QuantityCalculus.Evaluation
import QuantityCalculus.Evaluation.Error
import QuantityCalculus.Expression
import QuantityCalculus.Expression.Parse
import QuantityCalculus.Fraction
import QuantityCalculus.Function
import QuantityCalculus.Instructions
import QuantityCalculus.Json
import QuantityCalculus.LanguageString
import QuantityCalculus.LanguageString.Template
import QuantityCalculus.Main
import QuantityCalculus.Matrix
import QuantityCalculus.Matrix.Algebra
import QuantityCalculus.Numeric
import QuantityCalculus.Numeric.Binary64
import QuantityCalculus.Numeric.Gamma
import QuantityCalculus.Operator
import QuantityCalculus.Proofs.Binary64.Literals
import QuantityCalculus.Proofs.Binary64.Sign
import QuantityCalculus.Proofs.Conversion.Binding
import QuantityCalculus.Proofs.Conversion.Function
import QuantityCalculus.Proofs.Conversion.Path
import QuantityCalculus.Proofs.Conversion.Quantity
import QuantityCalculus.Proofs.Expression.Combinators
import QuantityCalculus.Proofs.Expression.Levels
import QuantityCalculus.Proofs.Expression.Printing
import QuantityCalculus.Proofs.Expression.Recognition
import QuantityCalculus.Proofs.Expression.Sequences
import QuantityCalculus.Proofs.LanguageString.Interleaving
import QuantityCalculus.Proofs.LanguageString.Template
import QuantityCalculus.Proofs.Measure.Arithmetic
import QuantityCalculus.Proofs.Measure.Composition
import QuantityCalculus.Proofs.Measure.Dimension
import QuantityCalculus.Proofs.Measure.Evaluation
import QuantityCalculus.Proofs.Measure.Scale
import QuantityCalculus.Proofs.RepeatedSquaring
import QuantityCalculus.Proofs.Token.Leaves
import QuantityCalculus.Proofs.Token.Strings
import QuantityCalculus.Proofs.UnitExpression.Chains
import QuantityCalculus.Proofs.UnitExpression.Grammar
import QuantityCalculus.Proofs.UnitExpression.Rationalizable
import QuantityCalculus.Proofs.UnitExpression.Recognition
import QuantityCalculus.Proofs.UnitExpression.Tokens
import QuantityCalculus.RepeatedSquaring
import QuantityCalculus.Scalar
import QuantityCalculus.Session
import QuantityCalculus.Settings
import QuantityCalculus.SortedList
import QuantityCalculus.Span
import QuantityCalculus.Text.Blank
import QuantityCalculus.Text.CodePoint
import QuantityCalculus.Text.CurrencySign
import QuantityCalculus.Text.DecimalDigit
import QuantityCalculus.Text.Letter
import QuantityCalculus.Text.LongestMatch
import QuantityCalculus.Text.LowerCase
import QuantityCalculus.Text.Numeral
import QuantityCalculus.Text.Quoted
import QuantityCalculus.Text.Trim
import QuantityCalculus.Text.Unprintable
import QuantityCalculus.Token
import QuantityCalculus.Token.Scan
import QuantityCalculus.UnitExpression
import QuantityCalculus.UnitOfMeasure
import QuantityCalculus.Value
import QuantityCalculus.Value.Text
import QuantityCalculus.Proofs.Function.Composition
import QuantityCalculus.Proofs.Function.Names
import QuantityCalculus.Proofs.Evaluation.Assignments
import QuantityCalculus.Proofs.Evaluation.Disambiguation
import QuantityCalculus.Proofs.Evaluation.Variables
import QuantityCalculus.Proofs.Session.Failure
import QuantityCalculus.Proofs.Composition.Regrouping
import QuantityCalculus.Catalog.Indexed
import QuantityCalculus.Proofs.Measure.VectorSpace
import QuantityCalculus.Proofs.Catalog.Search
import QuantityCalculus.Proofs.Expression.ErrorPlace
import QuantityCalculus.Proofs.Token.Lossless
import QuantityCalculus.Proofs.Expression.Associativity
import QuantityCalculus.Proofs.Composition.ComponentSigns
import QuantityCalculus.Proofs.Fraction.Reading
import QuantityCalculus.Proofs.Matrix.Power
import QuantityCalculus.Proofs.Fraction.Denominators
import QuantityCalculus.Proofs.Composition.Prefix
import QuantityCalculus.Proofs.Conversion.Instructions
import QuantityCalculus.Proofs.Composition.PrefixedPayloads
import QuantityCalculus.Proofs.UnitExpression.Keys
import QuantityCalculus.Proofs.Measure.Statistics
import QuantityCalculus.Proofs.Binary64.Infinity
import QuantityCalculus.Proofs.Conversion.Arrays
import QuantityCalculus.Proofs.Comparison.Units
import QuantityCalculus.Proofs.Algebra.Bits
import QuantityCalculus.Proofs.Algebra.Roots
import QuantityCalculus.Proofs.Token.Gaps
import QuantityCalculus.Proofs.Algebra.Shifts
import QuantityCalculus.Proofs.Builtin.Divisors
import QuantityCalculus.Proofs.Builtin.Combinations
import QuantityCalculus.Text.Alphabetic
import QuantityCalculus.Proofs.Text.LongestMatch
import QuantityCalculus.Proofs.Token.MaximalMunch
import QuantityCalculus.Proofs.RepeatedMultiplication
import QuantityCalculus.Proofs.Matrix.Reshaping
import QuantityCalculus.Proofs.Composition.Symbols
import QuantityCalculus.Proofs.Cursor.Place
