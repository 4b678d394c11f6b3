/-!
# The longest of several texts at the start of another

A choice tries its options one after another and takes the first one that is there. Longer options are tried before shorter ones.
-/

namespace QuantityCalculus.Text

/-- The options with one more, before the first one that is not longer. -/
def insertByLength (option : List Char) : List (List Char) → List (List Char)
  | [] => [option]
  | other :: options =>
    if other.length ≤ option.length then option :: other :: options else other :: insertByLength option options

/-- The options in the order in which they are tried: the longer ones first, and equally long ones as they come. -/
def longestFirst (options : List (List Char)) : List (List Char) :=
  options.foldr insertByLength []

/-- The first of the options that a text starts with. -/
def firstMatch? (options : List (List Char)) (text : List Char) : Option (List Char) :=
  options.find? (·.isPrefixOf text)

/-- The longest of the options that a text starts with. -/
def longestMatch? (options : List (List Char)) (text : List Char) : Option (List Char) :=
  firstMatch? (longestFirst options) text

/-- What a choice between options reads at the start of a text: the longest of them, and nothing at all where there is no
option. -/
def readChoice? (options : List String) (text : String) : Option String :=
  if options.isEmpty then some ""
  else (longestMatch? (options.map String.toList) text.toList).map String.ofList

end QuantityCalculus.Text
