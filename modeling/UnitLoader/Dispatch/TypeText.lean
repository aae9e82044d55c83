import UnitLoader.Syntax.Printer
import UnitLoader.Syntax.Tree
import UnitLoader.Text.Replace

/-!
# The text of a type

A manifest shows types with the spacing in which they are commonly written: the spaces around path
separators and brackets and behind a reference mark are left out of the printed type. This happens
by one replacement after the other, wherever the pattern stands.
-/

namespace UnitLoader.Dispatch

open Syntax (TypeTree printTrees)

/-- What is replaced in a printed type, in this order. -/
def tightenings : List (String × String) :=
  [(" :: ", "::"), (":: ", "::"), ("& ", "&"), (" <", "<"), ("< ", "<"), (" >", ">"), (" ,", ","),
    ("( ", "("), (" )", ")"), ("[ ", "["), (" ]", "]"), (" ;", ";")]

/-- A printed type with the spacing of a manifest. -/
def tighten (text : List Char) : List Char :=
  tightenings.foldl (fun text (pattern, replacement) =>
    Text.replace pattern.toList replacement.toList text) text

/-- The text of a type. -/
def typeText (type : TypeTree) : String := String.ofList (tighten (printTrees type.trees))

end UnitLoader.Dispatch
