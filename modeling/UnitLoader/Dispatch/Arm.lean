import UnitLoader.Dispatch.Plan
import UnitLoader.Dispatch.Template

/-!
# Arms

An arm runs one operation: it checks the number of arguments, takes the instance, binds every
argument and calls the method. `Arm.ofPlan` makes it from a plan, and `Arm.code` writes it.
-/

namespace UnitLoader.Dispatch

open Syntax

/-- How an argument is bound. -/
structure Binding where
  /-- The position of the argument. -/
  position : Nat
  /-- What the manifest says of the parameter that it is for. -/
  param : Param
  /-- How it reaches the parameter. -/
  passing : Passing
  deriving Repr

/-- What runs one operation. -/
structure Arm where
  /-- The index of the operation. -/
  index : Nat
  /-- The number of arguments. -/
  arity : Nat
  /-- How the instance is taken. -/
  receiver : Receiver
  /-- The arguments in order. -/
  bindings : List Binding
  /-- The method that is called. -/
  method : Name
  /-- The call gives a value that is shown. -/
  shows : Bool
  deriving Repr

/-- The bindings of arguments, of which the first stands at `position`, to as many parameters. -/
def bindingsFrom : (position : Nat) → List Passing → List Param → List Binding
  | position, passing :: passings, param :: params =>
    ⟨position, param, passing⟩ :: bindingsFrom (position + 1) passings params
  | _, _, _ => []

/-- The arm of a plan. -/
def Arm.ofPlan (index : Nat) (p : Plan) : Arm where
  index
  arity := p.passings.length
  receiver := p.operation.receiver
  bindings := bindingsFrom 0 p.passings p.operation.params
  method := p.method
  shows := p.operation.returns.isSome

/-- The arms of plans, of which the first has this index. -/
def armsFrom : (index : Nat) → List Plan → List Arm
  | _, [] => []
  | index, p :: rest => .ofPlan index p :: armsFrom (index + 1) rest

/-- A count or an index as code. -/
def number (n : Nat) : List Char := (toString n ++ "usize").toList

/-- A string literal. -/
def string (text : String) : List Char := Text.literal text.toList

/-- The variable of a binding. -/
def Binding.variable (b : Binding) : List Char := ("arg" ++ toString b.position).toList

/-- The code that binds an argument. -/
def Binding.code (b : Binding) : List Char :=
  match b.passing with
  | .text =>
    "let ".toList ++ b.variable ++ " : & str = args [".toList ++ number b.position ++
      "] . as_str () ;".toList
  | .parsed borrow type =>
    (if borrow = .exclusive then "let mut " else "let ").toList ++ b.variable ++ " : ".toList ++
      printTrees type.trees ++ " = args [".toList ++ number b.position ++
      "] . parse :: < ".toList ++ printTrees type.trees ++
      " > () . map_err (| e | \x7b (- 1i32 , format ! (".toList ++
      "\"cannot parse argument \x60\x7b\x7d\x60 as \x60\x7b\x7d\x60: \x7b\x7d\" , ".toList ++
      string b.param.name ++ " , ".toList ++ string b.param.type ++
      " , e)) \x7d) ? ;".toList

/-- The argument as the call takes it. -/
def Binding.argument (b : Binding) : List Char :=
  match b.passing with
  | .text => b.variable
  | .parsed .owned _ => b.variable
  | .parsed .shared _ => "& ".toList ++ b.variable
  | .parsed .exclusive _ => "& mut ".toList ++ b.variable

/-- The code that takes the instance. -/
def takeInstance : Receiver → List (List Char)
  | .none => []
  | .ref =>
    [Template.lines
      ["let this : & Target = unsafe \x7b instance . cast :: < Target > () . as_ref () \x7d .",
        "ok_or_else (|| (- 3i32 , String :: from (\"operation requires an instance\"))) ? ;"]]
  | .refMut =>
    [Template.lines
      ["let this : & mut Target = unsafe \x7b instance . cast :: < Target > () . as_mut () \x7d .",
        "ok_or_else (|| (- 3i32 , String :: from (\"operation requires an instance\"))) ? ;"]]

/-- What the call is given. -/
def Arm.arguments (a : Arm) : List (List Char) :=
  (if a.receiver = .none then [] else ["this".toList]) ++ a.bindings.map Binding.argument

/-- The call of the method. -/
def Arm.call (a : Arm) : List Char :=
  "Target :: ".toList ++ a.method.print ++ " (".toList ++
    Text.join " , ".toList a.arguments ++ ")".toList

/-- The code that calls the method and gives the text of the result. -/
def Arm.result (a : Arm) : List Char :=
  if a.shows then
    "let value = ".toList ++ a.call ++
      " ; Ok ((&& & ShimRender (& value)) . render ())".toList
  else a.call ++ " ; Ok (String :: new ())".toList

/-- The code that refuses any other number of arguments. -/
def Arm.arityCheck (a : Arm) : List Char :=
  let message := "\"expected \x7b\x7d argument(s), got \x7b\x7d\"".toList
  "if args . len () != ".toList ++ number a.arity ++
    " \x7b return Err ((- 1i32 , format ! (".toList ++ message ++ " , ".toList ++
    number a.arity ++ " , args . len ()))) ; \x7d".toList

/-- The code of an arm. -/
def Arm.code (a : Arm) : List Char :=
  Text.join [' '] <|
    [number a.index ++ " => \x7b".toList, a.arityCheck] ++ takeInstance a.receiver ++
      a.bindings.map Binding.code ++ [a.result, Template.closing]

end UnitLoader.Dispatch
