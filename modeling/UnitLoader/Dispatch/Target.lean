import UnitLoader.Syntax.Lexer
import UnitLoader.Syntax.Parser

/-!
# The name of the target

A dispatch module names the type of its unit by the last part of the unit's name. A part that is
an identifier is taken as it is; any other becomes a raw identifier, if it can be one.
-/

namespace UnitLoader.Dispatch

open Syntax
open Text (Charset.isAsciiDigit)

/-- Why a text is no raw identifier. -/
inductive NameFault where
  /-- The text is empty. -/
  | empty
  /-- The text consists of digits. -/
  | number
  /-- The text holds a character that no identifier has there. -/
  | invalid (text : List Char)
  /-- The word has no raw form. -/
  | reserved (text : List Char)
  deriving DecidableEq, Repr

/-- The text of a fault. -/
def NameFault.message : NameFault → String
  | .empty => "Ident is not allowed to be empty; use Option<Ident>"
  | .number => "Ident cannot be a number; use Literal instead"
  | .invalid text => String.ofList (Text.quoted text) ++ " is not a valid Ident"
  | .reserved text => "\x60r#" ++ String.ofList text ++ "\x60 cannot be a raw identifier"

/-- What stands in front of the first path separator. -/
def beforeSeparator : List Char → List Char
  | ':' :: ':' :: _ => []
  | c :: rest => c :: beforeSeparator rest
  | [] => []

/-- What stands behind the last path separator of a name. -/
def lastPart (name : List Char) : List Char := (beforeSeparator name.reverse).reverse

/-- The identifier that a text consists of, if it is no keyword. -/
def identifier? (text : List Char) : Option Name :=
  match tokenTrees? text with
  | some [.token (.word name)] => if name.raw || !isKeyword name.text then some name else none
  | _ => none

/-- The text as a raw identifier. -/
def rawIdentifier (text : List Char) : Except NameFault Name :=
  if text.isEmpty then .error .empty
  else if text.all Charset.isAsciiDigit then .error .number
  else if h : isName text then
    if isReservedRaw (String.ofList text) then .error (.reserved text)
    else .ok ⟨String.ofList text, true, by rw [String.toList_ofList]; exact h⟩
  else .error (.invalid text)

/-- The identifier by which a dispatch module names the type of a unit. -/
def target (name : List Char) : Except NameFault Name :=
  match identifier? (lastPart name) with
  | some found => .ok found
  | none => rawIdentifier (lastPart name)

end UnitLoader.Dispatch
