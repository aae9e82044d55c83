import UnitLoader.Dispatch.Arm
import UnitLoader.Dispatch.Declared
import UnitLoader.Dispatch.Target
import UnitLoader.SourceUnit
import UnitLoader.Syntax.File
import UnitLoader.Text.Lines
import UnitLoader.Text.Region

/-!
# Dispatch modules

A unit is compiled together with a dispatch module, which exports the functions by which the
compiled unit is used. The module stands inside of the module that declares the unit's type, so
that it can name a private type: in front of its closing brace, on the same line. For a type of
the crate's root it is appended behind the source.

`Dispatch.generate` makes the module for a unit, and `Dispatch.attach` puts it into the source.
-/

namespace UnitLoader

open Text (Position Region)

/-- The dispatch module of a unit. -/
structure Dispatch where
  /-- What the compiled unit will say of itself. -/
  manifest : Manifest
  /-- The type was found and has no parameters. -/
  isInstantiable : Bool
  /-- The code of the module, without a line ending. -/
  code : List Char
  /-- The closing brace in front of which the module goes. -/
  anchor : Option Position
  deriving Repr

namespace Dispatch

/-- The type of a unit that can be used: it was found and has no parameters. -/
def usable? (u : SourceUnit) : Option Declared :=
  match Syntax.parseFile? u.source.toList with
  | none => none
  | some items =>
    match declared? items (SourceUnit.nameParts u.name) with
    | some d => if d.isGeneric then none else some d
    | none => none

/-- What a unit says of itself when these methods are planned. -/
def manifestOf (u : SourceUnit) (plans : List Plan) : Manifest where
  abi := Manifest.currentAbi
  typeName := u.name
  operations := plans.map Plan.operation

/-- The alias by which the module names the type. -/
def aliasCode (target : Syntax.Name) : List Char :=
  "type Target = super :: ".toList ++ target.print ++ " ;".toList

/-- The code that holds the manifest. -/
def manifestCode (m : Manifest) : List Char :=
  "static MANIFEST : & str = ".toList ++ Text.literal m.text ++ " ;".toList

open Template in
/-- The stretches of a module's code for a type that is used by this name, or for none. -/
def stretches (target : Option Syntax.Name) (arms : List Arm) (m : Manifest) : List (List Char) :=
  let whenUsed (code : List Char) : List (List Char) := if target.isSome then [code] else []
  [heading] ++ (target.map aliasCode).toList ++ [manifestCode m, rendering] ++ whenUsed making ++
    [decoding, emitting, payloadText, dispatchOpening] ++ arms.map Arm.code ++
    [dispatchClosing, manifestExport,
      newOpening, if target.isSome then newDefault else newNothing, closing,
      dropOpening, if target.isSome then dropBoxed else dropNothing, closing,
      freeExport, invokeExport, closing]

/-- The dispatch module of a unit. It has no code if the unit's name cannot be written, and no
operations if the type cannot be used. -/
def generate (u : SourceUnit) : Except NameFault Dispatch :=
  match target u.name.toList with
  | .error fault => .error fault
  | .ok name =>
    -- A type that cannot be used is named nowhere in the code.
    let used := usable? u
    let plans := (used.map Declared.plans).getD []
    let manifest := manifestOf u plans
    .ok {
      manifest
      isInstantiable := used.isSome
      code := Text.join [' '] (stretches (used.map fun _ => name) (armsFrom 0 plans) manifest)
      anchor := used.bind Declared.anchor }

/-- A source with the code of a dispatch module in it. -/
structure Attached where
  /-- The text in front of the code. -/
  before : List Char
  /-- The code. -/
  code : List Char
  /-- The text behind the code. -/
  behind : List Char
  /-- The region that the code takes inside of the source, if it is not appended. -/
  region : Option Region
  deriving DecidableEq, Repr

/-- The whole text. -/
def Attached.text (a : Attached) : List Char := a.before ++ a.code ++ a.behind

/-- What stands in front of and behind the anchor, if a closing brace stands there. -/
def atAnchor? (anchor : Option Position) (source : List Char) :
    Option (Position × List Char × List Char) :=
  match anchor with
  | none => none
  | some place =>
    match place.split? source with
    | some (before, '\x7d' :: behind) => some (place, before, '\x7d' :: behind)
    | _ => none

/-- The source with the code in it. The lines of the source keep their numbers. -/
def attach (d : Dispatch) (source : List Char) : Attached :=
  match atAnchor? d.anchor source with
  | some (place, before, behind) =>
    -- The region takes in the space between the code and the brace.
    { before, code := d.code, behind := ' ' :: behind
      region := some ⟨place.line, place.column + 1, d.code.length + 1⟩ }
  | none => { before := Text.completeLine source, code := d.code, behind := ['\n'], region := none }

end Dispatch

end UnitLoader
