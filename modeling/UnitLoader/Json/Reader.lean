import UnitLoader.Json.Lexeme

/-!
# Reading JSON

A `Reader` takes lexemes one by one and builds a value of a known form, so the first fault in the
order of the text is the one that is reported. A record may stand as an object, whose unknown
members are passed over and whose known ones may occur once, or as an array of its fields in
order.
-/

namespace UnitLoader.Json

/-- Reads a value off the front of a list of lexemes. -/
abbrev Reader (α : Type) := StateT (List Lexeme) (Except Fault) α

namespace Reader

/-- Stops with a fault. -/
def fail {α : Type} (fault : Fault) : Reader α := fun _ => .error fault

/-- The lexeme in front, which stays. -/
def peek : Reader (Option Lexeme) := fun rest => .ok (rest.head?, rest)

/-- Takes the lexeme in front away. -/
def advance : Reader Unit := fun rest => .ok ((), rest.drop 1)

/-- The fault of a lexeme that stands where a value of another form is expected: its own fault if
it has one, else the form is at fault. A lexeme that starts no value is malformed. -/
def faultOf : Lexeme → Fault
  | .openObject | .openArray | .null | .boolean _ => .mismatch
  | .text (.error fault) _ => fault
  | .number (.error fault) _ => fault
  | .text (.ok _) _ | .number (.ok _) _ => .mismatch
  | .invalid fault => fault
  | .closeObject | .closeArray | .colon | .comma => .malformed

/-- Reads a string. -/
def text : Reader (List Char) := do
  match ← peek with
  | none => fail .truncated
  | some (.text (.ok value) _) => do advance; pure value
  | some other => fail (faultOf other)

/-- Reads an unsigned integer up to a bound. -/
def natural (bound : Nat) : Reader Nat := do
  match ← peek with
  | none => fail .truncated
  | some (.number (.ok (.natural n)) _) =>
    if n ≤ bound then do advance; pure n else fail .mismatch
  | some other => fail (faultOf other)

/-- Reads `true` or `false`. -/
def boolean : Reader Bool := do
  match ← peek with
  | none => fail .truncated
  | some (.boolean value) => do advance; pure value
  | some other => fail (faultOf other)

/-- Reads `null`. -/
def null : Reader Unit := do
  match ← peek with
  | none => fail .truncated
  | some .null => advance
  | some other => fail (faultOf other)

/-- Reads a value or `null`. -/
def optional {α : Type} (value : Reader α) : Reader (Option α) := do
  match ← peek with
  | none => fail .truncated
  | some .null => do advance; pure none
  | some (.invalid fault) => fail fault
  | some _ => some <$> value

/-- Takes the colon between a name and its value. -/
def colon : Reader Unit := do
  match ← peek with
  | none => fail .truncated
  | some .colon => advance
  | some _ => fail .malformed

/-- What passing over a value expects next. -/
inductive Skipping where
  /-- A value. -/
  | value
  /-- The first part of a container, or its end. -/
  | opened
  /-- A comma or the end of a container. -/
  | separator
  /-- The name of a member. -/
  | name
  /-- The colon behind a name. -/
  | colon

/-- Passes over lexemes until the value that was begun is complete. `open` tells of each container
that is not closed yet, innermost first, whether it is an object. -/
def skipFrom : Skipping → List Bool → List Lexeme → Except Fault (List Lexeme)
  | _, _, [] => .error .truncated
  | .colon, containers, .colon :: rest => skipFrom .value containers rest
  | .colon, _, _ => .error .malformed
  | .name, containers, .text _ skip :: rest =>
    match skip with
    | .ok _ => skipFrom .colon containers rest
    | .error fault => .error fault
  | .name, _, _ => .error .malformed
  | .opened, true :: containers, .text _ skip :: rest =>
    match skip with
    | .ok _ => skipFrom .colon (true :: containers) rest
    | .error fault => .error fault
  | expected, containers, found :: rest =>
    let finished (containers : List Bool) :=
      match containers with
      | [] => .ok rest
      | _ => skipFrom .separator containers rest
    match expected, containers, found with
    | .separator, true :: _, .comma => skipFrom .name containers rest
    | .separator, false :: _, .comma => skipFrom .value containers rest
    | .separator, true :: outer, .closeObject => finished outer
    | .separator, false :: outer, .closeArray => finished outer
    | .separator, _, _ => .error .malformed
    | .opened, true :: outer, .closeObject => finished outer
    | .opened, false :: outer, .closeArray => finished outer
    | .opened, true :: _, _ => .error .malformed
    | _, _, .openObject => skipFrom .opened (true :: containers) rest
    | _, _, .openArray => skipFrom .opened (false :: containers) rest
    | _, _, .null => finished containers
    | _, _, .boolean _ => finished containers
    | _, _, .text _ skip =>
      match skip with
      | .ok _ => finished containers
      | .error fault => .error fault
    | _, _, .number _ skip =>
      match skip with
      | .ok _ => finished containers
      | .error fault => .error fault
    | _, _, .invalid fault => .error fault
    | _, _, _ => .error .malformed

/-- Passes over one value of any form. -/
def skip : Reader Unit := fun rest => (skipFrom .value [] rest).map ((), ·)

/-- Tells whether an array has a further element, `first` meaning that none was read yet. -/
def hasElement (first : Bool) : Reader Bool := do
  match ← peek with
  | none => fail .truncated
  | some .closeArray => pure false
  | some found =>
    if first then pure true
    else match found with
      | .comma => do
        advance
        match ← peek with
        | none => fail .truncated
        | some .closeArray => fail .malformed
        | some _ => pure true
      | _ => fail .malformed

/-- Reads the elements of an array, at most `fuel` of them. -/
def elements {α : Type} (element : Reader α) : Nat → Bool → Reader (List α)
  | 0, _ => fail .malformed
  | fuel + 1, first => do
    if ← hasElement first then
      let value ← element
      (value :: ·) <$> elements element fuel false
    else pure []

/-- Takes the end of an array. -/
def closeArray : Reader Unit := do
  match ← peek with
  | none => fail .truncated
  | some .closeArray => advance
  | some _ => fail .malformed

/-- A bound for the number of parts that can still follow. -/
def remaining : Reader Nat := fun rest => .ok (rest.length, rest)

/-- Reads an array. -/
def array {α : Type} (element : Reader α) : Reader (List α) := do
  match ← peek with
  | none => fail .truncated
  | some .openArray => do
    advance
    let values ← elements element ((← remaining) + 1) true
    closeArray
    pure values
  | some other => fail (faultOf other)

/-- Reads a name, which has to be there. -/
def nextName : Reader (Option (List Char)) := do
  match ← peek with
  | none => fail .truncated
  | some (.text (.ok value) _) => do advance; pure (some value)
  | some (.text (.error fault) _) => fail fault
  | some _ => fail .malformed

/-- Reads the name of the next member of an object; `none` at the end of the object. -/
def memberName (first : Bool) : Reader (Option (List Char)) := do
  match ← peek with
  | none => fail .truncated
  | some .closeObject => pure none
  | some .comma => if first then fail .malformed else do advance; nextName
  | some _ => if first then nextName else fail .malformed

/-- How a record with fields in `σ` is read: `σ` starts empty and takes one field after the
other. -/
structure Record (σ : Type) where
  /-- The fields before any is read. -/
  start : σ
  /-- The fields in their order: each name, whether the field is set, and how it is read. -/
  fields : List (String × (σ → Bool) × (σ → Reader σ))

/-- Reads the members of an object, at most `fuel` of them. -/
def members {σ : Type} (record : Record σ) : Nat → Bool → σ → Reader σ
  | 0, _, _ => fail .malformed
  | fuel + 1, first, held => do
    match ← memberName first with
    | none => do advance; pure held
    | some name =>
      match record.fields.find? fun field => field.1.toList == name with
      | none => do
        colon
        skip
        members record fuel false held
      | some (_, isSet, read) => do
        if isSet held then fail .mismatch
        colon
        let held ← read held
        members record fuel false held

/-- Reads the fields of a record that stands as an array. -/
def positional {σ : Type} : List (String × (σ → Bool) × (σ → Reader σ)) → Bool → σ → Reader σ
  | [], _, held => pure held
  | (_, _, read) :: others, first, held => do
    if ← hasElement first then
      let held ← read held
      positional others false held
    else fail .mismatch

/-- Reads a record in either of its forms. -/
def record {σ : Type} (form : Record σ) : Reader σ := do
  match ← peek with
  | none => fail .truncated
  | some .openArray => do
    advance
    let held ← positional form.fields true form.start
    closeArray
    pure held
  | some .openObject => do
    advance
    members form ((← remaining) + 1) true form.start
  | some other => fail (faultOf other)

/-- A field that has to be there. -/
def required {α : Type} : Option α → Reader α
  | some value => pure value
  | none => fail .mismatch

/-- Reads one of a list of names: as a string, or as an object whose only member has that name
and the value `null`. -/
def choice {α : Type} (names : List (String × α)) : Reader α := do
  let named : Reader α := do
    let name ← text
    match names.find? fun entry => entry.1.toList == name with
    | some (_, value) => pure value
    | none => fail .mismatch
  match ← peek with
  | none => fail .truncated
  | some (.text _ _) => named
  | some .openObject => do
    advance
    let value ← named
    colon
    null
    match ← peek with
    | none => fail .truncated
    | some .closeObject => do advance; pure value
    | some _ => fail .malformed
  | some _ => fail .malformed

/-- Runs a reader on bytes that must hold one value and nothing else. -/
def run {α : Type} (reader : Reader α) (bytes : List UInt8) : Except Fault α :=
  match reader (lexemes bytes) with
  | .error fault => .error fault
  | .ok (value, []) => .ok value
  | .ok (_, _ :: _) => .error .malformed

end Reader

end UnitLoader.Json
