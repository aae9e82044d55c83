import UnitLoader.Bytes
import UnitLoader.Text.Utf8

/-!
# Argument lists

An argument list travels as one byte string: each argument is its length, as eight bytes with the
lowest first, and then its text. `readOne` reads one argument back, and `decode` all of them.
-/

namespace UnitLoader.Arguments

open UnitLoader.Text
open UnitLoader.Bytes

/-- One argument: its length and its text. -/
def encodeOne (argument : String) : List UInt8 :=
  let bytes := Utf8.encode argument.toList
  lowFirst 8 bytes.length ++ bytes

/-- The bytes of an argument list. -/
def encode (arguments : List String) : List UInt8 := arguments.flatMap encodeOne

/-- Reads one argument off bytes: the argument and what stands behind it. -/
def readOne (bytes : List UInt8) : Option (String × List UInt8) :=
  if bytes.length < 8 then none
  else
    let length := ofLowFirst (bytes.take 8)
    let rest := bytes.drop 8
    if rest.length < length then none
    else match Utf8.decode (rest.take length) with
      | .error _ => none
      | .ok text => some (String.ofList text, rest.drop length)

/-- An argument takes at least the bytes of its length. -/
theorem length_lt_of_readOne {bytes rest : List UInt8} {argument : String}
    (h : readOne bytes = some (argument, rest)) : rest.length < bytes.length := by
  unfold readOne at h
  dsimp only at h
  split at h
  · exact absurd h (by simp)
  split at h
  · exact absurd h (by simp)
  split at h
  · exact absurd h (by simp)
  · obtain ⟨-, rfl⟩ := Prod.mk.inj (Option.some.inj h)
    rw [List.length_drop, List.length_drop]
    omega

/-- The argument list that bytes write: arguments are read until no bytes are left. -/
def decode (bytes : List UInt8) : Option (List String) :=
  if bytes.isEmpty then some []
  else match h : readOne bytes with
    | none => none
    | some (argument, rest) =>
      have := length_lt_of_readOne h
      (decode rest).map (argument :: ·)
termination_by bytes.length

end UnitLoader.Arguments
