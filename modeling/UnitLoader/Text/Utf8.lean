/-!
# UTF-8

`encode` writes characters as bytes. `sequence` reads one character back or says how the bytes
fail: broken by a byte that cannot stand there, or cut off by the end of the text. `decode` is
strict and reports the place of the first failure; `decodeLossy` puts the replacement character
for every failure.
-/

namespace UnitLoader.Text.Utf8

/-- The byte with the given value below 256. -/
def byte (n : Nat) : UInt8 := UInt8.ofNat n

/-- The bytes of one character. -/
def encodeChar (c : Char) : List UInt8 :=
  let n := c.toNat
  if n < 0x80 then [byte n]
  else if n < 0x800 then [byte (0xC0 + n / 64), byte (0x80 + n % 64)]
  else if n < 0x10000 then
    [byte (0xE0 + n / 4096), byte (0x80 + n / 64 % 64), byte (0x80 + n % 64)]
  else
    [byte (0xF0 + n / 262144), byte (0x80 + n / 4096 % 64), byte (0x80 + n / 64 % 64),
      byte (0x80 + n % 64)]

/-- The bytes of a text. -/
def encode (text : List Char) : List UInt8 := text.flatMap encodeChar

/-- What the bytes at a place hold. -/
inductive Sequence where
  /-- A character in `length` bytes. -/
  | char (c : Char) (length : Nat)
  /-- `length` bytes that start a character, and then a byte that cannot continue it. -/
  | broken (length : Nat)
  /-- The start of a character that the end of the bytes cuts off. -/
  | cut
  deriving DecidableEq, Repr

/-- A byte that may continue a character. -/
def isContinuation (b : UInt8) : Bool := decide (0x80 ≤ b.toNat) && decide (b.toNat < 0xC0)

/-- The values the second byte may have after a first byte; `none` if the first byte starts no
sequence of more than one byte. The bounds leave out surrogates, what lies beyond the last code
point, and values that a shorter sequence writes. -/
def secondRange? (first : Nat) : Option (Nat × Nat) :=
  if first < 0xC2 then none
  else if first < 0xE0 then some (0x80, 0xBF)
  else if first = 0xE0 then some (0xA0, 0xBF)
  else if first = 0xED then some (0x80, 0x9F)
  else if first < 0xF0 then some (0x80, 0xBF)
  else if first = 0xF0 then some (0x90, 0xBF)
  else if first < 0xF4 then some (0x80, 0xBF)
  else if first = 0xF4 then some (0x80, 0x8F)
  else none

/-- Reads the sequence at the start of nonempty bytes. -/
def sequence : List UInt8 → Sequence
  | [] => .cut
  | b0 :: rest =>
    let n0 := b0.toNat
    if n0 < 0x80 then .char (Char.ofNat n0) 1
    else match secondRange? n0, rest with
      | none, _ => .broken 1
      | some _, [] => .cut
      | some (low, high), b1 :: rest =>
        if b1.toNat < low ∨ high < b1.toNat then .broken 1
        else if n0 < 0xE0 then .char (Char.ofNat ((n0 - 0xC0) * 64 + (b1.toNat - 0x80))) 2
        else match rest with
          | [] => .cut
          | b2 :: rest =>
            if !isContinuation b2 then .broken 2
            else if n0 < 0xF0 then
              .char (Char.ofNat
                ((n0 - 0xE0) * 4096 + (b1.toNat - 0x80) * 64 + (b2.toNat - 0x80))) 3
            else match rest with
              | [] => .cut
              | b3 :: _ =>
                if !isContinuation b3 then .broken 3
                else
                  .char (Char.ofNat
                    ((n0 - 0xF0) * 262144 + (b1.toNat - 0x80) * 4096 + (b2.toNat - 0x80) * 64 +
                      (b3.toNat - 0x80))) 4

/-- Where bytes stop being UTF-8. -/
structure Failure where
  /-- The number of bytes that are well formed. -/
  validUpTo : Nat
  /-- The number of bytes of the broken sequence behind them, `none` if the end cuts it off. -/
  length : Option Nat
  deriving DecidableEq, Repr

/-- Decodes bytes of which the first `skip` belong to a character that is already read; `done`
bytes stand in front. -/
def decodeFrom : Nat → Nat → List UInt8 → Except Failure (List Char)
  | _, _, [] => .ok []
  | done, skip + 1, _ :: rest => decodeFrom (done + 1) skip rest
  | done, 0, b :: rest =>
    match sequence (b :: rest) with
    | .char c length => (decodeFrom (done + 1) (length - 1) rest).map (c :: ·)
    | .broken length => .error ⟨done, some length⟩
    | .cut => .error ⟨done, none⟩

/-- The text that bytes encode. -/
def decode (bytes : List UInt8) : Except Failure (List Char) := decodeFrom 0 0 bytes

/-- The character that stands for bytes that encode none. -/
def replacement : Char := '\uFFFD'

/-- Decodes bytes of which the first `skip` are already read. -/
def decodeLossyFrom : Nat → List UInt8 → List Char
  | _, [] => []
  | skip + 1, _ :: rest => decodeLossyFrom skip rest
  | 0, b :: rest =>
    match sequence (b :: rest) with
    | .char c length => c :: decodeLossyFrom (length - 1) rest
    | .broken length => replacement :: decodeLossyFrom (length - 1) rest
    | .cut => [replacement]

/-- The text that bytes encode, with the replacement character for each broken sequence. -/
def decodeLossy (bytes : List UInt8) : List Char := decodeLossyFrom 0 bytes

end UnitLoader.Text.Utf8
