/-!
# Durations

A span of time with the resolution of a nanosecond. Its text has the largest unit of which it
holds at least one, and as many decimals as it needs.
-/

namespace UnitLoader.Text

/-- A span of time. -/
structure Duration where
  /-- The length of the span. -/
  nanoseconds : Nat
  deriving DecidableEq, Repr

namespace Duration

/-- A number of whole seconds. -/
def ofSeconds (n : Nat) : Duration := ⟨n * 1000000000⟩

/-- A number of whole milliseconds. -/
def ofMilliseconds (n : Nat) : Duration := ⟨n * 1000000⟩

/-- The whole seconds of a span. -/
def seconds (d : Duration) : Nat := d.nanoseconds / 1000000000

/-- The nanoseconds beyond the whole seconds. -/
def subsecond (d : Duration) : Nat := d.nanoseconds % 1000000000

/-- The decimals of `rest / 10 ^ digits`, without the zeros at their end. -/
def decimals (digits rest : Nat) : List Char :=
  let plain := (Nat.toDigits 10 rest)
  let padded := List.replicate (digits - plain.length) '0' ++ plain
  (padded.reverse.dropWhile (· == '0')).reverse

/-- A value of `total / 10 ^ digits` with the name of its unit. -/
def withUnit (digits total : Nat) (unit : String) : String :=
  let whole := toString (total / Nat.pow 10 digits)
  match decimals digits (total % Nat.pow 10 digits) with
  | [] => whole ++ unit
  | ds => whole ++ "." ++ String.ofList ds ++ unit

/-- The text of a span, such as `1.5s`, `300ms` or `0ns`. -/
def text (d : Duration) : String :=
  if 1000000000 ≤ d.nanoseconds then withUnit 9 d.nanoseconds "s"
  else if 1000000 ≤ d.nanoseconds then withUnit 6 d.nanoseconds "ms"
  else if 1000 ≤ d.nanoseconds then withUnit 3 d.nanoseconds "µs"
  else withUnit 0 d.nanoseconds "ns"

end Duration

end UnitLoader.Text
