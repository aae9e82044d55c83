/-!
# New names

A process that needs a directory of its own draws letters and digits at random, until it comes to a
name that is not taken yet. What a process draws is nothing that it chooses: `Draws` says what it
comes to be, one draw after the other.
-/

namespace UnitLoader

/-- What a process draws. -/
structure Draws where
  /-- The text of a draw, by the number of draws before it. -/
  letters : Nat → String
  /-- It is six characters long. -/
  six : ∀ n, (letters n).toList.length = 6
  /-- They are letters and digits. -/
  plain : ∀ n, ∀ c ∈ (letters n).toList, c.isAlphanum = true

namespace Draws

/-- How often a name is drawn before a process gives up. -/
def tries : Nat := 65536

/-- The first name that is not taken, and how many draws there were with it, if one is found within
a number of tries. -/
def free? (d : Draws) (stem : String) (taken : List String) :
    (left drawn : Nat) → Option (String × Nat)
  | 0, _ => none
  | left + 1, drawn =>
    let name := stem ++ d.letters drawn
    if name ∈ taken then d.free? stem taken left (drawn + 1) else some (name, drawn + 1)

/-- The last decimal digit of a number. -/
def lastDigit (n : Nat) : Char := Char.ofNat (48 + n % 10)

theorem isAlphanum_lastDigit (n : Nat) : (lastDigit n).isAlphanum = true := by
  have hdigits : ∀ k < 10, (Char.ofNat (48 + k)).isAlphanum = true := by decide
  exact hdigits (n % 10) (Nat.mod_lt n (by decide))

/-- The draws that count in six decimal digits. -/
def counting : Draws where
  letters n := String.ofList
    [lastDigit (n / 100000), lastDigit (n / 10000), lastDigit (n / 1000), lastDigit (n / 100),
      lastDigit (n / 10), lastDigit n]
  six n := by simp
  plain n c hc := by
    simp only [String.toList_ofList, List.mem_cons, List.not_mem_nil, or_false] at hc
    rcases hc with rfl | rfl | rfl | rfl | rfl | rfl <;> exact isAlphanum_lastDigit _

end Draws

end UnitLoader
