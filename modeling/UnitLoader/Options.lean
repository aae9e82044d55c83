/-!
# Compiler options

An `OptionSet` holds option tokens in the order in which they were added. Nothing is checked here:
the compiler itself reports options it does not know.
-/

namespace UnitLoader

/-- Option tokens for the compiler, in order. -/
structure OptionSet where
  /-- The tokens. -/
  tokens : List String
  deriving DecidableEq, Repr

namespace OptionSet

/-- No options. -/
def empty : OptionSet := ⟨[]⟩

/-- Adds tokens behind the others. -/
def append (o : OptionSet) (tokens : List String) : OptionSet := ⟨o.tokens ++ tokens⟩

/-- Adds one token. -/
def add (o : OptionSet) (token : String) : OptionSet := o.append [token]

/-- Sets the language edition of the source. -/
def edition (o : OptionSet) (edition : String) : OptionSet := o.append ["--edition", edition]

/-- Sets the platform that the artifact is made for. -/
def target (o : OptionSet) (triple : String) : OptionSet := o.append ["--target", triple]

/-- Asks for full debug information. -/
def enableDebug (o : OptionSet) : OptionSet := o.add "-g"

/-- Asks for no debug information. -/
def disableDebug (o : OptionSet) : OptionSet := o.add "-Cdebuginfo=0"

/-- Sets the optimization level. -/
def optLevel (o : OptionSet) (level : String) : OptionSet := o.add ("-Copt-level=" ++ level)

/-- There are no options. -/
def isEmpty (o : OptionSet) : Bool := o.tokens.isEmpty

/-- The token is the flag itself or the flag with a value behind an equals sign. -/
def tokenSets (flag token : List Char) : Bool :=
  token == flag || (flag ++ ['=']).isPrefixOf token

/-- Some token sets the flag. -/
def sets (o : OptionSet) (flag : String) : Bool :=
  o.tokens.any fun token => tokenSets flag.toList token.toList

end OptionSet

end UnitLoader
