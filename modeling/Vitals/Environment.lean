import Vitals.Text.Lossy

/-!
# Environments

The variables that a program is started with. A variable holds bytes; only some of them are a
text.
-/

namespace Vitals

/-- The variables of a program and the home directory of its user. -/
structure Environment where
  bindings : List (String × ByteArray)
  /-- The home directory on record, for a program without a variable for it. -/
  userHome : String

namespace Environment

/-- A variable whose bytes are a text. -/
def text? (environment : Environment) (name : String) : Option String :=
  (environment.bindings.lookup name).bind String.fromUTF8?

/-- A variable as it can be shown: what is no text in it is replaced. -/
def shown? (environment : Environment) (name : String) : Option String :=
  (environment.bindings.lookup name).map Text.ofBytes

def home (environment : Environment) : String :=
  match environment.shown? "HOME" with
  | some path => if path = "" then environment.userHome else path
  | none => environment.userHome

end Environment

end Vitals
