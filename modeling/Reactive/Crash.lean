/-!
# Code that may crash

Guards, actions, comparisons, generators and the functions of signals are supplied by the user of
the library. Such code runs in a monad `m` of the user's choice, in which it may have effects, and
it may crash instead of giving a result: its type is `m (Except Crash α)`. What it did before it
crashed stays done. A crash is not an error of the library. It ends the call in which it happened,
except in a generator, whose crashes become errors of its signal.

## Main definitions

* `Crash`, `Crash.message`
-/

namespace Reactive

/-- The abnormal end of supplied code. -/
inductive Crash where
  /-- The code left a message. -/
  | saying (message : String)
  /-- The code left something that is no text. -/
  | silent
  deriving DecidableEq

/-- The message of a crash, with a stock word for one without. -/
def Crash.message : Crash → String
  | saying message => message
  | silent => "panicked"

end Reactive
