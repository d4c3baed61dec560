import Mathlib.Control.Monad.Basic

/-! `std::io::Error`, with the kinds this program tells apart or produces. -/
namespace AnyTls

inductive ErrorKind where
  | brokenPipe | unexpectedEof | invalidData | invalidInput | wouldBlock | timedOut
  | connectionReset | connectionRefused | other
deriving DecidableEq, Repr

structure IoError where
  kind : ErrorKind
  message : String
deriving DecidableEq, Repr

/-- `std::io::Error::other`. -/
def IoError.otherError (message : String) : IoError := ⟨.other, message⟩

/-- What `read_exact` and the fixed-width reads of `tokio` return at the end of the input. -/
def IoError.earlyEof : IoError := ⟨.unexpectedEof, "early eof"⟩

end AnyTls
