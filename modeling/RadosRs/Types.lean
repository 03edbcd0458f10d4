import Mathlib.Init

/-!
# The caller's options

An operation is given a cancellation token and a deadline.  The code asks for both
at many places, and what they say may be different at each of them.
-/

namespace RadosRs

/-- What the caller's options say at some moment. -/
structure OptionsView where
  canceled : Bool
  expired : Bool
  deriving DecidableEq, Repr

end RadosRs
