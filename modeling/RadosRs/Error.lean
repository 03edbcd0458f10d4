import Mathlib.Init

/-!
# Errors of the client

What a call of the client returns when it fails: the kind of the failure, the
kind of what caused it, the name of the call and the number that came over the
wire.  The text about the target is left out: nothing modelled here sets it.
-/

namespace RadosRs

inductive ErrorKind where
  | notFound
  | alreadyExists
  | permissionDenied
  | unsupported
  | invalidArgument
  | quotaOrFull
  | conflict
  | timeout
  | canceled
  | closed
  | notConnected
  | outcomeUnknown
  | watchInterrupted
  | unknown
  deriving DecidableEq, Repr

structure Error where
  kind : ErrorKind
  causeKind : Option ErrorKind := none
  operation : Option String := none
  wireErrno : Option Int := none
  deriving DecidableEq, Repr

namespace Error

def new (kind : ErrorKind) : Error := { kind }

def withOperation (error : Error) (operation : String) : Error :=
  { error with operation := some operation }

def invalid (operation : String) : Error := (new .invalidArgument).withOperation operation

def notConnected (operation : String) : Error := (new .notConnected).withOperation operation

def closed (operation : String) : Error := (new .closed).withOperation operation

def fromWire (kind : ErrorKind) (wireErrno : Int) : Error := { kind, wireErrno := some wireErrno }

def outcomeUnknown (cause : ErrorKind) : Error :=
  { kind := .outcomeUnknown, causeKind := some cause }

end Error

end RadosRs
