import RadosRs.Msgr.Frame

/-!
# Addresses and control messages

The control messages that set up, resume and keep alive a session, with the
addresses they carry.  The authentication messages stand here too, since a
session that is already set up has to answer them as faults.
-/

namespace RadosRs.Msgr

def afUnspec : Nat := 0

/-- A network address.  How it was encoded does not take part in comparing addresses
and is left out. -/
structure EntityAddr where
  addressType : Nat
  nonce : Nat
  family : Nat
  socketData : List UInt8
  deriving DecidableEq, Repr

/-- The same socket, whatever the type and the nonce. -/
def EntityAddr.hasSameEndpoint (self other : EntityAddr) : Bool :=
  self.family != afUnspec && self.family == other.family && self.socketData == other.socketData

structure Hello where
  entityType : Nat
  peerAddress : EntityAddr
  deriving DecidableEq, Repr

structure ClientIdent where
  addresses : List EntityAddr
  targetAddress : EntityAddr
  globalId : Int
  globalSequence : Nat
  supportedFeatures : UInt64
  requiredFeatures : UInt64
  flags : UInt64
  cookie : Nat
  deriving DecidableEq, Repr

structure ServerIdent where
  addresses : List EntityAddr
  globalId : Int
  globalSequence : Nat
  supportedFeatures : UInt64
  requiredFeatures : UInt64
  flags : UInt64
  cookie : Nat
  deriving DecidableEq, Repr

structure SessionReconnect where
  addresses : List EntityAddr
  clientCookie : Nat
  serverCookie : Nat
  globalSequence : Nat
  connectSequence : Nat
  messageSequence : Nat
  deriving DecidableEq, Repr

structure Timestamp where
  seconds : Nat
  nanoseconds : Nat
  deriving DecidableEq, Repr

structure AuthRequest where
  method : Nat
  preferredModes : List Nat
  authPayload : List UInt8
  deriving DecidableEq, Repr

structure AuthBadMethod where
  method : Nat
  result : Int
  allowedMethods : List Nat
  allowedModes : List Nat
  deriving DecidableEq, Repr

structure AuthDone where
  globalId : Nat
  connectionMode : Nat
  authPayload : List UInt8
  deriving DecidableEq, Repr

/-- The control messages.  Those with a single field take it directly. -/
inductive Control where
  | hello (hello : Hello)
  | clientIdent (ident : ClientIdent)
  | serverIdent (ident : ServerIdent)
  | identMissingFeatures (features : UInt64)
  | sessionReconnect (reconnect : SessionReconnect)
  | sessionReset (full : Bool)
  | sessionRetry (connectSequence : Nat)
  | sessionRetryGlobal (globalSequence : Nat)
  | sessionReconnectOk (messageSequence : Nat)
  | wait
  | keepalive2 (timestamp : Timestamp)
  | keepalive2Ack (timestamp : Timestamp)
  | ack (sequence : Nat)
  | authRequest (request : AuthRequest)
  | authBadMethod (method : AuthBadMethod)
  | authReplyMore (payload : List UInt8)
  | authRequestMore (payload : List UInt8)
  | authDone (done : AuthDone)
  | authSignature (signature : Vector UInt8 32)
  | authPayload (tag : Tag) (payload : List UInt8)
  deriving DecidableEq, Repr

/-- The server asks the client to forget what it sent when the connection breaks. -/
def connectionFlagLossy : UInt64 := 1

end RadosRs.Msgr
