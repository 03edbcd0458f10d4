import RadosRs.Error
import RadosRs.Osd.Operation

/-!
# Building a compound read

A compound read is put together one action at a time.  Each call checks its own
arguments, and no more than sixteen actions are taken.  `setFlags` gives one of
them flags of its own by wrapping it; an action that is already wrapped gets the
new flags instead of a second wrapper.  `readOperation` turns an action into the
operation that is sent.
-/

namespace RadosRs

open Fixed Wire
open Osd (Operation opFlagFailOk)

def maxSubOperations : Nat := 16
def maxOperationBytes : Nat := 64 * 1024 * 1024

/-- The largest signed 32-bit value. -/
def i32Max : Nat := 2 ^ 31 - 1

inductive ChecksumType where
  | xxHash32
  | xxHash64
  | crc32c
  deriving DecidableEq, Repr

inductive ReadAction where
  | read (offset length : Nat)
  | sparseRead (offset length : Nat)
  | checksum (offset length chunk kind : Nat) (seed : List UInt8)
  | stat
  | assertExists
  | assertVersion (version : Nat)
  | getXattr (name : List UInt8)
  | getOmapHeader
  | listOmap (payload : List UInt8)
  | exec (operation : Operation)
  | withFlags (action : ReadAction) (flags : Nat)
  deriving DecidableEq, Repr

structure ReadOp where
  actions : List ReadAction := []
  deriving DecidableEq, Repr

/-- The request for one page of a map of attributes. -/
def encodeListRequest (after : List UInt8) (limit maxBytes : Nat) :
    Except WireError (List UInt8) :=
  ((((Encoder.new maxBytes).blob after).u64 limit).blob []).finish

def validXattrName (name : List UInt8) (operation : String) : Except Error (List UInt8) :=
  if name.isEmpty || name.contains 0 || name.length > u32Max then .error (.invalid operation)
  else .ok name

def classOperation (className method input : List UInt8) (mutation : Bool) (operation : String) :
    Except Error Operation :=
  let retained := className.length + method.length + input.length
  if className.isEmpty || method.isEmpty || className.contains 0 || method.contains 0
      || className.length > 255 || method.length > 255 || input.length > u32Max
      || retained > maxOperationBytes then
    .error (.invalid operation)
  else .ok (.call className.length method.length input.length (className ++ method ++ input) mutation)

namespace ReadOp

def new : ReadOp := {}

def push (op : ReadOp) (action : ReadAction) : Except Error ReadOp :=
  if op.actions.length = maxSubOperations then .error (.invalid "ReadOp")
  else .ok ⟨op.actions ++ [action]⟩

def read (op : ReadOp) (offset length : Nat) : Except Error ReadOp :=
  if (checkedAdd u64Max offset length).isNone || length > maxOperationBytes then
    .error (.invalid "ReadOp::read")
  else op.push (.read offset length)

def sparseRead (op : ReadOp) (offset length : Nat) : Except Error ReadOp :=
  if length > i32Max || (checkedAdd u64Max offset length).isNone then
    .error (.invalid "ReadOp::sparse_read")
  else op.push (.sparseRead offset length)

/-- The number of a checksum on the wire and the width of its seed. -/
def checksumKind : ChecksumType → Nat × Nat
  | .xxHash32 => (0, 4)
  | .xxHash64 => (1, 8)
  | .crc32c => (2, 4)

def checksum (op : ReadOp) (kind : ChecksumType) (seed : List UInt8)
    (offset length chunk : Nat) : Except Error ReadOp :=
  let (kind, width) := checksumKind kind
  if seed.length != width || length > i32Max || (checkedAdd u64Max offset length).isNone
      || chunk > u32Max || (chunk != 0 && (length == 0 || length % chunk != 0)) then
    .error (.invalid "ReadOp::checksum")
  else op.push (.checksum offset length chunk kind seed)

def stat (op : ReadOp) : Except Error ReadOp := op.push .stat

def assertExists (op : ReadOp) : Except Error ReadOp := op.push .assertExists

def assertVersion (op : ReadOp) (version : Nat) : Except Error ReadOp :=
  op.push (.assertVersion version)

def getXattr (op : ReadOp) (name : List UInt8) : Except Error ReadOp := do
  let name ← validXattrName name "ReadOp::get_xattr"
  op.push (.getXattr name)

def getOmapHeader (op : ReadOp) : Except Error ReadOp := op.push .getOmapHeader

def listOmap (op : ReadOp) (after : List UInt8) (limit : Nat) : Except Error ReadOp :=
  if limit = 0 then .error (.invalid "ReadOp::list_omap")
  else
    match encodeListRequest after limit maxOperationBytes with
    | .error _ => .error (.invalid "ReadOp::list_omap")
    | .ok payload => op.push (.listOmap payload)

def exec (op : ReadOp) (className method input : List UInt8) : Except Error ReadOp := do
  let operation ← classOperation className method input false "ReadOp::exec"
  op.push (.exec operation)

/-- The action without the wrapper that an earlier call put around it. -/
def unflagged : ReadAction → ReadAction
  | .withFlags action _ => action
  | action => action

def setFlags (op : ReadOp) (index flags : Nat) : Except Error ReadOp :=
  match op.actions[index]? with
  | none => .error (.invalid "ReadOp::set_flags")
  | some action =>
    if flags &&& (u32Max ^^^ opFlagFailOk) ≠ 0 then .error (.invalid "ReadOp::set_flags")
    else .ok ⟨op.actions.set index (.withFlags (unflagged action) flags)⟩

end ReadOp

def readOperation : ReadAction → Operation
  | .read offset length => .read offset length
  | .sparseRead offset length => .sparseRead offset length
  | .checksum offset length chunk kind seed => .checksum offset length chunk kind seed
  | .stat | .assertExists => .stat
  | .assertVersion version => .assertVersion version
  | .getXattr name => .getXattr name
  | .getOmapHeader => .omapGetHeader
  | .listOmap payload => .omapGetValues payload
  | .exec operation => operation
  | .withFlags action flags => .withFlags (readOperation action) flags

def ReadOp.intoOperations (op : ReadOp) : Except Error (List Operation) :=
  if op.actions.isEmpty then .error (.invalid "ReadOp")
  else .ok (op.actions.map readOperation)

end RadosRs
