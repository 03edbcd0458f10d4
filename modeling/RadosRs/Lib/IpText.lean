import RadosRs.Lib.Text

/-!
# Internet addresses and their text

Addresses, and how the Rust standard library reads and writes them.  A reader takes
what it needs off the front of a text, and gives nothing where it does not match.
A group of an IPv6 address has up to four hexadecimal digits, the last two groups
may be written as an IPv4 address, and one run of zeros may be left out.
-/

namespace IpText

inductive IpAddr where
  | v4 (bits : BitVec 32)
  | v6 (bits : BitVec 128)
  deriving DecidableEq, Repr

namespace IpAddr

def isUnspecified : IpAddr → Bool
  | .v4 bits => bits == 0
  | .v6 bits => bits == 0

/-- The IPv4 address that an IPv6 address stands for, if it is one of `::ffff:0:0/96`. -/
def toIpv4Mapped (bits : BitVec 128) : Option (BitVec 32) :=
  if bits >>> 32 = 0xffff then some (bits.setWidth 32) else none

end IpAddr

/-- An address and a port.  `scopeId` is zero unless the text of the address has one. -/
structure SocketAddr where
  ip : IpAddr
  port : Nat
  scopeId : Nat := 0
  deriving DecidableEq, Repr

/-! ## Reading -/

abbrev Reader (α : Type) := List Char → Option (α × List Char)

def digitValue (radix : Nat) (c : Char) : Option Nat :=
  let value :=
    if c.isDigit then c.toNat - '0'.toNat
    else if 'a' ≤ c ∧ c ≤ 'z' then c.toNat - 'a'.toNat + 10
    else if 'A' ≤ c ∧ c ≤ 'Z' then c.toNat - 'A'.toNat + 10
    else radix
  if value < radix then some value else none

def readGivenChar (given : Char) : Reader Unit
  | c :: rest => if c = given then some ((), rest) else none
  | [] => none

/-- All the digits that follow, if they are not too many and the number is not too large. -/
def readNumber (radix : Nat) (maxDigits : Option Nat) (allowZeroPrefix : Bool) (bound : Nat) :
    Reader Nat := fun s =>
  let digits := s.takeWhile fun c => (digitValue radix c).isSome
  let value := digits.foldl (fun n c => n * radix + (digitValue radix c).getD 0) 0
  if digits.isEmpty || maxDigits.any (· < digits.length)
      || (!allowZeroPrefix && digits.head? == some '0' && 1 < digits.length)
      || bound < value then
    none
  else some (value, s.drop digits.length)

/-- A part of a sequence, with the separator in front of it if it is not the first. -/
def readSeparated {α : Type} (sep : Char) (index : Nat) (inner : Reader α) : Reader α := fun s =>
  if index = 0 then inner s
  else do
    let (_, s) ← readGivenChar sep s
    inner s

def readOctet (index : Nat) : Reader Nat :=
  readSeparated '.' index (readNumber 10 (some 3) false 255)

def readIpv4 : Reader (BitVec 32) := fun s => do
  let (a, s) ← readOctet 0 s
  let (b, s) ← readOctet 1 s
  let (c, s) ← readOctet 2 s
  let (d, s) ← readOctet 3 s
  return (BitVec.ofNat 32 (((a * 256 + b) * 256 + c) * 256 + d), s)

/-- The groups up to where they end, at most `limit`, and whether the last two were written as
an IPv4 address. -/
def readGroups : (limit index : Nat) → List Char → List Nat × Bool × List Char
  | 0, _, s => ([], false, s)
  | left + 1, index, s =>
    match if left = 0 then none else readSeparated ':' index readIpv4 s with
    | some (bits, rest) => ([bits.toNat / 65536, bits.toNat % 65536], true, rest)
    | none =>
      match readSeparated ':' index (readNumber 16 (some 4) true 65535) s with
      | none => ([], false, s)
      | some (group, rest) =>
        let (more, ipv4, rest) := readGroups left (index + 1) rest
        (group :: more, ipv4, rest)

def ofGroups (groups : List Nat) : BitVec 128 :=
  BitVec.ofNat 128 (groups.foldl (fun n group => n * 65536 + group) 0)

def readIpv6 : Reader (BitVec 128) := fun s =>
  let (head, ipv4, s) := readGroups 8 0 s
  if head.length = 8 then some (ofGroups head, s)
  -- the part before the zeros that are left out may not end in an IPv4 address
  else if ipv4 then none
  else do
    let (_, s) ← readGivenChar ':' s
    let (_, s) ← readGivenChar ':' s
    let (tail, _, s) := readGroups (8 - (head.length + 1)) 0 s
    let zeros := List.replicate (8 - head.length - tail.length) 0
    return (ofGroups (head ++ zeros ++ tail), s)

def readIp : Reader IpAddr := fun s =>
  match readIpv4 s with
  | some (bits, rest) => some (.v4 bits, rest)
  | none => (readIpv6 s).map fun (bits, rest) => (.v6 bits, rest)

def readPort : Reader Nat := fun s => do
  let (_, s) ← readGivenChar ':' s
  readNumber 10 none true 65535 s

def readScopeId : Reader Nat := fun s => do
  let (_, s) ← readGivenChar '%' s
  readNumber 10 none true 4294967295 s

def readSocketAddrV4 : Reader SocketAddr := fun s => do
  let (bits, s) ← readIpv4 s
  let (port, s) ← readPort s
  return (⟨.v4 bits, port, 0⟩, s)

def readSocketAddrV6 : Reader SocketAddr := fun s => do
  let (_, s) ← readGivenChar '[' s
  let (bits, s) ← readIpv6 s
  let (scopeId, s) := (readScopeId s).getD (0, s)
  let (_, s) ← readGivenChar ']' s
  let (port, s) ← readPort s
  return (⟨.v6 bits, port, scopeId⟩, s)

/-- A reader that has to use up the whole text. -/
def parseWith {α : Type} (inner : Reader α) (s : List Char) : Option α :=
  match inner s with
  | some (value, []) => some value
  | _ => none

def parseIp (s : List Char) : Option IpAddr := parseWith readIp s

def parseSocketAddr (s : List Char) : Option SocketAddr :=
  parseWith (fun s => (readSocketAddrV4 s).orElse fun _ => readSocketAddrV6 s) s

/-! ## Writing -/

def ipv4Text (bits : BitVec 32) : List Char :=
  let n := bits.toNat
  ['.'].intercalate ([n / 16777216, n / 65536 % 256, n / 256 % 256, n % 256].map (Nat.toDigits 10))

def groupsOf (bits : BitVec 128) : List Nat :=
  (List.range 8).map fun i => bits.toNat / 65536 ^ (7 - i) % 65536

/-- Where the longest run of zeros starts and how long it is; the first one of several. -/
def longestZeros (groups : List Nat) : Nat × Nat :=
  (groups.foldl
    (fun (found : (Nat × Nat) × (Nat × Nat) × Nat) group =>
      let (longest, (start, length), index) := found
      if group = 0 then
        let current := (if length = 0 then index else start, length + 1)
        (if longest.2 < current.2 then current else longest, current, index + 1)
      else (longest, (0, 0), index + 1))
    ((0, 0), (0, 0), 0)).1

def groupsText (groups : List Nat) : List Char := [':'].intercalate (groups.map (Nat.toDigits 16))

def ipv6Text (bits : BitVec 128) : List Char :=
  match IpAddr.toIpv4Mapped bits with
  | some bits => "::ffff:".toList ++ ipv4Text bits
  | none =>
    let groups := groupsOf bits
    let (start, length) := longestZeros groups
    if 1 < length then
      groupsText (groups.take start) ++ "::".toList ++ groupsText (groups.drop (start + length))
    else groupsText groups

def IpAddr.text : IpAddr → List Char
  | .v4 bits => ipv4Text bits
  | .v6 bits => ipv6Text bits

end IpText
