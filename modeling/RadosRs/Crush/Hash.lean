import RadosRs.Lib.Bytes

/-!
# The integer hashes of CRUSH

`mix` scrambles three words, and the hashes of two and of three words are a few
rounds of it.  The hash of an object takes its key in chunks of three words, a round
for each of them.  `stableMod` maps a hash to a number below a count: where the count
is no power of two, a value past it loses one more bit.  Everything follows
`src/crush/hash.rs`.
-/

namespace RadosRs.Crush

def mix (first second third : UInt32) : UInt32 × UInt32 × UInt32 :=
  let first := (first - second - third) ^^^ (third >>> 13)
  let second := (second - third - first) ^^^ (first <<< 8)
  let third := (third - first - second) ^^^ (second >>> 13)
  let first := (first - second - third) ^^^ (third >>> 12)
  let second := (second - third - first) ^^^ (first <<< 16)
  let third := (third - first - second) ^^^ (second >>> 5)
  let first := (first - second - third) ^^^ (third >>> 3)
  let second := (second - third - first) ^^^ (first <<< 10)
  let third := (third - first - second) ^^^ (second >>> 15)
  (first, second, third)

def hash32Pair (first second : UInt32) : UInt32 :=
  let hash := 0x4e67c6a7 ^^^ first ^^^ second
  let (first, second, hash) := mix first second hash
  let (_, _, hash) := mix 231232 first hash
  let (_, _, hash) := mix second 1232 hash
  hash

def hash32Triple (first second third : UInt32) : UInt32 :=
  let hash := 0x4e67c6a7 ^^^ first ^^^ second ^^^ third
  let (first, second, hash) := mix first second hash
  let (third, x, hash) := mix third 231232 hash
  let (y, _, hash) := mix 1232 first hash
  let (_, _, hash) := mix second x hash
  let (_, _, hash) := mix y third hash
  hash

set_option maxRecDepth 1000

example : hash32Triple 0xdeadbeef 0xffffffff 17 = 0xe8247cea := by decide

/-! ## Objects -/

/-- A word of four bytes. -/
def word (bytes : List UInt8) : UInt32 := .ofNat (Bytes.ofLeBytes (bytes.take 4))

/-- Mixes a number of chunks of twelve bytes into the state. -/
def absorb : Nat → List UInt8 → UInt32 × UInt32 × UInt32 → UInt32 × UInt32 × UInt32
  | 0, _, state => state
  | count + 1, value, (first, second, hash) =>
    absorb count (value.drop 12)
      (mix (first + word value) (second + word (value.drop 4)) (hash + word (value.drop 8)))

/-- A byte past the last chunk.  The low byte of the third word belongs to the length. -/
def absorbByte (state : UInt32 × UInt32 × UInt32) (byte : UInt8 × Nat) :
    UInt32 × UInt32 × UInt32 :=
  let (first, second, hash) := state
  let (value, index) := byte
  let shifted (places : Nat) : UInt32 := .ofNat (value.toNat <<< (places * 8))
  if index ≤ 3 then (first + shifted index, second, hash)
  else if index ≤ 7 then (first, second + shifted (index - 4), hash)
  else (first, second, hash + shifted (index - 7))

def rjenkins (value : List UInt8) : UInt32 :=
  let chunks := value.length / 12
  let (first, second, hash) := absorb chunks value (0x9e3779b9, 0x9e3779b9, 0)
  let hash := hash + .ofNat (min value.length (2 ^ 32 - 1))
  let (first, second, hash) :=
    ((value.drop (chunks * 12)).zipIdx).foldl absorbByte (first, second, hash)
  (mix first second hash).2.2

def namespaceSeparator : UInt8 := 0x1f

/-- The hash of an object's locator, or of its name if it has none, in its name space. -/
def objectHash (object locator space : List UInt8) : UInt32 :=
  let key := if locator = [] then object else locator
  if space = [] then rjenkins key else rjenkins (space ++ namespaceSeparator :: key)

/-! ## Placement groups -/

/-- The number of zero bits above the highest bit of a 32-bit value. -/
def leadingZeros (value : Nat) : Nat := if value = 0 then 32 else 31 - value.log2

/-- The mask of `stable_mod`: all bits up to the highest one of `count - 1`.  A shift by the
whole width gives zero, and zero less one wraps around. -/
def stableMask (count : Nat) : Nat :=
  let shift := 32 - leadingZeros (count - 1)
  let power := if shift < 32 then 1 <<< shift else 0
  (power + (2 ^ 32 - 1)) % 2 ^ 32

def stableMod (value count : Nat) : Nat :=
  if count = 0 then 0
  else
    let mask := stableMask count
    if value &&& mask < count then value &&& mask else value &&& (mask >>> 1)

end RadosRs.Crush
