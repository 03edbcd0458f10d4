import Mathlib.Data.List.Basic

/-!
# Blocks that are chained

Bytes are taken apart into blocks of a fixed size, and a block cipher is applied to
them in a chain: each block is combined with the encrypted block before it.
`unchain_chain` says that the chain is undone if the cipher is undone on
each block, and `chain_append` that a chain can be cut at any block.
-/

namespace Chaining

variable {n : Nat}

abbrev Block (n : Nat) := Vector UInt8 n

namespace Block

def zero : Block n := Vector.replicate n 0

def xor (a b : Block n) : Block n := Vector.zipWith (· ^^^ ·) a b

theorem xor_cancel (a b : Block n) : (a.xor b).xor b = a := by
  ext i hi
  simp only [xor, Vector.getElem_zipWith, UInt8.xor_assoc, UInt8.xor_self, UInt8.xor_zero]

/-- Where a block is zero, the other one shows. -/
theorem drop_xor {a b : Block n} {k : Nat} (h : a.toList.drop k = List.replicate (n - k) 0) :
    (a.xor b).toList.drop k = b.toList.drop k := by
  rw [xor, Vector.toList_zipWith, List.drop_zipWith, h]
  refine List.ext_getElem (by simp) fun i _ _ => ?_
  simp

/-- The first bytes of a list. -/
def ofBytes (bytes : List UInt8) : Block n := Vector.ofFn fun i => bytes.getD i 0

@[simp] theorem ofBytes_append (b : Block n) (rest : List UInt8) :
    ofBytes (b.toList ++ rest) = b := by
  ext i hi
  simp [ofBytes, List.getD_eq_getElem?_getD, List.getElem?_append_left]

@[simp] theorem ofBytes_toList (b : Block n) : ofBytes b.toList = b := by
  rw [← List.append_nil b.toList, ofBytes_append]

theorem toList_ofBytes {bytes : List UInt8} (h : n ≤ bytes.length) :
    (ofBytes bytes : Block n).toList = bytes.take n := by
  refine List.ext_getElem (by simp [h]) fun i hi _ => ?_
  rw [Vector.length_toList] at hi
  simp [ofBytes, List.getD_eq_getElem?_getD, List.getElem?_eq_getElem (Nat.lt_of_lt_of_le hi h)]

end Block

/-! ## Bytes and blocks -/

/-- A number of blocks from the front. -/
def blocksFrom : Nat → List UInt8 → List (Block n)
  | 0, _ => []
  | count + 1, bytes => Block.ofBytes bytes :: blocksFrom count (bytes.drop n)

/-- The whole blocks of a list. -/
def blocks (n : Nat) (bytes : List UInt8) : List (Block n) := blocksFrom (bytes.length / n) bytes

def join (bs : List (Block n)) : List UInt8 := bs.flatMap Vector.toList

@[simp] theorem join_nil : join ([] : List (Block n)) = [] := rfl

@[simp] theorem join_cons (b : Block n) (bs : List (Block n)) :
    join (b :: bs) = b.toList ++ join bs := rfl

@[simp] theorem join_append (bs cs : List (Block n)) : join (bs ++ cs) = join bs ++ join cs :=
  List.flatMap_append

@[simp] theorem length_join (bs : List (Block n)) : (join bs).length = n * bs.length := by
  induction bs with
  | nil => rfl
  | cons b bs ih =>
    rw [join_cons, List.length_append, Vector.length_toList, ih, List.length_cons, Nat.mul_succ,
      Nat.add_comm]

theorem blocks_join (pos : 0 < n) (bs : List (Block n)) : blocks n (join bs) = bs := by
  induction bs with
  | nil =>
    rw [join_nil, blocks, List.length_nil, Nat.zero_div]
    rfl
  | cons b bs ih =>
    have count : (join (b :: bs)).length / n = (join bs).length / n + 1 := by
      rw [join_cons, List.length_append, Vector.length_toList, Nat.add_div_left _ pos]
    have dropped : (join (b :: bs)).drop n = join bs := by
      rw [join_cons, List.drop_left' Vector.length_toList]
    rw [blocks, count, blocksFrom, dropped, join_cons, Block.ofBytes_append]
    exact congrArg (b :: ·) ih

/-- Bytes that fill a number of blocks are the blocks. -/
theorem exists_join (count : Nat) (bytes : List UInt8) (h : bytes.length = n * count) :
    ∃ bs : List (Block n), bs.length = count ∧ join bs = bytes := by
  induction count generalizing bytes with
  | zero => exact ⟨[], rfl, (List.eq_nil_of_length_eq_zero h).symm⟩
  | succ count ih =>
    rw [Nat.mul_succ] at h
    obtain ⟨bs, length, joined⟩ := ih (bytes.drop n) (by rw [List.length_drop]; omega)
    refine ⟨Block.ofBytes bytes :: bs, congrArg (· + 1) length, ?_⟩
    rw [join_cons, joined, Block.toList_ofBytes (by omega), List.take_append_drop]

/-! ## Chains -/

section Chain

variable {encrypt decrypt : Block n → Block n}

def chain (encrypt : Block n → Block n) : (previous : Block n) → List (Block n) →
    List (Block n)
  | _, [] => []
  | previous, b :: bs =>
    let block := encrypt (b.xor previous)
    block :: chain encrypt block bs

def unchain (decrypt : Block n → Block n) : (previous : Block n) → List (Block n) →
    List (Block n)
  | _, [] => []
  | previous, b :: bs => (decrypt b).xor previous :: unchain decrypt b bs

@[simp] theorem length_chain (previous : Block n) (bs : List (Block n)) :
    (chain encrypt previous bs).length = bs.length := by
  induction bs generalizing previous with
  | nil => rfl
  | cons b bs ih => exact congrArg (· + 1) (ih _)

theorem chain_append (previous : Block n) (bs cs : List (Block n)) :
    chain encrypt previous (bs ++ cs)
      = chain encrypt previous bs
        ++ chain encrypt ((chain encrypt previous bs).getLastD previous) cs := by
  induction bs generalizing previous with
  | nil => rfl
  | cons b bs ih =>
    simp only [List.cons_append, chain, ih, List.getLastD_cons]

theorem unchain_chain (inverts : ∀ b, decrypt (encrypt b) = b) (previous : Block n)
    (bs : List (Block n)) :
    unchain decrypt previous (chain encrypt previous bs) = bs := by
  induction bs generalizing previous with
  | nil => rfl
  | cons b bs ih =>
    simp only [chain, unchain, inverts, Block.xor_cancel, ih]

end Chain

end Chaining
