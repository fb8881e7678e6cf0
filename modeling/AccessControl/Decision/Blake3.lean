/-! # BLAKE3

The hash function BLAKE3 with its default output of 32 bytes. A text is cut into chunks of 1024
bytes, each chunk into blocks of 64. The blocks of a chunk are compressed one after another, and the
values of the chunks are joined in a binary tree whose left parts are complete.
-/

/-! ## Numbers as bytes

Words are written with their lowest byte first.
-/

namespace AccessControl

/-- The four bytes of a word, lowest first. -/
def bytesOfUInt32 (n : UInt32) : List UInt8 :=
  [n.toUInt8, (n >>> 8).toUInt8, (n >>> 16).toUInt8, (n >>> 24).toUInt8]

/-- The eight bytes of a word, lowest first. -/
def bytesOfUInt64 (n : UInt64) : List UInt8 :=
  bytesOfUInt32 n.toUInt32 ++ bytesOfUInt32 (n >>> 32).toUInt32

def bytesOfLength (n : Nat) : List UInt8 := bytesOfUInt64 (UInt64.ofNat n)

def hexOfByte (b : UInt8) : List Char :=
  [Nat.digitChar (b.toNat / 16), Nat.digitChar (b.toNat % 16)]

end AccessControl

namespace AccessControl.Blake3

/-- What a compression yields and the next one starts from. -/
abbrev ChainingValue := Vector UInt32 8

abbrev Block := Vector UInt32 16

/-- The value that the first compression of a chunk starts from. -/
def initial : ChainingValue :=
  #v[0x6A09E667, 0xBB67AE85, 0x3C6EF372, 0xA54FF53A, 0x510E527F, 0x9B05688C, 0x1F83D9AB,
    0x5BE0CD19]

/-- Where each word of a block comes from in the block of the previous round. -/
def permutation : Vector (Fin 16) 16 := #v[2, 6, 3, 10, 7, 0, 4, 13, 1, 11, 12, 5, 9, 14, 15, 8]

def chunkStart : UInt32 := 1

def chunkEnd : UInt32 := 2

def parent : UInt32 := 4

def root : UInt32 := 8

def rotateRight (n places : UInt32) : UInt32 := (n >>> places) ||| (n <<< (32 - places))

/-- Mix two words of a block into four words of the state. -/
def mix (s : Block) (a b c d : Fin 16) (x y : UInt32) : Block :=
  let s := s.set a (s[a] + s[b] + x)
  let s := s.set d (rotateRight (s[d] ^^^ s[a]) 16)
  let s := s.set c (s[c] + s[d])
  let s := s.set b (rotateRight (s[b] ^^^ s[c]) 12)
  let s := s.set a (s[a] + s[b] + y)
  let s := s.set d (rotateRight (s[d] ^^^ s[a]) 8)
  let s := s.set c (s[c] + s[d])
  s.set b (rotateRight (s[b] ^^^ s[c]) 7)

/-- Mix a whole block into the state: first along the columns, then along the diagonals. -/
def mixBlock (m s : Block) : Block :=
  let s := mix s 0 4 8 12 m[0] m[1]
  let s := mix s 1 5 9 13 m[2] m[3]
  let s := mix s 2 6 10 14 m[4] m[5]
  let s := mix s 3 7 11 15 m[6] m[7]
  let s := mix s 0 5 10 15 m[8] m[9]
  let s := mix s 1 6 11 12 m[10] m[11]
  let s := mix s 2 7 8 13 m[12] m[13]
  mix s 3 4 9 14 m[14] m[15]

/-- A number of rounds, each on the permuted block of the round before. -/
def rounds : Nat → Block → Block → Block
  | 0, _, s => s
  | n + 1, m, s => rounds n (Vector.ofFn fun i => m[permutation[i]]) (mixBlock m s)

/-- Compress a block of `length` bytes into a chaining value. -/
def compress (value : ChainingValue) (m : Block) (counter : UInt64) (length flags : UInt32) :
    ChainingValue :=
  let s : Block :=
    #v[value[0], value[1], value[2], value[3], value[4], value[5], value[6], value[7],
      initial[0], initial[1], initial[2], initial[3],
      counter.toUInt32, (counter >>> 32).toUInt32, length, flags]
  let s := rounds 7 m s
  #v[s[0] ^^^ s[8], s[1] ^^^ s[9], s[2] ^^^ s[10], s[3] ^^^ s[11], s[4] ^^^ s[12],
    s[5] ^^^ s[13], s[6] ^^^ s[14], s[7] ^^^ s[15]]

/-- The word at the head of some bytes; missing bytes are zero. -/
def wordOf (bytes : List UInt8) : UInt32 :=
  (bytes.take 4).foldr (fun b word => (word <<< 8) ||| b.toUInt32) 0

/-- The block at the head of some bytes; missing bytes are zero. -/
def blockOf (bytes : List UInt8) : Block := Vector.ofFn fun i => wordOf (bytes.drop (4 * i.val))

/-- Compress the blocks of a chunk. `first` marks the first block, `last` the last one. -/
def compressChunk (value : ChainingValue) (counter : UInt64) (first last : UInt32)
    (bytes : List UInt8) : ChainingValue :=
  if bytes.length ≤ 64 then
    compress value (blockOf bytes) counter (UInt32.ofNat bytes.length) (first ||| last)
  else
    compressChunk (compress value (blockOf (bytes.take 64)) counter 64 first) counter 0 last
      (bytes.drop 64)
termination_by bytes.length
decreasing_by simp only [List.length_drop]; omega

/-- The number of bytes in the left part of a tree over more than one chunk. -/
def leftLength (length : Nat) : Nat := 1024 <<< ((length - 1) / 1024).log2

theorem leftLength_lt {length : Nat} (h : 1024 < length) : leftLength length < length := by
  have hpow := Nat.log2_self_le (n := (length - 1) / 1024) (by omega)
  rw [leftLength, Nat.shiftLeft_eq]
  omega

theorem leftLength_pos (length : Nat) : 0 < leftLength length := by
  have := Nat.two_pow_pos ((length - 1) / 1024).log2
  rw [leftLength, Nat.shiftLeft_eq]
  omega

/-- The value of the tree over some bytes, of which the first chunk has the number `chunk`. -/
def tree (chunk : Nat) (flags : UInt32) (bytes : List UInt8) : ChainingValue :=
  if h : bytes.length ≤ 1024 then
    compressChunk initial (UInt64.ofNat chunk) chunkStart (chunkEnd ||| flags) bytes
  else
    let left := leftLength bytes.length
    have := leftLength_lt (Nat.lt_of_not_le h)
    have := leftLength_pos bytes.length
    let l := tree chunk 0 (bytes.take left)
    let r := tree (chunk + left / 1024) 0 (bytes.drop left)
    compress initial (l ++ r) 0 64 (parent ||| flags)
termination_by bytes.length
decreasing_by
  · simp only [List.length_take]; omega
  · simp only [List.length_drop]; omega

def hash (bytes : List UInt8) : List UInt8 :=
  (tree 0 root bytes).toList.flatMap bytesOfUInt32

end AccessControl.Blake3
