/-!
# BLAKE3

The 256-bit BLAKE3 digest of a byte string. The message is cut into chunks of
1024 bytes, each a chain of 64-byte blocks. Chunks are the leaves of a binary
tree whose left subtrees are complete and as large as possible. The block at
the root of the tree is compressed once more with the root flag.
-/

namespace StrategyGraph
namespace Blake3

/-- Initial chaining value. -/
def initialValue : Vector UInt32 8 := #v[
  0x6a09e667, 0xbb67ae85, 0x3c6ef372, 0xa54ff53a,
  0x510e527f, 0x9b05688c, 0x1f83d9ab, 0x5be0cd19]

/-- Order in which a round takes the message words of the round before. -/
def permutation : Vector (Fin 16) 16 :=
  #v[2, 6, 3, 10, 7, 0, 4, 13, 1, 11, 12, 5, 9, 14, 15, 8]

/-- Flag of the first block of a chunk. -/
def chunkStart : UInt32 := 1

/-- Flag of the last block of a chunk. -/
def chunkEnd : UInt32 := 2

/-- Flag of a block that joins two subtrees. -/
def parentFlag : UInt32 := 4

/-- Flag of the last compression of all. -/
def rootFlag : UInt32 := 8

/-- Rotate a word to the right. -/
def rotateRight (word : UInt32) (amount : UInt32) : UInt32 :=
  (word >>> amount) ||| (word <<< (32 - amount))

/-- Mix two message words into four words of the state. -/
def mix
    (state : Vector UInt32 16)
    (a b c d : Fin 16)
    (first second : UInt32) : Vector UInt32 16 :=
  let state := state.set a (state[a] + state[b] + first)
  let state := state.set d (rotateRight (state[d] ^^^ state[a]) 16)
  let state := state.set c (state[c] + state[d])
  let state := state.set b (rotateRight (state[b] ^^^ state[c]) 12)
  let state := state.set a (state[a] + state[b] + second)
  let state := state.set d (rotateRight (state[d] ^^^ state[a]) 8)
  let state := state.set c (state[c] + state[d])
  state.set b (rotateRight (state[b] ^^^ state[c]) 7)

/-- One round: the four columns, then the four diagonals. -/
def round (state words : Vector UInt32 16) : Vector UInt32 16 :=
  let state := mix state 0 4 8 12 words[0] words[1]
  let state := mix state 1 5 9 13 words[2] words[3]
  let state := mix state 2 6 10 14 words[4] words[5]
  let state := mix state 3 7 11 15 words[6] words[7]
  let state := mix state 0 5 10 15 words[8] words[9]
  let state := mix state 1 6 11 12 words[10] words[11]
  let state := mix state 2 7 8 13 words[12] words[13]
  mix state 3 4 9 14 words[14] words[15]

/-- Reorder the message words for the next round. -/
def permute (words : Vector UInt32 16) : Vector UInt32 16 :=
  Vector.ofFn fun position => words[permutation[position]]

/-- Run the given number of rounds. -/
def rounds : Nat -> Vector UInt32 16 -> Vector UInt32 16 -> Vector UInt32 16
  | 0, state, _ => state
  | count + 1, state, words => rounds count (round state words) (permute words)

/-- A block before compression: what it is chained to, its words, the number of
its chunk, its length in bytes and its flags. -/
structure Block where
  chain : Vector UInt32 8
  words : Vector UInt32 16
  counter : UInt64
  length : UInt32
  flags : UInt32

/-- Compress a block to a chaining value. -/
def Block.compress (block : Block) : Vector UInt32 8 :=
  let state : Vector UInt32 16 := #v[
    block.chain[0], block.chain[1], block.chain[2], block.chain[3],
    block.chain[4], block.chain[5], block.chain[6], block.chain[7],
    initialValue[0], initialValue[1], initialValue[2], initialValue[3],
    block.counter.toUInt32, (block.counter >>> 32).toUInt32,
    block.length, block.flags]
  let final := rounds 7 state block.words
  Vector.ofFn fun position : Fin 8 =>
    final.get ⟨position.val, by omega⟩ ^^^ final.get ⟨position.val + 8, by omega⟩

/-- Byte of a message, zero after its end. -/
def byteAt (message : ByteArray) (position : Nat) : UInt32 :=
  if inside : position < message.size then message[position].toUInt32 else 0

/-- Little-endian words of the 64 bytes that start at a position. -/
def wordsAt (message : ByteArray) (start : Nat) : Vector UInt32 16 :=
  Vector.ofFn fun position =>
    let first := start + 4 * position.val
    byteAt message first ||| (byteAt message (first + 1) <<< 8) |||
      (byteAt message (first + 2) <<< 16) ||| (byteAt message (first + 3) <<< 24)

/-- Number of bytes in a chunk. -/
def chunkSize : Nat := 1024

/-- Number of bytes in a block. -/
def blockSize : Nat := 64

/-- Block of a chunk at a position, chained to the blocks before it. -/
def chunkBlock
    (message : ByteArray)
    (chunk start stop : Nat)
    (chain : Vector UInt32 8)
    (position : Nat) : Block where
  chain := chain
  words := wordsAt message (start + blockSize * position)
  counter := UInt64.ofNat chunk
  length := UInt32.ofNat (min blockSize (stop - (start + blockSize * position)))
  flags :=
    (if position = 0 then chunkStart else 0) |||
      (if stop <= start + blockSize * (position + 1) then chunkEnd else 0)

/-- Last block of a chunk, chained to all blocks before it. -/
def chunkLeaf (message : ByteArray) (chunk : Nat) : Block :=
  let start := chunkSize * chunk
  let stop := min message.size (start + chunkSize)
  let earlier := (stop - start - 1) / blockSize
  let chain := (List.range earlier).foldl
    (fun chain position =>
      (chunkBlock message chunk start stop chain position).compress)
    initialValue
  chunkBlock message chunk start stop chain earlier

/-- Block that joins two subtrees. -/
def join (left right : Block) : Block where
  chain := initialValue
  words := (left.compress ++ right.compress).cast (by omega)
  counter := 0
  length := 64
  flags := parentFlag

/-- Topmost block over `count` chunks, the first of them given. -/
def subtree (message : ByteArray) (first count : Nat) : Block :=
  if _ : count <= 1 then chunkLeaf message first
  else
    let left := Nat.pow 2 (Nat.log2 (count - 1))
    join (subtree message first left) (subtree message (first + left) (count - left))
termination_by count
decreasing_by
  · exact Nat.lt_of_le_of_lt (Nat.log2_self_le (by omega)) (by omega)
  · have : 0 < Nat.pow 2 (Nat.log2 (count - 1)) := Nat.two_pow_pos _
    omega

/-- Hexadecimal digits of a word, its bytes in little-endian order. -/
def wordDigits (word : UInt32) : List Char :=
  [0, 8, 16, 24].flatMap fun shift : UInt32 =>
    let byte := ((word >>> shift) &&& 0xff).toNat
    [Nat.digitChar (byte / 16), Nat.digitChar (byte % 16)]

/-- Digest of a message in hexadecimal digits. -/
def digest (message : ByteArray) : String :=
  let count := max 1 ((message.size + chunkSize - 1) / chunkSize)
  let top := subtree message 0 count
  let root := { top with flags := top.flags ||| rootFlag }
  String.ofList (root.compress.toList.flatMap wordDigits)

end Blake3
end StrategyGraph
