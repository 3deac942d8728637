/-!
# The BLAKE3 digest

A message is cut into chunks of 1024 bytes, each chunk is compressed block by block, and the
chaining values of the chunks are combined in a binary tree whose left part is always full.

* `Blake3.compress` : the compression function on words of 32 bits.
* `Blake3.digest` : the digest of 32 bytes.
-/

set_option autoImplicit false

namespace DraftLedger.Blake3

/-! ## Compression -/

def initial : Array UInt32 :=
  #[0x6a09e667, 0xbb67ae85, 0x3c6ef372, 0xa54ff53a, 0x510e527f, 0x9b05688c, 0x1f83d9ab, 0x5be0cd19]

/-- The order in which the words of a block enter the next round. -/
def permutation : List Nat := [2, 6, 3, 10, 7, 0, 4, 13, 1, 11, 12, 5, 9, 14, 15, 8]

/-- Rotation to the right. -/
def rotate (x : UInt32) (n : UInt32) : UInt32 := (x >>> n) ||| (x <<< (32 - n))

/-- Mixes two words of the block into a column or diagonal of the state. -/
def mix (v : Array UInt32) (a b c d : Nat) (x y : UInt32) : Array UInt32 :=
  let va := v[a]! + v[b]! + x
  let vd := rotate (v[d]! ^^^ va) 16
  let vc := v[c]! + vd
  let vb := rotate (v[b]! ^^^ vc) 12
  let va := va + vb + y
  let vd := rotate (vd ^^^ va) 8
  let vc := vc + vd
  let vb := rotate (vb ^^^ vc) 7
  (((v.set! a va).set! b vb).set! c vc).set! d vd

/-- One round: the four columns, then the four diagonals. -/
def round (v m : Array UInt32) : Array UInt32 :=
  let v := mix v 0 4 8 12 m[0]! m[1]!
  let v := mix v 1 5 9 13 m[2]! m[3]!
  let v := mix v 2 6 10 14 m[4]! m[5]!
  let v := mix v 3 7 11 15 m[6]! m[7]!
  let v := mix v 0 5 10 15 m[8]! m[9]!
  let v := mix v 1 6 11 12 m[10]! m[11]!
  let v := mix v 2 7 8 13 m[12]! m[13]!
  mix v 3 4 9 14 m[14]! m[15]!

/-- Rounds with the words of the block in a new order before each further one. -/
def rounds : Nat → Array UInt32 → Array UInt32 → Array UInt32
  | 0, v, _ => v
  | n + 1, v, m => rounds n (round v m) (permutation.map fun i => m[i]!).toArray

/-- Compresses a block of sixteen words into a chaining value of eight. -/
def compress (chaining block : Array UInt32) (counter : UInt64) (length flags : UInt32) :
    Array UInt32 :=
  let v := chaining ++ #[initial[0]!, initial[1]!, initial[2]!, initial[3]!,
    counter.toUInt32, (counter >>> 32).toUInt32, length, flags]
  let v := rounds 7 v block
  (List.range 8).toArray.map fun i => v[i]! ^^^ v[i + 8]!

/-! ## Chunks -/

/-- Marks the first block of a chunk. -/
def chunkStart : UInt32 := 1

/-- Marks the last block of a chunk. -/
def chunkEnd : UInt32 := 2

def parent : UInt32 := 4

/-- Marks the last compression of all. -/
def root : UInt32 := 8

/-- A word of four bytes, the lowest first. -/
def word : List UInt8 → UInt32
  | [] => 0
  | b :: rest => b.toUInt32 ||| (word rest <<< 8)

/-- The words of a block, zeros after its end. -/
def blockWords (block : List UInt8) : Array UInt32 :=
  ((List.range 16).map fun i => word ((block.drop (4 * i)).take 4)).toArray

/-- Compresses the blocks of a chunk in turn. The fuel is the number of blocks. -/
def chunkBlocks (counter : UInt64) (final : UInt32) :
    Nat → UInt32 → Array UInt32 → List UInt8 → Array UInt32
  | 0, _, chaining, _ => chaining
  | fuel + 1, start, chaining, bytes =>
    let block := bytes.take 64
    let rest := bytes.drop 64
    if rest.isEmpty then
      compress chaining (blockWords block) counter block.length.toUInt32 (start ||| chunkEnd ||| final)
    else
      chunkBlocks counter final fuel 0
        (compress chaining (blockWords block) counter 64 start) rest

def chunk (counter : UInt64) (final : UInt32) (bytes : List UInt8) : Array UInt32 :=
  chunkBlocks counter final 16 chunkStart initial bytes

/-- Cuts a message into chunks of 1024 bytes, at least one. The fuel bounds their number. -/
def chunks : Nat → List UInt8 → List (List UInt8)
  | 0, bytes => [bytes]
  | fuel + 1, bytes =>
    if bytes.length ≤ 1024 then [bytes] else bytes.take 1024 :: chunks fuel (bytes.drop 1024)

/-! ## The tree -/

/-- The greatest power of two below a number that is at least two. -/
def leftSize (n : Nat) : Nat := 1 <<< Nat.log2 (n - 1)

/-- The chaining value of a run of chunks that starts at a counter. The fuel bounds the height. -/
def tree (final : UInt32) : Nat → UInt64 → List (List UInt8) → Array UInt32
  | 0, counter, cs => chunk counter final (cs.headD [])
  | fuel + 1, counter, cs =>
    match cs with
    | [] => chunk counter final []
    | [c] => chunk counter final c
    | cs =>
      let k := leftSize cs.length
      let left := tree 0 fuel counter (cs.take k)
      let right := tree 0 fuel (counter + k.toUInt64) (cs.drop k)
      compress initial (left ++ right) 0 64 (parent ||| final)

/-- The four bytes of a word, the lowest first. -/
def wordBytes (w : UInt32) : List UInt8 :=
  [w.toUInt8, (w >>> 8).toUInt8, (w >>> 16).toUInt8, (w >>> 24).toUInt8]

def digest (message : List UInt8) : List UInt8 :=
  let cs := chunks message.length message
  (tree root cs.length 0 cs).toList.flatMap wordBytes

end DraftLedger.Blake3
