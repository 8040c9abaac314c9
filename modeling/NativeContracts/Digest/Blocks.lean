import NativeContracts.Bytes

-- Messages of an iterated hash: padded to whole blocks of 64 bytes, then cut.

namespace NativeContracts.Digest

-- The first `count` pieces of `size` elements each.
def pieces {α : Type} (size : Nat) : Nat → List α → List (List α)
  | 0, _ => []
  | count + 1, xs => xs.take size :: pieces size count (xs.drop size)

-- How many zeros stand between the end mark and the eight bytes of the length.
def fill (length : Nat) : Nat := (119 - length % 64) % 64

-- The message, a mark, zeros up to 56 bytes past a block boundary, and the length in bits.
def padded (lengthField : Nat → Bytes) (message : Bytes) : Bytes :=
  message ++ 128 :: (Bytes.zeros (fill message.length) ++ lengthField (8 * message.length))

def blocks (lengthField : Nat → Bytes) (message : Bytes) : List Bytes :=
  let text := padded lengthField message
  pieces 64 (text.length / 64) text

-- The sixteen 32-bit words of a block, each read by `value`.
def words32 (value : Bytes → Nat) (block : Bytes) : List UInt32 :=
  (pieces 4 16 block).map fun word => UInt32.ofNat (value word)

theorem length_pieces {α : Type} (size count : Nat) (xs : List α) :
    (pieces size count xs).length = count := by
  induction count generalizing xs with
  | zero => rfl
  | succ count ih => simp [pieces, ih]

theorem length_padded {lengthField : Nat → Bytes} (hfield : ∀ n, (lengthField n).length = 8)
    (message : Bytes) : (padded lengthField message).length % 64 = 0 := by
  simp only [padded, List.length_append, List.length_cons, Bytes.length_zeros, hfield, fill]
  omega

def rotateLeft32 (x : UInt32) (n : UInt32) : UInt32 := x <<< n ||| x >>> (32 - n)

def rotateRight32 (x : UInt32) (n : UInt32) : UInt32 := x >>> n ||| x <<< (32 - n)

def rotateLeft64 (x : UInt64) (n : UInt64) : UInt64 := x <<< n ||| x >>> (64 - n)

def rotateRight64 (x : UInt64) (n : UInt64) : UInt64 := x >>> n ||| x <<< (64 - n)

end NativeContracts.Digest
