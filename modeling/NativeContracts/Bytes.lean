-- Byte strings, read as big-endian numbers, and read as if zeros followed them forever.

namespace NativeContracts

abbrev Bytes := List UInt8

namespace Bytes

def zeros (count : Nat) : Bytes := List.replicate count 0

-- The big-endian value.
def value (bytes : Bytes) : Nat :=
  bytes.foldl (fun acc byte => acc * 256 + byte.toNat) 0

-- The last `width` base-256 digits of a number, most significant first, in front of `rest`.
def ofNatOnto : Nat → Nat → Bytes → Bytes
  | 0, _, rest => rest
  | width + 1, n, rest => ofNatOnto width (n / 256) (UInt8.ofNat n :: rest)

-- The big-endian form of a number in exactly `width` bytes; higher digits are dropped.
def ofNat (width n : Nat) : Bytes := ofNatOnto width n []

-- The little-endian value and form.
def valueLittle (bytes : Bytes) : Nat := value bytes.reverse

def ofNatLittle (width n : Nat) : Bytes := (ofNat width n).reverse

-- The bytes that stand there from `start` on, at most `length` of them.
def part (bytes : Bytes) (start length : Nat) : Bytes :=
  (bytes.drop start).take length

-- The same stretch of the string followed by endless zeros: always `length` bytes.
def window (bytes : Bytes) (start length : Nat) : Bytes :=
  let present := bytes.part start length
  present ++ zeros (length - present.length)

-- The value of a window, without writing its zeros out.
def valueAt (bytes : Bytes) (start length : Nat) : Nat :=
  let present := bytes.part start length
  present.value <<< (8 * (length - present.length))

@[simp] theorem length_zeros (count : Nat) : (zeros count).length = count := by
  simp [zeros]

@[simp] theorem length_ofNatOnto (width n : Nat) (rest : Bytes) :
    (ofNatOnto width n rest).length = width + rest.length := by
  induction width generalizing n rest with
  | zero => simp [ofNatOnto]
  | succ width ih => simp only [ofNatOnto, ih, List.length_cons]; omega

@[simp] theorem length_ofNat (width n : Nat) : (ofNat width n).length = width := by
  simp [ofNat]

@[simp] theorem length_ofNatLittle (width n : Nat) : (ofNatLittle width n).length = width := by
  simp [ofNatLittle]

theorem length_part_le (bytes : Bytes) (start length : Nat) :
    (bytes.part start length).length ≤ length := by
  simp only [part, List.length_take, List.length_drop]
  omega

@[simp] theorem length_window (bytes : Bytes) (start length : Nat) :
    (bytes.window start length).length = length := by
  have := length_part_le bytes start length
  simp only [window, List.length_append, length_zeros]
  omega

end Bytes

end NativeContracts
