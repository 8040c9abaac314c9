import NativeContracts.Digest.Blocks

-- RIPEMD-160: two lines of 80 steps over each block, joined into five words of state.

namespace NativeContracts.Ripemd160

open Digest

structure State where
  a : UInt32
  b : UInt32
  c : UInt32
  d : UInt32
  e : UInt32
deriving DecidableEq

def initial : State := ⟨0x67452301, 0xefcdab89, 0x98badcfe, 0x10325476, 0xc3d2e1f0⟩

-- The five ways of combining three words, in the order of the left line.
def mixers : List (UInt32 → UInt32 → UInt32 → UInt32) :=
  [fun x y z => x ^^^ y ^^^ z,
   fun x y z => (x &&& y) ||| (~~~x &&& z),
   fun x y z => (x ||| ~~~y) ^^^ z,
   fun x y z => (x &&& z) ||| (y &&& ~~~z),
   fun x y z => x ^^^ (y ||| ~~~z)]

-- A line has five rounds of sixteen steps. A round has one way of combining and one constant;
-- each of its steps takes a word of the block and a rotation.
structure Round where
  mixer : UInt32 → UInt32 → UInt32 → UInt32
  constant : UInt32
  order : List Nat
  rotations : List UInt32

def leftConstants : List UInt32 := [0x00000000, 0x5a827999, 0x6ed9eba1, 0x8f1bbcdc, 0xa953fd4e]

def rightConstants : List UInt32 := [0x50a28be6, 0x5c4dd124, 0x6d703ef3, 0x7a6d76e9, 0x00000000]

def leftOrder : List (List Nat) :=
  [[0, 1, 2, 3, 4, 5, 6, 7, 8, 9, 10, 11, 12, 13, 14, 15],
   [7, 4, 13, 1, 10, 6, 15, 3, 12, 0, 9, 5, 2, 14, 11, 8],
   [3, 10, 14, 4, 9, 15, 8, 1, 2, 7, 0, 6, 13, 11, 5, 12],
   [1, 9, 11, 10, 0, 8, 12, 4, 13, 3, 7, 15, 14, 5, 6, 2],
   [4, 0, 5, 9, 7, 12, 2, 10, 14, 1, 3, 8, 11, 6, 15, 13]]

def rightOrder : List (List Nat) :=
  [[5, 14, 7, 0, 9, 2, 11, 4, 13, 6, 15, 8, 1, 10, 3, 12],
   [6, 11, 3, 7, 0, 13, 5, 10, 14, 15, 8, 12, 4, 9, 1, 2],
   [15, 5, 1, 3, 7, 14, 6, 9, 11, 8, 12, 2, 10, 0, 4, 13],
   [8, 6, 4, 1, 3, 11, 15, 0, 5, 12, 2, 13, 9, 7, 10, 14],
   [12, 15, 10, 4, 1, 5, 8, 7, 6, 2, 13, 14, 0, 3, 9, 11]]

def leftRotations : List (List UInt32) :=
  [[11, 14, 15, 12, 5, 8, 7, 9, 11, 13, 14, 15, 6, 7, 9, 8],
   [7, 6, 8, 13, 11, 9, 7, 15, 7, 12, 15, 9, 11, 7, 13, 12],
   [11, 13, 6, 7, 14, 9, 13, 15, 14, 8, 13, 6, 5, 12, 7, 5],
   [11, 12, 14, 15, 14, 15, 9, 8, 9, 14, 5, 6, 8, 6, 5, 12],
   [9, 15, 5, 11, 6, 8, 13, 12, 5, 12, 13, 14, 11, 8, 5, 6]]

def rightRotations : List (List UInt32) :=
  [[8, 9, 9, 11, 13, 15, 15, 5, 7, 7, 8, 11, 14, 14, 12, 6],
   [9, 13, 15, 7, 12, 8, 9, 11, 7, 7, 12, 7, 6, 15, 13, 11],
   [9, 7, 15, 11, 8, 6, 6, 14, 12, 13, 5, 14, 13, 13, 7, 5],
   [15, 5, 8, 11, 14, 14, 6, 14, 6, 9, 12, 9, 12, 5, 15, 8],
   [8, 5, 12, 9, 12, 5, 14, 6, 8, 13, 6, 5, 15, 13, 11, 11]]

def rounds (mixers : List (UInt32 → UInt32 → UInt32 → UInt32)) (constants : List UInt32)
    (orders : List (List Nat)) (rotations : List (List UInt32)) : List Round :=
  ((mixers.zip constants).zip (orders.zip rotations)).map
    fun ((mixer, constant), order, rotation) => ⟨mixer, constant, order, rotation⟩

def leftLine : List Round := rounds mixers leftConstants leftOrder leftRotations

-- The right line combines words in the opposite order.
def rightLine : List Round := rounds mixers.reverse rightConstants rightOrder rightRotations

def step (r : Round) (words : Array UInt32) (s : State) (index : Nat) (rotation : UInt32) :
    State :=
  let sum := s.a + r.mixer s.b s.c s.d + words.getD index 0 + r.constant
  ⟨s.e, rotateLeft32 sum rotation + s.e, s.b, rotateLeft32 s.c 10, s.d⟩

def runLine (line : List Round) (words : Array UInt32) (s : State) : State :=
  line.foldl (fun s r =>
    (r.order.zip r.rotations).foldl (fun s (index, rotation) => step r words s index rotation) s) s

def compress (s : State) (block : Bytes) : State :=
  let words := (words32 Bytes.valueLittle block).toArray
  let l := runLine leftLine words s
  let r := runLine rightLine words s
  ⟨s.b + l.c + r.d, s.c + l.d + r.e, s.d + l.e + r.a, s.e + l.a + r.b, s.a + l.b + r.c⟩

def State.words (s : State) : List UInt32 := [s.a, s.b, s.c, s.d, s.e]

def State.toBytes (s : State) : Bytes :=
  s.words.flatMap fun word => Bytes.ofNatLittle 4 word.toNat

def digest (message : Bytes) : Bytes :=
  ((blocks (Bytes.ofNatLittle 8) message).foldl compress initial).toBytes

@[simp] theorem length_digest (message : Bytes) : (digest message).length = 20 := by
  simp [digest, State.toBytes, State.words]

end NativeContracts.Ripemd160
