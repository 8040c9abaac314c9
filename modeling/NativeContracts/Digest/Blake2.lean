import NativeContracts.Digest.Blocks

-- The compression function F of BLAKE2b with a free number of rounds (EIP-152).

namespace NativeContracts.Blake2

open Digest

structure Parameters where
  rounds : Nat
  state : Vector UInt64 8
  message : Vector UInt64 16
  offset0 : UInt64
  offset1 : UInt64
  last : Bool
deriving DecidableEq

-- The first 64 bits of the fractional parts of the square roots of the first eight primes.
def initial : Vector UInt64 8 :=
  #v[0x6a09e667f3bcc908, 0xbb67ae8584caa73b, 0x3c6ef372fe94f82b, 0xa54ff53a5f1d36f1,
   0x510e527fade682d1, 0x9b05688c2b3e6c1f, 0x1f83d9abfb41bd6b, 0x5be0cd19137e2179]

-- Which message words the ten kinds of round take, in order.
def orders : Array (Array Nat) :=
  #[#[0, 1, 2, 3, 4, 5, 6, 7, 8, 9, 10, 11, 12, 13, 14, 15],
   #[14, 10, 4, 8, 9, 15, 13, 6, 1, 12, 0, 2, 11, 7, 5, 3],
   #[11, 8, 12, 0, 5, 2, 15, 13, 10, 14, 3, 6, 7, 1, 9, 4],
   #[7, 9, 3, 1, 13, 12, 11, 14, 2, 6, 5, 10, 4, 0, 15, 8],
   #[9, 0, 5, 7, 2, 4, 10, 15, 14, 1, 11, 12, 6, 8, 3, 13],
   #[2, 12, 6, 10, 0, 11, 8, 3, 4, 13, 7, 5, 15, 14, 1, 9],
   #[12, 5, 1, 15, 14, 13, 4, 10, 0, 7, 6, 3, 9, 2, 8, 11],
   #[13, 11, 7, 14, 12, 1, 3, 9, 5, 0, 15, 4, 8, 6, 2, 10],
   #[6, 15, 14, 9, 11, 3, 0, 8, 12, 2, 13, 7, 1, 4, 10, 5],
   #[10, 2, 8, 4, 7, 6, 1, 5, 15, 11, 9, 14, 3, 12, 13, 0]]

abbrev Work := Vector UInt64 16

-- The four working words that one mixing touches.
structure Quad where
  a : Fin 16
  b : Fin 16
  c : Fin 16
  d : Fin 16

-- Four columns, then four diagonals.
def quads : List Quad :=
  [⟨0, 4, 8, 12⟩, ⟨1, 5, 9, 13⟩, ⟨2, 6, 10, 14⟩, ⟨3, 7, 11, 15⟩,
   ⟨0, 5, 10, 15⟩, ⟨1, 6, 11, 12⟩, ⟨2, 7, 8, 13⟩, ⟨3, 4, 9, 14⟩]

def mix (v : Work) (q : Quad) (x y : UInt64) : Work :=
  let a := v[q.a] + v[q.b] + x
  let d := rotateRight64 (v[q.d] ^^^ a) 32
  let c := v[q.c] + d
  let b := rotateRight64 (v[q.b] ^^^ c) 24
  let a := a + b + y
  let d := rotateRight64 (d ^^^ a) 16
  let c := c + d
  let b := rotateRight64 (b ^^^ c) 63
  (((v.set q.a a).set q.b b).set q.c c).set q.d d

def round (message : Vector UInt64 16) (index : Nat) (v : Work) : Work :=
  let order := orders.getD (index % 10) #[]
  let word (k : Nat) := message.getD (order.getD k 0) 0
  (quads.zip (List.range 8)).foldl (fun v (q, k) => mix v q (word (2 * k)) (word (2 * k + 1))) v

-- The state and the initial words, with the offset and the mark of the last block mixed in.
def start (p : Parameters) : Work :=
  let v : Work := p.state ++ initial
  let v := v.set 12 (v[12] ^^^ p.offset0)
  let v := v.set 13 (v[13] ^^^ p.offset1)
  if p.last then v.set 14 (~~~v[14]) else v

def compress (p : Parameters) : Vector UInt64 8 :=
  let v := Nat.fold p.rounds (fun index _ v => round p.message index v) (start p)
  Vector.ofFn fun i : Fin 8 => p.state[i] ^^^ v[i] ^^^ v[i.val + 8]

def toBytes (state : Vector UInt64 8) : Bytes :=
  state.toList.flatMap fun word => Bytes.ofNatLittle 8 word.toNat

@[simp] theorem length_toBytes (state : Vector UInt64 8) : (toBytes state).length = 64 := by
  simp [toBytes, List.length_flatMap, List.map_const']

end NativeContracts.Blake2
