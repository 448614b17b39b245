import Blobsitter.Library.ByteString

/-!
# Keccak-256

The sponge with the original Keccak padding, over lanes kept as integers below
`2 ^ 64`.  Protocol results take the hash function as a parameter; this is the
concrete function at which they are evaluated.
-/

namespace Blobsitter.Library.Keccak

/-- The lanes of a state, row by row: lane `(x, y)` stands at `x + 5 * y`. -/
abbrev State := List Nat

def lane (state : State) (x y : Nat) : Nat := state.getD (x % 5 + 5 * (y % 5)) 0

def tabulate (f : Nat → Nat → Nat) : State :=
  (List.range 25).map fun i => f (i % 5) (i / 5)

def rotateLeft (word amount : Nat) : Nat :=
  ((word <<< amount) ||| (word >>> (64 - amount))) % 2 ^ 64

/-- Rotation amount of each lane, in the order of the state. -/
def rotations : List Nat :=
  [0, 1, 62, 28, 27, 36, 44, 6, 55, 20, 3, 10, 43, 25, 39, 41, 45, 15, 21, 8, 18, 2, 61, 56, 14]

def roundConstants : List Nat :=
  [0x0000000000000001, 0x0000000000008082, 0x800000000000808A, 0x8000000080008000,
    0x000000000000808B, 0x0000000080000001, 0x8000000080008081, 0x8000000000008009,
    0x000000000000008A, 0x0000000000000088, 0x0000000080008009, 0x000000008000000A,
    0x000000008000808B, 0x800000000000008B, 0x8000000000008089, 0x8000000000008003,
    0x8000000000008002, 0x8000000000000080, 0x000000000000800A, 0x800000008000000A,
    0x8000000080008081, 0x8000000000008080, 0x0000000080000001, 0x8000000080008008]

def theta (state : State) : State :=
  let columns := (List.range 5).map fun x =>
    lane state x 0 ^^^ lane state x 1 ^^^ lane state x 2 ^^^ lane state x 3 ^^^ lane state x 4
  let parity := (List.range 5).map fun x =>
    columns.getD ((x + 4) % 5) 0 ^^^ rotateLeft (columns.getD ((x + 1) % 5) 0) 1
  tabulate fun x y => lane state x y ^^^ parity.getD x 0

/-- Rotation of every lane, then the lane permutation `(x, y) ↦ (y, 2x + 3y)`. -/
def rhoPi (state : State) : State :=
  let rotated := (state.zip rotations).map fun entry => rotateLeft entry.1 entry.2
  tabulate fun x y => lane rotated (x + 3 * y) x

def chi (state : State) : State :=
  tabulate fun x y =>
    lane state x y ^^^ ((2 ^ 64 - 1 - lane state (x + 1) y) &&& lane state (x + 2) y)

def iota (constant : Nat) (state : State) : State :=
  state.modifyHead (· ^^^ constant)

def permute (state : State) : State :=
  roundConstants.foldl (fun current constant => iota constant (chi (rhoPi (theta current)))) state

/-- Bytes of one block at rate 1088 bits. -/
def rate : Nat := 136

def leNat (bytes : ByteString) : Nat := bytes.foldr (fun byte acc => byte.toNat + 256 * acc) 0

def leBytes : Nat → Nat → ByteString
  | 0, _ => []
  | width + 1, n => UInt8.ofNat n :: leBytes width (n / 256)

/-- Original padding: `01`, zeros, and the top bit of the block's last byte. -/
def pad (message : ByteString) : ByteString :=
  let free := rate - message.length % rate
  message ++ if free = 1 then [0x81] else 0x01 :: (List.replicate (free - 2) 0 ++ [0x80])

def absorbBlock (state : State) (block : ByteString) : State :=
  permute (tabulate fun x y =>
    lane state x y ^^^ leNat ((block.drop (8 * (x + 5 * y))).take 8))

def absorb : Nat → State → ByteString → State
  | 0, state, _ => state
  | blocks + 1, state, bytes => absorb blocks (absorbBlock state (bytes.take rate)) (bytes.drop rate)

def digest (message : ByteString) : ByteString :=
  let final := absorb (message.length / rate + 1) (tabulate fun _ _ => 0) (pad message)
  (final.take 4).flatMap (leBytes 8)

/-- Keccak-256 as a 32-byte word. -/
def keccak256 (message : ByteString) : Word 32 := beWord 32 (beNat (digest message))

example : wordNat (keccak256 []) =
    0xc5d2460186f7233c927e7db2dcc703c0e500b653ca82273b7bfad8045d85a470 := by decide +kernel

end Blobsitter.Library.Keccak
