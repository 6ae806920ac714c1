import Solva.Codec.BigEndian

/-!
# Keccak-256

The hash that the host offers as `keccak256`: a sponge of rate 136 over 25 lanes of 64
bits, with the padding from before the standard.
-/

namespace Solva.Codec.Keccak

/-- A lane turned left. -/
def rotl (lane count : Nat) : Nat :=
  (lane <<< count ||| lane >>> (64 - count)) % 2 ^ 64

/-- The turns of the lanes, row by row. -/
def turns : List Nat :=
  [0, 1, 62, 28, 27, 36, 44, 6, 55, 20, 3, 10, 43, 25, 39, 41, 45, 15, 21, 8, 18, 2, 61, 56, 14]

def roundConstants : List Nat :=
  [0x0000000000000001, 0x0000000000008082, 0x800000000000808a, 0x8000000080008000,
    0x000000000000808b, 0x0000000080000001, 0x8000000080008081, 0x8000000000008009,
    0x000000000000008a, 0x0000000000000088, 0x0000000080008009, 0x000000008000000a,
    0x000000008000808b, 0x800000000000008b, 0x8000000000008089, 0x8000000000008003,
    0x8000000000008002, 0x8000000000000080, 0x000000000000800a, 0x800000008000000a,
    0x8000000080008081, 0x8000000000008080, 0x0000000080000001, 0x8000000080008008]

/-- Every lane takes the parities of two columns. -/
def theta (lanes : List Nat) : List Nat :=
  let parity := (List.range 5).map fun x =>
    lanes.getD x 0 ^^^ lanes.getD (x + 5) 0 ^^^ lanes.getD (x + 10) 0 ^^^ lanes.getD (x + 15) 0 ^^^
      lanes.getD (x + 20) 0
  let change := (List.range 5).map fun x =>
    parity.getD ((x + 4) % 5) 0 ^^^ rotl (parity.getD ((x + 1) % 5) 0) 1
  (List.range 25).map fun i => lanes.getD i 0 ^^^ change.getD (i % 5) 0

/-- The lanes turned and moved. -/
def rhoPi (lanes : List Nat) : List Nat :=
  (List.range 25).map fun i =>
    let source := (i % 5 + 3 * (i / 5)) % 5 + 5 * (i % 5)
    rotl (lanes.getD source 0) (turns.getD source 0)

/-- The step that is not linear, row by row. -/
def chi (lanes : List Nat) : List Nat :=
  (List.range 25).map fun i =>
    let row := 5 * (i / 5)
    lanes.getD i 0 ^^^
      ((2 ^ 64 - 1 - lanes.getD (row + (i + 1) % 5) 0) &&& lanes.getD (row + (i + 2) % 5) 0)

/-- One round. -/
def round (lanes : List Nat) (constant : Nat) : List Nat :=
  let next := chi (rhoPi (theta lanes))
  (next.headD 0 ^^^ constant) :: next.tail

/-- Keccak-f[1600]. -/
def permutation (lanes : List Nat) : List Nat :=
  roundConstants.foldl round lanes

/-- The lane of eight bytes, the lowest first. -/
def laneOf (bytes : List UInt8) : Nat :=
  BigEndian.ofBytes bytes.reverse

/-- One block of 17 lanes. -/
def absorb (lanes : List Nat) (bytes : List UInt8) : List Nat :=
  permutation ((List.range 25).map fun i =>
    lanes.getD i 0 ^^^ laneOf ((bytes.drop (8 * i)).take 8))

/-- The message with a one behind it and in its last bit, in whole blocks. -/
def pad (message : List UInt8) : List UInt8 :=
  let missing := 136 - message.length % 136
  if missing = 1 then message ++ [0x81]
  else message ++ [0x01] ++ List.replicate (missing - 2) 0 ++ [0x80]

/-- The blocks of a message absorbed, of which there are `count`. -/
def absorbBlocks : Nat → List Nat → List UInt8 → List Nat
  | 0, lanes, _ => lanes
  | count + 1, lanes, bytes => absorbBlocks count (absorb lanes (bytes.take 136)) (bytes.drop 136)

/-- `keccak256`. -/
def keccak256 (message : List UInt8) : BytesN 32 :=
  let lanes := absorbBlocks (message.length / 136 + 1) (List.replicate 25 0) (pad message)
  BytesN.ofNat 32 (BigEndian.ofBytes
    ((lanes.take 4).flatMap fun lane => (BigEndian.toBytes 8 lane).reverse))

example : (keccak256 []).toNat =
    0xc5d2460186f7233c927e7db2dcc703c0e500b653ca82273b7bfad8045d85a470 := by
  decide +kernel

end Solva.Codec.Keccak
