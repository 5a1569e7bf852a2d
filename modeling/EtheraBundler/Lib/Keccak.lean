import EtheraBundler.Lib.BigEndian
/-!
# Keccak-256

The sponge over Keccak-f[1600] with rate 136 and the original `0x01 .. 0x80` padding. Lanes are
64-bit words, the state is the list of its 25 lanes with lane `(x, y)` at `x + 5 * y`.
-/

namespace Keccak

abbrev Lane := BitVec 64

def roundConstants : List Lane :=
  [0x0000000000000001, 0x0000000000008082, 0x800000000000808a, 0x8000000080008000, 0x000000000000808b,
   0x0000000080000001, 0x8000000080008081, 0x8000000000008009, 0x000000000000008a, 0x0000000000000088,
   0x0000000080008009, 0x000000008000000a, 0x000000008000808b, 0x800000000000008b, 0x8000000000008089,
   0x8000000000008003, 0x8000000000008002, 0x8000000000000080, 0x000000000000800a, 0x800000008000000a,
   0x8000000080008081, 0x8000000000008080, 0x0000000080000001, 0x8000000080008008]

/-- The rotation of lane `(x, y)`, at `x + 5 * y`. -/
def rotations : List Nat :=
  [0, 1, 62, 28, 27, 36, 44, 6, 55, 20, 3, 10, 43, 25, 39, 41, 45, 15, 21, 8, 18, 2, 61, 56, 14]

def lane (a : List Lane) (x y : Nat) : Lane := a.getD (x % 5 + 5 * (y % 5)) 0

def tabulate (f : Nat → Nat → Lane) : List Lane := (List.range 25).map fun i => f (i % 5) (i / 5)

def theta (a : List Lane) : List Lane :=
  let c := (List.range 5).map fun x => lane a x 0 ^^^ lane a x 1 ^^^ lane a x 2 ^^^ lane a x 3 ^^^ lane a x 4
  tabulate fun x y => lane a x y ^^^ c.getD ((x + 4) % 5) 0 ^^^ (c.getD ((x + 1) % 5) 0).rotateLeft 1

/-- Lane `(x, y)`, rotated, moves to `(y, 2 * x + 3 * y)`; read here from its destination. -/
def rhoPi (a : List Lane) : List Lane :=
  tabulate fun x y =>
    let i := (x + 3 * y) % 5 + 5 * x
    (a.getD i 0).rotateLeft (rotations.getD i 0)

def chi (a : List Lane) : List Lane :=
  tabulate fun x y => lane a x y ^^^ (~~~ lane a (x + 1) y &&& lane a (x + 2) y)

def round (a : List Lane) (rc : Lane) : List Lane :=
  match chi (rhoPi (theta a)) with
  | l :: rest => (l ^^^ rc) :: rest
  | [] => []

def permute (a : List Lane) : List Lane := roundConstants.foldl round a

/-- The lanes of a byte string, little-endian. -/
def lanes : Nat → List UInt8 → List Lane
  | 0, _ => []
  | n + 1, l => BitVec.ofNat 64 (BigEndian.ofBe (l.take 8).reverse) :: lanes n (l.drop 8)

def rate : Nat := 136

def pad (l : List UInt8) : List UInt8 :=
  match rate - l.length % rate with
  | 1 => l ++ [0x81]
  | n => l ++ 0x01 :: (List.replicate (n - 2) 0 ++ [0x80])

/-- Absorb `n` blocks. -/
def absorb : Nat → List Lane → List UInt8 → List Lane
  | 0, a, _ => a
  | n + 1, a, l =>
    let block := lanes 17 l ++ List.replicate 8 0
    absorb n (permute (List.zipWith (· ^^^ ·) a block)) (l.drop rate)

def keccak256 (l : List UInt8) : List UInt8 :=
  let padded := pad l
  let a := absorb (padded.length / rate) (List.replicate 25 0) padded
  (List.range 4).flatMap fun i => (BigEndian.beBytes 8 (a.getD i 0).toNat).reverse

theorem length_keccak256 (l : List UInt8) : (keccak256 l).length = 32 := by
  simp [keccak256, List.range_succ]

end Keccak
