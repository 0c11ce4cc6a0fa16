import DocGuard.Json

/-!
SHA-256 over words kept as natural numbers below `2^32`, with the digest as
lowercase hexadecimal text (`hashlib.sha256(data).hexdigest()`). Every word is
evaluated before it is passed on (`strict`), so that the digest of a text of
some kilobytes can be checked by evaluation.
-/
namespace DocGuard.Sha256

/-- The continuation at a number, where evaluation reaches the numeral first. -/
def strict {α : Type} : Nat → (Nat → α) → α
  | 0,next => next 0
  | n+1,next => next (Nat.succ n)

theorem strict_eq {α : Type} (n : Nat) (next : Nat → α) : strict n next = next n := by
  cases n <;> rfl

/-- The continuation at a list of numbers, each of which is evaluated first. -/
def strictAll {α : Type} : List Nat → (List Nat → α) → α
  | [],next => next []
  | n :: rest,next => strict n fun n' => strictAll rest fun rest' => next (n' :: rest')

theorem strictAll_eq {α : Type} (ns : List Nat) (next : List Nat → α) : strictAll ns next = next ns := by
  induction ns generalizing next with
  | nil => rfl
  | cons n rest ih => simp only [strictAll,strict_eq,ih]

def roundConstants : List Nat :=
  [0x428a2f98,0x71374491,0xb5c0fbcf,0xe9b5dba5,0x3956c25b,0x59f111f1,0x923f82a4,0xab1c5ed5,
   0xd807aa98,0x12835b01,0x243185be,0x550c7dc3,0x72be5d74,0x80deb1fe,0x9bdc06a7,0xc19bf174,
   0xe49b69c1,0xefbe4786,0x0fc19dc6,0x240ca1cc,0x2de92c6f,0x4a7484aa,0x5cb0a9dc,0x76f988da,
   0x983e5152,0xa831c66d,0xb00327c8,0xbf597fc7,0xc6e00bf3,0xd5a79147,0x06ca6351,0x14292967,
   0x27b70a85,0x2e1b2138,0x4d2c6dfc,0x53380d13,0x650a7354,0x766a0abb,0x81c2c92e,0x92722c85,
   0xa2bfe8a1,0xa81a664b,0xc24b8b70,0xc76c51a3,0xd192e819,0xd6990624,0xf40e3585,0x106aa070,
   0x19a4c116,0x1e376c08,0x2748774c,0x34b0bcb5,0x391c0cb3,0x4ed8aa4a,0x5b9cca4f,0x682e6ff3,
   0x748f82ee,0x78a5636f,0x84c87814,0x8cc70208,0x90befffa,0xa4506ceb,0xbef9a3f7,0xc67178f2]

def rotateRight (n x : Nat) : Nat := Nat.lor (Nat.shiftRight x n) (Nat.land (Nat.shiftLeft x (Nat.sub 32 n)) 0xffffffff)

def xor3 (x y z : Nat) : Nat := Nat.xor x (Nat.xor y z)

def bigSigma0 (x : Nat) : Nat := xor3 (rotateRight 2 x) (rotateRight 13 x) (rotateRight 22 x)
def bigSigma1 (x : Nat) : Nat := xor3 (rotateRight 6 x) (rotateRight 11 x) (rotateRight 25 x)
def smallSigma0 (x : Nat) : Nat := xor3 (rotateRight 7 x) (rotateRight 18 x) (Nat.shiftRight x 3)
def smallSigma1 (x : Nat) : Nat := xor3 (rotateRight 17 x) (rotateRight 19 x) (Nat.shiftRight x 10)
def choose (x y z : Nat) : Nat := Nat.xor (Nat.land x y) (Nat.land (Nat.xor x 0xffffffff) z)
def majority (x y z : Nat) : Nat := xor3 (Nat.land x y) (Nat.land x z) (Nat.land y z)
def word (n : Nat) : Nat := Nat.mod n 0x100000000

/-- The eight chaining words. -/
structure Chain where
  a : Nat
  b : Nat
  c : Nat
  d : Nat
  e : Nat
  f : Nat
  g : Nat
  h : Nat

def initial : Chain :=
  ⟨0x6a09e667,0xbb67ae85,0x3c6ef372,0xa54ff53a,0x510e527f,0x9b05688c,0x1f83d9ab,0x5be0cd19⟩

/-- The next sixteen words of the schedule. -/
structure Window where
  w0 : Nat
  w1 : Nat
  w2 : Nat
  w3 : Nat
  w4 : Nat
  w5 : Nat
  w6 : Nat
  w7 : Nat
  w8 : Nat
  w9 : Nat
  w10 : Nat
  w11 : Nat
  w12 : Nat
  w13 : Nat
  w14 : Nat
  w15 : Nat

/-- The rounds of one block: the constants still to use and the next words of the schedule. -/
def rounds : List Nat → Window → Chain → Chain
  | [],_,chain => chain
  | k :: ks,⟨w0,w1,w2,w3,w4,w5,w6,w7,w8,w9,w10,w11,w12,w13,w14,w15⟩,⟨a,b,c,d,e,f,g,h⟩ =>
      strict (word (Nat.add (Nat.add w0 (smallSigma0 w1)) (Nat.add w9 (smallSigma1 w14)))) fun w16 =>
      strict (Nat.add (Nat.add h (bigSigma1 e)) (Nat.add (choose e f g) (Nat.add k w0))) fun t1 =>
      strict (word (Nat.add t1 (Nat.add (bigSigma0 a) (majority a b c)))) fun a' =>
      strict (word (Nat.add d t1)) fun e' =>
      rounds ks ⟨w1,w2,w3,w4,w5,w6,w7,w8,w9,w10,w11,w12,w13,w14,w15,w16⟩ ⟨a',a,b,c,e',e,f,g⟩

/-- The window at the start of a list of words, and the rest. -/
def window : List Nat → Window
  | w0 :: w1 :: w2 :: w3 :: w4 :: w5 :: w6 :: w7 :: w8 :: w9 :: w10 :: w11 :: w12 :: w13 :: w14 :: w15 :: _ =>
    ⟨w0,w1,w2,w3,w4,w5,w6,w7,w8,w9,w10,w11,w12,w13,w14,w15⟩
  | _ => ⟨0,0,0,0,0,0,0,0,0,0,0,0,0,0,0,0⟩

def addChain : Chain → Chain → Chain
  | ⟨a,b,c,d,e,f,g,h⟩,⟨a',b',c',d',e',f',g',h'⟩ =>
    ⟨word (a+a'),word (b+b'),word (c+c'),word (d+d'),word (e+e'),word (f+f'),word (g+g'),word (h+h')⟩

/-- Big-endian words of a list of bytes. -/
def words : List Nat → List Nat
  | a :: b :: c :: d :: rest => (a * 0x1000000 + b * 0x10000 + c * 0x100 + d) :: words rest
  | _ => []

def blocks : Nat → List Nat → Chain → Chain
  | 0,_,chain => chain
  | n+1,ws,chain => blocks n (ws.drop 16) (addChain chain (rounds roundConstants (window ws) chain))

/-- The message with the bit `1`, zeros and its length in bits. -/
def padded (message : List Nat) : List Nat :=
  let bits := 8 * message.length
  message ++ [0x80] ++ List.replicate ((119 - message.length % 64) % 64) 0 ++
    (List.range 8).map (fun i => bits / 256 ^ (7 - i) % 256)

def hexWord (n : Nat) : Text := Json.hex4 (n / 0x10000) ++ Json.hex4 n

def hexDigest : Chain → Text
  | ⟨a,b,c,d,e,f,g,h⟩ => [a,b,c,d,e,f,g,h].flatMap hexWord

/-- `hashlib.sha256(message).hexdigest()` -/
def sha256 (message : List UInt8) : Text :=
  strictAll (words (padded (message.map (·.toNat)))) fun ws => hexDigest (blocks (ws.length / 16) ws initial)

example : sha256 [97,98,99] = lit "ba7816bf8f01cfea414140de5dae2223b00361a396177a9cb410ff61f20015ad" := by
  decide +kernel

end DocGuard.Sha256
