/-!
# The ChaCha key stream

ChaCha with twelve rounds, a key of eight words, a 64-bit block counter and stream zero. A
block is read as eight numbers of 64 bits, the low word of each first.
-/

namespace SchedulerLearning.Random

structure Key where
  k0 : UInt32
  k1 : UInt32
  k2 : UInt32
  k3 : UInt32
  k4 : UInt32
  k5 : UInt32
  k6 : UInt32
  k7 : UInt32
  deriving DecidableEq, Repr

structure Block where
  x0 : UInt32
  x1 : UInt32
  x2 : UInt32
  x3 : UInt32
  x4 : UInt32
  x5 : UInt32
  x6 : UInt32
  x7 : UInt32
  x8 : UInt32
  x9 : UInt32
  x10 : UInt32
  x11 : UInt32
  x12 : UInt32
  x13 : UInt32
  x14 : UInt32
  x15 : UInt32
  deriving DecidableEq, Repr

structure Quarter where
  a : UInt32
  b : UInt32
  c : UInt32
  d : UInt32

@[inline] def rotateLeft (x n : UInt32) : UInt32 := (x <<< n) ||| (x >>> (32 - n))

@[inline] def Quarter.mix (q : Quarter) : Quarter :=
  let a := q.a + q.b
  let d := rotateLeft (q.d ^^^ a) 16
  let c := q.c + d
  let b := rotateLeft (q.b ^^^ c) 12
  let a := a + b
  let d := rotateLeft (d ^^^ a) 8
  let c := c + d
  let b := rotateLeft (b ^^^ c) 7
  ⟨a, b, c, d⟩

/-- A round on the columns, then one on the diagonals. -/
def Block.doubleRound (s : Block) : Block :=
  let p := Quarter.mix ⟨s.x0, s.x4, s.x8, s.x12⟩
  let q := Quarter.mix ⟨s.x1, s.x5, s.x9, s.x13⟩
  let r := Quarter.mix ⟨s.x2, s.x6, s.x10, s.x14⟩
  let t := Quarter.mix ⟨s.x3, s.x7, s.x11, s.x15⟩
  let u := Quarter.mix ⟨p.a, q.b, r.c, t.d⟩
  let v := Quarter.mix ⟨q.a, r.b, t.c, p.d⟩
  let w := Quarter.mix ⟨r.a, t.b, p.c, q.d⟩
  let y := Quarter.mix ⟨t.a, p.b, q.c, r.d⟩
  { x0 := u.a, x5 := u.b, x10 := u.c, x15 := u.d
    x1 := v.a, x6 := v.b, x11 := v.c, x12 := v.d
    x2 := w.a, x7 := w.b, x8 := w.c, x13 := w.d
    x3 := y.a, x4 := y.b, x9 := y.c, x14 := y.d }

def Block.add (s t : Block) : Block :=
  { x0 := s.x0 + t.x0, x1 := s.x1 + t.x1, x2 := s.x2 + t.x2, x3 := s.x3 + t.x3
    x4 := s.x4 + t.x4, x5 := s.x5 + t.x5, x6 := s.x6 + t.x6, x7 := s.x7 + t.x7
    x8 := s.x8 + t.x8, x9 := s.x9 + t.x9, x10 := s.x10 + t.x10, x11 := s.x11 + t.x11
    x12 := s.x12 + t.x12, x13 := s.x13 + t.x13, x14 := s.x14 + t.x14, x15 := s.x15 + t.x15 }

/-- What is mixed into block number `counter`: four constants, the key, the counter. -/
def Block.start (key : Key) (counter : UInt64) : Block :=
  { x0 := 0x61707865, x1 := 0x3320646e, x2 := 0x79622d32, x3 := 0x6b206574
    x4 := key.k0, x5 := key.k1, x6 := key.k2, x7 := key.k3
    x8 := key.k4, x9 := key.k5, x10 := key.k6, x11 := key.k7
    x12 := counter.toUInt32, x13 := (counter >>> 32).toUInt32, x14 := 0, x15 := 0 }

def Block.keystream (key : Key) (counter : UInt64) : Block :=
  let start := Block.start key counter
  let mixed := start.doubleRound.doubleRound.doubleRound.doubleRound.doubleRound.doubleRound
  mixed.add start

@[inline] def join (low high : UInt32) : UInt64 := low.toUInt64 ||| (high.toUInt64 <<< 32)

def Block.number (s : Block) (i : Nat) : UInt64 :=
  match i with
  | 0 => join s.x0 s.x1
  | 1 => join s.x2 s.x3
  | 2 => join s.x4 s.x5
  | 3 => join s.x6 s.x7
  | 4 => join s.x8 s.x9
  | 5 => join s.x10 s.x11
  | 6 => join s.x12 s.x13
  | _ => join s.x14 s.x15

end SchedulerLearning.Random
