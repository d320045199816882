import SchedulerLearning.Random.Keystream

/-!
# Reproducible generators

A generator is a position in the key stream of a key expanded from a 64-bit seed. The
simulation draws from a `Source`, which is all it knows of a generator; statements about
simulations hold for any source.
-/

namespace SchedulerLearning.Random

/-- The next eight numbers to be read, and how many of them have been. -/
structure Generator where
  key : Key
  /-- The number of the block after the buffered one. -/
  next : UInt64
  buffered : Block
  used : Nat
  deriving DecidableEq, Repr

/-- One step of the expansion of a seed: the key word and the seed behind it. -/
def expand (seed : UInt64) : UInt32 × UInt64 :=
  let s := seed * 6364136223846793005 + 11634580027462260723
  let x := (((s >>> 18) ^^^ s) >>> 27).toUInt32
  let r := (s >>> 59).toUInt32
  ((x >>> r) ||| (x <<< ((32 - r) &&& 31)), s)

def Key.ofSeed (seed : UInt64) : Key :=
  let (k0, s) := expand seed
  let (k1, s) := expand s
  let (k2, s) := expand s
  let (k3, s) := expand s
  let (k4, s) := expand s
  let (k5, s) := expand s
  let (k6, s) := expand s
  let (k7, _) := expand s
  ⟨k0, k1, k2, k3, k4, k5, k6, k7⟩

namespace Generator

def ofSeed (seed : UInt64) : Generator :=
  let key := Key.ofSeed seed
  ⟨key, 1, Block.keystream key 0, 0⟩

def word (g : Generator) : UInt64 × Generator :=
  if g.used < 8 then (g.buffered.number g.used, { g with used := g.used + 1 })
  else
    let block := Block.keystream g.key g.next
    (block.number 0, { g with next := g.next + 1, buffered := block, used := 1 })

/-- A number in `[0, 1)`: the upper 53 bits of a word. -/
def unit (g : Generator) : Float × Generator :=
  let (w, g) := g.word
  ((w >>> 11).toFloat * (1.0 / 9007199254740992.0), g)

/-- The number of words after which the key stream starts again. -/
def period : Nat := Nat.pow 2 67

/-- Draws words until the low half of `word * range` is at most `zone`, and answers with the
high half. -/
def boundedFrom (range zone : UInt64) : Nat → Generator → Nat × Generator
  | 0, g => (0, g)
  | fuel + 1, g =>
    let (w, g) := g.word
    let product := w.toNat * range.toNat
    if product % 2 ^ 64 ≤ zone.toNat then (product / 2 ^ 64, g) else boundedFrom range zone fuel g

/-- A number in `0 .. last`, each equally likely. Words for which a longer interval than
the others would answer are drawn again; a whole period of them is never met. -/
def upTo (last : Nat) (g : Generator) : Nat × Generator :=
  let range := (last + 1).toUInt64
  if range = 0 then
    let (w, g) := g.word
    (w.toNat, g)
  else
    let zeros := 63 - range.toNat.log2
    let zone := (range <<< zeros.toUInt64) - 1
    boundedFrom range zone period g

end Generator

structure Source (ρ α : Type) where
  unit : ρ → α × ρ
  upTo : Nat → ρ → Nat × ρ

def Generator.source : Source Generator Float := ⟨Generator.unit, Generator.upTo⟩

end SchedulerLearning.Random
