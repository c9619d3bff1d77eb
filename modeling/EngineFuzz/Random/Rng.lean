import EngineFuzz.Random.ChaCha

/-!
Reproducible streams of random words. A stream is settled by its seed, and every program of a session
has a stream of its own, settled by the session's seed, the worker and the iteration.
-/

namespace EngineFuzz

/-- What is left of a stream: words already made, then the blocks from `nextBlock` on. -/
structure Rng where
  key : ChaCha.Key
  nextBlock : UInt64
  pending : List UInt32

namespace Rng

def ofKey (key : ChaCha.Key) : Rng := ⟨key, 0, []⟩

def word32 (rng : Rng) : UInt32 × Rng :=
  match rng.pending with
  | word :: pending => (word, { rng with pending := pending })
  | [] =>
    let block := ChaCha.block rng.key rng.nextBlock
    (block.first.a,
      { rng with
        nextBlock := rng.nextBlock + 1
        pending := [block.first.b, block.first.c, block.first.d] ++ block.second.words
          ++ block.third.words ++ block.fourth.words })

/-- Two words of the stream, the low half first. -/
def word64 (rng : Rng) : UInt64 × Rng :=
  let (low, rng) := rng.word32
  let (high, rng) := rng.word32
  (high.toUInt64 <<< 32 ||| low.toUInt64, rng)

/-- One step of the linear generator that spreads a seed over a key. -/
def seedStep (state : UInt64) : UInt64 := state * 6364136223846793005 + 11634580027462260723

def rotateRight (bits w : UInt32) : UInt32 := (w >>> bits) ||| (w <<< (32 - bits))

/-- The key word that a state of the linear generator gives: its high bits, turned to the right by as
many as its five highest say. -/
def seedWord (state : UInt64) : UInt32 :=
  rotateRight (state >>> 59).toUInt32 (((state >>> 18) ^^^ state) >>> 27).toUInt32

def seedRow (state : UInt64) : ChaCha.Row × UInt64 :=
  let a := seedStep state
  let b := seedStep a
  let c := seedStep b
  let d := seedStep c
  (⟨seedWord a, seedWord b, seedWord c, seedWord d⟩, d)

def ofSeed (seed : UInt64) : Rng :=
  let (low, state) := seedRow seed
  let (high, _) := seedRow state
  ofKey ⟨low, high⟩

/-- Spreads nearby numbers over all 64-bit words. -/
def spread (z : UInt64) : UInt64 :=
  let z := z + 0x9e3779b97f4a7c15
  let z := (z ^^^ (z >>> 30)) * 0xbf58476d1ce4e5b9
  let z := (z ^^^ (z >>> 27)) * 0x94d049bb133111eb
  z ^^^ (z >>> 31)

/-- The stream of a worker as a whole. -/
def forWorker (seed worker : UInt64) : Rng := ofSeed (seed + worker)

/-- The seed of one program's stream. -/
def programSeed (seed worker iteration : UInt64) : UInt64 :=
  spread (spread (seed + worker) ^^^ iteration)

def forProgram (seed worker iteration : UInt64) : Rng := ofSeed (programSeed seed worker iteration)

end Rng

end EngineFuzz
