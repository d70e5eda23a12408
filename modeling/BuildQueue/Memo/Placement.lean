import BuildQueue.Ident

/-!
# Places of keys

The shard of a key is its place modulo the number of shards. The place is a hash, so keys that
differ in a regular way are spread over the shards all the same.

The hash is SipHash, which maps a text of bytes to a word of 64 bits. It keeps a state of four
words, absorbs the text in blocks of eight bytes with some rounds of mixing for each, and ends with
some more rounds. The last block holds the bytes that are left and, in its highest byte, the length
of the text.
-/

namespace BuildQueue

/-! ## The hash -/

/-- A member of the SipHash family. -/
structure SipHash where
  /-- The rounds of mixing for each block. -/
  blockRounds : Nat
  /-- The rounds of mixing at the end. -/
  finalRounds : Nat
  /-- The two halves of the key. -/
  key : UInt64 × UInt64
deriving Repr

namespace SipHash

/-- The member with one round for each block, three rounds at the end and a key of zeros. -/
def standard : SipHash := ⟨1, 3, (0, 0)⟩

/-- The four words of the state. -/
structure State where
  a : UInt64
  b : UInt64
  c : UInt64
  d : UInt64
deriving DecidableEq, Repr

/-- A word with its bits moved up by a number of places below 64, those that leave at the top
coming in at the bottom. -/
def rotate (word places : UInt64) : UInt64 := word <<< places ||| word >>> (64 - places)

/-- One round of mixing. -/
def State.mix (s : State) : State :=
  let a := s.a + s.b
  let c := s.c + s.d
  let b := rotate s.b 13 ^^^ a
  let d := rotate s.d 16 ^^^ c
  let a := rotate a 32
  let c := c + b
  let a := a + d
  let b := rotate b 17 ^^^ c
  let d := rotate d 21 ^^^ a
  ⟨a, b, rotate c 32, d⟩

/-- Some rounds of mixing. -/
def State.mixTimes (s : State) (rounds : Nat) : State := rounds.fold (fun _ _ s => s.mix) s

/-- The state before the first block. -/
def initial (hash : SipHash) : State where
  a := hash.key.1 ^^^ 0x736f6d6570736575
  b := hash.key.2 ^^^ 0x646f72616e646f6d
  c := hash.key.1 ^^^ 0x6c7967656e657261
  d := hash.key.2 ^^^ 0x7465646279746573

/-- Absorbs a block. -/
def absorb (hash : SipHash) (s : State) (block : UInt64) : State :=
  let mixed := { s with d := s.d ^^^ block }.mixTimes hash.blockRounds
  { mixed with a := mixed.a ^^^ block }

/-- The word of at most eight bytes, the lowest first. -/
def wordOf (bytes : List UInt8) : UInt64 :=
  bytes.foldr (fun byte higher => higher <<< 8 ||| byte.toUInt64) 0

/-- Absorbs what is left of a text of a given length. -/
def absorbAll (hash : SipHash) (length : UInt64) (s : State) : List UInt8 → State
  | b₀ :: b₁ :: b₂ :: b₃ :: b₄ :: b₅ :: b₆ :: b₇ :: rest =>
    hash.absorbAll length (hash.absorb s (wordOf [b₀, b₁, b₂, b₃, b₄, b₅, b₆, b₇])) rest
  | left => hash.absorb s (length <<< 56 ||| wordOf left)

/-- The hash of a text. -/
def apply (hash : SipHash) (text : List UInt8) : UInt64 :=
  let absorbed := hash.absorbAll (UInt64.ofNat text.length) hash.initial text
  let final := { absorbed with c := absorbed.c ^^^ 0xff }.mixTimes hash.finalRounds
  final.a ^^^ final.b ^^^ final.c ^^^ final.d

example : standard.apply [] = 0xd1fba762150c532c := by decide +kernel

/-- A text of one block and a part of the next. -/
example : standard.apply [0, 1, 2, 3, 4, 5, 6, 7, 8] = 0x75927f9d95124362 := by decide +kernel

end SipHash

/-! ## Places -/

/-- The eight bytes of an integer in two's complement, the lowest first. -/
def wordBytes (number : Int) : List UInt8 :=
  let word := UInt64.ofInt number
  (List.range 8).map fun i => (word >>> UInt64.ofNat (8 * i)).toUInt8

/-- The place of an identifier. -/
def Ident.place {entity : Entity} (id : Ident entity) : Nat :=
  (SipHash.standard.apply (wordBytes id.number)).toNat

/-- The place of a text. The byte after the text occurs in none, so of two texts that differ
neither is hashed as a part of the other. -/
def Text.place (text : String) : Nat :=
  (SipHash.standard.apply (text.toUTF8.data.toList ++ [0xff])).toNat

example : wordBytes (-2) = [0xfe, 0xff, 0xff, 0xff, 0xff, 0xff, 0xff, 0xff] := by decide +kernel

end BuildQueue
