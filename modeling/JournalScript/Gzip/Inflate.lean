import JournalScript.Encoding

/-!
# JournalScript.Gzip.Inflate

Decompression of deflate streams: stored blocks, blocks with the fixed codes and blocks that bring
their own codes.

Main definitions: `BitStream`, `HuffmanCode`, `Inflate.run`, and `InflateError`, which tells a
stream that ends too early from one that is wrong.
-/

namespace JournalScript

inductive InflateError where
  | truncated
  | blockType
  | storedLengths
  | symbolCount
  | codeLengthsSet
  | lengthRepeat
  | missingEnd
  | literalSet
  | distanceSet
  | literalCode
  | distanceCode
  | distanceTooFar
  deriving DecidableEq, Repr

namespace InflateError

def message : InflateError → String
  | .truncated => "incomplete or truncated stream"
  | .blockType => "invalid block type"
  | .storedLengths => "invalid stored block lengths"
  | .symbolCount => "too many length or distance symbols"
  | .codeLengthsSet => "invalid code lengths set"
  | .lengthRepeat => "invalid bit length repeat"
  | .missingEnd => "invalid code -- missing end-of-block"
  | .literalSet => "invalid literal/lengths set"
  | .distanceSet => "invalid distances set"
  | .literalCode => "invalid literal/length code"
  | .distanceCode => "invalid distance code"
  | .distanceTooFar => "invalid distance too far back"

end InflateError

/-- The bits that are left: `used` bits of the first byte are gone. -/
structure BitStream where
  used : Nat
  bytes : Bytes

namespace BitStream

def bit (s : BitStream) : Except InflateError (Nat × BitStream) :=
  match s.bytes with
  | [] => .error .truncated
  | b :: rest =>
    .ok (b.toNat >>> s.used % 2, if s.used = 7 then ⟨0, rest⟩ else ⟨s.used + 1, b :: rest⟩)

def bits : Nat → BitStream → Except InflateError (Nat × BitStream)
  | 0, s => .ok (0, s)
  | n + 1, s =>
    match s.bit with
    | .error e => .error e
    | .ok (low, s) =>
      match bits n s with
      | .error e => .error e
      | .ok (high, s) => .ok (low + 2 * high, s)

def aligned (s : BitStream) : Bytes := if s.used = 0 then s.bytes else s.bytes.drop 1

def size (s : BitStream) : Nat := 8 * s.bytes.length - s.used

end BitStream

/-- A prefix-free code: how many code words each length from one on has, and the symbols in the
order of their code words. -/
structure HuffmanCode where
  counts : List Nat
  symbols : List Nat

namespace HuffmanCode

def maxLength : Nat := 15

/-- The code in which symbol `i` has a word of length `lengths[i]`, or none if that is zero. -/
def ofLengths (lengths : List Nat) : HuffmanCode :=
  let lens := (List.range maxLength).map (· + 1)
  ⟨lens.map fun n => lengths.count n,
    lens.flatMap fun n => (lengths.zipIdx.filter fun e => e.1 == n).map Prod.snd⟩

/-- The code words of the greatest length that are left over, or `none` if there are too many. -/
def slack (c : HuffmanCode) : Option Nat :=
  c.counts.foldl (fun left n => left.bind fun left =>
    if n ≤ 2 * left then some (2 * left - n) else none) (some 1)

def isComplete (c : HuffmanCode) : Bool := c.slack == some 0

/-- Whether the code can be used: it is complete, has no words, or has only one-bit words. -/
def isUsable (c : HuffmanCode) : Bool :=
  c.isComplete || c.symbols.isEmpty || (c.slack.isSome && (c.counts.drop 1).all (· == 0))

/-- Reads a code word: `code` is its value so far, `first` the first word of the current length and
`index` the number of shorter ones. The result is `none` for a word that stands for nothing. -/
def readFrom (symbols : List Nat) :
    List Nat → Nat → Nat → Nat → BitStream → Except InflateError (Option Nat × BitStream)
  | [], _, _, _, s => .ok (none, s)
  | count :: counts, code, first, index, s =>
    match s.bit with
    | .error e => .error e
    | .ok (b, s) =>
      let code := code + b
      if code < first + count then .ok (symbols[index + (code - first)]?, s)
      else if counts.all (· == 0) then .ok (none, s)
      else readFrom symbols counts (2 * code) (2 * (first + count)) (index + count) s

def read (c : HuffmanCode) (s : BitStream) : Except InflateError (Option Nat × BitStream) :=
  readFrom c.symbols c.counts 0 0 0 s

end HuffmanCode

namespace Inflate

/-- The shortest match and the number of extra bits of each length symbol from 257 on. -/
def lengthTable : List (Nat × Nat) :=
  [(3, 0), (4, 0), (5, 0), (6, 0), (7, 0), (8, 0), (9, 0), (10, 0), (11, 1), (13, 1), (15, 1),
   (17, 1), (19, 2), (23, 2), (27, 2), (31, 2), (35, 3), (43, 3), (51, 3), (59, 3), (67, 4),
   (83, 4), (99, 4), (115, 4), (131, 5), (163, 5), (195, 5), (227, 5), (258, 0)]

/-- The least distance and the number of extra bits of each distance symbol. -/
def distanceTable : List (Nat × Nat) :=
  [(1, 0), (2, 0), (3, 0), (4, 0), (5, 1), (7, 1), (9, 2), (13, 2), (17, 3), (25, 3), (33, 4),
   (49, 4), (65, 5), (97, 5), (129, 6), (193, 6), (257, 7), (385, 7), (513, 8), (769, 8),
   (1025, 9), (1537, 9), (2049, 10), (3073, 10), (4097, 11), (6145, 11), (8193, 12), (12289, 12),
   (16385, 13), (24577, 13)]

def codeLengthOrder : List Nat :=
  [16, 17, 18, 0, 8, 7, 9, 6, 10, 5, 11, 4, 12, 3, 13, 2, 14, 1, 15]

def fixedLiterals : HuffmanCode :=
  .ofLengths (List.replicate 144 8 ++ List.replicate 112 9 ++ List.replicate 24 7 ++
    List.replicate 8 8)

def fixedDistances : HuffmanCode := .ofLengths (List.replicate 32 5)

def copy (distance : Nat) : Nat → Bytes → Bytes
  | 0, out => out
  | n + 1, out => copy distance n (out.getD (distance - 1) 0 :: out)

def extended (table : List (Nat × Nat)) (bad : InflateError) (i : Nat) (s : BitStream) :
    Except InflateError (Nat × BitStream) :=
  match table[i]? with
  | none => .error bad
  | some (least, extra) =>
    match s.bits extra with
    | .error e => .error e
    | .ok (more, s) => .ok (least + more, s)

def matchAt (distances : HuffmanCode) (length : Nat) (s : BitStream) (out : Bytes) :
    Except InflateError (BitStream × Bytes) :=
  match distances.read s with
  | .error e => .error e
  | .ok (none, _) => .error .distanceCode
  | .ok (some d, s) =>
    match extended distanceTable .distanceCode d s with
    | .error e => .error e
    | .ok (distance, s) =>
      if (out.drop (distance - 1)).isEmpty then .error .distanceTooFar
      else .ok (s, copy distance length out)

/-- Reads the symbols of a block up to its end. Every symbol takes at least one bit, so `fuel` need
not exceed the number of bits. -/
def symbols (literals distances : HuffmanCode) :
    Nat → BitStream → Bytes → Except InflateError (BitStream × Bytes)
  | 0, _, _ => .error .truncated
  | fuel + 1, s, out =>
    match literals.read s with
    | .error e => .error e
    | .ok (none, _) => .error .literalCode
    | .ok (some n, s) =>
      if n < 256 then symbols literals distances fuel s (UInt8.ofNat n :: out)
      else if n = 256 then .ok (s, out)
      else
        match extended lengthTable .literalCode (n - 257) s with
        | .error e => .error e
        | .ok (length, s) =>
          match matchAt distances length s out with
          | .error e => .error e
          | .ok (s, out) => symbols literals distances fuel s out

def stored (s : BitStream) (out : Bytes) : Except InflateError (BitStream × Bytes) :=
  match s.aligned with
  | a :: b :: c :: d :: rest =>
    let length := a.toNat + 256 * b.toNat
    if c.toNat + 256 * d.toNat + length ≠ 65535 then .error .storedLengths
    else if rest.length < length then .error .truncated
    else .ok (⟨0, rest.drop length⟩, (rest.take length).reverse ++ out)
  | _ => .error .truncated

def codeLengths : List Nat → BitStream → Except InflateError (List (Nat × Nat) × BitStream)
  | [], s => .ok ([], s)
  | i :: rest, s =>
    match s.bits 3 with
    | .error e => .error e
    | .ok (n, s) =>
      match codeLengths rest s with
      | .error e => .error e
      | .ok (lengths, s) => .ok ((i, n) :: lengths, s)

/-- Reads one symbol of the code-length code; a code without words gives zeros. -/
def lengthSymbol (c : HuffmanCode) (s : BitStream) : Except InflateError (Nat × BitStream) :=
  if c.symbols.isEmpty then
    match s.bit with
    | .error e => .error e
    | .ok (_, s) => .ok (0, s)
  else
    match c.read s with
    | .error e => .error e
    | .ok (n, s) => .ok (n.getD 0, s)

/-- Reads `left` lengths of the codes of a block behind the reversed ones in `done`. -/
def lengths (c : HuffmanCode) :
    Nat → Nat → List Nat → BitStream → Except InflateError (List Nat × BitStream)
  | _, 0, done, s => .ok (done.reverse, s)
  | 0, _ + 1, _, _ => .error .truncated
  | fuel + 1, left + 1, done, s =>
    match lengthSymbol c s with
    | .error e => .error e
    | .ok (n, s) =>
      if n < 16 then lengths c fuel left (n :: done) s
      else
        let (width, least) := if n = 16 then (2, 3) else if n = 17 then (3, 3) else (7, 11)
        match s.bits width with
        | .error e => .error e
        | .ok (more, s) =>
          let repeated := if n = 16 then done.head? else some 0
          match repeated with
          | none => .error .lengthRepeat
          | some value =>
            if left + 1 < least + more then .error .lengthRepeat
            else lengths c fuel (left + 1 - (least + more))
              (List.replicate (least + more) value ++ done) s

def codes (s : BitStream) : Except InflateError (HuffmanCode × HuffmanCode × BitStream) :=
  match s.bits 5 with
  | .error e => .error e
  | .ok (a, s) =>
  match s.bits 5 with
  | .error e => .error e
  | .ok (b, s) =>
  match s.bits 4 with
  | .error e => .error e
  | .ok (c, s) =>
    let literalCount := a + 257
    let distanceCount := b + 1
    if 286 < literalCount || 30 < distanceCount then .error .symbolCount
    else
      match codeLengths (codeLengthOrder.take (c + 4)) s with
      | .error e => .error e
      | .ok (given, s) =>
        let code := HuffmanCode.ofLengths ((List.range 19).map fun i => (given.lookup i).getD 0)
        if !(code.isComplete || code.symbols.isEmpty) then .error .codeLengthsSet
        else
          match lengths code s.size (literalCount + distanceCount) [] s with
          | .error e => .error e
          | .ok (all, s) =>
            if all.getD 256 0 = 0 then .error .missingEnd
            else
              let literals := HuffmanCode.ofLengths (all.take literalCount)
              let distances := HuffmanCode.ofLengths (all.drop literalCount)
              if !literals.isUsable then .error .literalSet
              else if !distances.isUsable then .error .distanceSet
              else .ok (literals, distances, s)

def block (kind : Nat) (s : BitStream) (out : Bytes) : Except InflateError (BitStream × Bytes) :=
  match kind with
  | 0 => stored s out
  | 1 => symbols fixedLiterals fixedDistances s.size s out
  | 2 =>
    match codes s with
    | .error e => .error e
    | .ok (literals, distances, s) => symbols literals distances s.size s out
  | _ => .error .blockType

/-- Reads blocks up to the one marked as last. Every block takes at least three bits. -/
def blocks : Nat → BitStream → Bytes → Except InflateError (BitStream × Bytes)
  | 0, _, _ => .error .truncated
  | fuel + 1, s, out =>
    match s.bits 1 with
    | .error e => .error e
    | .ok (last, s) =>
    match s.bits 2 with
    | .error e => .error e
    | .ok (kind, s) =>
      match block kind s out with
      | .error e => .error e
      | .ok (s, out) => if last = 1 then .ok (s, out) else blocks fuel s out

def run (bs : Bytes) : Except InflateError (Bytes × Bytes) :=
  match blocks (8 * bs.length + 1) ⟨0, bs⟩ [] with
  | .error e => .error e
  | .ok (s, out) => .ok (out.reverse, s.aligned)

end Inflate
end JournalScript
