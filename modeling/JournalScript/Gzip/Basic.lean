import JournalScript.Gzip.Inflate
import JournalScript.Text.Quoted

/-!
# JournalScript.Gzip.Basic

Compressed files: one or more members, each a header, a deflate stream, a checksum and a length.
Files are written as one member of stored blocks.

Main definitions: `GzipError`, `Gzip.checksum`, `Gzip.compress`, `Gzip.decompress`.
-/

namespace JournalScript

inductive GzipError where
  | badMagic (start : Bytes)
  | badMethod
  | truncated
  | badChecksum (given computed : UInt32)
  | badLength
  | badStream (e : InflateError)
  deriving DecidableEq, Repr

namespace GzipError

def message : GzipError → Text
  | .badMagic start => "Not a gzipped file (".toList ++ Text.quotedBytes start ++ ")".toList
  | .badMethod => "Unknown compression method".toList
  | .truncated =>
    "Compressed file ended before the end-of-stream marker was reached".toList
  | .badChecksum given computed =>
    "CRC check failed 0x".toList ++ Text.hex 1 given.toNat ++ " != 0x".toList ++
      Text.hex 1 computed.toNat
  | .badLength => "Incorrect length of data produced".toList
  | .badStream e => ("Error -3 while decompressing data: " ++ e.message).toList

end GzipError

namespace Gzip

def checksumBit (crc : UInt32) : UInt32 :=
  if crc &&& 1 = 1 then (crc >>> 1) ^^^ 0xEDB88320 else crc >>> 1

def checksumByte (crc : UInt32) (b : UInt8) : UInt32 :=
  Nat.repeat checksumBit 8 (crc ^^^ b.toUInt32)

def checksum (bs : Bytes) : UInt32 := bs.foldl checksumByte 0xFFFFFFFF ^^^ 0xFFFFFFFF

/-- A number in `width` bytes, least significant first. -/
def littleEndian : Nat → Nat → Bytes
  | 0, _ => []
  | width + 1, n => UInt8.ofNat (n % 256) :: littleEndian width (n / 256)

def ofLittleEndian : Bytes → Nat
  | [] => 0
  | b :: rest => b.toNat + 256 * ofLittleEndian rest

def blockLimit : Nat := 65535

def storedBlock (last : Bool) (bs : Bytes) : Bytes :=
  (if last then 1 else 0) ::
    (littleEndian 2 bs.length ++ littleEndian 2 (blockLimit - bs.length) ++ bs)

def storedStream (bs : Bytes) : Bytes :=
  if bs.length ≤ blockLimit then storedBlock true bs
  else storedBlock false (bs.take blockLimit) ++ storedStream (bs.drop blockLimit)
termination_by bs.length
decreasing_by simp only [List.length_drop, blockLimit] at *; omega

def header : Bytes := [0x1F, 0x8B, 8, 0, 0, 0, 0, 0, 0, 255]

def compress (bs : Bytes) : Bytes :=
  header ++ storedStream bs ++ littleEndian 4 (checksum bs).toNat ++
    littleEndian 4 (bs.length % UInt32.size)

def exactly (n : Nat) (bs : Bytes) : Except GzipError (Bytes × Bytes) :=
  if bs.length < n then .error .truncated else .ok (bs.take n, bs.drop n)

def dropText (present : Bool) (bs : Bytes) : Bytes :=
  if present then (bs.dropWhile (· != 0)).drop 1 else bs

def dropExtra (present : Bool) (bs : Bytes) : Except GzipError Bytes :=
  if present then
    match exactly 2 bs with
    | .error e => .error e
    | .ok (size, rest) =>
      match exactly (ofLittleEndian size) rest with
      | .error e => .error e
      | .ok (_, rest) => .ok rest
  else .ok bs

def dropCheck (present : Bool) (bs : Bytes) : Except GzipError Bytes :=
  if present then
    match exactly 2 bs with
    | .error e => .error e
    | .ok (_, rest) => .ok rest
  else .ok bs

/-- Reads the header of a member; the result is `none` at the end of the file. -/
def readHeader (bs : Bytes) : Except GzipError (Option Bytes) :=
  match bs with
  | [] => .ok none
  | 0x1F :: 0x8B :: rest =>
    match exactly 8 rest with
    | .error e => .error e
    | .ok (fixed, rest) =>
      if fixed.head? ≠ some 8 then .error .badMethod
      else
        let flag := (fixed.getD 1 0).toNat
        match dropExtra (flag / 4 % 2 = 1) rest with
        | .error e => .error e
        | .ok rest =>
          match dropCheck (flag / 2 % 2 = 1)
              (dropText (flag / 16 % 2 = 1) (dropText (flag / 8 % 2 = 1) rest)) with
          | .error e => .error e
          | .ok rest => .ok (some rest)
  | _ => .error (.badMagic (bs.take 2))

/-- Reads the stream and the trailer of a member: its content, and what follows it without the
zeros that may fill up a file. -/
def readMember (bs : Bytes) : Except GzipError (Bytes × Bytes) :=
  match Inflate.run bs with
  | .error .truncated => .error .truncated
  | .error e => .error (.badStream e)
  | .ok (content, rest) =>
    match exactly 8 rest with
    | .error e => .error e
    | .ok (trailer, rest) =>
      let given := UInt32.ofNat (ofLittleEndian (trailer.take 4))
      if given ≠ checksum content then .error (.badChecksum given (checksum content))
      else if ofLittleEndian (trailer.drop 4) ≠ content.length % UInt32.size then .error .badLength
      else .ok (content, rest.dropWhile (· == 0))

/-- Reads the members of a file behind the contents in `done`. Every member takes bytes, so `fuel`
need not exceed their number. -/
def readMembers : Nat → Bytes → Bytes → Except GzipError Bytes
  | 0, _, done => .ok done
  | fuel + 1, bs, done =>
    match readHeader bs with
    | .error e => .error e
    | .ok none => .ok done
    | .ok (some rest) =>
      match readMember rest with
      | .error e => .error e
      | .ok (content, rest) => readMembers fuel rest (done ++ content)

/-- The content of a compressed file; an empty file is empty. -/
def decompress (bs : Bytes) : Except GzipError Bytes := readMembers (bs.length + 1) bs []

end Gzip
end JournalScript
