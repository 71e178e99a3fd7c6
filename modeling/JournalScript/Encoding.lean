import JournalScript.Text.Case
import JournalScript.Text.Quoted

/-!
# JournalScript.Encoding

The character encodings of journal files: UTF-8, UTF-8 with a byte-order mark, Latin-1 and ASCII.

Main definitions: `Encoding`, `Encoding.ofName?`, `Encoding.decode`, `Encoding.encode`, and the
errors `DecodeError` and `EncodeError`, which say where a text or a file goes wrong.
-/

namespace JournalScript

abbrev Bytes := List UInt8

inductive Encoding where
  | utf8
  /-- UTF-8 with a byte-order mark in front. -/
  | utf8Marked
  | latin1
  | ascii
  deriving DecidableEq, Repr

inductive DecodeReason where
  | startByte
  | continuationByte
  | unexpectedEnd
  | notAscii
  deriving DecidableEq, Repr

/-- Bytes that are not a text: the bad sequence starts at `start` with the byte `byte` and is
`length` bytes long. -/
structure DecodeError where
  start : Nat
  length : Nat
  byte : UInt8
  reason : DecodeReason
  deriving DecidableEq, Repr

/-- A run of `length` characters from `start` on, the first of them `char`, that an encoding with
`limit` characters lacks. -/
structure EncodeError where
  start : Nat
  length : Nat
  char : Char
  limit : Nat
  deriving DecidableEq, Repr

namespace DecodeReason

def message : DecodeReason → String
  | .startByte => "invalid start byte"
  | .continuationByte => "invalid continuation byte"
  | .unexpectedEnd => "unexpected end of data"
  | .notAscii => "ordinal not in range(128)"

end DecodeReason

def positions (start length : Nat) : Text :=
  if length = 1 then Text.ofNat start
  else Text.ofNat start ++ ['-'] ++ Text.ofNat (start + length - 1)

namespace DecodeError

def message (codec : String) (e : DecodeError) : Text :=
  ("'" ++ codec ++ "' codec can't decode ").toList ++
    (if e.length = 1 then "byte 0x".toList ++ Text.hex 2 e.byte.toNat else "bytes".toList) ++
    " in position ".toList ++ positions e.start e.length ++ ": ".toList ++
    e.reason.message.toList

end DecodeError

namespace EncodeError

def message (codec : String) (e : EncodeError) : Text :=
  ("'" ++ codec ++ "' codec can't encode ").toList ++
    (if e.length = 1 then
      "character '".toList ++ Text.escapeCode e.char.toNat ++ "'".toList
    else "characters".toList) ++
    " in position ".toList ++ positions e.start e.length ++
    ": ordinal not in range(".toList ++ Text.ofNat e.limit ++ ")".toList

end EncodeError

namespace Utf8

def isContinuation (b : UInt8) : Bool := 0x80 ≤ b && b ≤ 0xBF

/-- Whether a byte may follow the first byte of a character of three or four bytes: overlong
forms, surrogates and values beyond the last code point are ruled out here. -/
def isSecond (first b : UInt8) : Bool :=
  isContinuation b &&
    if first = 0xE0 then 0xA0 ≤ b
    else if first = 0xED then b ≤ 0x9F
    else if first = 0xF0 then 0x90 ≤ b
    else if first = 0xF4 then b ≤ 0x8F
    else true

def bits (b : UInt8) : Nat := b.toNat % 64

/-- The character that starts with the byte `b`, and how many of the bytes after it belong to it;
or how many bytes the bad sequence has, and why it is bad. -/
def next (b : UInt8) (rest : Bytes) : Except (Nat × DecodeReason) (Char × Nat) :=
  if b < 0x80 then .ok (Char.ofNat b.toNat, 0)
  else if b < 0xC2 then .error (1, .startByte)
  else if b < 0xE0 then
    match rest with
    | [] => .error (1, .unexpectedEnd)
    | c :: _ =>
      if isContinuation c then .ok (Char.ofNat (b.toNat % 32 * 64 + bits c), 1)
      else .error (1, .continuationByte)
  else if b < 0xF0 then
    match rest with
    | [] => .error (1, .unexpectedEnd)
    | c :: rest =>
      if isSecond b c then
        match rest with
        | [] => .error (2, .unexpectedEnd)
        | d :: _ =>
          if isContinuation d then
            .ok (Char.ofNat ((b.toNat % 16 * 64 + bits c) * 64 + bits d), 2)
          else .error (2, .continuationByte)
      else .error (1, .continuationByte)
  else if b < 0xF5 then
    match rest with
    | [] => .error (1, .unexpectedEnd)
    | c :: rest =>
      if isSecond b c then
        match rest with
        | [] => .error (2, .unexpectedEnd)
        | d :: rest =>
          if isContinuation d then
            match rest with
            | [] => .error (3, .unexpectedEnd)
            | e :: _ =>
              if isContinuation e then
                .ok (Char.ofNat (((b.toNat % 8 * 64 + bits c) * 64 + bits d) * 64 + bits e), 3)
              else .error (3, .continuationByte)
          else .error (2, .continuationByte)
      else .error (1, .continuationByte)
  else .error (1, .startByte)

/-- Decodes from position `pos` on; `skip` bytes of the last character are still to be passed, and
`done` holds the characters read so far, reversed. -/
def decodeFrom : Nat → Nat → Text → Bytes → Except DecodeError Text
  | _, _, done, [] => .ok done.reverse
  | pos, skip + 1, done, _ :: rest => decodeFrom (pos + 1) skip done rest
  | pos, 0, done, b :: rest =>
    match next b rest with
    | .ok (c, more) => decodeFrom (pos + 1) more (c :: done) rest
    | .error (length, reason) => .error ⟨pos, length, b, reason⟩

def decode (bs : Bytes) : Except DecodeError Text := decodeFrom 0 0 [] bs

def encode (t : Text) : Bytes := t.flatMap String.utf8EncodeChar

def mark : Bytes := [0xEF, 0xBB, 0xBF]

/-- The text of UTF-8 bytes behind an optional byte-order mark. Positions are counted from behind
the mark, and a file that ends inside the mark is empty. -/
def decodeMarked (bs : Bytes) : Except DecodeError Text :=
  if mark.isPrefixOf bs then decode (bs.drop 3)
  else if bs.isPrefixOf mark then .ok []
  else decode bs

end Utf8

namespace SingleByte

def decodeFrom (limit : Nat) : Nat → Text → Bytes → Except DecodeError Text
  | _, done, [] => .ok done.reverse
  | pos, done, b :: rest =>
    if b.toNat < limit then decodeFrom limit (pos + 1) (Char.ofNat b.toNat :: done) rest
    else .error ⟨pos, 1, b, .notAscii⟩

def encodeFrom (limit : Nat) : Nat → Bytes → Text → Except EncodeError Bytes
  | _, done, [] => .ok done.reverse
  | pos, done, c :: rest =>
    if c.toNat < limit then encodeFrom limit (pos + 1) (UInt8.ofNat c.toNat :: done) rest
    else .error ⟨pos, 1 + (rest.takeWhile fun d => limit ≤ d.toNat).length, c, limit⟩

end SingleByte

namespace Encoding

def name : Encoding → String
  | .utf8 => "utf-8"
  | .utf8Marked => "utf-8"
  | .latin1 => "latin-1"
  | .ascii => "ascii"

def decode : Encoding → Bytes → Except DecodeError Text
  | .utf8, bs => Utf8.decode bs
  | .utf8Marked, bs => Utf8.decodeMarked bs
  | .latin1, bs => SingleByte.decodeFrom 256 0 [] bs
  | .ascii, bs => SingleByte.decodeFrom 128 0 [] bs

def encode : Encoding → Text → Except EncodeError Bytes
  | .utf8, t => .ok (Utf8.encode t)
  | .utf8Marked, t => .ok (Utf8.mark ++ Utf8.encode t)
  | .latin1, t => SingleByte.encodeFrom 256 0 [] t
  | .ascii, t => SingleByte.encodeFrom 128 0 [] t

def ownNames : List (String × Encoding) :=
  [("utf_8", .utf8), ("utf_8_sig", .utf8Marked), ("latin_1", .latin1), ("iso8859_1", .latin1),
   ("ascii", .ascii)]

def aliases : List (String × Encoding) :=
  [("utf8", .utf8), ("u8", .utf8), ("utf", .utf8), ("utf8_ucs2", .utf8), ("utf8_ucs4", .utf8),
   ("cp65001", .utf8), ("latin1", .latin1), ("latin", .latin1), ("l1", .latin1),
   ("8859", .latin1), ("cp819", .latin1), ("csisolatin1", .latin1), ("ibm819", .latin1),
   ("iso8859", .latin1), ("iso8859_1", .latin1), ("iso_8859_1", .latin1),
   ("iso_8859_1_1987", .latin1), ("iso_ir_100", .latin1), ("us_ascii", .ascii), ("us", .ascii),
   ("646", .ascii), ("ansi_x3.4_1968", .ascii), ("ansi_x3_4_1968", .ascii),
   ("ansi_x3.4_1986", .ascii), ("cp367", .ascii), ("csascii", .ascii), ("ibm367", .ascii),
   ("iso646_us", .ascii), ("iso_646.irv_1991", .ascii), ("iso_ir_6", .ascii)]

def transformNames : List String :=
  ["base64_codec", "bz2_codec", "hex_codec", "quopri_codec", "rot_13", "uu_codec", "zlib_codec"]

def transformAliases : List String :=
  ["base64", "base_64", "bz2", "hex", "quopri", "quoted_printable", "quotedprintable", "rot13",
   "uu", "zip", "zlib"]

def isNameChar (c : Char) : Bool := c.isAlphanum || c == '.'

def normalName (t : Text) : Text :=
  (Text.join ['_'] (((t.map Char.toLower).splitBy fun a b => isNameChar a == isNameChar b).filter
    fun word => word.all isNameChar))

/-- The normal form of a name with underscores for the points in it, which also finds aliases. -/
def withoutPoints (name : Text) : Text := name.map fun c => if c == '.' then '_' else c

/-- The encoding of a name. `locale` is the encoding of the system, which is UTF-8. -/
def ofName? (t : Text) : Option Encoding :=
  let name := normalName t
  if t = "locale".toList then some .utf8
  else
    match aliases.lookup (String.ofList name) with
    | some codec => some codec
    | none =>
      match aliases.lookup (String.ofList (withoutPoints name)) with
      | some codec => some codec
      | none => ownNames.lookup (String.ofList name)

def isTransform (t : Text) : Bool :=
  let name := normalName t
  transformAliases.contains (String.ofList name) ||
    transformAliases.contains (String.ofList (withoutPoints name)) ||
    transformNames.contains (String.ofList name)

end Encoding
end JournalScript
