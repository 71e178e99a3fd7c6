import JournalScript.Text.Basic
import JournalScript.Text.Printable

/-!
# JournalScript.Text.Quoted

The displayed form of a text or of bytes: in single quotes, or in double quotes when the content
has a single quote and no double quote, with everything that is not printable escaped.

Main definitions: `Text.quoted`, `Text.quotedBytes`.
-/

namespace JournalScript
namespace Text

/-- The quote around a displayed text: double when only single ones occur inside. -/
def quoteFor (t : Text) : Char :=
  if t.contains '\x27' && !t.contains '"' then '"' else '\x27'

def escapeCode (n : Nat) : Text :=
  if n < 0x100 then '\\' :: 'x' :: hex 2 n
  else if n < 0x10000 then '\\' :: 'u' :: hex 4 n
  else '\\' :: 'U' :: hex 8 n

def showChar (q c : Char) : Text :=
  if c = q || c = '\\' then ['\\', c]
  else if c = '\t' then ['\\', 't']
  else if c = '\n' then ['\\', 'n']
  else if c = '\r' then ['\\', 'r']
  else if isPrintable c then [c]
  else escapeCode c.toNat

def quoted (t : Text) : Text := quoteFor t :: (t.flatMap (showChar (quoteFor t)) ++ [quoteFor t])

/-- One byte of displayed bytes between quotes `q`: ASCII as in a text, the rest in hexadecimal. -/
def showByte (q : Char) (b : UInt8) : Text :=
  if b < 128 then showChar q (Char.ofNat b.toNat) else '\\' :: 'x' :: hex 2 b.toNat

def quotedBytes (bs : List UInt8) : Text :=
  let q := quoteFor (bs.map fun b => Char.ofNat b.toNat)
  'b' :: q :: (bs.flatMap (showByte q) ++ [q])

end Text
end JournalScript
