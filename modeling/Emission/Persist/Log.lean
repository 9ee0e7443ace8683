import Emission.Log
import Emission.Persist.Data

/-!
# The stored form of reports

A report is stored as a list: whether something begins, ends or has happened, how much it matters, and
what it is. A report on something that has happened has its particulars besides, under their names;
among them a variable is shown for inspection, since the reader of a log is a person.
-/

namespace Emission

/-- A report on something that has happened. -/
def Report.event (level message : String) (particulars : List (String × Data)) : Data :=
  .arr [.str "event", .str level, .str message, .obj particulars]

def Report.toData : Report → Data
  | entered => .arr [.str "enter", .str "DEBUG", .str "run"]
  | left => .arr [.str "exit", .str "DEBUG", .str "run"]
  | allocated v id =>
    event "TRACE" "allocated unique name" [("id", .int id), ("var", .str v.inspect)]
  | finished bytes pieces names =>
    event "DEBUG" "emission finished"
      [("bytes", .int bytes), ("fragments", .int pieces), ("names", .int names)]

end Emission
