import DocAudit.Files.Tree
import DocAudit.Metrics

/-!
# Metrics files

The metrics of a run go to a file as a whole: a reader finds the old text or the new one.
-/

namespace DocAudit.Files

open DocAudit.Text

/-- The workspace with the metrics of a collector written to a file; without a collector nothing is
written. -/
def writeMetrics (w : Workspace) (path : String) (c : Option Metrics.Collector) :
    Except Error Workspace :=
  if c.isNone then .ok w
  else
    match w.replace path (Metrics.Collector.gathered c).toUTF8 with
    | .ok w => .ok w
    | .error e =>
      .error (.context ("failed to write metrics textfile " ++ quoted path) (.plain e.text))

end DocAudit.Files
