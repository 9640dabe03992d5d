import DocAudit.Decimal.Binary64
import DocAudit.Element
import DocAudit.Error

/-!
# Metrics

Runs report what they did as events; the metrics are counts and sums over the events so far.

* `families` gives every metric as a view of the list of events, so what a metric says after a run
  is its sum over the events of that run more than before;
* `exposition` writes the families in the text format that monitoring systems read.
-/

namespace DocAudit.Metrics

open DocAudit.Decimal DocAudit.Text

/-! ## 1. Events -/

/-- How a run ended. -/
inductive RunStatus where
  | success
  /-- Its issues reach the threshold. -/
  | failed
  | error
deriving Repr, DecidableEq, Inhabited

/-- The word for the end of a run. -/
def RunStatus.word : RunStatus → String
  | .success => "success"
  | .failed => "failed"
  | .error => "error"

/-- A length of time in nanoseconds. -/
abbrev Nanoseconds := Int64

/-- The number of seconds in a length of time: the whole ones plus the fraction, each rounded. -/
def seconds (d : Nanoseconds) : Binary64 :=
  let n := d.toInt
  (Binary64.ofInt (n.tdiv 1000000000)).add
    (.ofRatio (n < 0) (n.tmod 1000000000).natAbs 1000000000)

/-- Something that happened. -/
inductive Event where
  /-- A run ended. -/
  | run (status : String) (duration : Nanoseconds) (elements : Int)
  /-- An issue was reported. -/
  | issue (ruleId severity : String)
  /-- A rule was evaluated, with some findings. -/
  | evaluation (ruleId : String) (failed : Bool) (duration : Nanoseconds) (findings : Nat)
  /-- Findings of a rule were not reported. -/
  | suppressed (ruleId : String) (count : Nat)
deriving Repr, DecidableEq, Inhabited

/-- The error of a counter that is asked to go down. -/
def counterDown : Error := .plain "counter cannot decrease in value"

/-- The events of an evaluation; a negative count of findings counts as none and is an error. -/
def evaluationEvents (ruleId : String) (failed : Bool) (duration : Nanoseconds) (findings : Int) :
    List Event × Option Error :=
  ([.evaluation ruleId failed duration findings.toNat],
    if findings < 0 then some counterDown else none)

/-- The events of suppressed findings, of which there are none if nothing was suppressed. -/
def suppressedEvents (ruleId : String) (count : Int) : List Event × Option Error :=
  if count == 0 then ([], none)
  else ([.suppressed ruleId count.toNat], if count < 0 then some counterDown else none)

/-! ## 2. Families -/

/-- Labels by name, in the order of their names. -/
abbrev Labels := List (String × String)

/-- A value of a metric under some labels; `ending` is added to the name of the metric. -/
structure Sample where
  ending : String
  labels : Labels
  value : Binary64
deriving Repr, DecidableEq, Inhabited

/-- The samples of a metric. -/
structure Family where
  name : String
  help : String
  kind : String
  samples : List Sample
deriving Repr, DecidableEq, Inhabited

/-- The values of a label list, which is what samples are sorted by. -/
def Labels.before (a b : Labels) : Bool :=
  !List.lex (b.map (·.2)) (a.map (·.2)) fun x y => decide (x < y)

/-- The distinct labels of some events, sorted. -/
def labelSets (label? : Event → Option Labels) (es : List Event) : List Labels :=
  (es.filterMap label?).eraseDups.mergeSort Labels.before

/-- What the events under some labels add up to. -/
def total (label? : Event → Option Labels) (amount : Event → Nat) (es : List Event)
    (ls : Labels) : Nat :=
  (es.filter fun e => label? e == some ls).foldr (fun e n => amount e + n) 0

/-- An amount as a counter takes it: rounded to the nearest floating-point number. -/
def rounded (amount : Event → Nat) (e : Event) : Nat :=
  ((Binary64.ofInt (amount e)).truncate?.getD 0).toNat

/-- A counter: for each set of labels the sum over the events that have it, in a word of 64
bits. -/
def counter (label? : Event → Option Labels) (amount : Event → Nat) (name help : String)
    (es : List Event) : Family :=
  ⟨name, help, "counter", (labelSets label? es).map fun ls =>
    ⟨"", ls, .ofInt (total label? (rounded amount) es ls % Decimal.unsignedEnd : Nat)⟩⟩

/-- The samples of a histogram of observations: how many are at most each bound, then their sum
and their number. -/
def histogramSamples (bounds : List Binary64) (ls : Labels) (observed : List Binary64) :
    List Sample :=
  let upTo (b : Binary64) : Sample :=
    ⟨"_bucket", ls ++ [("le", general.write b)],
      .ofInt ((observed.filter fun x => x.le b).length : Nat)⟩
  bounds.map upTo ++ [upTo .infinity,
    ⟨"_sum", ls, observed.foldl Binary64.add .zero⟩,
    ⟨"_count", ls, .ofInt (observed.length : Nat)⟩]

/-- The bounds for the time that a run takes. -/
def runBounds : List Binary64 :=
  [.ofDecimal false 1 (-2), .ofDecimal false 5 (-2), .ofDecimal false 1 (-1),
    .ofDecimal false 5 (-1), .ofInt 1, .ofInt 5, .ofInt 10, .ofInt 30, .ofInt 60]

/-- The bounds for the time that a rule takes: from a tenth of a millisecond on, each four times
the one before. -/
def ruleBounds : List Binary64 :=
  (List.range 10).map fun i => .ofRatio false (Decimal.twoTo (2 * i)) 10000

/-- The labels of a run. -/
def runLabels? : Event → Option Labels
  | .run status _ _ => some [("status", status)]
  | _ => none

/-- The labels of an issue. -/
def issueLabels? : Event → Option Labels
  | .issue rule severity => some [("rule_id", rule), ("severity", severity)]
  | _ => none

/-- The labels of an evaluation by its end. -/
def evaluationLabels? : Event → Option Labels
  | .evaluation rule failed _ _ =>
    some [("rule_id", rule), ("status", (if failed then RunStatus.error else .success).word)]
  | _ => none

/-- The labels of an evaluation. -/
def ruleLabels? : Event → Option Labels
  | .evaluation rule _ _ _ => some [("rule_id", rule)]
  | _ => none

/-- The labels of suppressed findings. -/
def suppressedLabels? : Event → Option Labels
  | .suppressed rule _ => some [("rule_id", rule)]
  | _ => none

/-- One for each event. -/
def one (_ : Event) : Nat := 1

/-- How many findings an event tells of. -/
def findingCount : Event → Nat
  | .evaluation _ _ _ n => n
  | _ => 0

/-- How many suppressed findings an event tells of. -/
def suppressedCount : Event → Nat
  | .suppressed _ n => n
  | _ => 0

/-- The time that a run took. -/
def runTime? : Event → Option Binary64
  | .run _ d _ => some (seconds d)
  | _ => none

/-- The time that an evaluation of a rule took. -/
def ruleTime? (ls : Labels) : Event → Option Binary64
  | .evaluation rule _ d _ => if ls == [("rule_id", rule)] then some (seconds d) else none
  | _ => none

/-- The number of elements of a run. -/
def runElements? : Event → Option Int
  | .run _ _ n => some n
  | _ => none

/-- **The metrics after some events**, by name. -/
def families (namespace_ : String) (es : List Event) : List Family :=
  let space := (if namespace_ == "" then "docguard" else namespace_) ++ "_"
  [⟨space ++ "elements_scanned", "Number of elements in the scan context of the last run", "gauge",
      [⟨"", [], .ofInt ((es.filterMap runElements?).getLast?.getD 0)⟩]⟩,
    counter issueLabels? one (space ++ "issues_total") "Total number of reported issues" es,
    ⟨space ++ "rule_evaluation_duration_seconds", "Duration of rule evaluation in seconds",
      "histogram", (labelSets ruleLabels? es).flatMap fun ls =>
        histogramSamples ruleBounds ls (es.filterMap (ruleTime? ls))⟩,
    counter evaluationLabels? one (space ++ "rule_evaluations_total")
      "Total number of rule evaluations" es,
    counter ruleLabels? findingCount (space ++ "rule_findings_total")
      "Total number of findings reported by rules before severity resolution" es,
    counter suppressedLabels? suppressedCount (space ++ "rule_suppressed_total")
      "Total number of findings dropped by rule scoping or annotation policies" es,
    ⟨space ++ "run_duration_seconds", "Duration of audit runs in seconds, excluding the scan",
      "histogram", histogramSamples runBounds [] (es.filterMap runTime?)⟩,
    counter runLabels? one (space ++ "runs_total") "Total number of audit runs" es]

/-! ## 3. The text format -/

/-- A character that may start a bare name. -/
def isNameStart (c : Char) : Bool :=
  ('a' ≤ c && c ≤ 'z') || ('A' ≤ c && c ≤ 'Z') || c == '_' || c == ':'

/-- Whether a name of a metric needs no quotes. -/
def isBareName (s : String) : Bool :=
  match s.toList with
  | [] => false
  | c :: cs => isNameStart c && cs.all fun c => isNameStart c || ('0' ≤ c && c ≤ '9')

/-- A text between quotes, with quotes, backslashes and newlines escaped. -/
def labelText (s : String) : String :=
  "\"" ++ String.ofList (s.toList.flatMap fun c =>
    if c == '"' then ['\\', '"'] else if c == '\\' then ['\\', '\\']
    else if c == '\n' then ['\\', 'n'] else [c]) ++ "\""

/-- The name of a metric, quoted if need be. -/
def nameText (s : String) : String := if isBareName s then s else labelText s

/-- A sample of the metric `name` as a line. -/
def Sample.line (name : String) (s : Sample) : String :=
  let full := name ++ s.ending
  let labels := s.labels.map fun (k, v) => k ++ "=" ++ labelText v
  let head := if isBareName full then
      full ++ (if labels.isEmpty then "" else "\x7b" ++ join "," labels ++ "\x7d")
    else "\x7b" ++ join "," (labelText full :: labels) ++ "\x7d"
  head ++ " " ++ general.write s.value ++ "\n"

/-- A metric with its help and kind; a metric without samples is left out. -/
def Family.text (f : Family) : String :=
  if f.samples.isEmpty then ""
  else
    "# HELP " ++ nameText f.name ++ " " ++ f.help ++ "\n" ++
      "# TYPE " ++ nameText f.name ++ " " ++ f.kind ++ "\n" ++
      join "" (f.samples.map (Sample.line f.name))

/-- **The metrics after some events as a text.** -/
def exposition (namespace_ : String) (es : List Event) : String :=
  join "" ((families namespace_ es).map Family.text)

/-! ## 4. Collectors -/

/-- A collector: the namespace of its metrics, and the events that it has been told of. -/
structure Collector where
  namespace_ : String
  events : List Event
deriving Repr, DecidableEq, Inhabited

namespace Collector

/-- Tells a collector of events, and gives the error that came with them.  Where there is no
collector, nothing comes of it. -/
def tell (c : Option Collector) (told : List Event × Option Error) :
    Option Collector × Option Error :=
  match c with
  | none => (none, none)
  | some c => (some { c with events := c.events ++ told.1 }, told.2)

/-- The metrics of a collector as a text; without a collector there are none. -/
def gathered (c : Option Collector) : String :=
  c.elim "" fun c => exposition c.namespace_ c.events

end Collector

end DocAudit.Metrics
