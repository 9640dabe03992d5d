import DocAudit.Severity
import DocAudit.Yaml.Decode

/-!
# Errors

An error is a tree: most errors wrap the one that caused them, and a configuration that does not
compile holds one cause for each of its problems.

* `Error.message` is the text of an error;
* `Error.nodes` lists an error with everything below it, outer errors first; `closed` hides what it
  was made of;
* `Error.exitCode` depends only on which sorts of errors occur in the tree.
-/

namespace DocAudit

open Text

/-! ## 1. The tree -/

/-- A constraint that a field of the configuration does not meet. -/
structure FieldError where
  field : String
  message : String
deriving Repr, DecidableEq, Inhabited

/-- A field's error with its path. -/
def FieldError.text (e : FieldError) : String := e.field ++ ": " ++ e.message

mutual

/-- An error. -/
inductive Error where
  | plain (text : String)
  /-- An error with a text before it. -/
  | context (text : String) (cause : Error)
  /-- The text of an error with a text before it; what it was is no longer known. -/
  | closed (text : String) (cause : Error)
  /-- Several errors at once. -/
  | joined (causes : List Error)
  /-- A setting that cannot be used. -/
  | setting (field message : String) (cause : Option Error)
  /-- A command that failed. -/
  | command (name : String) (cause : Error)
  /-- A run with issues that reach its threshold. -/
  | threshold (severity : Severity) (issues : Int)
  /-- A configuration that does not meet its constraints. -/
  | invalid (fields : List FieldError)
  /-- A configuration that does not compile. -/
  | uncompiled (problems : List Problem)
  /-- A faulty pattern at a place of a list. -/
  | pattern (pattern : String) (index : Int) (cause : Error)
  /-- A project that cannot be scanned. -/
  | scan (root : String) (cause : Error)
  /-- A rule that failed. -/
  | rule (id : String) (cause : Error)
  /-- A rule that does not exist. -/
  | unknownRule (id : String) (registered : List String)
  /-- There is no configuration. -/
  | noConfig
  /-- A document that cannot be decoded. -/
  | yaml (error : Yaml.Error)

/-- A problem of a configuration: the path of the value, the pattern it holds, and the cause. -/
inductive Problem where
  | mk (path pattern : String) (cause : Error)

end

instance : Inhabited Error := ⟨.plain ""⟩

/-- The path of the value that a problem is about. -/
def Problem.path : Problem → String
  | .mk p _ _ => p

/-- The pattern that a problem is about. -/
def Problem.pattern : Problem → String
  | .mk _ p _ => p

/-- The cause of a problem. -/
def Problem.cause : Problem → Error
  | .mk _ _ c => c

/-! ## 2. Texts -/

/-- A list of problems under a heading: alone on its line, or each on a line of its own. -/
def listing (heading : String) : List String → String
  | [] => heading
  | [p] => heading ++ ": " ++ p
  | ps =>
    heading ++ " with " ++ toString ps.length ++ " errors:\n" ++
      join "" (ps.map fun p => "  - " ++ p ++ "\n")

mutual

/-- The text of an error. -/
def Error.message : Error → String
  | .plain t => t
  | .context t c => t ++ ": " ++ c.message
  | .closed t c => t ++ ": " ++ c.message
  | .joined cs => join "\n" (messages cs)
  | .setting f m c => "config error in " ++ f ++ ": " ++ m ++ causeText c
  | .command n c => "command " ++ n ++ " failed: " ++ c.message
  | .threshold s n => toString n ++ " issue(s) at or above " ++ s.text
  | .invalid fs => listing "configuration validation failed" (fs.map FieldError.text)
  | .uncompiled ps => listing "configuration compile failed" (problemTexts ps)
  | .pattern p _ c => "invalid pattern " ++ quoted p ++ ": " ++ c.message
  | .scan r c => "failed to scan " ++ quoted r ++ ": " ++ c.message
  | .rule id c => "rule " ++ id ++ ": evaluation failed: " ++ c.message
  | .unknownRule id [] => "unknown rule " ++ quoted id
  | .unknownRule id rs => "unknown rule " ++ quoted id ++ " (registered: " ++ join ", " rs ++ ")"
  | .noConfig => "configuration is nil"
  | .yaml e => e.message

/-- The texts of errors. -/
def messages : List Error → List String
  | [] => []
  | e :: es => e.message :: messages es

/-- The text that a cause adds, if there is one. -/
def causeText : Option Error → String
  | none => ""
  | some c => ": " ++ c.message

/-- The text of a problem. -/
def Problem.text : Problem → String
  | .mk p _ c => p ++ ": " ++ c.message

/-- The texts of problems. -/
def problemTexts : List Problem → List String
  | [] => []
  | p :: ps => p.text :: problemTexts ps

end

/-! ## 3. What occurs in an error -/

mutual

/-- An error and everything that it wraps, outer errors first. -/
def Error.nodes : Error → List Error
  | .context t c => .context t c :: c.nodes
  | .joined cs => .joined cs :: nodesOfList cs
  | .setting f m c => .setting f m c :: nodesOfOption c
  | .command n c => .command n c :: c.nodes
  | .uncompiled ps => .uncompiled ps :: nodesOfProblems ps
  | .pattern p i c => .pattern p i c :: c.nodes
  | .scan r c => .scan r c :: c.nodes
  | .rule id c => .rule id c :: c.nodes
  | e => [e]

/-- The errors of a list and everything that they wrap. -/
def nodesOfList : List Error → List Error
  | [] => []
  | e :: es => e.nodes ++ nodesOfList es

/-- A cause and everything that it wraps. -/
def nodesOfOption : Option Error → List Error
  | none => []
  | some c => c.nodes

/-- The causes of problems and everything that they wrap. -/
def nodesOfProblems : List Problem → List Error
  | [] => []
  | .mk _ _ c :: ps => c.nodes ++ nodesOfProblems ps

end

/-- How many single causes lie one below the other. -/
def Error.depth : Error → Nat
  | .context _ c => c.depth + 1
  | .setting _ _ (some c) => c.depth + 1
  | .command _ c => c.depth + 1
  | .pattern _ _ c => c.depth + 1
  | .scan _ c => c.depth + 1
  | .rule _ c => c.depth + 1
  | _ => 0

/-- Whether an error is a run that reached its threshold. -/
def Error.isThreshold : Error → Bool
  | .threshold .. => true
  | _ => false

/-- Whether an error is about the configuration. -/
def Error.isConfig : Error → Bool
  | .setting .. => true
  | .invalid _ => true
  | .uncompiled _ => true
  | _ => false

/-- Whether an error is about a scan. -/
def Error.isScan : Error → Bool
  | .scan .. => true
  | _ => false

/-- Whether an error is about a rule. -/
def Error.isRule : Error → Bool
  | .rule .. => true
  | .unknownRule .. => true
  | _ => false

/-- Whether an error says that there is no configuration. -/
def Error.isNoConfig : Error → Bool
  | .noConfig => true
  | _ => false

/-- Whether a sort of error occurs in an error. -/
def Error.has (e : Error) (p : Error → Bool) : Bool := e.nodes.any p

/-- **The exit status for an error.** -/
def Error.exitCode (e : Error) : Nat :=
  if e.has Error.isThreshold then 40
  else if e.has Error.isConfig then 10
  else if e.has Error.isScan then 20
  else if e.has Error.isRule then 30
  else 1

/-- The exit status of a run that may have failed. -/
def exitCodeOf : Option Error → Nat
  | none => 0
  | some e => e.exitCode

/-- Work that was called off. -/
def Error.cancelled : Error := .plain "context canceled"

/-- What stops a program that looks at something missing. -/
def Error.missing : Error :=
  .plain "runtime error: invalid memory address or nil pointer dereference"

/-- A rule that rejects its options. -/
def Error.ruleOptions (id : String) (cause : Error) : Error :=
  .uncompiled [.mk ("rules[" ++ id ++ "].config") "" cause]

end DocAudit
