/-
Security policies: the ceilings, the denylist and the strictness that a level stands for, and the
words, names and addresses that are dangerous at every level.
-/
import Screenplay.Level
import Screenplay.Text.Case
import Screenplay.Text.Search

namespace Screenplay

/-! ## Ceilings shared by all levels -/

/-- The longest name of an app. -/
def maxAppName : Nat := 100

/-- The longest name of a state variable. -/
def maxStateName : Nat := 50

/-- The most items of a list value. -/
def maxItems : Nat := 100

/-- The most entries of a map value. -/
def maxMapEntries : Nat := 50

/-- The longest label of a button. -/
def maxButtonLabel : Nat := 50

/-- The most arguments of a call. -/
def maxArguments : Nat := 10

/-- The most actions in the body of a loop. -/
def maxLoopBody : Nat := 100

/-- The longest rendered argument of a call. -/
def maxArgument : Nat := 200

/-- The longest target of a navigation. -/
def maxTarget : Nat := 50

/-- The longest source of an image. -/
def maxImageSource : Nat := 500

/-- The deepest nesting of any construct. -/
def maxDepth : Nat := 50

/-- The most rounds of a loop, unless a run is given another ceiling. -/
def maxRounds : Int := 100

/-! ## The denylist -/

/-- The texts that no name, literal or piece of code may hold, in lower case and in order. They reach
for dynamic evaluation, processes, files, sockets and reflection. -/
def denylist : List String := [
  "__class__", "__import__", "__proto__", "compile(", "delattr", "eval", "exec", "fopen", "fork(",
  "getattr", "globals(", "importlib", "locals(", "open(", "os.system", "popen", "readfile",
  "setattr", "shell", "socket", "spawn", "subprocess", "unlink", "writefile"]

/-- The entries of the denylist that only reach for reflection. -/
def reflection : List String := ["getattr", "setattr"]

/-! ## Other dangers -/

/-- Access to the host page, looked for in code. -/
def hostPatterns : List String :=
  ["document.", "window.", "xmlhttprequest", "settimeout(", "setinterval(", "fetch("]

/-- Attempts to inject a script, looked for in texts. -/
def scriptPatterns : List String := ["<script", "javascript:"]

/-- The schemes that an image must not use. -/
def imageSchemes : List String := ["javascript:", "data:"]

/-- The names that no variable or field may have. -/
def dangerousNames : List String := ["__proto__", "constructor", "prototype"]

/-- The modules that may be imported at every level. -/
def allowedImports : List String :=
  ["@sprout/ui", "@sprout/data", "@sprout/utils", "@sprout/widgets", "@sprout/animation"]

/-- The navigation targets that lead back and need no screen. -/
def backTargets : List String := ["Back", "back"]

/-! ## Policies -/

/-- What one level allows. -/
structure Policy where
  level : Level
  /-- the denylist in force, in order -/
  patterns : List String
  /-- the most screens of a program -/
  maxScreens : Nat
  /-- the most state variables of a program, app and screens together -/
  maxStateVariables : Nat
  /-- the most UI elements of a screen -/
  maxElements : Nat
  /-- the longest text of a literal, a value or a piece of code -/
  maxString : Nat
  maxUiDepth : Nat
  maxExprDepth : Nat
  maxComplexity : Nat
  /-- the most distinct functions called -/
  maxFunctions : Nat
  blocksHttp : Bool
  blocksImports : Bool
  /-- whether a hit on the denylist is only a warning -/
  lenient : Bool
deriving Repr, DecidableEq

/-- The ceilings that are the same at every level, but belong to its policy. -/
inductive Ceiling where
  | screens | stateVariables | elements | string
deriving Repr, DecidableEq

namespace Policy

/-- The strict policy. -/
def strict : Policy :=
  { level := .strict
    patterns := denylist
    maxScreens := 50
    maxStateVariables := 200
    maxElements := 100
    maxString := 1000
    maxUiDepth := 10
    maxExprDepth := 10
    maxComplexity := 20
    maxFunctions := 200
    blocksHttp := true
    blocksImports := true
    lenient := false }

/-- The policy of a level. -/
def ofLevel : Level → Policy
  | .strict => strict
  | .moderate =>
    { strict with
      level := .moderate, patterns := denylist.filter (!reflection.contains ·)
      maxUiDepth := 15, maxExprDepth := 15, maxComplexity := 30
      blocksHttp := false }
  | .permissive =>
    { strict with
      level := .permissive
      maxUiDepth := 25, maxExprDepth := 25, maxComplexity := 50
      blocksHttp := false, blocksImports := false, lenient := true }

/-- A ceiling of a policy. -/
def ceiling (policy : Policy) : Ceiling → Nat
  | .screens => policy.maxScreens
  | .stateVariables => policy.maxStateVariables
  | .elements => policy.maxElements
  | .string => policy.maxString

/-- The first pattern of the denylist that a text holds, case ignored. -/
def findBlocked (policy : Policy) (text : String) : Option String :=
  let folded := Text.fold text.toList
  policy.patterns.find? fun pattern => Text.occurs pattern.toList folded

end Policy

end Screenplay
