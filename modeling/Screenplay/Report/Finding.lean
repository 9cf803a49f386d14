/-
Findings: what an analysis has to say about one name, text, value, address or site of a program under
a policy. A finding that is a violation ends the analysis.
-/
import Screenplay.Policy
import Screenplay.Program.Sites
import Screenplay.Shortage
import Screenplay.Text.Word
import Screenplay.Violation

namespace Screenplay

open Screenplay.Text

/-- One thing that an analysis finds. -/
inductive Finding where
  | violation (violation : Violation)
  | warning (text : String)
  | permission (name : String)
  /-- an external resource -/
  | resource (url : String)
  /-- the target of a navigation -/
  | target (name : String)
  /-- a function called -/
  | call (name : String)
  /-- a module imported -/
  | imported (path : String)
  /-- a state variable accessed -/
  | access (name : String)
  /-- an input that asks for a secret -/
  | sensitive (binding : String)
  /-- an expression whose text form the analysis needs -/
  | wording (expr : Expr)

namespace Finding

/-- A violation if a condition holds. -/
def refuseIf (condition : Bool) (found : Violation) : List Finding :=
  if condition then [violation found] else []

/-- A count above its ceiling. -/
def ofLimit (entity : String) (current ceiling : Nat) : List Finding :=
  refuseIf (ceiling < current) (.limit entity current ceiling)

/-! ## Texts, names and values -/

/-- A text in some place: a violation if it holds a pattern of the denylist, under a lenient policy a
warning. -/
def ofText (policy : Policy) (text place : String) : List Finding :=
  match policy.findBlocked text with
  | none => []
  | some pattern =>
    if policy.lenient then [warning (Violation.deniedText pattern place)]
    else [violation (.denied pattern place)]

/-- A literal text: bounded, without an attempt to inject a script, and judged as a text. -/
def ofString (policy : Policy) (text place : String) : List Finding :=
  ofLimit "string length" text.length policy.maxString
    ++ (scriptPatterns.filter fun pattern => occurs pattern.toList (fold text.toList)).map
      (fun pattern => violation (.script pattern place))
    ++ ofText policy text place

/-- The name of a state variable. -/
def ofStateName (policy : Policy) (name : String) : List Finding :=
  refuseIf (dangerousNames.contains name) (.dangerousName name)
    ++ ofText policy name s!"state variable '{name}'"

mutual

/-- A value with everything inside it. -/
def ofValue (policy : Policy) (place : String) : Value → List Finding
  | .text text => ofString policy text place
  | .list items => ofValues policy place items
  | .map entries => ofEntries policy place entries
  | _ => []

/-- The items of a list value. -/
def ofValues (policy : Policy) (place : String) : List Value → List Finding
  | [] => []
  | v :: vs => ofValue policy place v ++ ofValues policy place vs

/-- The names and values of a map value. -/
def ofEntries (policy : Policy) (place : String) : List (String × Value) → List Finding
  | [] => []
  | (key, v) :: es => ofStateName policy key ++ ofValue policy place v ++ ofEntries policy place es

end

/-- A declared state variable. -/
def ofStateVar (policy : Policy) (v : StateVar) : List Finding :=
  ofStateName policy v.name ++ ofValue policy s!"state variable '{v.name}'" v.value

/-- An import: recorded, and refused or warned about unless it is on the list of allowed modules. -/
def ofImport (policy : Policy) (path : String) : List Finding :=
  imported path :: ofText policy path "import"
    ++ if allowedImports.contains path then []
      else if policy.blocksImports then [violation (.unknownImport path)]
      else [warning s!"Unverified import '{path}'"]

/-! ## Addresses -/

/-- The names of the local host. -/
def localHosts : List String := ["localhost", "127.0.0.1", "[::1]"]

/-- The scheme of addresses that are fetched without encryption. -/
def plainScheme : List Char := "http://".toList

/-- Whether an address without encryption names the local host: the text between its scheme and the
next slash or colon is the name of the local host, or the bracketed local address follows. -/
def isLocal (url : List Char) : Bool :=
  let rest := url.drop plainScheme.length
  let host := (rest.takeWhile (· ≠ '/')).takeWhile (· ≠ ':')
  localHosts.contains (String.ofList (fold host)) || "[::1]".toList.isPrefixOf rest

/-- An address of an external resource. -/
def ofUrl (policy : Policy) (url : List Char) : List Finding :=
  let name := String.ofList url
  resource name ::
    if !plainScheme.isPrefixOf (fold url) || isLocal url then []
    else if policy.blocksHttp then [violation (.plainHttp name)]
    else [warning (Violation.plainHttpText name)]

/-- The source of an image. -/
def ofImage (policy : Policy) (source : String) : List Finding :=
  let url := trim source.toList
  let folded := fold url
  (imageSchemes.filter fun scheme => scheme.toList.isPrefixOf folded).map
      (fun scheme => violation (.imageScheme scheme source))
    ++ ofText policy source "image source"
    ++ (if plainScheme.isPrefixOf folded || "https://".toList.isPrefixOf folded then
        ofUrl policy url else [])
    ++ [permission "READ_EXTERNAL_STORAGE"]

/-- A character of an address in running text. -/
def isUrlChar (c : Char) : Bool := !isBlank c && !(['"', '\'', '<', '>'].contains c)

/-- The rest of a text after the scheme of an address. -/
def afterScheme? : List Char → Option (List Char)
  | 'h' :: 't' :: 't' :: 'p' :: ':' :: '/' :: '/' :: rest => some rest
  | 'h' :: 't' :: 't' :: 'p' :: 's' :: ':' :: '/' :: '/' :: rest => some rest
  | _ => none

/-- The addresses in a running text, from left to right. `skip` characters are still part of the
last one. -/
def urlsFrom (skip : Nat) : List Char → List (List Char)
  | [] => []
  | c :: cs =>
    match skip with
    | skip + 1 => urlsFrom skip cs
    | 0 =>
      match afterScheme? (c :: cs) with
      | none => urlsFrom 0 cs
      | some rest =>
        let tail := rest.takeWhile isUrlChar
        let url := (c :: cs).take ((c :: cs).length - rest.length + tail.length)
        if tail.isEmpty then urlsFrom 0 cs else url :: urlsFrom (url.length - 1) cs

/-- The addresses in a running text. -/
def urls (text : List Char) : List (List Char) := urlsFrom 0 text

/-! ## Code and labels -/

/-- The permissions of a platform, with the keywords that ask for them. -/
def permissionKeywords : List (List String × String) := [
  (["camera"], "CAMERA"),
  (["location", "gps"], "ACCESS_FINE_LOCATION"),
  (["notification", "notify"], "POST_NOTIFICATIONS"),
  (["vibrate"], "VIBRATE")]

/-- The permissions that the text of an action asks for. -/
def ofActionText (text : String) : List Finding :=
  let folded := fold text.toList
  (permissionKeywords.filter fun p => p.1.any fun word => occurs word.toList folded).map
    fun p => permission p.2

/-- The words that start a database statement. -/
def statementWords : List (List Char) :=
  ["drop", "delete", "update", "insert", "select"].map String.toList

/-- The words by which a label asks for a secret. -/
def secretWords : List (List Char) := ["password", "passcode", "secret", "pin"].map String.toList

/-- A piece of code that is no statement. -/
def ofCode (policy : Policy) (code : String) : List Finding :=
  let found := hostPatterns.filter fun pattern => occurs pattern.toList (fold code.toList)
  ofText policy code "action code"
    ++ found.map (fun pattern =>
      if policy.lenient then warning (Violation.hostAccessText pattern)
      else violation (.hostAccess pattern code))
    ++ if holdsWord statementWords startsBlank false code.toList then
        [warning "Potential SQL injection pattern detected"] else []

/-- Whether the name of a component is a capital followed by letters, digits and underscores; a line
break may follow. -/
def isComponentName (name : String) : Bool :=
  match name.toList with
  | [] => false
  | c :: cs => c.isUpper && [[], ['\n']].contains (cs.dropWhile fun c => c.isAlphanum || c == '_')

/-! ## Sites -/

/-- The findings at a UI node, its children apart. -/
def ofNode (policy : Policy) (depth : Nat) (node : Node) : List Finding :=
  ofLimit "UI nesting depth" depth policy.maxUiDepth
    ++ match node with
      | .button label .. => ofString policy label "button label"
      | .image source => ofImage policy source
      | .input label binding =>
        ofString policy label "input label" ++ ofStateName policy binding ++ access binding ::
          if holdsWord secretWords endsWord false label.toList then [sensitive binding] else []
      | .list binding _ => ofStateName policy binding ++ [access binding]
      | .component name _ => refuseIf (!isComponentName name) (.unsafeComponent name)
      | _ => []

/-- The findings at an action, its blocks and expressions apart. The text of the action is written
first. -/
def ofAction (policy : Policy) (action : Action) : List Finding :=
  action.worded.map wording ++ ofActionText action.text
    ++ match action with
      | .navigate n => ofText policy n.target "navigation target" ++ [target n.target]
      | .update name .. => ofStateName policy name ++ [access name]
      | .call function _ => ofText policy function "function call" ++ [call function]
      | .branch .. => []
      | .loop name .. => ofStateName policy name
      | .code text => ofCode policy text

/-- The findings at a node of an expression, its operands apart. -/
def ofExpr (policy : Policy) (depth : Nat) (e : Expr) : List Finding :=
  ofLimit "expression nesting depth" depth policy.maxExprDepth
    ++ match e with
      | .literal (.text text) => ofString policy text "string literal"
      | .var name => ofStateName policy name ++ [access name]
      | .field _ name =>
        refuseIf (dangerousNames.contains name) (.dangerousField name)
          ++ ofText policy name "field access"
      | .call name _ => ofText policy name "function call" ++ [call name]
      | _ => []

/-- The findings at a site. -/
def ofSite (policy : Policy) : Site → List Finding
  | .node depth node => ofNode policy depth node
  | .handler name => ofText policy name "action reference"
  | .property component key => ofText policy key s!"property of component '{component}'"
  | .block _ depth => ofLimit "action nesting depth" depth policy.maxUiDepth
  | .action action => ofAction policy action
  | .expr depth e => ofExpr policy depth e

end Finding

end Screenplay
