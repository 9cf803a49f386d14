/-
The documents that commands show: results as objects whose entries always stand in the same order.
They tell no times, so that a document depends on the program and its options alone.
-/
import Screenplay.Compile

namespace Screenplay

/-! ## Layout -/

/-- Indented, in the order of the entries, with characters outside ASCII as they are. -/
def Json.Style.listing : Json.Style := ⟨some 2, false, false⟩

/-- Indented, in the order of the entries, in ASCII. -/
def Json.Style.asciiListing : Json.Style := ⟨some 2, false, true⟩

/-- A floating point number; without a finite value it is null. -/
def Json.ofFloat (x : Float) : Json := if x.isFinite then .float x else .null

mutual

/-- A document in which every floating point number is finite. -/
def Json.finite : Json → Json
  | .float x => Json.ofFloat x
  | .list items => .list (Json.finiteItems items)
  | .object entries => .object (Json.finiteEntries entries)
  | j => j

/-- The items of a list, made finite. -/
def Json.finiteItems : List Json → List Json
  | [] => []
  | j :: js => Json.finite j :: Json.finiteItems js

/-- The entries of an object, made finite. -/
def Json.finiteEntries : List (String × Json) → List (String × Json)
  | [] => []
  | (k, j) :: es => (k, Json.finite j) :: Json.finiteEntries es

end

/-- The document of a value. -/
def Value.document (v : Value) : Json := (Json.ofValue v).finite

/-! ## Results -/

/-- The document of a report. -/
def Report.document (r : Report) : Json :=
  .object [("risk_level", .text r.risk.name), ("security_level", .text r.level.name),
    ("required_permissions", .ofTexts r.permissions), ("external_resources", .ofTexts r.resources),
    ("navigation_targets", .ofTexts r.targets), ("function_calls", .ofTexts r.calls),
    ("required_imports", .ofTexts r.imports), ("accessed_state", .ofTexts r.accessed),
    ("sensitive_inputs", .ofTexts r.sensitive), ("warnings", .ofTexts r.warnings),
    ("complexity_score", .int r.complexity), ("code_quality_score", .int r.quality),
    ("total_ui_elements", .int r.elements)]

/-- The document of what may be missing. -/
def documentOf? {α : Type} (document : α → Json) : Option α → Json
  | some a => document a
  | none => .null

/-- The document of what is told about an artifact. -/
def Metadata.document (d : Metadata) : Json :=
  .object [("size", .int d.size), ("checksum", .text d.checksum),
    ("permissions", .ofTexts d.permissions), ("entry_points", .ofTexts d.entryPoints),
    ("compiler_version", .text version), ("target_platform", .text d.target)]

/-- The document of a compilation. -/
def compileDocument (outcome : Except Failure Compiled) : Json :=
  let compiled := outcome.toOption
  let errors := match outcome with
    | .ok _ => []
    | .error e => [e.summary]
  .object [("success", .bool compiled.isSome), ("errors", .ofTexts errors),
    ("warnings", .ofTexts ((compiled.map (·.analyzed.warnings)).getD [])),
    ("metadata", documentOf? (·.metadata.document) compiled),
    ("security_report", documentOf? (·.analyzed.report.document) compiled)]

namespace ParseResult

/-- The document of a parsed source. -/
def document (r : ParseResult) : Json :=
  .object [("success", .bool r.success), ("ast", .ofText? r.outline),
    ("errors", .ofTexts r.errors), ("warnings", .ofTexts r.warnings),
    ("security_report", documentOf? Report.document r.report)]

/-- The document that tells whether a source is valid. -/
def verdict (r : ParseResult) : Json :=
  .object [("valid", .bool r.success), ("errors", .ofTexts r.errors),
    ("warnings", .ofTexts r.warnings)]

end ParseResult

/-! ## Executions -/

/-- The document of an event. -/
def Event.document (e : Event) : Json :=
  .object [("kind", .text e.kind.name), ("detail", .text e.detail)]

/-- The document of a change. -/
def Change.document (c : Change) : Json :=
  .object [("name", .text c.name), ("old_value", c.old.document), ("new_value", c.new.document)]

/-- The document of an execution. -/
def Execution.document (x : Execution) : Json :=
  .object [("success", .bool x.success), ("status", .text x.status.name),
    ("final_state", (Value.map x.values).document), ("memory_usage", .int x.memory),
    ("events", .list (x.events.map Event.document)),
    ("history", .list (x.history.map Change.document)), ("navigations", .ofTexts x.navigations),
    ("error", .ofText? (x.failure.map (·.1))), ("error_kind", .ofText? (x.failure.map (·.2)))]

end Screenplay
