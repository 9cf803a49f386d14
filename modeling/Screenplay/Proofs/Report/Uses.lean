/-
The uses among the findings of a program: the modules it imports, the functions it calls, the targets of
its navigations and the variables it accesses. They do not depend on the policy, and they are exactly those
of the imports and of the parts of the program.
-/
import Screenplay.Proofs.Program.Parts
import Screenplay.Report.Analysis

namespace Screenplay

/-! ## Uses -/

/-- What is used at a site. -/
def Site.uses : Site → List Finding
  | .node _ (.input _ binding) | .node _ (.list binding _) => [.access binding]
  | .action (.navigate n) => [.target n.target]
  | .action (.update name ..) => [.access name]
  | .action (.call function _) => [.call function]
  | .expr _ (.var name) => [.access name]
  | .expr _ (.call name _) => [.call name]
  | _ => []

namespace Finding

/-- A finding that records a use. -/
def isUse : Finding → Bool
  | target _ | call _ | imported _ | access _ => true
  | _ => false

/-- Findings that record something, and do not judge it. -/
class Records (pick : Finding → Bool) : Prop where
  violation : ∀ v, pick (violation v) = false
  warning : ∀ text, pick (warning text) = false
  permission : ∀ name, pick (permission name) = false

instance : Records isUse := ⟨fun _ => rfl, fun _ => rfl, fun _ => rfl⟩

variable {policy : Policy} {pick : Finding → Bool}

/-! ## Judgements without records -/

theorem records_map {α : Type} {judge : α → Finding} (h : ∀ a, pick (judge a) = false) (items : List α) :
    (items.map judge).filter pick = [] := by
  simp [List.filter_map, h]

theorem records_flatMap {α : Type} {judge : α → List Finding} (h : ∀ a, (judge a).filter pick = [])
    (items : List α) : (items.flatMap judge).filter pick = [] := by
  rw [List.filter_flatMap, List.flatMap_eq_nil_iff]
  exact fun a _ => h a

section

variable [Records pick]

@[simp] theorem records_refuseIf (condition : Bool) (v : Violation) :
    (refuseIf condition v).filter pick = [] := by
  cases condition with
  | false => rfl
  | true => simp [refuseIf, Records.violation]

@[simp] theorem records_ofLimit (entity : String) (current ceiling : Nat) :
    (ofLimit entity current ceiling).filter pick = [] :=
  records_refuseIf _ _

@[simp] theorem records_ofText (text place : String) : (ofText policy text place).filter pick = [] := by
  unfold ofText
  split
  · rfl
  · split
    · simp [Records.warning]
    · simp [Records.violation]

@[simp] theorem records_ofString (text place : String) :
    (ofString policy text place).filter pick = [] := by
  rw [ofString, List.filter_append, List.filter_append, records_map fun _ => Records.violation _]
  simp

@[simp] theorem records_ofStateName (name : String) : (ofStateName policy name).filter pick = [] := by
  simp [ofStateName]

end

mutual

@[simp] theorem records_ofValue [Records pick] (place : String) :
    ∀ v, (ofValue policy place v).filter pick = []
  | .text _ => by simp [ofValue]
  | .list items => by simp [ofValue, records_ofValues place items]
  | .map entries => by simp [ofValue, records_ofEntries place entries]
  | .null | .bool _ | .int _ | .float _ => by simp [ofValue]

theorem records_ofValues [Records pick] (place : String) :
    ∀ vs, (ofValues policy place vs).filter pick = []
  | [] => rfl
  | v :: vs => by simp [ofValues, records_ofValue place v, records_ofValues place vs]

theorem records_ofEntries [Records pick] (place : String) :
    ∀ es, (ofEntries policy place es).filter pick = []
  | [] => rfl
  | (key, v) :: es => by simp [ofEntries, records_ofValue place v, records_ofEntries place es]

end

section

variable [Records pick]

@[simp] theorem records_ofStateVar (v : StateVar) : (ofStateVar policy v).filter pick = [] := by
  simp [ofStateVar]

@[simp] theorem records_ofModel (m : DataModel) : (ofModel policy m).filter pick = [] := by
  rw [ofModel, List.filter_append, records_ofText, records_flatMap (by simp)]
  rfl

@[simp] theorem records_ofCode (code : String) : (ofCode policy code).filter pick = [] := by
  unfold ofCode
  rw [List.filter_append, List.filter_append, records_ofText, records_map fun _ => by
    split
    · exact Records.warning _
    · exact Records.violation _]
  split
  · simp [Records.warning]
  · rfl

@[simp] theorem records_ofActionText (text : String) : (ofActionText text).filter pick = [] :=
  records_map (fun _ => Records.permission _) _

/-! ## Screens and programs -/

variable {bySite : Site → List Finding} {byImport : String → List Finding} {byUrl : List Char → List Finding}

/-- What is recorded of a screen is what is recorded of its sites. -/
theorem records_ofScreen (sites : ∀ site, (ofSite policy site).filter pick = bySite site) (s : Screen) :
    (ofScreen policy s).filter pick = s.sites.flatMap bySite := by
  have handler (h : Handler) : (ofHandler policy h).filter pick = h.sites.flatMap bySite := by
    rw [ofHandler, List.filter_append, records_ofText, List.filter_flatMap, List.nil_append]
    simp only [sites]
  simp only [ofScreen, List.filter_append, records_ofText, records_flatMap fun _ => records_ofStateName _,
    records_flatMap records_ofStateVar, sites, records_ofLimit, List.filter_flatMap, handler, Screen.sites,
    List.flatMap_append, List.flatMap_assoc, List.append_nil, List.nil_append]

/-- What is recorded of a program is what is recorded of its imports, of its sites and of the addresses in
its source text. -/
theorem records_ofProgram (imports : ∀ path, (ofImport policy path).filter pick = byImport path)
    (sites : ∀ site, (ofSite policy site).filter pick = bySite site)
    (addresses : ∀ url, (ofUrl policy url).filter pick = byUrl url) (p : Program) (source : Option String) :
    (ofProgram policy p source).filter pick =
      p.imports.flatMap byImport ++ (p.screens.flatMap Screen.sites).flatMap bySite
        ++ (urls (source.getD "").toList).flatMap byUrl := by
  simp only [ofProgram, List.filter_append, records_ofLimit, records_ofText, records_flatMap records_ofModel,
    records_flatMap records_ofStateVar, List.filter_flatMap, imports, records_ofScreen sites, addresses,
    List.flatMap_assoc, List.append_nil, List.nil_append]

end

/-! ## Uses -/

@[simp] theorem uses_ofUrl (url : List Char) : (ofUrl policy url).filter isUse = [] := by
  unfold ofUrl
  dsimp only
  split
  · rfl
  · split <;> rfl

@[simp] theorem uses_ofImage (source : String) : (ofImage policy source).filter isUse = [] := by
  unfold ofImage
  rw [List.filter_append, List.filter_append, List.filter_append, records_map fun _ => rfl]
  split <;> simp [isUse]

theorem uses_ofImport (path : String) : (ofImport policy path).filter isUse = [imported path] := by
  unfold ofImport
  rw [List.filter_append, List.filter_cons_of_pos rfl, records_ofText]
  split
  · rfl
  · split <;> rfl

/-- What an analysis records of the uses at a site, whatever its policy. -/
theorem uses_ofSite (site : Site) : (ofSite policy site).filter isUse = site.uses := by
  cases site with
  | node depth n =>
    cases n with
    | input label binding =>
      simp only [ofSite, ofNode, List.filter_append, records_ofLimit, records_ofString, records_ofStateName,
        List.nil_append]
      split <;> rfl
    | _ => simp [ofSite, ofNode, Site.uses, isUse]
  | handler | property | block => simp [ofSite, Site.uses]
  | action a =>
    unfold ofSite ofAction
    rw [List.filter_append, List.filter_append, records_map fun _ => rfl]
    cases a <;> simp [Site.uses, isUse]
  | expr depth e =>
    cases e with
    | literal v => cases v <;> simp [ofSite, ofExpr, Site.uses]
    | _ => simp [ofSite, ofExpr, Site.uses, isUse]

/-- The uses among the findings of a program. -/
theorem uses_ofProgram (p : Program) (source : Option String) :
    (ofProgram policy p source).filter isUse =
      p.imports.map imported ++ (p.screens.flatMap Screen.sites).flatMap Site.uses := by
  rw [records_ofProgram uses_ofImport uses_ofSite uses_ofUrl, List.flatMap_eq_nil_iff.mpr fun _ _ => rfl,
    List.append_nil, List.map_eq_flatMap]

/-- A use is found in a program exactly if it is that of an import, or of a site. -/
theorem mem_uses {p : Program} {source : Option String} {f : Finding} (hf : f.isUse = true) :
    f ∈ ofProgram policy p source ↔
      (∃ path ∈ p.imports, imported path = f) ∨ ∃ site, p.Has site ∧ f ∈ site.uses := by
  have filtered : f ∈ ofProgram policy p source ↔ f ∈ (ofProgram policy p source).filter isUse := by
    rw [List.mem_filter, hf, eq_self, and_true]
  rw [filtered, uses_ofProgram, List.mem_append, List.mem_map, List.mem_flatMap]
  simp only [List.mem_flatMap, Program.Has]

/-! ## Collected uses -/

/-- The names collected from the findings of one kind are those that are found. -/
theorem mem_collected (use : String → Finding) {pick : Finding → Option String}
    (picks : ∀ f name, pick f = some name ↔ f = use name) {found : List Finding} {name : String} :
    name ∈ Names.ofList (found.filterMap pick) ↔ use name ∈ found := by
  rw [Names.mem_ofList, List.mem_filterMap]
  simp only [picks, exists_eq_right]

theorem mem_calls {found : List Finding} {name : String} : name ∈ calls found ↔ call name ∈ found := by
  refine mem_collected call fun f name => ?_
  cases f <;> simp

/-! ## Uses of the parts -/

section

variable {p : Program} {source : Option String}

/-- The functions called are those of the calls among the actions and among the expressions. -/
theorem call_mem {function : String} : call function ∈ ofProgram policy p source ↔ p.Calls function := by
  have used (site : Site) : call function ∈ site.uses ↔
      (∃ args, site = .action (.call function args)) ∨
        ∃ args depth, site = .expr depth (.call function args) := by
    unfold Site.uses
    split <;> simp_all [eq_comm]
  have calls : p.Calls function ↔
      (∃ args, p.HasAction (.call function args)) ∨ ∃ args, p.HasExpr (.call function args) := by
    constructor
    · rintro (h | h)
      · exact .inl ⟨_, h⟩
      · exact .inr ⟨_, h⟩
    · rintro (⟨args, h⟩ | ⟨args, h⟩)
      · exact .action h
      · exact .expr h
  rw [mem_uses rfl, calls]
  simp [used, and_or_left, exists_or, ← Program.has_action, ← Program.exists_has_expr]

/-- The targets are those of the navigations among the actions. -/
theorem target_mem {name : String} :
    target name ∈ ofProgram policy p source ↔ ∃ args, p.HasAction (.navigate ⟨name, args⟩) := by
  have used (site : Site) :
      target name ∈ site.uses ↔ ∃ args, site = .action (.navigate ⟨name, args⟩) := by
    unfold Site.uses
    split
    case h_3 n =>
      obtain ⟨other, args⟩ := n
      simp [eq_comm]
    all_goals simp_all [eq_comm]
  rw [mem_uses rfl]
  simp [used, ← Program.has_action]

/-- The variables accessed are the bindings of inputs and lists, those assigned and those that an
expression refers to. -/
theorem access_mem {name : String} :
    access name ∈ ofProgram policy p source ↔
      (∃ label, p.HasNode (.input label name)) ∨ (∃ template, p.HasNode (.list name template)) ∨
        (∃ value text, p.HasAction (.update name value text)) ∨ p.HasExpr (.var name) := by
  have used (site : Site) : access name ∈ site.uses ↔
      (∃ label depth, site = .node depth (.input label name)) ∨
        (∃ template depth, site = .node depth (.list name template)) ∨
        (∃ value text, site = .action (.update name value text)) ∨
        ∃ depth, site = .expr depth (.var name) := by
    unfold Site.uses
    split <;> simp_all [eq_comm]
  rw [mem_uses rfl]
  simp [used, and_or_left, exists_or, ← Program.has_action, ← Program.exists_has_node,
    ← Program.exists_has_expr]

/-- The modules imported are those of the imports. -/
theorem imported_mem {path : String} :
    imported path ∈ ofProgram policy p source ↔ path ∈ p.imports := by
  have used (site : Site) : imported path ∉ site.uses := by
    unfold Site.uses
    split <;> simp
  rw [mem_uses rfl]
  simp [used]

end

end Finding

end Screenplay
