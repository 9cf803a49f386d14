/-
Safe programs. At a level that refuses hits on the denylist, a program is analyzed without a violation
exactly if it is safe: it stays below the ceilings, and every name, text, value, address and piece of code of
it passes the check of its own position, at any depth.
-/
import Screenplay.Proofs.Report.Wordings

namespace Screenplay

open Screenplay.Text

/-! ## Positions -/

namespace Program

variable (p : Program)

/-- A value that something starts with: the default of a field, or the first value of a state variable. -/
inductive Initial : Value → Prop
  | field {m : DataModel} (hm : m ∈ p.models) {f : DataField} (hf : f ∈ m.fields) : Initial f.default
  | app {v : StateVar} (hv : v ∈ p.state) : Initial v.value
  | screen {s : Screen} (hs : s ∈ p.screens) {v : StateVar} (hv : v ∈ s.state) : Initial v.value

/-- An initial value, or anything inside one. -/
def HasValue (v : Value) : Prop := ∃ root, p.Initial root ∧ Holds Value.members root v

/-- A name of a variable or of an entry: where it is declared, bound, assigned or read. -/
inductive HasName : String → Prop
  | field {m : DataModel} (hm : m ∈ p.models) {f : DataField} (hf : f ∈ m.fields) : HasName f.name
  | app {v : StateVar} (hv : v ∈ p.state) : HasName v.name
  | screen {s : Screen} (hs : s ∈ p.screens) {v : StateVar} (hv : v ∈ s.state) : HasName v.name
  | param {s : Screen} (hs : s ∈ p.screens) {q : Param} (hq : q ∈ s.params) : HasName q.name
  | key {v : Value} (hv : p.HasValue v) {name : String} (hn : name ∈ v.keys) : HasName name
  | input {label name : String} (h : p.HasNode (.input label name)) : HasName name
  | list {name : String} {template : Node} (h : p.HasNode (.list name template)) : HasName name
  | update {name source : String} {value : Expr} (h : p.HasAction (.update name value source)) : HasName name
  | loop {name range : String} {body : List Action} (h : p.HasAction (.loop name range body)) : HasName name
  | var {name : String} (h : p.HasExpr (.var name)) : HasName name

/-- A field that is accessed. -/
def Accesses (name : String) : Prop := ∃ target, p.HasExpr (.field target name)

/-- A text that is shown: a value, a literal or a label. -/
inductive Shows : String → Prop
  | value {text : String} (h : p.HasValue (.text text)) : Shows text
  | literal {text : String} (h : p.HasExpr (.literal (.text text))) : Shows text
  | button {label : String} {navigation : Option Navigation} {handler : Option String}
    {actions : List Action} (h : p.HasNode (.button label navigation handler actions)) : Shows label
  | input {label binding : String} (h : p.HasNode (.input label binding)) : Shows label

/-- A name or a text that must be free of the denylist. Names of types, texts of ranges, right-hand sides as
written and names of components are not among them. -/
inductive Mentions : String → Prop
  | app : Mentions p.name
  | imported {path : String} (h : path ∈ p.imports) : Mentions path
  | model {m : DataModel} (hm : m ∈ p.models) : Mentions m.name
  | screen {s : Screen} (hs : s ∈ p.screens) : Mentions s.name
  | handler {s : Screen} (hs : s ∈ p.screens) {h : Handler} (hh : h ∈ s.handlers) : Mentions h.name
  | reference {label name : String} {navigation : Option Navigation} {actions : List Action}
    (h : p.HasNode (.button label navigation (some name) actions)) : Mentions name
  | property {name : String} {props : List (String × Expr)} (h : p.HasNode (.component name props))
    {e : String × Expr} (he : e ∈ props) : Mentions e.1
  | image {source : String} (h : p.HasNode (.image source)) : Mentions source
  | target {n : Navigation} (h : p.HasAction (.navigate n)) : Mentions n.target
  | code {text : String} (h : p.HasAction (.code text)) : Mentions text
  | name {name : String} (h : p.HasName name) : Mentions name
  | field {name : String} (h : p.Accesses name) : Mentions name
  | text {text : String} (h : p.Shows text) : Mentions text
  | function {name : String} (h : p.Calls name) : Mentions name

/-- An address that is fetched: the source of an image, if it is an address, and the addresses in the source
text. -/
inductive Fetches (source : Option String) : List Char → Prop
  | image {s : String} (h : p.HasNode (.image s))
    (hs : ∃ scheme ∈ [Finding.plainScheme, "https://".toList], scheme <+: fold (trim s.toList)) :
    Fetches source (trim s.toList)
  | source {text : String} (hs : source = some text) {url : List Char}
    (h : Finding.AddressIn text.toList url) : Fetches source url

end Program

/-! ## Safe programs -/

/-- A program that is safe under a policy, together with its source text if that is given. -/
structure Program.Safe (policy : Policy) (p : Program) (source : Option String) : Prop where
  screens : p.screens.length ≤ policy.maxScreens
  state : p.stateCount ≤ policy.maxStateVariables
  elements : ∀ s ∈ p.screens, s.ui.size ≤ policy.maxElements
  uiDepth : ∀ s ∈ p.screens, s.ui.height ≤ policy.maxUiDepth
  actionDepth : ∀ under actions, p.Behaves under actions → Action.nestingOf actions ≤ policy.maxUiDepth
  exprDepth : ∀ e, p.Evaluates e → e.depth ≤ policy.maxExprDepth
  clear : ∀ text, p.Mentions text → ∀ pattern ∈ policy.patterns, ¬ pattern.toList <:+: fold text.toList
  names : ∀ name, p.HasName name → name ∉ dangerousNames
  fields : ∀ name, p.Accesses name → name ∉ dangerousNames
  lengths : ∀ text, p.Shows text → text.length ≤ policy.maxString
  scripts : ∀ text, p.Shows text → ∀ pattern ∈ scriptPatterns, ¬ pattern.toList <:+: fold text.toList
  components : ∀ name props, p.HasNode (.component name props) → Capitalized name
  images : ∀ s, p.HasNode (.image s) → ∀ scheme ∈ imageSchemes, ¬ scheme.toList <+: fold (trim s.toList)
  imports : ∀ path ∈ p.imports, path ∈ allowedImports
  code : ∀ text, p.HasAction (.code text) → ∀ pattern ∈ hostPatterns,
    ¬ pattern.toList <:+: fold text.toList
  addresses : policy.blocksHttp = true → ∀ url, p.Fetches source url →
    Finding.plainScheme <+: fold url → Finding.Local url
  functions : {name | p.Calls name}.encard ≤ policy.maxFunctions
  complexity : p.complexity ≤ policy.maxComplexity

/-! ## Judging the parts -/

namespace Finding

variable {policy : Policy} {p : Program}

section

variable (hp : policy.lenient = false)
include hp

/-- The nodes pass exactly if no tree is too high and each node is allowed. -/
theorem allowed_nodes :
    (∀ depth n, p.Has (.node depth n) → Allowed (ofNode policy depth n)) ↔
      (∀ s ∈ p.screens, s.ui.height ≤ policy.maxUiDepth) ∧ ∀ n, p.HasNode n → policy.AllowsNode n := by
  have tree (ui : Node) := height_le_and_holds_iff Node.height_pos Node.height_le_succ
    policy.maxUiDepth policy.AllowsNode ui
  constructor
  · intro h
    have low (s : Screen) (hs : s ∈ p.screens) := (tree s.ui).mp fun place n hn =>
      (allowed_ofNode hp).mp (h _ n (Program.has_node.mpr ⟨s, hs, place, hn, rfl⟩))
    exact ⟨fun s hs => (low s hs).1, fun n ⟨s, hs, hn⟩ => (low s hs).2 n hn⟩
  · rintro ⟨low, all⟩ depth n site
    obtain ⟨s, hs, place, hn, rfl⟩ := Program.has_node.mp site
    exact (allowed_ofNode hp).mpr
      ((tree s.ui).mpr ⟨low s hs, fun m hm => all m ⟨s, hs, hm⟩⟩ place n hn)

/-- The expressions pass exactly if none is too deep and each is allowed. -/
theorem allowed_exprs :
    (∀ depth e, p.Has (.expr depth e) → Allowed (ofExpr policy depth e)) ↔
      (∀ e, p.Evaluates e → e.depth ≤ policy.maxExprDepth) ∧ ∀ e, p.HasExpr e → policy.AllowsExpr e := by
  have tree (root : Expr) := height_le_and_holds_iff Expr.depth_pos Expr.depth_le_succ
    policy.maxExprDepth policy.AllowsExpr root
  constructor
  · intro h
    have low (root : Expr) (hr : p.Evaluates root) := (tree root).mp fun place e he =>
      (allowed_ofExpr hp).mp (h _ e (Program.has_expr.mpr ⟨root, hr, place, he, rfl⟩))
    exact ⟨fun root hr => (low root hr).1, fun e ⟨root, hr, he⟩ => (low root hr).2 e he⟩
  · rintro ⟨low, all⟩ depth e site
    obtain ⟨root, hr, place, he, rfl⟩ := Program.has_expr.mp site
    exact (allowed_ofExpr hp).mpr
      ((tree root).mpr ⟨low root hr, fun e he => all e ⟨root, hr, he⟩⟩ place e he)

end

/-- The blocks pass exactly if none is nested too deeply. -/
theorem allowed_blocks :
    (∀ under depth, p.Has (.block under depth) → depth ≤ policy.maxUiDepth) ↔
      ∀ under actions, p.Behaves under actions → Action.nestingOf actions ≤ policy.maxUiDepth := by
  simp only [height_le_iff Action.nestingOf_pos Action.nestingOf_le_succ]
  constructor
  · intro h under actions hb place block hp
    have := h under _ (Program.has_block.mpr ⟨actions, hb, place, block, hp, rfl⟩)
    omega
  · intro low under depth hd
    obtain ⟨actions, hb, place, block, hp, rfl⟩ := Program.has_block.mp hd
    have := low under actions hb place block hp
    omega

/-- The distinct functions among the findings are those that the program calls. -/
theorem encard_calls (policy : Policy) (p : Program) (source : Option String) :
    {name | p.Calls name}.encard = (calls (ofProgram policy p source)).length := by
  have members : {name | p.Calls name} =
      ((calls (ofProgram policy p source)).toFinset : Set String) := by
    ext name
    rw [List.coe_toFinset, Set.mem_ofPred_eq, Set.mem_ofPred_eq, mem_calls, call_mem]
  have distinct : (calls (ofProgram policy p source)).Nodup := Names.nodup_ofList _
  rw [members, Set.encard_coe_eq_coe_finsetCard, List.toFinset_card_of_nodup distinct]

theorem allowed_ofStateVar (hp : policy.lenient = false) {v : StateVar} :
    Allowed (ofStateVar policy v) ↔
      policy.AllowsName v.name ∧ ∀ w, Holds Value.members v.value w → policy.AllowsValue w := by
  rw [ofStateVar, allowed_append, allowed_ofStateName hp, allowed_ofValue hp]

theorem allowed_ofModel (hp : policy.lenient = false) {m : DataModel} :
    Allowed (ofModel policy m) ↔ policy.Clears m.name ∧ ∀ f ∈ m.fields,
      policy.AllowsName f.name ∧ ∀ w, Holds Value.members f.default w → policy.AllowsValue w := by
  simp only [ofModel, allowed_append, allowed_flatMap, allowed_ofText_iff hp, allowed_ofStateName hp,
    allowed_ofValue hp]

theorem allowed_ofScreen (hp : policy.lenient = false) {s : Screen} :
    Allowed (ofScreen policy s) ↔
      policy.Clears s.name ∧ (∀ q ∈ s.params, policy.AllowsName q.name) ∧
        (∀ v ∈ s.state, Allowed (ofStateVar policy v)) ∧ s.ui.size ≤ policy.maxElements ∧
        (∀ h ∈ s.handlers, policy.Clears h.name) ∧ ∀ site ∈ s.sites, Allowed (ofSite policy site) := by
  simp only [ofScreen, ofHandler, Screen.sites, allowed_append, allowed_flatMap, allowed_ofText_iff hp,
    allowed_ofStateName hp, allowed_ofLimit, List.forall_mem_append, List.forall_mem_flatMap, forall_and]
  tauto

theorem allowed_ofProgram (hp : policy.lenient = false) (hb : policy.blocksImports = true)
    {source : Option String} :
    Allowed (ofProgram policy p source) ↔
      p.screens.length ≤ policy.maxScreens ∧ p.stateCount ≤ policy.maxStateVariables ∧
        policy.Clears p.name ∧
        (∀ path ∈ p.imports, policy.Clears path ∧ path ∈ allowedImports) ∧
        (∀ m ∈ p.models, Allowed (ofModel policy m)) ∧ (∀ v ∈ p.state, Allowed (ofStateVar policy v)) ∧
        (∀ s ∈ p.screens, Allowed (ofScreen policy s)) ∧
        ∀ url, AddressIn (source.getD "").toList url → policy.AllowsUrl url := by
  simp only [ofProgram, allowed_append, allowed_flatMap, allowed_ofLimit, allowed_ofText_iff hp,
    allowed_ofImport hp hb, allowed_ofUrl, mem_urls, and_assoc]

end Finding

/-- Every site of a program that passes passes. -/
theorem Finding.Allowed.site {policy : Policy} {p : Program} {source : Option String}
    (h : Allowed (ofProgram policy p source)) {site : Site} (hs : p.Has site) :
    Allowed (ofSite policy site) := by
  obtain ⟨s, hs, hm⟩ := hs
  exact allowed_of_mem_sites (allowed_ofScreen_of_mem h hs) hm

/-! ## Safe programs pass -/

namespace Program.Safe

open Finding

variable {policy : Policy} {p : Program} {source : Option String}

section

variable (h : p.Safe policy source)
include h

theorem allowsName {name : String} (hn : p.HasName name) : policy.AllowsName name :=
  ⟨h.names name hn, h.clear name (.name hn)⟩

theorem allowsText {text : String} (ht : p.Shows text) : policy.AllowsText text :=
  ⟨h.lengths text ht, h.scripts text ht, h.clear text (.text ht)⟩

theorem allowsValue {v : Value} (hv : p.HasValue v) : policy.AllowsValue v :=
  ⟨fun _ ht => h.allowsText (.value (ht ▸ hv)), fun _ hn => h.allowsName (.key hv hn)⟩

theorem allowsUrl {url : List Char} (hu : p.Fetches source url) : policy.AllowsUrl url :=
  fun hb => h.addresses hb url hu

theorem allowsNode {n : Node} (hn : p.HasNode n) : policy.AllowsNode n := by
  cases n with
  | button => exact h.allowsText (.button hn)
  | image s =>
    refine ⟨h.images s hn, h.clear s (.image hn), fun hb plain => ?_⟩
    exact h.addresses hb _ (.image hn ⟨_, List.mem_cons_self, plain⟩) plain
  | input => exact ⟨h.allowsText (.input hn), h.allowsName (.input hn)⟩
  | list => exact h.allowsName (.list hn)
  | component name props => exact h.components name props hn
  | container | text | conditional => trivial

theorem allowsAction {a : Action} (ha : p.HasAction a) : policy.AllowsAction a := by
  cases a with
  | navigate n => exact h.clear _ (.target ha)
  | update => exact h.allowsName (.update ha)
  | call => exact h.clear _ (.function (.action ha))
  | loop => exact h.allowsName (.loop ha)
  | code text => exact ⟨h.clear text (.code ha), h.code text ha⟩
  | branch => trivial

theorem allowsExpr {e : Expr} (he : p.HasExpr e) : policy.AllowsExpr e := by
  cases e with
  | literal v =>
    cases v with
    | text => exact h.allowsText (.literal he)
    | _ => trivial
  | var => exact h.allowsName (.var he)
  | field target name => exact ⟨h.fields name ⟨target, he⟩, h.clear name (.field ⟨target, he⟩)⟩
  | call => exact h.clear _ (.function (.expr he))
  | not | binary | interpolation => trivial

theorem allowsSite (hp : policy.lenient = false) {site : Site} (hs : p.Has site) :
    Allowed (ofSite policy site) := by
  cases site with
  | node depth n => exact (allowed_nodes hp).mpr ⟨h.uiDepth, fun n => h.allowsNode⟩ depth n hs
  | handler name =>
    obtain ⟨label, navigation, actions, hn⟩ := has_handler.mp hs
    exact (allowed_ofText_iff hp).mpr (h.clear name (.reference hn))
  | property component key =>
    obtain ⟨props, hn, e, he, rfl⟩ := has_property.mp hs
    exact (allowed_ofText_iff hp).mpr (h.clear e.1 (.property hn he))
  | block under depth => exact allowed_ofLimit.mpr (allowed_blocks.mpr h.actionDepth under depth hs)
  | action a => exact (allowed_ofAction hp).mpr (h.allowsAction (has_action.mp hs))
  | expr depth e => exact (allowed_exprs hp).mpr ⟨h.exprDepth, fun e => h.allowsExpr⟩ depth e hs

/-- A safe program passes. -/
theorem allowed (hp : policy.lenient = false) (hb : policy.blocksImports = true) :
    Allowed (ofProgram policy p source) ∧ Allowed (ofWhole policy p (ofProgram policy p source)) := by
  refine ⟨(allowed_ofProgram hp hb).mpr ⟨h.screens, h.state, h.clear _ .app, ?_, ?_, ?_, ?_, ?_⟩, ?_⟩
  · exact fun path hm => ⟨h.clear path (.imported hm), h.imports path hm⟩
  · intro m hm
    refine (allowed_ofModel hp).mpr ⟨h.clear _ (.model hm), fun f hf => ⟨h.allowsName (.field hm hf), ?_⟩⟩
    exact fun v hv => h.allowsValue ⟨_, .field hm hf, hv⟩
  · intro v hv
    exact (allowed_ofStateVar hp).mpr
      ⟨h.allowsName (.app hv), fun w hw => h.allowsValue ⟨_, .app hv, hw⟩⟩
  · intro s hs
    refine (allowed_ofScreen hp).mpr ⟨h.clear _ (.screen hs), fun q hq => h.allowsName (.param hs hq), ?_,
      h.elements s hs, fun handler hh => h.clear _ (.handler hs hh), ?_⟩
    · intro v hv
      exact (allowed_ofStateVar hp).mpr
        ⟨h.allowsName (.screen hs hv), fun w hw => h.allowsValue ⟨_, .screen hs hv, hw⟩⟩
    · exact fun site hm => h.allowsSite hp ⟨s, hs, hm⟩
  · intro url hu
    cases source with
    | none => exact absurd hu (not_addressIn_nil url)
    | some text => exact h.allowsUrl (.source rfl hu)
  · -- the functions are counted among the findings, and those are the ones called
    rw [allowed_ofWhole, ← ENat.natCast_le_natCast, ← encard_calls]
    exact ⟨h.functions, h.complexity⟩

end

end Program.Safe

/-! ## What passes is safe -/

namespace Finding

variable {policy : Policy} {p : Program} {source : Option String} (hp : policy.lenient = false)
  (hb : policy.blocksImports = true) (h : Allowed (ofProgram policy p source))
include hp h

theorem allowsNode_of_allowed {n : Node} (hn : p.HasNode n) : policy.AllowsNode n := by
  have sites := fun depth n (hs : p.Has (.node depth n)) => h.site hs
  exact ((allowed_nodes hp).mp sites).2 n hn

theorem allowsAction_of_allowed {a : Action} (ha : p.HasAction a) : policy.AllowsAction a :=
  (allowed_ofAction hp).mp (h.site (Program.has_action.mpr ha))

theorem allowsExpr_of_allowed {e : Expr} (he : p.HasExpr e) : policy.AllowsExpr e := by
  have sites := fun depth e (hs : p.Has (.expr depth e)) => h.site hs
  exact ((allowed_exprs hp).mp sites).2 e he

include hb

theorem allowsValue_of_allowed {v : Value} (hv : p.HasValue v) : policy.AllowsValue v := by
  obtain ⟨-, -, -, -, models, state, screens, -⟩ := (allowed_ofProgram hp hb).mp h
  obtain ⟨root, hr, hv⟩ := hv
  cases hr with
  | field hm hf => exact (((allowed_ofModel hp).mp (models _ hm)).2 _ hf).2 v hv
  | app hs => exact ((allowed_ofStateVar hp).mp (state _ hs)).2 v hv
  | screen hs hw =>
    obtain ⟨-, -, vars, -⟩ := (allowed_ofScreen hp).mp (screens _ hs)
    exact ((allowed_ofStateVar hp).mp (vars _ hw)).2 v hv

theorem allowsName_of_allowed {name : String} (hn : p.HasName name) : policy.AllowsName name := by
  obtain ⟨-, -, -, -, models, state, screens, -⟩ := (allowed_ofProgram hp hb).mp h
  cases hn with
  | field hm hf => exact (((allowed_ofModel hp).mp (models _ hm)).2 _ hf).1
  | app hv => exact ((allowed_ofStateVar hp).mp (state _ hv)).1
  | screen hs hv =>
    obtain ⟨-, -, vars, -⟩ := (allowed_ofScreen hp).mp (screens _ hs)
    exact ((allowed_ofStateVar hp).mp (vars _ hv)).1
  | param hs hq => exact ((allowed_ofScreen hp).mp (screens _ hs)).2.1 _ hq
  | key hv hk => exact (allowsValue_of_allowed hp hb h hv).keys name hk
  | input hn => exact (allowsNode_of_allowed hp h hn).2
  | list hn => exact allowsNode_of_allowed hp h hn
  | update ha | loop ha => exact allowsAction_of_allowed hp h ha
  | var he => exact allowsExpr_of_allowed hp h he

omit hb

theorem allowsName_of_accesses {name : String} (hn : p.Accesses name) : policy.AllowsName name := by
  obtain ⟨target, he⟩ := hn
  exact allowsExpr_of_allowed hp h he

include hb

theorem allowsText_of_allowed {text : String} (ht : p.Shows text) : policy.AllowsText text := by
  cases ht with
  | value hv => exact (allowsValue_of_allowed hp hb h hv).text text rfl
  | literal he => exact allowsExpr_of_allowed hp h he
  | button hn => exact allowsNode_of_allowed hp h hn
  | input hn => exact (allowsNode_of_allowed hp h hn).1

theorem clears_of_allowed {text : String} (hm : p.Mentions text) : policy.Clears text := by
  obtain ⟨-, -, name, imports, models, -, screens, -⟩ := (allowed_ofProgram hp hb).mp h
  cases hm with
  | app => exact name
  | imported hm => exact (imports _ hm).1
  | model hm => exact ((allowed_ofModel hp).mp (models _ hm)).1
  | screen hs => exact ((allowed_ofScreen hp).mp (screens _ hs)).1
  | handler hs hh => exact ((allowed_ofScreen hp).mp (screens _ hs)).2.2.2.2.1 _ hh
  | reference hn => exact (allowed_ofText_iff hp).mp (h.site (Program.has_handler.mpr ⟨_, _, _, hn⟩))
  | property hn he =>
    exact (allowed_ofText_iff hp).mp (h.site (Program.has_property.mpr ⟨_, hn, _, he, rfl⟩))
  | image hn => exact (allowsNode_of_allowed hp h hn).2.1
  | target ha => exact allowsAction_of_allowed hp h ha
  | code ha => exact (allowsAction_of_allowed hp h ha).1
  | name hn => exact (allowsName_of_allowed hp hb h hn).clear
  | field hn => exact (allowsName_of_accesses hp h hn).clear
  | text ht => exact (allowsText_of_allowed hp hb h ht).clear
  | function hc =>
    cases hc with
    | action ha => exact allowsAction_of_allowed hp h ha
    | expr he => exact allowsExpr_of_allowed hp h he

theorem allowsUrl_of_allowed {url : List Char} (hu : p.Fetches source url) : policy.AllowsUrl url := by
  obtain ⟨-, -, -, -, -, -, -, urls⟩ := (allowed_ofProgram hp hb).mp h
  cases hu with
  | image hn => exact (allowsNode_of_allowed hp h hn).2.2
  | source hs hu => exact urls url (by rwa [hs])

/-- A program that passes is safe. -/
theorem safe_of_allowed (hw : Allowed (ofWhole policy p (ofProgram policy p source))) :
    p.Safe policy source := by
  obtain ⟨screens, state, -, imports, -, -, ofScreens, -⟩ := (allowed_ofProgram hp hb).mp h
  obtain ⟨functions, complexity⟩ := allowed_ofWhole.mp hw
  exact
    { screens, state, complexity
      elements := fun s hs => ((allowed_ofScreen hp).mp (ofScreens s hs)).2.2.2.1
      uiDepth := ((allowed_nodes hp).mp fun depth n hs => h.site hs).1
      actionDepth := allowed_blocks.mp fun under depth hs => allowed_ofLimit.mp (h.site hs)
      exprDepth := ((allowed_exprs hp).mp fun depth e hs => h.site hs).1
      clear := fun text hm => clears_of_allowed hp hb h hm
      names := fun name hn => (allowsName_of_allowed hp hb h hn).harmless
      fields := fun name hn => (allowsName_of_accesses hp h hn).harmless
      lengths := fun text ht => (allowsText_of_allowed hp hb h ht).length
      scripts := fun text ht => (allowsText_of_allowed hp hb h ht).scripts
      components := fun name props hn => allowsNode_of_allowed hp h hn
      images := fun s hn => (allowsNode_of_allowed hp h hn).1
      imports := fun path hm => (imports path hm).2
      code := fun text ha => (allowsAction_of_allowed hp h ha).2
      addresses := fun hh url hu => allowsUrl_of_allowed hp hb h hu hh
      functions := by
        rw [encard_calls policy p source]
        exact ENat.natCast_le_natCast.mpr functions }

end Finding

theorem Policy.blocksImports_of_ne {level : Level} (hl : level ≠ .permissive) :
    (Policy.ofLevel level).blocksImports = true := by
  cases level with
  | permissive => exact absurd rfl hl
  | strict | moderate => rfl

/-- At a level that refuses hits on the denylist, what is analyzed without a violation is safe. -/
theorem Report.safe_of_analyzed {level : Level} (hl : level ≠ .permissive) {p : Program} {source : Option String}
    {report : Report} (h : analyze level p source = .ok report) : p.Safe (Policy.ofLevel level) source := by
  obtain ⟨found, whole, -⟩ := analyze_eq_ok.mp h
  exact Finding.safe_of_allowed (Policy.not_lenient hl) (Policy.blocksImports_of_ne hl) found whole

/-- At a level that refuses hits on the denylist, the programs that are analyzed to a report are the safe ones, if
there is room for the texts that the analysis writes. Otherwise it tells a violation, and the program is not safe,
or what it was short of, and there is no such room. -/
theorem Report.analyzed_iff_safe {level : Level} (hl : level ≠ .permissive) (room : Room) (p : Program)
    (source : Option String) :
    ((∃ report, analyzeIn room level p source = .ok report) ↔
        p.Safe (Policy.ofLevel level) source ∧ p.Writable room) ∧
      ∀ e, analyzeIn room level p source = .error e →
        (∃ v, e = .refused v ∧ ¬ p.Safe (Policy.ofLevel level) source) ∨
          ∃ shortage, e = .short shortage ∧ ¬ p.Writable room := by
  have passes (h : p.Safe (Policy.ofLevel level) source) : ∃ report, analyze level p source = .ok report := by
    obtain ⟨found, whole⟩ := h.allowed (Policy.not_lenient hl) (Policy.blocksImports_of_ne hl)
    exact ⟨_, analyze_eq_ok.mpr ⟨found, whole, rfl⟩⟩
  constructor
  · constructor
    · rintro ⟨report, h⟩
      obtain ⟨found, written⟩ := analyzeIn_eq_ok.mp h
      exact ⟨safe_of_analyzed hl found, written⟩
    · rintro ⟨safe, written⟩
      obtain ⟨report, found⟩ := passes safe
      exact ⟨report, analyzeIn_eq_ok.mpr ⟨found, written⟩⟩
  · intro e h
    rcases analyzeIn_eq_error h with ⟨v, rfl, found⟩ | short
    · refine .inl ⟨v, rfl, fun safe => ?_⟩
      obtain ⟨report, passed⟩ := passes safe
      rw [found] at passed
      cases passed
    · exact .inr short

/-- A program with an input, a call and an image. -/
def postcard : Program :=
  ⟨"postcard", "Home",
    [⟨"Home", [⟨"guest", "text"⟩], [⟨"line", .text "hello"⟩],
      .container .column [
        .input "line" "line", .image " https://pictures.example/shore.png",
        .button "send" none none [
          .branch (.binary .eq (.var "line") (.literal (.text ""))) [] [.call "send" [.var "line"]]]],
      []⟩],
    [], ["@sprout/ui"], []⟩

/-- The postcard is safe at the strict level, unless its source text holds an address that is fetched without
encryption. -/
theorem Report.analyzed_iff_safe_postcard :
    postcard.Safe (Policy.ofLevel .strict) (some "see http://localhost:8000/") ∧
      ¬ postcard.Safe (Policy.ofLevel .strict) (some "see http://pictures.example/") := by
  have home : (analyzeIn Room.usual .strict postcard (some "see http://localhost:8000/")).isOk = true := by
    decide +kernel
  have away : (analyzeIn Room.usual .strict postcard (some "see http://pictures.example/")).isOk = false := by
    decide +kernel
  have strict : Level.strict ≠ .permissive := nofun
  -- at home the report is written, so there is room for its texts: what stops the analysis away is a violation
  have at_home : postcard.Safe (Policy.ofLevel .strict) (some "see http://localhost:8000/") ∧
      postcard.Writable Room.usual := by
    refine (analyzed_iff_safe strict Room.usual postcard _).1.mp ?_
    cases h : analyzeIn Room.usual .strict postcard (some "see http://localhost:8000/") with
    | error e => rw [h] at home; cases home
    | ok report => exact ⟨report, rfl⟩
  refine ⟨at_home.1, ?_⟩
  cases h : analyzeIn Room.usual .strict postcard (some "see http://pictures.example/") with
  | ok report => rw [h] at away; cases away
  | error e =>
    rcases (analyzed_iff_safe strict Room.usual postcard _).2 e h with ⟨v, -, unsafely⟩ | ⟨shortage, -, short⟩
    · exact unsafely
    · exact absurd at_home.2 short

end Screenplay
