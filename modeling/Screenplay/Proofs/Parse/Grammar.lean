/-
The grammar under a judgement: every parser has what the rules of a judgement give, from expressions
up to whole programs. Of all that is read again and again, each parser reads a token at least.
-/
import Screenplay.Proofs.Parse.Rules

namespace Screenplay.Parse.Rules

variable {Known : Token → Prop} {P : Pace → ∀ {α : Type}, Parse α → Prop} {k : Pace}
  {inner : Parse Expr} {block : Parse (List Action)} {children : Parse (List Node)}

/-! ## Expressions -/

theorem number? (h : Rules Known P) {token : Token} (ht : Known token) : P .stays (number? token) := by
  unfold Parse.number?
  split
  · exact h.input _
  · exact h.pure _
  · split
    · exact h.failAt ht _
    · exact h.pure _

theorem segments (h : Rules Known P) (hi : P .advances inner) {origin : Token} (ho : Known origin) :
    ∀ segments ⊆ Segment.ofText origin.value.toList, P .stays (Expr.parseSegments inner origin segments)
  | [], _ => h.pure _
  | .literal _ :: later, pieces =>
    h.bind (h.segments hi ho later (List.cons_subset.mp pieces).2) fun _ => h.pure _
  | .embedded _ :: later, pieces =>
    h.bind (h.embedded ho (List.cons_subset.mp pieces).1 (h.slow hi)) fun _ =>
      h.bind (h.segments hi ho later (List.cons_subset.mp pieces).2) fun _ => h.pure _

theorem text (h : Rules Known P) (hi : P .advances inner) {token : Token} (ht : Known token) :
    P .stays (Expr.parseText inner token) := by
  refine h.bind (h.check _) fun _ => ?_
  dsimp only
  split
  · exact h.bind (h.segments hi ht _ (List.Subset.refl _)) fun _ => h.pure _
  · exact h.pure _

theorem argument (h : Rules Known P) (hi : P .advances inner) (args : List Expr) :
    P k (Expr.addArgument inner args) :=
  h.bind (h.adding (h.any hi) args) fun _ => h.bind (h.check _) fun _ => h.pure _

theorem arguments (h : Rules Known P) (hi : P .advances inner) : P k (Expr.parseArguments inner) :=
  h.bind (h.expectSymbol _) fun _ => h.bind (h.itemsBetweenCommas (h.argument hi) _) fun _ =>
    h.bind (h.expectSymbol _) fun _ => h.pure _

/-- A word is read whatever it is, so only the end of the text keeps its parser in place. -/
theorem exprWord (h : Rules Known P) (hi : P .advances inner) {token : Token} (ht : Known token) :
    P .moves (Expr.parseWord inner token) := by
  have named : P .stays (do
      check [.text token.value "identifier"]
      if ← atSymbol "(" then return Expr.call token.value (← Expr.parseArguments inner)
      return Expr.ofPathText token.value) := by
    refine h.bind (h.check _) fun _ => h.bind (h.atSymbol _) fun b => ?_
    split
    · exact h.bind (h.arguments hi) fun _ => h.pure _
    · exact h.pure _
  refine h.bind h.skip fun _ => ?_
  dsimp only
  split
  · exact h.pure _
  · refine h.bind (h.number? ht) fun number => ?_
    split
    · exact h.pure _
    · split
      · exact named
      · exact h.bind (h.failAt ht _) fun _ => named

theorem operandWith (h : Rules Known P) (hi : P .advances inner) : P k (Expr.parseOperandWith inner) := by
  refine h.any (h.current fun token ht => ?_)
  split
  · next hk =>
    exact h.inside (Token.isEnding_of_kind hk (by decide)) (h.bind h.skip fun _ => h.text hi ht)
  · next hk => exact h.inside (Token.isEnding_of_kind hk (by decide)) (h.exprWord hi ht)
  · exact h.fail _

theorem exprWith (h : Rules Known P) {operand : Parse Expr} (ho : P .advances operand) :
    P k (Expr.parseWith operand) := by
  refine h.later (h.atSymbol _) fun _ => h.later (h.atWord _) fun _ => ?_
  split
  · -- the sign of a negation may end the text as far as the rules go; its operand never does
    exact h.later (h.slow h.skip) fun _ => h.bind (h.any ho) fun _ => h.pure _
  · refine h.bind (h.any ho) fun left => h.current fun token _ => ?_
    split
    · exact h.bind (h.slow h.skip) fun _ => h.bind (h.any ho) fun _ => h.pure _
    · exact h.pure _

theorem operand (h : Rules Known P) : ∀ {k : Pace} depth, P k (Expr.parseOperand depth)
  | _, 0 => h.tooDeep
  | _, 1 => h.operandWith h.tooDeep
  | _, depth + 2 => h.operandWith (h.exprWith (h.operand depth))

theorem expr (h : Rules Known P) : ∀ depth, P k (Expr.parse depth)
  | 0 => h.tooDeep
  | depth + 1 => h.exprWith (h.operand depth)

/-! ## Actions -/

theorem navigation (h : Rules Known P) (hi : P .advances inner) :
    P k (Action.parseNavigation inner) := by
  refine h.word _ fun target _ => h.bind (h.check _) fun _ => h.current fun next _ => ?_
  split
  · exact h.bind (h.arguments hi) fun _ => h.pure _
  · exact h.pure _

theorem call (h : Rules Known P) (hi : P .advances inner) (function : String) :
    P k (Action.parseCall inner function) :=
  h.later (h.check _) fun _ => h.bind (h.arguments hi) fun _ => h.pure _

/-- What an assignment starts with need not be read for it to read something. -/
theorem update (h : Rules Known P) (hi : P .advances inner) : P k (Action.parseUpdate inner) := by
  refine h.any (h.later (h.slow h.token) fun _ => h.later (h.check _) fun _ => ?_)
  exact h.bind (h.expectSymbol _) fun _ => h.current fun _ _ => h.bind (h.slow hi) fun _ =>
    h.bind h.read fun _ => h.bind h.previous fun _ => h.pure _

theorem plain (h : Rules Known P) (hi : P .advances inner) : P k (Action.parsePlain inner) := by
  refine h.current fun token _ => h.later h.following fun next => ?_
  split
  · split
    · exact h.update hi
    · split
      · exact h.later (h.slow h.skip) fun _ => h.call hi _
      · exact h.fail _
  · exact h.fail _

theorem loop (h : Rules Known P) (hb : P .advances block) : P k (Action.parseLoop block) := by
  refine h.bind (h.discard (h.keyword _)) fun _ => h.word _ fun name _ => h.bind (h.check _) fun _ =>
    h.bind (h.discard (h.keyword _)) fun _ => h.word _ fun range hr => ?_
  split
  · exact h.bind (h.slow hb) fun _ => h.bind (h.check _) fun _ => h.pure _
  · exact h.bind (h.failAt hr _) fun _ => h.bind (h.slow hb) fun _ => h.bind (h.check _) fun _ => h.pure _

theorem branchWith (h : Rules Known P) (hi : P .advances inner) (hb : P .advances block)
    {chained : Parse Action} (hc : P .advances chained) :
    P k (Action.parseBranchWith inner block chained) := by
  refine h.bind (h.discard (h.keyword _)) fun _ => h.bind (h.slow hi) fun condition =>
    h.bind (h.slow hb) fun thenActions => h.bind (h.atWord _) fun b => ?_
  split
  · refine h.bind (h.slow h.skip) fun _ => h.bind (h.atWord _) fun b => ?_
    split
    · exact h.bind (h.slow hc) fun _ => h.pure _
    · exact h.bind (h.slow hb) fun _ => h.pure _
  · exact h.pure _

theorem structured (h : Rules Known P) (hi : P .advances inner) (hb : P .advances block)
    {branch : Parse Action} (hc : P .advances branch) :
    P .advances (Action.parseStructured inner block branch) := by
  refine h.current fun token _ => ?_
  split
  · exact h.later (h.slow h.skip) fun _ => h.bind (h.navigation hi) fun _ => h.pure _
  · split
    · exact h.later (h.slow h.skip) fun _ => h.word _ fun name _ => h.call hi _
    · split
      · exact h.any hc
      · split
        · exact h.loop hb
        · exact h.plain hi

theorem finished (h : Rules Known P) {structured : Parse Action} (hs : P k structured) :
    P k (Action.parseFinished structured) := by
  have ended : P .stays Action.atStatementEnd := h.current fun _ _ => h.bind h.previous fun _ => h.pure _
  refine h.bind hs fun action => h.bind ended fun b => ?_
  split
  · exact h.pure _
  · exact h.fail _

/-- Raw code, which a statement may fall back to, reads something unless it starts at the end of the
text. -/
theorem statementWith (h : Rules Known P) (hi : P .advances inner) (hb : P .advances block)
    {branch : Parse Action} (hc : P .advances branch) :
    P .moves (Action.parseStatementWith inner block branch) :=
  h.orElseFrom (h.any (h.finished (h.structured hi hb hc))) h.code

mutual

theorem actions (h : Rules Known P) : ∀ {k : Pace} depth, P k (Action.parseBlock depth)
  | _, 0 => h.bind (h.expectSymbol _) fun _ => h.tooDeep
  | _, depth + 1 => h.braced (h.statementWith (h.expr depth) (h.actions depth) (h.branch depth))

theorem branch (h : Rules Known P) : ∀ {k : Pace} depth, P k (Action.parseBranch depth)
  | _, 0 => h.branchWith h.tooDeep (h.bind (h.expectSymbol _) fun _ => h.tooDeep) h.tooDeep
  | _, depth + 1 => h.branchWith (h.expr (depth + 1))
      (h.braced (h.statementWith (h.expr depth) (h.actions depth) (h.branch depth))) (h.branch depth)

end

/-! ## UI trees -/

theorem image (h : Rules Known P) : P k Node.parseImage :=
  h.string _ fun _ _ => h.bind (h.check _) fun _ => h.pure _

theorem inputNode (h : Rules Known P) : P k Node.parseInput := by
  have bound (label : String) : P .stays (do
      let binding := (← Parse.word "state binding").value
      check (Check.stateName binding)
      return Node.input label binding) :=
    h.word _ fun _ _ => h.bind (h.check _) fun _ => h.pure _
  refine h.string _ fun label _ => h.bind (h.check _) fun _ => h.bind (h.atWord _) fun b => ?_
  dsimp only
  split
  · exact h.bind (h.slow h.skip) fun _ => h.bind (h.discard (h.skipSymbol _)) fun _ => bound _
  · exact bound _

theorem button (h : Rules Known P) (hi : P .advances inner) (hb : P .advances block) :
    P k (Node.parseButton inner block) := by
  -- from the last part of a button to the first
  have actions (label : String) (navigation : Option Navigation) (handler : Option String) :
      P .stays (do
        let actions ← if ← atSymbol "\x7b" then block else pure []
        return Node.button label navigation handler actions) := by
    refine h.bind (h.atSymbol _) fun b => ?_
    dsimp only
    split
    · exact h.bind (h.slow hb) fun _ => h.pure _
    · exact h.bind (h.pure _) fun _ => h.pure _
  have handler (label : String) (navigation : Option Navigation) : P .stays (do
        let handler ← if ← atWord "action" then
            discard advance
            let name := (← Parse.word "action name").value
            check [.text name "action reference"]
            pure (some name)
          else pure none
        let actions ← if ← atSymbol "\x7b" then block else pure []
        return Node.button label navigation handler actions) := by
    refine h.bind (h.atWord _) fun b => ?_
    dsimp only
    split
    · exact h.bind (h.slow h.skip) fun _ => h.word _ fun _ _ => h.bind (h.check _) fun _ =>
        h.bind (h.pure _) fun _ => actions _ _ _
    · exact h.bind (h.pure _) fun _ => actions _ _ _
  refine h.string _ fun label _ => h.bind (h.check _) fun _ => h.bind (h.skipSymbol _) fun b => ?_
  dsimp only
  split
  · exact h.bind (h.navigation hi) fun _ => h.bind (h.pure _) fun _ => handler _ _
  · exact h.bind (h.pure _) fun _ => handler _ _

theorem property (h : Rules Known P) (hi : P .advances inner) (props : Entries Expr) :
    P k (Node.addProperty inner props) :=
  h.word _ fun _ _ => h.bind (h.check _) fun _ => h.bind (h.expectSymbol _) fun _ =>
    h.bind (h.slow hi) fun _ => h.bind (h.discard (h.skipSymbol _)) fun _ => h.pure _

theorem component (h : Rules Known P) (hi : P .advances inner) : P k (Node.parseComponent inner) :=
  h.word _ fun _ _ => h.bind (h.check _) fun _ => h.bind (h.expectSymbol _) fun _ =>
    h.bind (h.itemsUntil (h.property hi) _) fun _ => h.bind (h.expectSymbol _) fun _ => h.pure _

theorem list (h : Rules Known P) (hc : P .advances children) : P k (Node.parseList children) := by
  refine h.word _ fun binding _ => h.bind (h.check _) fun _ => h.current fun brace ht =>
    h.bind (h.slow hc) fun nodes => ?_
  split
  · exact h.bind (h.failAt ht _) fun _ => h.pure _
  · exact h.pure _

theorem conditional (h : Rules Known P) (hi : P .advances inner) (hc : P .advances children) :
    P k (Node.parseConditional inner children) := by
  refine h.bind (h.any hi) fun condition => h.bind (h.slow hc) fun thenBranch =>
    h.bind (h.atWord _) fun b => ?_
  split
  · exact h.bind (h.slow h.skip) fun _ => h.bind (h.slow hc) fun _ => h.pure _
  · exact h.pure _

theorem nodeKeyword (h : Rules Known P) (hi : P .advances inner) (hb : P .advances block)
    (hc : P .advances children) (keyword : String) :
    P k (Node.parseKeyword inner block children keyword) := by
  unfold Node.parseKeyword
  split
  · exact h.later (h.slow h.skip) fun _ => h.bind (h.any hc) fun _ => h.pure _
  · split
    · exact h.later (h.slow h.skip) fun _ => h.string _ fun _ ht => h.bind (h.text hi ht) fun _ => h.pure _
    · split
      · exact h.seqRight (h.slow h.token) (h.button hi hb)
      · exact h.seqRight (h.slow h.token) h.image
      · exact h.seqRight (h.slow h.token) h.inputNode
      · exact h.seqRight (h.slow h.token) (h.list hc)
      · exact h.seqRight (h.slow h.token) (h.conditional hi hc)
      · exact h.seqRight (h.slow h.token) (h.component hi)
      · exact h.fail _

theorem nodeWith (h : Rules Known P) (hi : P .advances inner) (hb : P .advances block)
    (hc : P .advances children) : P k (Node.parseWith inner block children) := by
  refine h.current fun token _ => ?_
  split
  · exact h.nodeKeyword hi hb hc _
  · exact h.fail _

theorem nodes (h : Rules Known P) : ∀ {k : Pace} depth, P k (Node.parseChildren depth)
  | _, 0 => h.bind (h.expectSymbol _) fun _ => h.tooDeep
  | _, depth + 1 => h.braced (h.nodeWith (h.expr depth) (h.actions depth) (h.nodes depth))

theorem tree (h : Rules Known P) : P k Node.parseTree :=
  h.bind (h.nodes _) fun _ => h.pure _

/-! ## Values -/

theorem item (h : Rules Known P) {value : Parse Value} (hv : P k value) (items : List Value) :
    P k (Value.addItem value items) :=
  h.bind (h.adding hv items) fun _ => h.bind (h.check _) fun _ => h.pure _

theorem entry (h : Rules Known P) {value : Parse Value} (hv : P .advances value)
    (entries : Entries Value) : P k (Value.addEntry value entries) :=
  h.bind (h.name _) fun _ => h.bind (h.expectSymbol _) fun _ => h.bind (h.slow hv) fun _ =>
    h.bind (h.check _) fun _ => h.pure _

theorem valueWord (h : Rules Known P) (scope : List StateVar) {token : Token} (ht : Known token) :
    P .moves (Value.parseWord scope token) := by
  refine h.bind h.skip fun _ => ?_
  split
  · exact h.pure _
  · refine h.bind (h.number? ht) fun number => ?_
    split
    · exact h.pure _
    · exact h.pure _

theorem value (h : Rules Known P) (scope : List StateVar) :
    ∀ {k : Pace} depth, P k (Value.parse scope depth)
  | _, 0 => h.tooDeep
  | _, depth + 1 => by
    refine h.any (h.current fun token ht => ?_)
    split
    · next hk =>
      exact h.inside (Token.isEnding_of_kind hk (by decide)) (h.bind h.skip fun _ => h.pure _)
    · refine h.later (h.skipSymbol _) fun b => ?_
      split
      · exact h.later (h.itemsBetweenCommas (h.item (h.value scope depth)) _) fun _ =>
          h.bind (h.expectSymbol _) fun _ => h.pure _
      · refine h.later (h.skipSymbol _) fun b => ?_
        split
        · exact h.later (h.itemsBetweenCommas (h.entry (h.value scope depth)) _) fun _ =>
            h.bind (h.expectSymbol _) fun _ => h.pure _
        · exact h.insideIf (fun hk => Token.isEnding_of_kind hk (by decide)) (h.valueWord scope ht) _

/-! ## Declarations -/

theorem stateVar (h : Rules Known P) (scope : List StateVar) : P k (StateVar.parse scope) := by
  have valued (name : String) : P .stays (do
      Parse.expectSymbol "="
      let value ← Value.parse scope maxDepth
      check (Check.state name value)
      modify fun s => { s with declared := s.declared + 1 }
      check [Check.stateCount (← get).declared]
      return StateVar.mk name value) :=
    h.bind (h.expectSymbol _) fun _ => h.bind (h.value _ _) fun _ => h.bind (h.check _) fun _ =>
      h.counted _
  refine h.word _ fun name _ => h.bind (h.check _) fun _ => h.bind (h.skipSymbol _) fun b => ?_
  dsimp only
  split
  · exact h.bind (h.discard (h.anyWord _)) fun _ => valued _
  · exact valued _

theorem stateGroup (h : Rules Known P) (outer declared : List StateVar) :
    P k (StateVar.parseGroup outer declared) := by
  refine h.bind (h.discard (h.keyword _)) fun _ => h.bind (h.skipSymbol _) fun b => ?_
  split
  · refine h.bind (h.itemsUntil (fun declared => ?_) _) fun _ => h.bind (h.expectSymbol _) fun _ => h.pure _
    exact h.adding (h.beforeEnding (h.stateVar _)) _
  · exact h.adding (h.stateVar _) _

theorem importPath (h : Rules Known P) : P k parseImport :=
  h.bind (h.discard (h.keyword _)) fun _ => h.bind (h.name _) fun _ => h.bind (h.check _) fun _ => h.pure _

theorem field (h : Rules Known P) : P k DataField.parse := by
  have finish (name typeName : String) (default : Value) : P .stays (do
      discard (Parse.skipSymbol ",")
      return DataField.mk name typeName default) :=
    h.bind (h.discard (h.skipSymbol _)) fun _ => h.pure _
  refine h.word _ fun name _ => h.bind (h.check _) fun _ => h.bind (h.expectSymbol _) fun _ =>
    h.word _ fun typeName _ => h.bind (h.skipSymbol _) fun b => ?_
  dsimp only
  split
  · exact h.bind (h.value _ _) fun _ => h.bind (h.check _) fun _ => h.bind (h.pure _) fun _ =>
      finish _ _ _
  · exact h.bind (h.pure _) fun _ => finish _ _ _

theorem model (h : Rules Known P) : P k DataModel.parse :=
  h.bind (h.discard (h.keyword _)) fun _ => h.word _ fun _ _ => h.bind (h.check _) fun _ =>
    h.bind (h.expectSymbol _) fun _ => h.bind (h.itemsUntil (h.adding h.field) _) fun _ =>
      h.bind (h.expectSymbol _) fun _ => h.pure _

/-! ## Screens -/

theorem param (h : Rules Known P) : P k Param.parse := by
  refine h.word _ fun name _ => h.bind (h.check _) fun _ => h.bind (h.skipSymbol _) fun b => ?_
  split
  · exact h.word _ fun _ _ => h.pure _
  · exact h.pure _

theorem params (h : Rules Known P) : P .stays Screen.parseParams := by
  refine h.bind (h.skipSymbol _) fun b => ?_
  split
  · exact h.bind (h.itemsBetweenCommas (h.adding h.param) _) fun _ =>
      h.bind (h.expectSymbol _) fun _ => h.pure _
  · exact h.pure _

theorem handler (h : Rules Known P) : P k Handler.parse :=
  h.word _ fun _ _ => h.bind (h.check _) fun _ => h.bind (h.actions _) fun _ => h.pure _

theorem screenItem (h : Rules Known P) (screen : String) (appState : List StateVar)
    (body : ScreenBody) : P k (ScreenBody.parseItem screen appState body) := by
  have ui {k : Pace} : P k (do
      discard advance
      return { body with ui := some (← Node.parseTree) }) :=
    h.later (h.slow h.skip) fun _ => h.bind h.tree fun _ => h.pure _
  refine h.current fun token _ => ?_
  split
  · exact h.bind (h.stateGroup _ _) fun _ => h.pure _
  · split
    · split
      · exact h.later (h.fail _) fun _ => ui
      · exact ui
    · split
      · exact h.later (h.slow h.skip) fun _ => h.bind (h.adding h.handler _) fun _ => h.pure _
      · exact h.fail _

theorem screen (h : Rules Known P) (appState : List StateVar) : P k (Screen.parse appState) :=
  h.bind (h.discard (h.keyword _)) fun _ => h.word _ fun name _ => h.bind (h.check _) fun _ =>
    h.bind h.params fun params => h.bind (h.expectSymbol _) fun _ =>
      h.bind (h.itemsUntil (h.screenItem _ appState) _) fun body =>
        h.bind (h.expectSymbol _) fun _ => h.measured ⟨name.value, params, body.state, _, body.handlers⟩

/-! ## Programs -/

theorem appItem (h : Rules Known P) (body : AppBody) : P k (AppBody.parseItem body) := by
  refine h.current fun token _ => ?_
  split
  · exact h.later (h.slow h.skip) fun _ => h.bind (h.expectSymbol _) fun _ => h.bind (h.name _) fun _ =>
      h.bind (h.check _) fun _ => h.pure _
  · split
    · exact h.bind (h.stateGroup _ _) fun _ => h.pure _
    · exact h.fail _

theorem addScreen (h : Rules Known P) (appState : List StateVar) (screens : List Screen) :
    P k (Program.addScreen appState screens) :=
  h.bind (h.adding (h.screen appState) screens) fun _ => h.bind (h.check _) fun _ => h.pure _

theorem program (h : Rules Known P) : P k Program.parser := by
  have checked (p : Program) : P .stays (do
      unless ← atEnding do Parse.fail (.expected "'screen' or end of input")
      return p) := by
    refine h.bind h.atEnding fun b => ?_
    split
    · exact h.pure _
    · exact h.bind (h.fail _) fun _ => h.pure _
  have body (name start : String) (app : AppBody) : P .stays (do
      let imports ← Parse.itemsFrom "import" (Parse.adding parseImport) []
      let models ← Parse.itemsFrom "data" (Parse.adding DataModel.parse) []
      let screens ← Parse.itemsFrom "screen" (Program.addScreen app.state) []
      if screens.isEmpty then Parse.fail (.expected "at least one screen")
      unless ← atEnding do Parse.fail (.expected "'screen' or end of input")
      return ({ name, start, screens, state := app.state, imports, models } : Program)) := by
    refine h.bind (h.itemsFrom (h.adding h.importPath) _) fun imports =>
      h.bind (h.itemsFrom (h.adding h.model) _) fun models =>
        h.bind (h.itemsFrom (h.addScreen _) _) fun screens => ?_
    dsimp only
    split
    · exact h.bind (h.fail _) fun _ => checked _
    · exact checked _
  refine h.expectWord _ fun opening ho => h.bind (h.name _) fun name => h.bind (h.check _) fun _ =>
    h.bind (h.expectSymbol _) fun _ => h.bind (h.itemsUntil h.appItem _) fun app =>
      h.bind (h.expectSymbol _) fun _ => ?_
  dsimp only
  split
  · exact h.bind (h.pure _) fun _ => body _ _ _
  · exact h.bind (h.failAt ho _) fun _ => body _ _ _

end Screenplay.Parse.Rules
