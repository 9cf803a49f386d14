/-
Programs that are read are vetted. The values, names and counts that a program declares have passed the
checks of the guard: state variables are counted where they are declared, over the app and all screens,
and screens and their UI nodes where the screens end. So a program that has been read passes all its
checks under the policy that its level enforces.
-/
import Screenplay.Proofs.Parse.VettedTrees

namespace Screenplay

open Parse

variable {policy : Policy}

/-! ## Values -/

namespace Value

theorem reads_parse (scope : List StateVar) (depth : Nat) :
    Reads policy (parse scope depth) fun _ => True := by
  induction depth with
  | zero => exact .tooDeep
  | succ depth item =>
    have word (token : Token) : Reads policy (parseWord scope token) fun _ => True := by
      refine .bind (.discard .advance) fun _ _ => ?_
      split
      · exact .pure trivial
      · refine .bind (reads_number? token) fun number _ => ?_
        split
        · exact .pure trivial
        · exact .pure trivial
    have addItem (items : List Value) : Reads policy (addItem (parse scope depth) items) fun _ => True :=
      .bind (.adding item fun _ _ => trivial) fun _ _ => .bind (.check _) fun _ _ => .pure trivial
    have addEntry (entries : Entries Value) :
        Reads policy (addEntry (parse scope depth) entries) fun _ => True :=
      .bind (.name _) fun _ _ => .bind (.expectSymbol _) fun _ _ => .bind item fun _ _ =>
        .bind (.check _) fun _ _ => .pure trivial
    -- the parser looks for a text, a list, a map and a word, in this order
    refine .bind .current fun token _ => ?_
    split
    · exact .bind (.discard .advance) fun _ _ => .pure trivial
    · refine .bind (.skipSymbol _) fun b _ => ?_
      split
      · exact .bind (.itemsBetweenCommas (fun items _ => addItem items) trivial) fun _ _ =>
          .bind (.expectSymbol _) fun _ _ => .pure trivial
      · refine .bind (.skipSymbol _) fun b _ => ?_
        split
        · exact .bind (.itemsBetweenCommas (fun entries _ => addEntry entries) trivial) fun _ _ =>
            .bind (.expectSymbol _) fun _ _ => .pure trivial
        · split
          · exact word token
          · exact .fail _

end Value

/-! ## State -/

/-- Declared variables that are admitted, after `before` other ones, with the number of all. -/
structure Declared (policy : Policy) (before : Nat) (vs : List StateVar) (count : Nat) : Prop where
  count_eq : count = before + vs.length
  bounded : count ≤ policy.maxStateVariables
  admitted : ∀ v ∈ vs, policy.Admits v.name v.value

theorem Declared.nil {count : Nat} (h : count ≤ policy.maxStateVariables) : Declared policy count [] count :=
  ⟨rfl, h, fun _ hv => absurd hv List.not_mem_nil⟩

namespace StateVar

/-- An admitted variable that has been read after `before` other ones, with the number of all. -/
structure ReadAfter (policy : Policy) (before : Nat) (v : StateVar) (count : Nat) : Prop where
  count_eq : count = before + 1
  bounded : count ≤ policy.maxStateVariables
  admitted : policy.Admits v.name v.value

theorem declares_parse (scope : List StateVar) {n : Nat} :
    Declares policy n (StateVar.parse scope) (ReadAfter policy.enforced n) := by
  -- the number of variables declared so far is part of the state
  have counted (name : String) (value : Value) (hv : policy.enforced.Admits name value) :
      Declares policy n (do
        modify fun s => { s with declared := s.declared + 1 }
        check [Check.stateCount (← get).declared]
        return StateVar.mk name value) (ReadAfter policy.enforced n) := by
    have checked : Declares policy (n + 1) (do
        check [Check.stateCount (n + 1 : Nat)]
        return StateVar.mk name value) (ReadAfter policy.enforced n) := by
      refine .after (.check _) fun _ pass => .pure ⟨rfl, ?_, hv⟩
      exact Int.ofNat_le.mp (Check.passes_capped.mp (pass _ List.mem_cons_self))
    intro source s hs hn
    cases hn
    exact checked source { s with declared := s.declared + 1 } hs rfl
  have valued (name : String) : Declares policy n (do
      expectSymbol "="
      let value ← Value.parse scope maxDepth
      check (Check.state name value)
      modify fun s => { s with declared := s.declared + 1 }
      check [Check.stateCount (← get).declared]
      return StateVar.mk name value) (ReadAfter policy.enforced n) :=
    .after (.expectSymbol _) fun _ _ => .after (Value.reads_parse _ _) fun value _ =>
      .after (.check _) fun _ pass => counted name value (Check.passes_state.mp pass)
  refine .after (.word _) fun name _ => .after (.check _) fun _ _ => .after (.skipSymbol _) fun b _ => ?_
  dsimp only
  split
  · exact .after (.discard (.word _)) fun _ _ => valued _
  · exact valued _

theorem declares_adding {before n : Nat} {declared : List StateVar}
    (h : Declared policy.enforced before declared n) {item : Parse StateVar}
    (hi : Declares policy n item (ReadAfter policy.enforced n)) :
    Declares policy n (adding item declared) (Declared policy.enforced before) := by
  refine hi.bind fun v k hv => .pure ⟨?_, hv.bounded, ?_⟩
  · rw [hv.count_eq, h.count_eq, List.length_append, List.length_singleton, Nat.add_assoc]
  · rw [List.forall_mem_append, List.forall_mem_singleton]
    exact ⟨h.admitted, hv.admitted⟩

theorem declares_parseGroup {before n : Nat} (outer : List StateVar) {declared : List StateVar}
    (h : Declared policy.enforced before declared n) :
    Declares policy n (StateVar.parseGroup outer declared) (Declared policy.enforced before) := by
  refine .after (.discard (.expectWord _)) fun _ _ => .after (.skipSymbol _) fun b _ => ?_
  split
  · refine .bind (.itemsUntil (I := Declared policy.enforced before)
      (fun declared k hk => declares_adding hk ?_) h) fun declared k hk =>
        .after (.expectSymbol _) fun _ _ => .pure hk
    refine .after .atEnding fun b _ => ?_
    split
    · exact .of_failing (.fail _)
    · exact declares_parse _
  · exact declares_adding h (declares_parse _)

end StateVar

/-! ## Imports and data models -/

theorem reads_parseImport : Reads policy parseImport fun path =>
    ∀ c ∈ Check.string path "import path", c.Passes policy.enforced :=
  .bind (.discard (.expectWord _)) fun _ _ => .bind (.name _) fun _ _ => .bind (.check _) fun _ pass =>
    .pure pass

theorem DataField.reads_parse : Reads policy DataField.parse fun f =>
    policy.enforced.AdmitsName f.name ∧ f.default.Admitted policy.enforced 0 := by
  have finish (name typeName : String) (default : Value) (hn : policy.enforced.AdmitsName name)
      (hd : default.Admitted policy.enforced 0) : Reads policy (do
        discard (skipSymbol ",")
        return DataField.mk name typeName default) fun f =>
          policy.enforced.AdmitsName f.name ∧ f.default.Admitted policy.enforced 0 :=
    .bind (.discard (.skipSymbol _)) fun _ _ => .pure ⟨hn, hd⟩
  refine .bind (.word _) fun name _ => .bind (.check _) fun _ pass => .bind (.expectSymbol _) fun _ _ =>
    .bind (.word _) fun typeName _ => .bind (.skipSymbol _) fun b _ => ?_
  dsimp only
  split
  · exact .bind (Value.reads_parse _ _) fun value _ => .bind (.check _) fun _ valued =>
      .pure_bind (finish _ _ _ pass ((Check.passes_value 0 value).mp valued))
  · exact .pure_bind (finish _ _ _ pass (Nat.zero_le _))

theorem DataModel.reads_parse : Reads policy DataModel.parse (DataModel.Vetted policy.enforced) := by
  refine .bind (.discard (.expectWord _)) fun _ _ => .bind (.word _) fun name _ =>
    .bind (.check _) fun _ pass => .bind (.expectSymbol _) fun _ _ =>
      .bind (.itemsUntil (fun fields hf => .adding DataField.reads_parse hf) ?_) fun fields hf =>
        .bind (.expectSymbol _) fun _ _ => .pure ?_
  · exact fun _ hf => absurd hf List.not_mem_nil
  · exact ⟨by simpa using pass, fun f hm => (hf f hm).1, fun f hm => (hf f hm).2⟩

/-! ## Screens -/

theorem Param.reads_parse : Reads policy Param.parse fun param =>
    policy.enforced.AdmitsName param.name := by
  refine .bind (.word _) fun name _ => .bind (.check _) fun _ pass => .bind (.skipSymbol _) fun b _ => ?_
  split
  · exact .bind (.word _) fun _ _ => .pure pass
  · exact .pure pass

/-- A handler has a clean name, and its body may stand on its own. -/
def Handler.Vetted (policy : Policy) (h : Handler) : Prop :=
  policy.findBlocked h.name = none ∧ ∀ site ∈ h.sites, site.Vetted policy

theorem Handler.reads_parse : Reads policy Handler.parse (Handler.Vetted policy.enforced) := by
  refine .bind (.word _) fun name _ => .bind (.check _) fun _ pass =>
    .bind (Action.reads_parseBlock maxDepth) fun body hb => .pure ⟨by simpa using pass, ?_⟩
  exact hb 0 1 (by decide)

/-- What has been read of a screen, after `before` variables of the program. -/
structure ScreenBody.Vetted (policy : Policy) (before : Nat) (body : ScreenBody) (count : Nat) :
    Prop where
  state : Declared policy before body.state count
  ui : ∀ ui, body.ui = some ui → ui.SitesVetted policy
  handlers : ∀ h ∈ body.handlers, h.Vetted policy

theorem ScreenBody.declares_parseItem {before n : Nat} (screen : String) (appState : List StateVar)
    {body : ScreenBody} (h : body.Vetted policy.enforced before n) :
    Declares policy n (body.parseItem screen appState) (ScreenBody.Vetted policy.enforced before) := by
  have ui : Declares policy n (do
      discard advance
      return { body with ui := some (← Node.parseTree) }) (ScreenBody.Vetted policy.enforced before) := by
    refine .after (.discard .advance) fun _ _ => .after Node.reads_parseTree fun ui hu => .pure ?_
    refine ⟨h.state, ?_, h.handlers⟩
    rintro _ he
    cases he
    exact hu
  refine .after .current fun token _ => ?_
  split
  · exact .bind (StateVar.declares_parseGroup _ h.state) fun state k hk => .pure ⟨hk, h.ui, h.handlers⟩
  · split
    · split
      · exact .after (.fail (Q := fun _ => True) _) fun _ _ => ui
      · exact ui
    · split
      · exact .after (.discard .advance) fun _ _ =>
          .after (.adding Handler.reads_parse h.handlers) fun handlers hh => .pure ⟨h.state, h.ui, hh⟩
      · exact .of_failing (.fail _)

namespace Screen

theorem reads_parseParams : Reads policy parseParams fun params =>
    ∀ param ∈ params, policy.enforced.AdmitsName param.name := by
  refine .bind (.skipSymbol _) fun b _ => ?_
  split
  · refine .bind (.itemsBetweenCommas (fun params hp => .adding Param.reads_parse hp) ?_) fun params hp =>
      .bind (.expectSymbol _) fun _ _ => .pure hp
    exact fun _ hp => absurd hp List.not_mem_nil
  · exact .pure fun _ hp => absurd hp List.not_mem_nil

theorem reads_checkTree (name : String) (ui : Node) :
    Reads policy (do settle ((← get).guard.checkTree name ui)) fun _ =>
      ui.height ≤ maxDepth ∧ ui.size ≤ policy.enforced.maxElements := by
  refine .settle (·.checkTree name ui) fun guard hg => ⟨?_, fun passes => ?_⟩
  · rw [Guard.checkTree_policy, hg]
  · rw [Policy.maxElements_enforced, ← hg]
    exact Guard.checkTree_eq_ok.mp passes

/-- The empty column that a screen without a UI tree shows has nothing to be checked. -/
theorem sitesVetted_getD {policy : Policy} {ui : Option Node}
    (h : ∀ n, ui = some n → n.SitesVetted policy) :
    (ui.getD (.container .column [])).SitesVetted policy := by
  cases ui with
  | none => exact Node.sitesVetted_container fun _ hn => absurd hn List.not_mem_nil
  | some n => exact h n rfl

/-- A vetted screen that has been read after `before` variables, with the number of all. -/
structure ReadAfter (policy : Policy) (before : Nat) (s : Screen) (count : Nat) : Prop where
  vetted : s.Vetted policy
  count_eq : count = before + s.state.length
  bounded : count ≤ policy.maxStateVariables

theorem declares_parse (appState : List StateVar) {n : Nat}
    (hn : n ≤ policy.enforced.maxStateVariables) : Declares policy n (parse appState) (ReadAfter policy.enforced n) := by
  have finish {k : Nat} (s : Screen) (hk : k = n + s.state.length ∧ k ≤ policy.enforced.maxStateVariables)
      (hs : s.ui.height ≤ maxDepth ∧ s.ui.size ≤ policy.enforced.maxElements → s.Vetted policy.enforced) :
      Declares policy k (do
        settle ((← get).guard.checkTree s.name s.ui)
        return s) (ReadAfter policy.enforced n) := by
    have checked : Declares policy k
        ((do settle ((← get).guard.checkTree s.name s.ui)) >>= fun _ => pure s)
        (ReadAfter policy.enforced n) :=
      .after (reads_checkTree s.name s.ui) fun _ hu => .pure ⟨hs hu, hk.1, hk.2⟩
    exact checked
  refine .after (.discard (.expectWord _)) fun _ _ => .after (.word _) fun name _ =>
    .after (.check _) fun _ pass => .after reads_parseParams fun params hp =>
      .after (.expectSymbol _) fun _ _ =>
        .bind (.itemsUntil (I := ScreenBody.Vetted policy.enforced n)
          (fun body k hb => ScreenBody.declares_parseItem _ appState hb) ?_) fun body k hb =>
            .after (.expectSymbol _) fun _ _ =>
              finish ⟨name.value, params, body.state, _, body.handlers⟩
                ⟨hb.state.count_eq, hb.state.bounded⟩ fun hu => ?_
  · refine ⟨.nil hn, ?_, fun _ hh => absurd hh List.not_mem_nil⟩
    rintro _ he
    cases he
  · have ui := sitesVetted_getD hb.ui 1
    refine ⟨by simpa using pass, hp, hb.state.admitted, fun h hm => (hb.handlers h hm).1, ?_, hu.1, hu.2⟩
    refine List.forall_mem_append.mpr ⟨ui, ?_⟩
    rintro site hs
    obtain ⟨h, hm, hs⟩ := List.mem_flatMap.mp hs
    exact (hb.handlers h hm).2 site hs

end Screen

/-! ## Programs -/

/-- What has been read of an app block. -/
structure AppBody.Vetted (policy : Policy) (body : AppBody) (count : Nat) : Prop where
  start : ∀ name, body.start = some name → policy.findBlocked name = none
  state : Declared policy 0 body.state count

theorem AppBody.declares_parseItem {n : Nat} {body : AppBody} (h : body.Vetted policy.enforced n) :
    Declares policy n body.parseItem (AppBody.Vetted policy.enforced) := by
  refine .after .current fun token _ => ?_
  split
  · refine .after (.discard .advance) fun _ _ => .after (.expectSymbol _) fun _ _ =>
      .after (.name _) fun name _ => .after (.check _) fun _ pass => .pure ⟨?_, h.state⟩
    rintro _ he
    cases he
    simpa using pass
  · split
    · exact .bind (StateVar.declares_parseGroup _ h.state) fun state k hk => .pure ⟨h.start, hk⟩
    · exact .of_failing (.fail _)

namespace Program

/-- Screens that have been read, after `before` variables of the app. -/
structure ScreensVetted (policy : Policy) (before : Nat) (screens : List Screen) (count : Nat) :
    Prop where
  vetted : ∀ s ∈ screens, s.Vetted policy
  few : screens.length ≤ policy.maxScreens
  count_eq : count = before + total (screens.map (·.state.length))
  bounded : count ≤ policy.maxStateVariables

theorem declares_addScreen {before n : Nat} (appState : List StateVar) {screens : List Screen}
    (h : ScreensVetted policy.enforced before screens n) :
    Declares policy n (addScreen appState screens) (ScreensVetted policy.enforced before) := by
  have added : Declares policy n (adding (Screen.parse appState) screens) fun screens k =>
      (∀ s ∈ screens, s.Vetted policy.enforced) ∧
        k = before + total (screens.map (·.state.length)) ∧ k ≤ policy.enforced.maxStateVariables := by
    refine (Screen.declares_parse appState h.bounded).bind fun s k hs => .pure ⟨?_, ?_, hs.bounded⟩
    · rw [List.forall_mem_append, List.forall_mem_singleton]
      exact ⟨h.vetted, hs.vetted⟩
    · rw [hs.count_eq, h.count_eq, List.map_append, total_append, List.map_singleton, total_cons,
        total_nil, Nat.add_zero, Nat.add_assoc]
  refine added.bind fun screens k ⟨vetted, count_eq, bounded⟩ => .after (.check _) fun _ pass =>
    .pure ⟨vetted, ?_, count_eq, bounded⟩
  simpa [Check.screenCount, Policy.ceiling] using pass

theorem declares_grammar :
    Declares policy 0 parser fun p _ => p.Vetted policy.enforced := by
  -- from the end to the beginning: what has been read first is known to all that follows
  have checked {k : Nat} (p : Program) (hp : p.Vetted policy.enforced) : Declares policy k (do
      unless ← atEnding do fail (.expected "'screen' or end of input")
      return p) fun p _ => p.Vetted policy.enforced := by
    refine .after .atEnding fun b _ => ?_
    split
    · exact .pure hp
    · exact .after (.fail (Q := fun _ => True) _) fun _ _ => .pure hp
  have body {k : Nat} (name start : String) (app : AppBody)
      (hn : ∀ c ∈ Check.appName name, c.Passes policy.enforced)
      (hs : policy.enforced.findBlocked start = none) (ha : app.Vetted policy.enforced k) :
      Declares policy k (do
        let imports ← itemsFrom "import" (adding parseImport) []
        let models ← itemsFrom "data" (adding DataModel.parse) []
        let screens ← itemsFrom "screen" (addScreen app.state) []
        if screens.isEmpty then fail (.expected "at least one screen")
        unless ← atEnding do fail (.expected "'screen' or end of input")
        return ({ name, start, screens, state := app.state, imports, models } : Program)) fun p _ =>
          p.Vetted policy.enforced := by
    refine .after (.itemsFrom (fun imports hi => .adding reads_parseImport hi)
        fun _ hm => absurd hm List.not_mem_nil) fun imports hi =>
      .after (.itemsFrom (fun models hm => .adding DataModel.reads_parse hm)
        fun _ hm => absurd hm List.not_mem_nil) fun models hm =>
      .bind (.itemsFrom (fun screens _ h => declares_addScreen app.state h)
        ⟨fun _ hm => absurd hm List.not_mem_nil, Nat.zero_le _, rfl, ha.state.bounded⟩)
        fun screens j h => ?_
    have vetted : Program.Vetted policy.enforced
        { name, start, screens, state := app.state, imports, models } := by
      refine ⟨hn, hs, hi, hm, ha.state.admitted, h.vetted, h.few, ?_⟩
      -- the variables of the screens have been counted on from those of the app
      have counted := h.bounded
      rw [h.count_eq, ha.state.count_eq, Nat.zero_add] at counted
      exact counted
    dsimp only
    split
    · exact .after (.fail (Q := fun _ => True) _) fun _ _ => checked _ vetted
    · exact checked _ vetted
  refine .after (.expectWord _) fun opening _ => .after (.name _) fun name _ =>
    .after (.check _) fun _ pass => .after (.expectSymbol _) fun _ _ =>
      .bind (.itemsUntil (I := AppBody.Vetted policy.enforced)
        (fun body k hb => AppBody.declares_parseItem hb) ?_) fun app k ha =>
          .after (.expectSymbol _) fun _ _ => ?_
  · exact ⟨nofun, .nil (Nat.zero_le _)⟩
  dsimp only
  split
  · next start hs => exact .pure_bind (body _ _ _ pass (ha.start start hs) ha)
  · exact .after (.failAt (Q := fun _ => False) _ _) fun _ h => h.elim

/-- A program that has been read at a level is vetted under what the level enforces. -/
theorem vetted_of_parse {level : Level} {source : Source} {p : Program}
    (h : (Program.parse level source).1 = .ok p) : p.Vetted (Policy.ofLevel level).enforced := by
  obtain ⟨tokens, state, -, hr⟩ := run_of_parse h
  exact (declares_grammar source _ rfl rfl p state hr).2

end Program

end Screenplay
