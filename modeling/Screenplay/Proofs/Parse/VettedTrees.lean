/-
Expressions, actions and UI trees that are read are vetted: whatever names, literals and pieces of code
they are made of have passed the checks of the guard when they were read, and the blocks of actions in
them are nested no deeper than the levels that the parser had left.
-/
import Screenplay.Proofs.Guard.Denylist
import Screenplay.Proofs.Parse.Reads
import Screenplay.Proofs.Program.Vetted
import Screenplay.Proofs.Text.Pieces
import Screenplay.Program.Parser

namespace Screenplay

open Parse

variable {policy : Policy} {inner : Parse Expr}

/-! ## Expressions -/

theorem Parse.reads_number? (token : Token) : Reads policy (number? token) fun _ => True := by
  unfold number?
  split
  · exact .throw _
  · exact .pure trivial
  · split
    · exact .failAt _ _
    · exact .pure trivial

namespace Expr

/-- The expression of a path is vetted if all its names are clean. -/
theorem vetted_ofPath {names : List String} (hn : names ≠ [])
    (h : ∀ name ∈ names, policy.findBlocked name = none) : (ofPath names).Vetted policy := by
  have fields : ∀ (names : List String) (e : Expr), e.Vetted policy →
      (∀ name ∈ names, policy.findBlocked name = none) → (names.foldl field e).Vetted policy := by
    intro names
    induction names with
    | nil => exact fun e he _ => he
    | cons name names ih =>
      rintro e he h
      obtain ⟨clean, later⟩ := List.forall_mem_cons.mp h
      exact ih (.field e name) ⟨by simpa [checks] using clean, he⟩ later
  cases names with
  | nil => exact absurd rfl hn
  | cons first later =>
    obtain ⟨clean, later⟩ := List.forall_mem_cons.mp h
    refine fields _ _ ?_ later
    simpa [Vetted, Every, checks] using clean

/-- The names of a path are pieces of its text. -/
theorem vetted_ofPathText {text : String} (h : policy.findBlocked text = none) :
    (ofPathText text).Vetted policy := by
  refine vetted_ofPath ?_ ?_
  · rw [ne_eq, List.map_eq_nil_iff]
    exact Text.cutAt_ne_nil _ _
  · rw [List.forall_mem_map]
    rintro piece hp
    refine Policy.findBlocked_of_piece h ?_
    rw [String.toList_ofList]
    exact (Text.cutAt_pieces '.' text.toList).2 piece hp

theorem vetted_text {text : String} :
    (literal (.text text)).Vetted policy ↔
      text.length ≤ policy.maxString ∧ policy.findBlocked text = none := by
  simp [Vetted, Every, checks, Check.value, Check.string, Policy.ceiling]

theorem vetted_scalar {value : Value} (h : ∀ depth, Check.value "string literal" depth value =
    [.limit "value nesting depth" depth maxDepth]) : (literal value).Vetted policy := by
  simp [Vetted, Every, checks, h]

section

variable (hi : Reads policy inner (Vetted policy.enforced))
include hi

theorem reads_parseEmbedded (origin : Token) (source : List Char) :
    Reads policy (parseEmbedded inner origin source) (Vetted policy.enforced) := by
  unfold parseEmbedded
  split
  · exact .throw _
  · next tokens _ =>
    refine .bind .get fun s _ => .bind (.goTo _) fun _ _ => .bind hi fun e he =>
      .bind .atEnding fun b _ => ?_
    split
    · exact .bind (.goTo _) fun _ _ => .pure he
    · exact .bind (.fail (Q := fun _ => True) _) fun _ _ => .bind (.goTo _) fun _ _ => .pure he

theorem reads_parseSegments (origin : Token) :
    ∀ segments : List Segment,
      (∀ text, .literal text ∈ segments → (literal (.text (.ofList text))).Vetted policy.enforced) →
      Reads policy (parseSegments inner origin segments) fun es => ∀ e ∈ es, e.Vetted policy.enforced
  | [], _ => .pure fun _ he => absurd he List.not_mem_nil
  | .literal text :: later, h => by
    have rest := reads_parseSegments origin later fun text ht => h text (List.mem_cons_of_mem _ ht)
    refine .bind rest fun es hes => .pure ?_
    exact List.forall_mem_cons.mpr ⟨h text List.mem_cons_self, hes⟩
  | .embedded source :: later, h => by
    have rest := reads_parseSegments origin later fun text ht => h text (List.mem_cons_of_mem _ ht)
    refine .bind (reads_parseEmbedded hi origin source) fun e he => .bind rest fun es hes => .pure ?_
    exact List.forall_mem_cons.mpr ⟨he, hes⟩

/-- A string literal is checked as a whole, and its literal pieces stand in it. -/
theorem reads_parseText (token : Token) :
    Reads policy (parseText inner token) (Vetted policy.enforced) := by
  refine .bind (.check _) fun _ pass => ?_
  obtain ⟨short, clean⟩ : token.value.length ≤ policy.enforced.maxString ∧
      policy.enforced.findBlocked token.value = none := by
    simpa [Check.string, Policy.ceiling] using pass
  have piece (text : List Char) (h : text <:+: token.value.toList) :
      (literal (.text (.ofList text))).Vetted policy.enforced := by
    have hl := h.length_le
    rw [String.length_toList] at hl
    refine vetted_text.mpr ⟨?_, Policy.findBlocked_of_piece clean ?_⟩
    · rw [String.length_ofList]
      omega
    · rw [String.toList_ofList]
      exact h
  dsimp only
  split
  · refine .bind (reads_parseSegments hi token _ fun text ht => ?_) fun parts hp => .pure ?_
    · exact piece text ((Segment.literal_pieces token.value.toList).2 text ht)
    · exact ⟨by simp [checks], everyOf_iff.mpr hp⟩
  · exact .pure (vetted_text.mpr ⟨short, clean⟩)

/-- The arguments of a call are few. -/
theorem reads_parseArguments :
    Reads policy (parseArguments inner) fun args =>
      args.length ≤ maxArguments ∧ ∀ arg ∈ args, arg.Vetted policy.enforced := by
  refine .bind (.expectSymbol _) fun _ _ => .bind (.itemsBetweenCommas ?_ ?_) fun args ha =>
    .bind (.expectSymbol _) fun _ _ => .pure ha
  · rintro args ⟨-, ha⟩
    refine .bind (.adding hi ha) fun args ha => .bind (.check _) fun _ pass => .pure ⟨?_, ha⟩
    simpa using pass
  · exact ⟨Nat.zero_le _, fun _ ha => absurd ha List.not_mem_nil⟩

theorem reads_parseWord (token : Token) :
    Reads policy (parseWord inner token) (Vetted policy.enforced) := by
  have named : Reads policy (do
      check [.text token.value "identifier"]
      if ← atSymbol "(" then return Expr.call token.value (← parseArguments inner)
      return Expr.ofPathText token.value) (Vetted policy.enforced) := by
    refine .bind (.check _) fun _ pass => .bind (.atSymbol _) fun b _ => ?_
    have clean : policy.enforced.findBlocked token.value = none := by simpa using pass
    split
    · refine .bind (reads_parseArguments hi) fun args ha => .pure ?_
      exact ⟨by simpa [checks] using clean, everyOf_iff.mpr ha.2⟩
    · exact .pure (vetted_ofPathText clean)
  refine .bind (.discard .advance) fun _ _ => ?_
  dsimp only
  split
  · exact .pure (vetted_scalar fun _ => rfl)
  · refine .bind (reads_number? token) fun number _ => ?_
    split
    · next n => exact .pure (vetted_scalar fun _ => by cases n <;> rfl)
    · split
      · exact named
      · exact .bind (.failAt (Q := fun _ => True) _ _) fun _ _ => named

theorem reads_parseOperandWith :
    Reads policy (parseOperandWith inner) (Vetted policy.enforced) := by
  refine .bind .current fun token _ => ?_
  split
  · exact .bind (.discard .advance) fun _ _ => reads_parseText hi token
  · exact reads_parseWord hi token
  · exact .fail _

end

theorem reads_parseWith {operand : Parse Expr} (ho : Reads policy operand (Vetted policy.enforced)) :
    Reads policy (parseWith operand) (Vetted policy.enforced) := by
  refine .bind (.atSymbol _) fun _ _ => .bind (.atWord _) fun _ _ => ?_
  split
  · refine .bind (.discard .advance) fun _ _ => .bind ho fun operand h => .pure ?_
    exact ⟨by simp [checks], h⟩
  · refine .bind ho fun left hl => .bind .current fun token _ => ?_
    split
    · refine .bind (.discard .advance) fun _ _ => .bind ho fun right hr => .pure ?_
      exact ⟨by simp [checks], hl, hr⟩
    · exact .pure hl

theorem reads_parseOperand :
    ∀ depth, Reads policy (parseOperand depth) (Vetted policy.enforced)
  | 0 => .tooDeep
  | 1 => reads_parseOperandWith .tooDeep
  | depth + 2 => reads_parseOperandWith (reads_parseWith (reads_parseOperand depth))

theorem reads_parse (depth : Nat) : Reads policy (parse depth) (Vetted policy.enforced) := by
  cases depth with
  | zero => exact .tooDeep
  | succ depth => exact reads_parseWith (reads_parseOperand depth)

end Expr

/-! ## Actions -/

namespace Action

/-- An action whose sites are vetted wherever some levels of nesting are left below it. -/
def SitesVetted (policy : Policy) (levels : Nat) (a : Action) : Prop :=
  ∀ under depth, depth + levels ≤ maxDepth → ∀ site ∈ a.sites under depth, site.Vetted policy

/-- A block whose sites are vetted wherever some levels of nesting are left, its own counted. -/
def BlockVetted (policy : Policy) (levels : Nat) (as : List Action) : Prop :=
  ∀ under depth, depth + levels ≤ maxDepth + 1 → ∀ site ∈ blockSites under depth as, site.Vetted policy

theorem vetted_block {under depth : Nat} :
    (Site.block under depth).Vetted policy ↔ depth ≤ maxDepth := by
  simp [Site.Vetted, Site.checks]

theorem forall_mem_sitesOf {P : Site → Prop} {under depth : Nat} {as : List Action} :
    (∀ site ∈ sitesOf under depth as, P site) ↔ ∀ a ∈ as, ∀ site ∈ a.sites under depth, P site := by
  induction as with
  | nil => simp [sitesOf]
  | cons a as ih => rw [sitesOf, List.forall_mem_append, ih, List.forall_mem_cons]

/-- A block takes one level of nesting. -/
theorem BlockVetted.of_actions {levels : Nat} {as : List Action}
    (h : ∀ a ∈ as, a.SitesVetted policy levels) : BlockVetted policy (levels + 1) as := by
  intro under depth hd
  refine List.forall_mem_cons.mpr ⟨vetted_block.mpr (by omega), forall_mem_sitesOf.mpr ?_⟩
  exact fun a ha => h a ha under depth (by omega)

/-- Where a block may stand, an empty one may. -/
theorem BlockVetted.empty {levels : Nat} {as : List Action} (h : BlockVetted policy levels as) :
    BlockVetted policy levels [] := by
  intro under depth hd site hs
  rw [List.mem_singleton.mp hs]
  exact h under depth hd _ List.mem_cons_self

/-- An action without blocks is vetted at any depth. -/
theorem sitesVetted_of_flat {a : Action} {sites : List Site} (hs : ∀ under depth, a.sites under depth = sites)
    (h : ∀ site ∈ sites, site.Vetted policy) (levels : Nat) : a.SitesVetted policy levels := by
  intro under depth _
  rw [hs]
  exact h

theorem sitesVetted_branch {levels : Nat} {condition : Expr} {thenActions elseActions : List Action}
    (hc : condition.Vetted policy) (ht : BlockVetted policy levels thenActions)
    (he : BlockVetted policy levels elseActions) :
    (branch condition thenActions elseActions).SitesVetted policy levels := by
  intro under depth hd
  have below : depth + 1 + levels ≤ maxDepth + 1 := by omega
  rw [sites]
  refine List.forall_mem_append.mpr ⟨?_, he under (depth + 1) below⟩
  refine List.forall_mem_append.mpr ⟨?_, ht under (depth + 1) below⟩
  refine List.forall_mem_cons.mpr ⟨?_, Expr.vetted_iff_sites.mp hc⟩
  exact fun c h => absurd h List.not_mem_nil

theorem sitesVetted_loop {levels : Nat} {name range : String} {body : List Action}
    (hn : policy.AdmitsName name) (hl : body.length ≤ maxLoopBody)
    (hb : BlockVetted policy levels body) : (loop name range body).SitesVetted policy levels := by
  intro under depth hd
  refine List.forall_mem_cons.mpr ⟨?_, hb under (depth + 1) (by omega)⟩
  refine List.forall_mem_append.mpr ⟨hn, ?_⟩
  simpa using hl

variable {levels : Nat} {block : Parse (List Action)}

theorem reads_parseCode :
    Reads policy parseCode (SitesVetted policy.enforced levels) := by
  refine .bind .current fun first _ => .bind .get fun s _ => .bind (.goTo _) fun _ _ =>
    .bind .read fun _ _ => .bind .previous fun _ _ => .bind (.check _) fun _ pass => .pure ?_
  refine sitesVetted_of_flat (fun _ _ => by rw [sites]) ?_ levels
  exact List.forall_mem_singleton.mpr pass

section

variable (hi : Reads policy inner (Expr.Vetted policy.enforced))
include hi

theorem reads_parseNavigation :
    Reads policy (parseNavigation inner) fun n => ∀ site ∈ n.sites, site.Vetted policy.enforced := by
  refine .bind (.word _) fun target _ => .bind (.check _) fun _ pass => .bind .current fun next _ => ?_
  split
  · refine .bind (Expr.reads_parseArguments hi) fun args ha => .pure ?_
    exact List.forall_mem_cons.mpr ⟨pass, Expr.vetted_iff_sitesOf.mp ha.2⟩
  · exact .pure (List.forall_mem_singleton.mpr pass)

theorem reads_parseCall (function : String) :
    Reads policy (parseCall inner function) (SitesVetted policy.enforced levels) := by
  refine .bind (.check _) fun _ pass => .bind (Expr.reads_parseArguments hi) fun args ha => .pure ?_
  refine sitesVetted_of_flat (fun _ _ => by rw [sites]) ?_ levels
  refine List.forall_mem_cons.mpr ⟨?_, Expr.vetted_iff_sitesOf.mp ha.2⟩
  exact List.forall_mem_cons.mpr ⟨pass _ List.mem_cons_self, by simpa using ha.1⟩

theorem reads_parseUpdate : Reads policy (parseUpdate inner) (SitesVetted policy.enforced levels) := by
  refine .bind .advance fun name _ => .bind (.check _) fun _ pass => .bind (.expectSymbol _) fun _ _ =>
    .bind .current fun first _ => .bind hi fun value hv => .bind .read fun _ _ =>
      .bind .previous fun _ _ => .pure ?_
  refine sitesVetted_of_flat (fun _ _ => by rw [sites]) ?_ levels
  exact List.forall_mem_cons.mpr ⟨pass, Expr.vetted_iff_sites.mp hv⟩

theorem reads_parsePlain : Reads policy (parsePlain inner) (SitesVetted policy.enforced levels) := by
  refine .bind .current fun token _ => .bind .following fun next _ => ?_
  split
  · split
    · exact reads_parseUpdate hi
    · split
      · exact .bind (.discard .advance) fun _ _ => reads_parseCall hi _
      · exact .fail _
  · exact .fail _

end

theorem reads_atStatementEnd : Reads policy atStatementEnd fun _ => True :=
  .bind .current fun _ _ => .bind .previous fun _ _ => .pure trivial

section

variable (hb : Reads policy block (BlockVetted policy.enforced levels))
include hb

theorem reads_parseLoop : Reads policy (parseLoop block) (SitesVetted policy.enforced levels) := by
  have looped (name range : String) (hn : policy.enforced.AdmitsName name) : Reads policy (do
      let body ← block
      check [.limit "loop body actions" body.length maxLoopBody]
      return Action.loop name range body) (SitesVetted policy.enforced levels) := by
    refine .bind hb fun body hbody => .bind (.check _) fun _ pass => .pure ?_
    exact sitesVetted_loop hn (by simpa using pass) hbody
  refine .bind (.discard (.expectWord _)) fun _ _ => .bind (.word _) fun name _ =>
    .bind (.check _) fun _ pass => .bind (.discard (.expectWord _)) fun _ _ =>
      .bind (.word _) fun range _ => ?_
  split
  · exact looped _ _ pass
  · exact .bind (.failAt (Q := fun _ => True) _ _) fun _ _ => looped _ _ pass

theorem reads_parseBranchWith {chained : Parse Action}
    (hi : Reads policy inner (Expr.Vetted policy.enforced))
    (hc : Reads policy chained fun a => BlockVetted policy.enforced levels [a]) :
    Reads policy (parseBranchWith inner block chained) (SitesVetted policy.enforced levels) := by
  refine .bind (.discard (.expectWord _)) fun _ _ => .bind hi fun condition hcond =>
    .bind hb fun thenActions ht => .bind (.atWord _) fun b _ => ?_
  split
  · refine .bind (.discard .advance) fun _ _ => .bind (.atWord _) fun b _ => ?_
    split
    · exact .bind hc fun a ha => .pure (sitesVetted_branch hcond ht ha)
    · exact .bind hb fun elseActions he => .pure (sitesVetted_branch hcond ht he)
  · exact .pure (sitesVetted_branch hcond ht ht.empty)

theorem reads_parseStatementWith {branch : Parse Action}
    (hi : Reads policy inner (Expr.Vetted policy.enforced))
    (hc : Reads policy branch (SitesVetted policy.enforced levels)) :
    Reads policy (parseStatementWith inner block branch) (SitesVetted policy.enforced levels) := by
  have structured : Reads policy (parseStructured inner block branch)
      (SitesVetted policy.enforced levels) := by
    refine .bind .current fun token _ => ?_
    split
    · refine .bind (.discard .advance) fun _ _ => .bind (reads_parseNavigation hi) fun n hn => .pure ?_
      exact sitesVetted_of_flat (fun _ _ => by rw [sites]) hn levels
    · split
      · exact .bind (.discard .advance) fun _ _ => .bind (.word _) fun name _ => reads_parseCall hi _
      · split
        · exact hc
        · split
          · exact reads_parseLoop hb
          · exact reads_parsePlain hi
  refine .orElseFrom (.bind structured fun action ha => ?_) reads_parseCode
  refine .bind reads_atStatementEnd fun b _ => ?_
  split
  · exact .pure ha
  · exact .fail _

end

mutual

/-- A block is nested no deeper than the levels that it is read with. -/
theorem reads_parseBlock :
    ∀ levels, Reads policy (parseBlock levels) (BlockVetted policy.enforced levels)
  | 0 => .bind (.expectSymbol _) fun _ _ => .tooDeep
  | levels + 1 => (Reads.braced (reads_parseStatementWith (reads_parseBlock levels)
      (Expr.reads_parse levels) (reads_parseBranch levels))).mono fun _ => .of_actions

theorem reads_parseBranch :
    ∀ levels, Reads policy (parseBranch levels) (SitesVetted policy.enforced levels)
  | 0 => reads_parseBranchWith (.bind (.expectSymbol _) fun _ _ => .tooDeep) .tooDeep .tooDeep
  | levels + 1 => by
    have block : Reads policy
        (braced (parseStatementWith (Expr.parse levels) (parseBlock levels) (parseBranch levels)))
        (BlockVetted policy.enforced (levels + 1)) :=
      (Reads.braced (reads_parseStatementWith (reads_parseBlock levels) (Expr.reads_parse levels)
        (reads_parseBranch levels))).mono fun _ => .of_actions
    -- a conditional after `else` stands in a block of its own
    have chained : Reads policy (parseBranch levels)
        fun a => BlockVetted policy.enforced (levels + 1) [a] :=
      (reads_parseBranch levels).mono fun a ha => .of_actions (List.forall_mem_singleton.mpr ha)
    exact reads_parseBranchWith block (Expr.reads_parse (levels + 1)) chained

end

end Action

/-! ## UI trees -/

namespace Node

/-- A tree whose sites are vetted, at whatever depth it stands. -/
def SitesVetted (policy : Policy) (n : Node) : Prop :=
  ∀ depth, ∀ site ∈ n.sites depth, site.Vetted policy

theorem forall_mem_sitesOf {P : Site → Prop} {depth : Nat} {nodes : List Node} :
    (∀ site ∈ sitesOf depth nodes, P site) ↔ ∀ n ∈ nodes, ∀ site ∈ n.sites depth, P site := by
  induction nodes with
  | nil => simp [sitesOf]
  | cons n ns ih => rw [sitesOf, List.forall_mem_append, ih, List.forall_mem_cons]

/-- A node that checks nothing of its own. -/
theorem vetted_node {depth : Nat} {n : Node} (h : n.checks = []) :
    (Site.node depth n).Vetted policy := by
  intro c hc
  rw [Site.checks, h] at hc
  exact absurd hc List.not_mem_nil

theorem sitesVetted_container {layout : Layout} {nodes : List Node}
    (h : ∀ n ∈ nodes, n.SitesVetted policy) : (container layout nodes).SitesVetted policy := by
  intro depth
  refine List.forall_mem_cons.mpr ⟨vetted_node rfl, forall_mem_sitesOf.mpr ?_⟩
  exact fun n hn => h n hn (depth + 1)

theorem sitesVetted_ofBlock {nodes : List Node} (h : ∀ n ∈ nodes, n.SitesVetted policy) :
    (ofBlock nodes).SitesVetted policy := by
  unfold ofBlock
  split
  · exact h _ (List.mem_singleton_self _)
  · exact sitesVetted_container h

theorem sitesVetted_conditional {condition : Expr} {thenBranch : Node} {elseBranch : Option Node}
    (hc : condition.Vetted policy) (ht : thenBranch.SitesVetted policy)
    (he : ∀ n, elseBranch = some n → n.SitesVetted policy) :
    (conditional condition thenBranch elseBranch).SitesVetted policy := by
  intro depth
  rw [sites]
  refine List.forall_mem_append.mpr ⟨List.forall_mem_append.mpr ⟨?_, ht (depth + 1)⟩, ?_⟩
  · exact List.forall_mem_cons.mpr ⟨vetted_node rfl, Expr.vetted_iff_sites.mp hc⟩
  · cases elseBranch with
    | none => exact fun _ hs => absurd hs List.not_mem_nil
    | some n => exact he n rfl (depth + 1)

/-- The block of a button is the outermost one of its actions. -/
theorem sitesVetted_button {label : String} {navigation : Option Navigation} {handler : Option String}
    {actions : List Action} (hl : ∀ c ∈ (button label none none []).checks, c.Passes policy)
    (hn : ∀ n, navigation = some n → ∀ site ∈ n.sites, site.Vetted policy)
    (hh : ∀ name, handler = some name → (Site.handler name).Vetted policy)
    (ha : ∀ under, ∀ site ∈ Action.blockSites under 1 actions, site.Vetted policy) :
    (button label navigation handler actions).SitesVetted policy := by
  intro depth
  rw [sites]
  refine List.forall_mem_append.mpr ⟨List.forall_mem_append.mpr ⟨?_, ?_⟩, ha depth⟩
  · refine List.forall_mem_cons.mpr ⟨hl, fun site hs => ?_⟩
    obtain ⟨n, hm, hs⟩ := List.mem_flatMap.mp hs
    exact hn n (Option.mem_toList.mp hm) site hs
  · rw [List.forall_mem_map]
    exact fun name hm => hh name (Option.mem_toList.mp hm)

variable {block : Parse (List Action)} {children : Parse (List Node)}

theorem reads_parseImage : Reads policy parseImage (SitesVetted policy.enforced) := by
  refine .bind (.string _) fun source _ => .bind (.check _) fun _ pass => .pure fun depth => ?_
  exact List.forall_mem_singleton.mpr pass

theorem reads_parseInput : Reads policy parseInput (SitesVetted policy.enforced) := by
  have bound (label : String) (hl : ∀ c ∈ Check.string label "input label", c.Passes policy.enforced) :
      Reads policy (do
        let binding := (← word "state binding").value
        check (Check.stateName binding)
        return Node.input label binding) (SitesVetted policy.enforced) := by
    refine .bind (.word _) fun binding _ => .bind (.check _) fun _ pass => .pure fun depth => ?_
    exact List.forall_mem_singleton.mpr (List.forall_mem_append.mpr ⟨hl, pass⟩)
  refine .bind (.string _) fun label _ => .bind (.check _) fun _ pass => .bind (.atWord _) fun b _ => ?_
  dsimp only
  split
  · exact .bind (.discard .advance) fun _ _ => .bind (.discard (.skipSymbol _)) fun _ _ => bound _ pass
  · exact bound _ pass

section

variable (hi : Reads policy inner (Expr.Vetted policy.enforced))
include hi

theorem reads_parseButton (hb : Reads policy block fun as =>
      ∀ under, ∀ site ∈ Action.blockSites under 1 as, site.Vetted policy.enforced) :
    Reads policy (parseButton inner block) (SitesVetted policy.enforced) := by
  -- from the last part of a button to the first, each with what has been read before it
  have actions (label : String) (navigation : Option Navigation) (handler : Option String)
      (hl : ∀ c ∈ (button label none none []).checks, c.Passes policy.enforced)
      (hn : ∀ n, navigation = some n → ∀ site ∈ n.sites, site.Vetted policy.enforced)
      (hh : ∀ name, handler = some name → (Site.handler name).Vetted policy.enforced) :
      Reads policy (do
        let actions ← if ← atSymbol "\x7b" then block else pure []
        return Node.button label navigation handler actions) (SitesVetted policy.enforced) := by
    refine .bind (.atSymbol _) fun b _ => ?_
    dsimp only
    split
    · exact .bind hb fun actions ha => .pure (sitesVetted_button hl hn hh ha)
    · refine .pure_bind (.pure (sitesVetted_button hl hn hh fun under => ?_))
      exact List.forall_mem_singleton.mpr (Action.vetted_block.mpr (by decide))
  have handler (label : String) (navigation : Option Navigation)
      (hl : ∀ c ∈ (button label none none []).checks, c.Passes policy.enforced)
      (hn : ∀ n, navigation = some n → ∀ site ∈ n.sites, site.Vetted policy.enforced) :
      Reads policy (do
        let handler ← if ← atWord "action" then
            discard advance
            let name := (← word "action name").value
            check [.text name "action reference"]
            pure (some name)
          else pure none
        let actions ← if ← atSymbol "\x7b" then block else pure []
        return Node.button label navigation handler actions) (SitesVetted policy.enforced) := by
    refine .bind (.atWord _) fun b _ => ?_
    dsimp only
    split
    · refine .bind (.discard .advance) fun _ _ => .bind (.word _) fun name _ =>
        .bind (.check _) fun _ pass => .pure_bind (actions _ _ _ hl hn ?_)
      rintro _ he
      cases he
      exact pass
    · refine .pure_bind (actions _ _ _ hl hn ?_)
      rintro _ he
      cases he
  refine .bind (.string _) fun label _ => .bind (.check _) fun _ pass => .bind (.skipSymbol _) fun b _ => ?_
  dsimp only
  split
  · refine .bind (Action.reads_parseNavigation hi) fun n hn => .pure_bind (handler _ _ pass ?_)
    rintro _ he
    cases he
    exact hn
  · refine .pure_bind (handler _ _ pass ?_)
    rintro _ he
    cases he

theorem reads_parseComponent : Reads policy (parseComponent inner) (SitesVetted policy.enforced) := by
  refine .bind (.word _) fun name _ => .bind (.check _) fun _ pass => .bind (.expectSymbol _) fun _ _ =>
    .bind (.itemsUntil (I := fun props => ∀ p ∈ props,
      policy.enforced.findBlocked p.1 = none ∧ p.2.Vetted policy.enforced) ?_ ?_) fun props hp =>
        .bind (.expectSymbol _) fun _ _ => .pure fun depth => ?_
  · rintro props hp
    refine .bind (.word _) fun key _ => .bind (.check _) fun _ pass => .bind (.expectSymbol _) fun _ _ =>
      .bind hi fun value hv => .bind (.discard (.skipSymbol _)) fun _ _ => .pure ?_
    rintro p hm
    rcases Entries.mem_put hm with rfl | hm
    · exact ⟨by simpa using pass, hv⟩
    · exact hp p hm
  · exact fun p hm => absurd hm List.not_mem_nil
  · refine List.forall_mem_cons.mpr ⟨pass, ?_⟩
    rintro site hs
    obtain ⟨p, hm, hs⟩ := List.mem_flatMap.mp hs
    obtain ⟨key, value⟩ := hp p hm
    rcases List.mem_cons.mp hs with rfl | hs
    · simpa [Site.Vetted, Site.checks] using key
    · exact Expr.vetted_iff_sites.mp value site hs

end

section

variable (hc : Reads policy children fun nodes => ∀ n ∈ nodes, n.SitesVetted policy.enforced)
include hc

theorem reads_parseList : Reads policy (parseList children) (SitesVetted policy.enforced) := by
  refine .bind (.word _) fun binding _ => .bind (.check _) fun _ pass => .bind .current fun brace _ =>
    .bind hc fun nodes hn => ?_
  have listed : (list binding.value (ofBlock nodes)).SitesVetted policy.enforced := by
    intro depth
    exact List.forall_mem_cons.mpr ⟨pass, sitesVetted_ofBlock hn (depth + 1)⟩
  split
  · exact .bind (.failAt (Q := fun _ => True) _ _) fun _ _ => .pure listed
  · exact .pure listed

variable (hi : Reads policy inner (Expr.Vetted policy.enforced))
include hi

theorem reads_parseConditional :
    Reads policy (parseConditional inner children) (SitesVetted policy.enforced) := by
  refine .bind hi fun condition hcond => .bind hc fun nodes hn => .bind (.atWord _) fun b _ => ?_
  split
  · refine .bind (.discard .advance) fun _ _ => .bind hc fun others ho => .pure ?_
    refine sitesVetted_conditional hcond (sitesVetted_ofBlock hn) ?_
    rintro n he
    cases he
    exact sitesVetted_ofBlock ho
  · refine .pure (sitesVetted_conditional hcond (sitesVetted_ofBlock hn) ?_)
    rintro n he
    cases he

theorem reads_parseWith (hb : Reads policy block fun as =>
      ∀ under, ∀ site ∈ Action.blockSites under 1 as, site.Vetted policy.enforced) :
    Reads policy (parseWith inner block children) (SitesVetted policy.enforced) := by
  have keyword (keyword : String) :
      Reads policy (parseKeyword inner block children keyword) (SitesVetted policy.enforced) := by
    unfold parseKeyword
    split
    · exact .bind (.discard .advance) fun _ _ => .bind hc fun nodes hn =>
        .pure (sitesVetted_container hn)
    · split
      · refine .bind (.discard .advance) fun _ _ => .bind (.string _) fun token _ =>
          .bind (Expr.reads_parseText hi token) fun content h => .pure fun depth => ?_
        exact List.forall_mem_cons.mpr ⟨vetted_node rfl, Expr.vetted_iff_sites.mp h⟩
      · split
        · exact .seqRight .advance (reads_parseButton hi hb)
        · exact .seqRight .advance reads_parseImage
        · exact .seqRight .advance reads_parseInput
        · exact .seqRight .advance (reads_parseList hc)
        · exact .seqRight .advance (reads_parseConditional hc hi)
        · exact .seqRight .advance (reads_parseComponent hi)
        · exact .fail _
  refine .bind .current fun token _ => ?_
  split
  · exact keyword _
  · exact .fail _

end

/-- The blocks of buttons are read with fewer levels than the ceiling, so the outermost one fits. -/
theorem reads_parseChildren :
    ∀ levels, levels ≤ maxDepth → Reads policy (parseChildren levels) fun nodes =>
      ∀ n ∈ nodes, n.SitesVetted policy.enforced
  | 0, _ => .bind (.expectSymbol _) fun _ _ => .tooDeep
  | levels + 1, h => by
    have block : Reads policy (Action.parseBlock levels) fun as =>
        ∀ under, ∀ site ∈ Action.blockSites under 1 as, site.Vetted policy.enforced :=
      (Action.reads_parseBlock levels).mono fun as ha under => ha under 1 (by omega)
    have children := reads_parseChildren levels (Nat.le_of_succ_le h)
    exact .braced (reads_parseWith children (Expr.reads_parse levels) block)

theorem reads_parseTree : Reads policy parseTree (SitesVetted policy.enforced) :=
  .bind (reads_parseChildren maxDepth (Nat.le_refl _)) fun _ h => .pure (sitesVetted_ofBlock h)

end Node

end Screenplay
