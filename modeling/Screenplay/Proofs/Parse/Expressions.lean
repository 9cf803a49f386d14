/-
The expressions and the assignments of programs that are read. Whatever property the expression parser gives
to all that it reads below the nesting ceiling, every expression has that a program evaluates, at its nodes
and in its actions. The variables that actions assign to are written as paths.
-/
import Screenplay.Proofs.Parse.Reads
import Screenplay.Proofs.Program.Parts

namespace Screenplay

/-! ## What a parser gives -/

namespace Parse

variable {α β σ : Type} {m : Parse α} {f : α → Parse β} {P Q : α → Prop} {R : β → Prop}

/-- Whatever a parser reads has a property. Nothing is asked of the guard, so a step whose result does not
matter is skipped, whatever it is. -/
def Gives (m : Parse α) (Q : α → Prop) : Prop := ∀ source s a t, m source s = (.ok a, t) → Q a

namespace Gives

theorem mono (h : Gives m P) (hpq : ∀ a, P a → Q a) : Gives m Q :=
  fun source s a t hr => hpq a (h source s a t hr)

theorem pure {a : α} (h : Q a) : Gives (Pure.pure a) Q := by
  rintro source s b t hr
  cases hr
  exact h

theorem throw (e : Failure) : Gives (MonadExcept.throw e) Q := by
  rintro source s a t hr
  cases hr

theorem bind (hm : Gives m P) (hf : ∀ a, P a → Gives (f a) R) : Gives (m >>= f) R := by
  intro source s b t hr
  rw [bind_run] at hr
  rcases hm' : m source s with ⟨e | a, u⟩
  · rw [hm'] at hr
    cases hr
  · rw [hm'] at hr
    exact hf a (hm source s a u hm') source u b t hr

/-- What comes first may be anything. -/
theorem skip (hf : ∀ a, Gives (f a) R) : Gives (m >>= f) R :=
  bind (P := fun _ => True) (fun _ _ _ _ _ => trivial) fun a _ => hf a

theorem seqRight {n : Parse β} (hn : Gives n R) : Gives (m *> n) R :=
  skip fun _ => hn

theorem tooDeep : Gives tooDeep Q :=
  throw _

theorem failAt (token : Token) (cause : ParseCause) : Gives (failAt token cause) Q :=
  skip fun _ => throw _

theorem fail (cause : ParseCause) : Gives (fail cause) Q :=
  skip fun _ => failAt _ _

theorem orElseFrom {first second : Parse α} (hf : Gives first Q) (hs : Gives second Q) :
    Gives (orElseFrom first second) Q := by
  intro source s a t hr
  by_cases hp : ∃ e, (first source s).1 = .error (.parse e)
  · obtain ⟨e, hp⟩ := hp
    rcases hr' : first source s with ⟨outcome, failed⟩
    rw [hr'] at hp
    cases hp
    rw [orElseFrom_run_parse hr'] at hr
    exact hs source _ a t hr
  · rw [orElseFrom_run_other fun e h => hp ⟨e, h⟩] at hr
    exact hf source s a t hr

/-! ### Loops -/

variable {I : σ → Prop} {item : σ → Parse σ}

theorem rounds {round : σ → Parse (Round σ)} (h : ∀ x, I x → Gives (round x) (Reads.OnRound I)) {x : σ}
    (hx : I x) : Gives (rounds round x) I := by
  have upTo (n : Nat) : ∀ x, I x → Gives (roundsUpTo round n x) I := by
    induction n with
    | zero => exact fun _ _ => throw _
    | succ n ih =>
      intro x hx
      refine (h x hx).bind fun r hr => ?_
      cases r with
      | again y => exact ih y hr
      | done y => exact pure hr
  exact fun source s => upTo _ x hx source s

theorem itemsUntil {closing : String} (h : ∀ x, I x → Gives (item x) I) {x : σ} (hx : I x) :
    Gives (itemsUntil closing item x) I := by
  refine rounds (fun x hx => skip fun b => ?_) hx
  split
  · exact pure hx
  · exact (h x hx).bind fun _ hy => pure hy

theorem itemsBetweenCommas {closing : String} (h : ∀ x, I x → Gives (item x) I) {x : σ} (hx : I x) :
    Gives (itemsBetweenCommas closing item x) I := by
  refine rounds (fun x hx => skip fun b => ?_) hx
  split
  · exact pure hx
  · refine (h x hx).bind fun y hy => skip fun comma => ?_
    split
    · exact pure hy
    · exact pure hy

theorem itemsFrom {start : String} (h : ∀ x, I x → Gives (item x) I) {x : σ} (hx : I x) :
    Gives (itemsFrom start item x) I := by
  refine rounds (fun x hx => skip fun b => ?_) hx
  split
  · exact (h x hx).bind fun _ hy => pure hy
  · exact pure hx

theorem adding (h : Gives m Q) {items : List α} (hi : ∀ a ∈ items, Q a) :
    Gives (adding m items) fun items => ∀ a ∈ items, Q a := by
  refine h.bind fun a ha => pure ?_
  rw [List.forall_mem_append, List.forall_mem_singleton]
  exact ⟨hi, ha⟩

theorem beforeEnding (h : Gives m Q) : Gives (beforeEnding m) Q := by
  refine skip fun b => ?_
  split
  · exact fail _
  · exact h

theorem braced (h : Gives m Q) : Gives (braced m) fun items => ∀ a ∈ items, Q a :=
  skip fun _ => (itemsUntil (fun _ hi => adding (beforeEnding h) hi) (List.forall_mem_nil _)).bind
    fun _ hi => skip fun _ => pure hi

end Gives

end Parse

open Parse

variable {E : Expr → Prop}

/-! ## Expressions of actions -/

namespace Action

/-- The expressions of an action have a property, and a variable that it assigns to is written as a path. -/
structure Within (E : Expr → Prop) (a : Action) : Prop where
  exprs : ∀ e ∈ a.exprs, E e
  assigned : ∀ name value source, a = update name value source → isPath name.toList = true

/-- An action is such, and so are those in its blocks. -/
def Throughout (E : Expr → Prop) (a : Action) : Prop := ∀ part, Holds inner a part → part.Within E

theorem throughout_iff {a : Action} :
    a.Throughout E ↔ a.Within E ∧ ∀ part ∈ a.inner, part.Throughout E :=
  forall_holds

/-- An action without blocks. -/
theorem throughout_of_flat {a : Action} (flat : a.blocks = []) (h : a.Within E) : a.Throughout E := by
  refine throughout_iff.mpr ⟨h, ?_⟩
  rw [inner, flat]
  exact List.forall_mem_nil _

theorem throughout_code (text : String) : (code text).Throughout E :=
  throughout_of_flat rfl ⟨List.forall_mem_nil _, nofun⟩

theorem throughout_branch {condition : Expr} {thenActions elseActions : List Action} (hc : E condition)
    (ht : ∀ a ∈ thenActions, a.Throughout E) (he : ∀ a ∈ elseActions, a.Throughout E) :
    (branch condition thenActions elseActions).Throughout E := by
  refine throughout_iff.mpr ⟨⟨List.forall_mem_singleton.mpr hc, nofun⟩, ?_⟩
  rw [inner, blocks, List.flatten_cons, List.flatten_cons, List.forall_mem_append, List.forall_mem_append]
  exact ⟨ht, he, List.forall_mem_nil _⟩

theorem throughout_loop {name range : String} {body : List Action} (hb : ∀ a ∈ body, a.Throughout E) :
    (loop name range body).Throughout E := by
  refine throughout_iff.mpr ⟨⟨List.forall_mem_nil _, nofun⟩, ?_⟩
  rw [inner, blocks, List.flatten_cons, List.forall_mem_append]
  exact ⟨hb, List.forall_mem_nil _⟩

end Action

/-! ## Expressions of UI trees -/

namespace Node

/-- What a button does when it is pressed: its navigation and its own actions. -/
def behaviour : Node → List Action
  | .button _ navigation _ actions => (navigation.toList.map .navigate) ++ actions
  | _ => []

/-- The expressions of a node and of its behaviour have a property. -/
def Within (E : Expr → Prop) (n : Node) : Prop := (∀ e ∈ n.exprs, E e) ∧ ∀ a ∈ n.behaviour, a.Throughout E

/-- Every expression in a UI tree has a property. -/
def Throughout (E : Expr → Prop) (n : Node) : Prop := ∀ part, Holds children n part → part.Within E

theorem throughout_iff {n : Node} :
    n.Throughout E ↔ n.Within E ∧ ∀ child ∈ n.children, child.Throughout E :=
  forall_holds

theorem throughout_of_leaf {n : Node} (leaf : n.children = []) (inert : n.behaviour = [])
    (h : ∀ e ∈ n.exprs, E e) : n.Throughout E := by
  refine throughout_iff.mpr ⟨⟨h, ?_⟩, ?_⟩
  · rw [inert]
    exact List.forall_mem_nil _
  · rw [leaf]
    exact List.forall_mem_nil _

theorem throughout_container {layout : Layout} {nodes : List Node} (h : ∀ n ∈ nodes, n.Throughout E) :
    (container layout nodes).Throughout E :=
  throughout_iff.mpr ⟨⟨List.forall_mem_nil _, List.forall_mem_nil _⟩, h⟩

theorem throughout_ofBlock {nodes : List Node} (h : ∀ n ∈ nodes, n.Throughout E) :
    (ofBlock nodes).Throughout E := by
  unfold ofBlock
  split
  · exact h _ (List.mem_singleton_self _)
  · exact throughout_container h

theorem throughout_list (binding : String) {template : Node} (h : template.Throughout E) :
    (list binding template).Throughout E :=
  throughout_iff.mpr ⟨⟨List.forall_mem_nil _, List.forall_mem_nil _⟩, List.forall_mem_singleton.mpr h⟩

theorem throughout_conditional {condition : Expr} {thenBranch : Node} {elseBranch : Option Node}
    (hc : E condition) (ht : thenBranch.Throughout E) (he : ∀ n, elseBranch = some n → n.Throughout E) :
    (conditional condition thenBranch elseBranch).Throughout E := by
  refine throughout_iff.mpr ⟨⟨List.forall_mem_singleton.mpr hc, List.forall_mem_nil _⟩, ?_⟩
  cases elseBranch with
  | none => exact List.forall_mem_singleton.mpr ht
  | some n => exact List.forall_mem_cons.mpr ⟨ht, List.forall_mem_singleton.mpr (he n rfl)⟩

theorem throughout_button {label : String} {navigation : Option Navigation} {handler : Option String}
    {actions : List Action} (hn : ∀ n, navigation = some n → ∀ e ∈ n.args, E e)
    (ha : ∀ a ∈ actions, a.Throughout E) : (button label navigation handler actions).Throughout E := by
  refine throughout_iff.mpr ⟨⟨List.forall_mem_nil _, ?_⟩, List.forall_mem_nil _⟩
  rw [behaviour, List.forall_mem_append, List.forall_mem_map]
  refine ⟨fun n hm => ?_, ha⟩
  exact Action.throughout_of_flat rfl ⟨hn n (Option.mem_toList.mp hm), nofun⟩

end Node

/-! ## Expressions of programs -/

/-- Every expression of a screen, in its UI tree and in its handlers, has a property. -/
structure Screen.Throughout (E : Expr → Prop) (s : Screen) : Prop where
  ui : s.ui.Throughout E
  handlers : ∀ h ∈ s.handlers, ∀ a ∈ h.body, a.Throughout E

/-- The actions of a program are those of its screens. -/
theorem Program.HasAction.of_throughout {p : Program} (h : ∀ s ∈ p.screens, s.Throughout E) {a : Action}
    (ha : p.HasAction a) : a.Within E := by
  cases ha with
  | navigation hn =>
    obtain ⟨s, hs, hn⟩ := hn
    exact ((h s hs).ui _ hn).2 _ (by simp [Node.behaviour]) _ (.refl _)
  | block hb hi ha =>
    -- an action of a block in the behaviour is inside one of the actions of the behaviour
    obtain ⟨outer, hm, held⟩ := Action.holds_inner.mpr ⟨_, hi, ha⟩
    cases hb with
    | button hs hn => exact ((h _ hs).ui _ ⟨_, hn⟩).2 outer (by simp [Node.behaviour, hm]) _ held
    | handler hs hh => exact (h _ hs).handlers _ hh outer hm _ held

/-- What a program evaluates are the expressions of its screens. -/
theorem Program.Evaluates.of_throughout {p : Program} (h : ∀ s ∈ p.screens, s.Throughout E) {root : Expr}
    (hr : p.Evaluates root) : E root := by
  cases hr with
  | node hn he =>
    obtain ⟨s, hs, hn⟩ := hn
    exact ((h s hs).ui _ hn).1 root he
  | action ha he => exact (ha.of_throughout h).exprs root he

/-! ## Reading actions -/

variable {inner : Parse Expr} {block : Parse (List Action)} {children : Parse (List Node)}

theorem Expr.gives_parseArguments (hi : Gives inner E) :
    Gives (parseArguments inner) fun args => ∀ arg ∈ args, E arg :=
  .skip fun _ => .bind (.itemsBetweenCommas
    (fun _ ha => (Gives.adding hi ha).bind fun _ ha => .skip fun _ => .pure ha) (List.forall_mem_nil _))
    fun _ ha => .skip fun _ => .pure ha

namespace Action

theorem gives_parseCode : Gives parseCode (Throughout E) :=
  .skip fun _ => .skip fun _ => .skip fun _ => .skip fun _ => .skip fun _ => .skip fun _ =>
    .pure (throughout_code _)

section

variable (hi : Gives inner E)
include hi

theorem gives_parseNavigation : Gives (parseNavigation inner) fun n => ∀ e ∈ n.args, E e := by
  refine .skip fun target => .skip fun _ => .skip fun next => ?_
  split
  · exact (Expr.gives_parseArguments hi).bind fun _ ha => .pure ha
  · exact .pure (List.forall_mem_nil _)

theorem gives_parseCall (function : String) : Gives (parseCall inner function) (Throughout E) :=
  .skip fun _ => (Expr.gives_parseArguments hi).bind fun _ ha => .pure (throughout_of_flat rfl ⟨ha, nofun⟩)

theorem gives_parsePlain : Gives (parsePlain inner) (Throughout E) := by
  have assigned {name : Token} (path : isPath name.value.toList = true) : Gives (do
      check (Check.stateName name.value)
      expectSymbol "="
      let first ← current
      let value ← inner
      return .update name.value value ((← read).slice first.start (← previous).stop)) (Throughout E) := by
    refine .skip fun _ => .skip fun _ => .skip fun _ => hi.bind fun value hv => .skip fun _ => .skip fun _ =>
      .pure (throughout_of_flat rfl ⟨List.forall_mem_singleton.mpr hv, ?_⟩)
    rintro _ _ _ heq
    cases heq
    exact path
  intro source s a t hr
  -- the token that has been looked at is the one that the assignment reads
  change (if s.cursor.current.kind = .word ∧ isPath s.cursor.current.value.toList = true then _ else _ : Parse Action)
    source s = _ at hr
  split at hr
  · next path =>
    by_cases eq : s.cursor.following.isSymbol "="
    · rw [if_pos eq] at hr
      exact assigned path.2 source { s with cursor := s.cursor.next } a t hr
    · rw [if_neg eq] at hr
      split at hr
      · exact Gives.skip (fun _ => gives_parseCall hi _) source s a t hr
      · exact Gives.fail _ source s a t hr
  · exact Gives.fail _ source s a t hr

end

section

variable (hb : Gives block fun actions => ∀ a ∈ actions, a.Throughout E)
include hb

theorem gives_parseLoop : Gives (parseLoop block) (Throughout E) := by
  refine .skip fun _ => .skip fun name => .skip fun _ => .skip fun _ => .skip fun range => ?_
  have looped : Gives (do
      let body ← block
      check [.limit "loop body actions" body.length maxLoopBody]
      return Action.loop name.value range.value body) (Throughout E) :=
    hb.bind fun body h => .skip fun _ => .pure (throughout_loop h)
  split
  · exact looped
  · exact .skip fun _ => looped

variable (hi : Gives inner E)
include hi

theorem gives_parseBranchWith {chained : Parse Action} (hc : Gives chained (Throughout E)) :
    Gives (parseBranchWith inner block chained) (Throughout E) := by
  refine .skip fun _ => hi.bind fun condition hcond => hb.bind fun thenActions ht => .skip fun b => ?_
  split
  · refine .skip fun _ => .skip fun b => ?_
    split
    · exact hc.bind fun a ha => .pure (throughout_branch hcond ht (List.forall_mem_singleton.mpr ha))
    · exact hb.bind fun elseActions he => .pure (throughout_branch hcond ht he)
  · exact .pure (throughout_branch hcond ht (List.forall_mem_nil _))

theorem gives_parseStatementWith {branch : Parse Action} (hc : Gives branch (Throughout E)) :
    Gives (parseStatementWith inner block branch) (Throughout E) := by
  have structured : Gives (parseStructured inner block branch) (Throughout E) := by
    refine .skip fun token => ?_
    split
    · exact .skip fun _ => (gives_parseNavigation hi).bind fun n hn => .pure (throughout_of_flat rfl ⟨hn, nofun⟩)
    · split
      · exact .skip fun _ => .skip fun name => gives_parseCall hi _
      · split
        · exact hc
        · split
          · exact gives_parseLoop hb
          · exact gives_parsePlain hi
  refine .orElseFrom (structured.bind fun action ha => .skip fun b => ?_) gives_parseCode
  split
  · exact .pure ha
  · exact .fail _

end

section

variable (he : ∀ depth < maxDepth, Gives (Expr.parse depth) E)
include he

mutual

theorem gives_parseBlock (depth : Nat) (h : depth ≤ maxDepth) :
    Gives (parseBlock depth) fun actions => ∀ a ∈ actions, a.Throughout E := by
  cases depth with
  | zero => exact .skip fun _ => .tooDeep
  | succ depth =>
    exact .braced (gives_parseStatementWith (gives_parseBlock depth (Nat.le_of_succ_le h)) (he depth h)
      (gives_parseBranch depth h))

theorem gives_parseBranch (depth : Nat) (h : depth < maxDepth) :
    Gives (parseBranch depth) (Throughout E) := by
  cases depth with
  | zero => exact gives_parseBranchWith (.skip fun _ => .tooDeep) .tooDeep .tooDeep
  | succ depth =>
    have below : depth < maxDepth := Nat.lt_of_succ_lt h
    have block := gives_parseBlock depth below.le
    have branch := gives_parseBranch depth below
    exact gives_parseBranchWith (.braced (gives_parseStatementWith block (he depth below) branch))
      (he (depth + 1) h) branch

end

end

end Action

/-! ## Reading UI trees -/

namespace Node

section

variable (hi : Gives inner E)
include hi

theorem gives_parseButton (hb : Gives block fun actions => ∀ a ∈ actions, a.Throughout E) :
    Gives (parseButton inner block) (Throughout E) := by
  -- from the last part of a button to the first, with the arguments of the navigation in hand
  have actions (label : String) (navigation : Option Navigation) (handler : Option String)
      (hn : ∀ n, navigation = some n → ∀ e ∈ n.args, E e) : Gives (do
        let actions ← if ← atSymbol "\x7b" then block else pure []
        return Node.button label navigation handler actions) (Throughout E) := by
    refine .skip fun b => ?_
    dsimp only
    split
    · exact hb.bind fun actions ha => .pure (throughout_button hn ha)
    · exact .bind (.pure (List.forall_mem_nil _)) fun actions ha => .pure (throughout_button hn ha)
  have handler (label : String) (navigation : Option Navigation)
      (hn : ∀ n, navigation = some n → ∀ e ∈ n.args, E e) : Gives (do
        let handler ← if ← atWord "action" then
            discard advance
            let name := (← word "action name").value
            check [.text name "action reference"]
            pure (some name)
          else pure none
        let actions ← if ← atSymbol "\x7b" then block else pure []
        return Node.button label navigation handler actions) (Throughout E) := by
    refine .skip fun b => ?_
    dsimp only
    split
    · exact .skip fun _ => .skip fun _ => .skip fun _ => .skip fun _ => actions _ _ _ hn
    · exact .skip fun _ => actions _ _ _ hn
  refine .skip fun label => .skip fun _ => .skip fun b => ?_
  dsimp only
  split
  · refine (Action.gives_parseNavigation hi).bind fun n hn => .bind (.pure (Q := (· = some n)) rfl) ?_
    rintro _ rfl
    refine handler _ _ fun n' he => ?_
    cases he
    exact hn
  · refine .bind (.pure (Q := (· = none)) rfl) ?_
    rintro _ rfl
    refine handler _ _ fun n' he => ?_
    cases he

theorem gives_parseComponent : Gives (parseComponent inner) (Throughout E) := by
  refine .skip fun name => .skip fun _ => .skip fun _ =>
    .bind (.itemsUntil (I := fun props : Entries Expr => ∀ p ∈ props, E p.2) ?_ (List.forall_mem_nil _))
      fun props hp => .skip fun _ => .pure ?_
  · intro props hp
    refine .skip fun key => .skip fun _ => .skip fun _ => hi.bind fun value hv => .skip fun _ => .pure ?_
    intro p hm
    rcases Entries.mem_put hm with rfl | hm
    · exact hv
    · exact hp p hm
  · exact throughout_of_leaf rfl rfl (List.forall_mem_map.mpr hp)

end

section

variable (hc : Gives children fun nodes => ∀ n ∈ nodes, n.Throughout E)
include hc

theorem gives_parseList : Gives (parseList children) (Throughout E) := by
  refine .skip fun binding => .skip fun _ => .skip fun brace => hc.bind fun nodes hn => ?_
  have listed := throughout_list binding.value (throughout_ofBlock hn)
  split
  · exact .skip fun _ => .pure listed
  · exact .pure listed

variable (hi : Gives inner E)
include hi

theorem gives_parseConditional : Gives (parseConditional inner children) (Throughout E) := by
  refine hi.bind fun condition hcond => hc.bind fun nodes hn => .skip fun b => ?_
  split
  · refine .skip fun _ => hc.bind fun others ho => .pure ?_
    refine throughout_conditional hcond (throughout_ofBlock hn) fun n he => ?_
    cases he
    exact throughout_ofBlock ho
  · refine .pure (throughout_conditional hcond (throughout_ofBlock hn) fun n he => ?_)
    cases he

theorem gives_parseWith (ht : ∀ token, Gives (Expr.parseText inner token) E)
    (hb : Gives block fun actions => ∀ a ∈ actions, a.Throughout E) :
    Gives (parseWith inner block children) (Throughout E) := by
  have leaf {n : Node} (leaf : n.children = []) (inert : n.behaviour = []) (none : n.exprs = []) :
      n.Throughout E := throughout_of_leaf leaf inert (none ▸ List.forall_mem_nil _)
  have keyword (keyword : String) : Gives (parseKeyword inner block children keyword) (Throughout E) := by
    unfold parseKeyword
    split
    · exact .skip fun _ => hc.bind fun nodes hn => .pure (throughout_container hn)
    · split
      · exact .skip fun _ => .skip fun token => (ht token).bind fun content h =>
          .pure (throughout_of_leaf rfl rfl (List.forall_mem_singleton.mpr h))
      · split
        · exact .seqRight (gives_parseButton hi hb)
        · exact .seqRight (.skip fun _ => .skip fun _ => .pure (leaf rfl rfl rfl))
        · refine .seqRight (.skip fun label => .skip fun _ => .skip fun b => ?_)
          dsimp only
          split
          · exact .skip fun _ => .skip fun _ => .skip fun _ => .skip fun _ => .pure (leaf rfl rfl rfl)
          · exact .skip fun _ => .skip fun _ => .pure (leaf rfl rfl rfl)
        · exact .seqRight (gives_parseList hc)
        · exact .seqRight (gives_parseConditional hc hi)
        · exact .seqRight (gives_parseComponent hi)
        · exact .fail _
  refine .skip fun token => ?_
  split
  · exact keyword _
  · exact .fail _

end

variable (he : ∀ depth < maxDepth, Gives (Expr.parse depth) E)
  (ht : ∀ depth < maxDepth, ∀ token, Gives (Expr.parseText (Expr.parse depth) token) E)
include he ht

theorem gives_parseChildren (depth : Nat) (h : depth ≤ maxDepth) :
    Gives (parseChildren depth) fun nodes => ∀ n ∈ nodes, n.Throughout E := by
  induction depth with
  | zero => exact .skip fun _ => .tooDeep
  | succ depth nodes =>
    have within : depth ≤ maxDepth := Nat.le_of_succ_le h
    exact .braced (gives_parseWith (nodes within) (he depth h) (ht depth h)
      (Action.gives_parseBlock he depth within))

theorem gives_parseTree : Gives parseTree (Throughout E) :=
  (gives_parseChildren he ht maxDepth le_rfl).bind fun _ hn => .pure (throughout_ofBlock hn)

end Node

/-! ## Reading programs -/

section

variable (he : ∀ depth < maxDepth, Gives (Expr.parse depth) E)
  (ht : ∀ depth < maxDepth, ∀ token, Gives (Expr.parseText (Expr.parse depth) token) E)
include he

theorem Handler.gives_parse : Gives Handler.parse fun h => ∀ a ∈ h.body, a.Throughout E :=
  .skip fun _ => .skip fun _ => (Action.gives_parseBlock he maxDepth le_rfl).bind fun _ hb => .pure hb

/-- What has been read of a screen has a property in all its expressions. -/
structure ScreenBody.Throughout (E : Expr → Prop) (body : ScreenBody) : Prop where
  ui : ∀ ui, body.ui = some ui → ui.Throughout E
  handlers : ∀ h ∈ body.handlers, ∀ a ∈ h.body, a.Throughout E

include ht

theorem ScreenBody.gives_parseItem (screen : String) (appState : List StateVar) {body : ScreenBody}
    (h : body.Throughout E) : Gives (body.parseItem screen appState) (ScreenBody.Throughout E) := by
  have ui : Gives (do
      discard advance
      return { body with ui := some (← Node.parseTree) }) (ScreenBody.Throughout E) := by
    refine .skip fun _ => (Node.gives_parseTree he ht).bind fun ui hu => .pure ⟨?_, h.handlers⟩
    rintro _ heq
    cases heq
    exact hu
  refine .skip fun token => ?_
  split
  · exact .skip fun state => .pure ⟨h.ui, h.handlers⟩
  · split
    · split
      · exact .skip fun _ => ui
      · exact ui
    · split
      · exact .skip fun _ => (Gives.adding (Handler.gives_parse he) h.handlers).bind fun _ hh => .pure ⟨h.ui, hh⟩
      · exact .fail _

theorem Screen.gives_parse (appState : List StateVar) : Gives (Screen.parse appState) (Screen.Throughout E) := by
  refine .skip fun _ => .skip fun name => .skip fun _ => .skip fun params => .skip fun _ =>
    .bind (.itemsUntil (I := ScreenBody.Throughout E)
      (fun body hb => ScreenBody.gives_parseItem he ht name.value appState hb) ⟨?_, List.forall_mem_nil _⟩)
      fun body hb => .skip fun _ => ?_
  · rintro _ heq
    cases heq
  · -- a screen without a UI tree shows an empty column
    have shown : (body.ui.getD (.container .column [])).Throughout E := by
      cases hu : body.ui with
      | none => exact Node.throughout_container (List.forall_mem_nil _)
      | some ui => exact hb.ui ui hu
    exact .skip fun _ => .skip fun _ => .pure ⟨shown, hb.handlers⟩

namespace Program

theorem gives_grammar : Gives parser fun p => ∀ s ∈ p.screens, s.Throughout E := by
  have checked (p : Program) (hp : ∀ s ∈ p.screens, s.Throughout E) : Gives (do
      unless ← atEnding do fail (.expected "'screen' or end of input")
      return p) fun p => ∀ s ∈ p.screens, s.Throughout E := by
    refine .skip fun b => ?_
    split
    · exact .pure hp
    · exact .skip fun _ => .pure hp
  have body (name start : String) (app : AppBody) : Gives (do
      let imports ← itemsFrom "import" (adding parseImport) []
      let models ← itemsFrom "data" (adding DataModel.parse) []
      let screens ← itemsFrom "screen" (addScreen app.state) []
      if screens.isEmpty then fail (.expected "at least one screen")
      unless ← atEnding do fail (.expected "'screen' or end of input")
      return ({ name, start, screens, state := app.state, imports, models } : Program))
      fun p => ∀ s ∈ p.screens, s.Throughout E := by
    refine .skip fun imports => .skip fun models =>
      .bind (.itemsFrom (fun screens hs => (Gives.adding (Screen.gives_parse he ht app.state) hs).bind
        fun _ hs => .skip fun _ => .pure hs) (List.forall_mem_nil _)) fun screens hs => ?_
    dsimp only
    split
    · exact .skip fun _ => checked _ hs
    · exact checked _ hs
  refine .skip fun opening => .skip fun name => .skip fun _ => .skip fun _ => .skip fun app => .skip fun _ => ?_
  dsimp only
  split
  · exact .skip fun _ => body _ _ _
  · exact .skip fun _ => body _ _ _

/-- A property that the expression parser gives to all that it reads, every expression has that a program
evaluates which has been read. -/
theorem forall_evaluated_of_parse {level : Level} {source : Source} {p : Program}
    (h : (Program.parse level source).1 = .ok p) {root : Expr} (hr : p.Evaluates root) : E root := by
  obtain ⟨tokens, state, -, run⟩ := run_of_parse h
  exact hr.of_throughout (gives_grammar he ht source _ p state run)

omit he ht in
/-- The variables that a program assigns to are written as paths. -/
theorem isPath_of_assigned {level : Level} {source : Source} {p : Program}
    (h : (Program.parse level source).1 = .ok p) {name written : String} {value : Expr}
    (ha : p.HasAction (.update name value written)) : isPath name.toList = true := by
  obtain ⟨tokens, state, -, run⟩ := run_of_parse h
  have screens := gives_grammar (E := fun _ => True) (fun _ _ _ _ _ _ _ => trivial)
    (fun _ _ _ _ _ _ _ _ => trivial) source _ p state run
  exact (ha.of_throughout screens).assigned name value written rfl

end Program

end

end Screenplay
