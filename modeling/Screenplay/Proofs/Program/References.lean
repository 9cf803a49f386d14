/-
References. A screen uses the names of screens, state variables and handlers at places of its UI tree and of
its named handlers. The errors of a program list the places at which it offends, each once and in program
order: the start screen first, then screen by screen its own name, the names of its state variables, its tree
and its handlers. There are none exactly if all names are declared, and declared once.
-/
import Screenplay.Program.References
import Screenplay.Proofs.Program.Parts

namespace Screenplay

/-! ## The names that a screen uses -/

/-- A name that is used, and has to be declared. -/
inductive Reference where
  /-- the name of a screen, or a way back -/
  | target (name : String)
  /-- the name of a state variable -/
  | binding (name : String)
  /-- the name of a handler -/
  | handler (name : String)

/-- The name that is used at a site. -/
def Site.reference? : Site → Option Reference
  | .node _ (.input _ binding) | .node _ (.list binding _) => some (.binding binding)
  | .handler name => some (.handler name)
  | .action (.navigate n) => some (.target n.target)
  | _ => none

/-- A navigation at a place in a block: the number of an action, and the place inside it. -/
inductive Action.Navigates (block : List Action) : List Nat → Navigation → Prop
  | intro {k : Nat} {root : Action} {place : List Nat} {n : Navigation} (hk : block[k]? = some root)
    (hn : partAt? inner root place = some (.navigate n)) : Navigates block (k :: place) n

/-- A name that a node uses, its children apart. At a button the navigation comes first, the handler second,
and the block third. -/
inductive Node.Refers : Node → List Nat → Reference → Prop
  | input {label binding : String} : (input label binding).Refers [] (.binding binding)
  | list {binding : String} {template : Node} : (list binding template).Refers [] (.binding binding)
  | navigation {label : String} {n : Navigation} {handler : Option String} {actions : List Action} :
    (button label (some n) handler actions).Refers [0] (.target n.target)
  | handler {label : String} {navigation : Option Navigation} {name : String} {actions : List Action} :
    (button label navigation (some name) actions).Refers [1] (.handler name)
  | action {label : String} {navigation : Option Navigation} {handler : Option String}
    {actions : List Action} {place : List Nat} {n : Navigation} (h : Action.Navigates actions place n) :
    (button label navigation handler actions).Refers (2 :: place) (.target n.target)

/-- A name that a screen uses: in its UI tree, which comes first, or in the body of one of its handlers. -/
inductive Screen.Refers (s : Screen) : List Nat → Reference → Prop
  | node {place rest : List Nat} {n : Node} (hn : partAt? Node.children s.ui place = some n)
    {r : Reference} (hr : n.Refers rest r) : s.Refers (0 :: (place ++ rest)) r
  | body {j : Nat} {h : Handler} (hj : s.handlers[j]? = some h) {place : List Nat} {n : Navigation}
    (hn : Action.Navigates h.body place n) : s.Refers (1 :: j :: place) (.target n.target)

/-! ### Listing them -/

theorem Expr.references_sites (e : Expr) : e.sites.filterMap Site.reference? = [] := by
  simp [sites, Site.reference?]

theorem Expr.references_sitesOf (es : List Expr) : (sitesOf es).filterMap Site.reference? = [] := by
  simp [sitesOf, List.filterMap_flatMap, references_sites]

namespace Action

theorem references_blockSites (under depth : Nat) (block : List Action) :
    (blockSites under depth block).filterMap Site.reference? =
      block.flatMap fun a => (a.sites under depth).filterMap Site.reference? := by
  rw [blockSites, List.filterMap_cons_none rfl, sitesOf_eq, List.filterMap_flatMap]

/-- The names that an action and the actions inside it use are the targets of the navigations among them. -/
theorem lists_references (under depth : Nat) (a : Action) :
    Lists (fun place r => ∃ n, partAt? inner a place = some (.navigate n) ∧ r = .target n.target)
      ((a.sites under depth).filterMap Site.reference?) := by
  have here (a : Action) :
      Lists (fun place r => place = [] ∧ ∃ n, a = .navigate n ∧ r = .target n.target)
        (a.ownSites.filterMap Site.reference?) := by
    have own : a.ownSites.filterMap Site.reference? = (Site.reference? (.action a)).toList := by
      rw [ownSites, List.filterMap_cons, Expr.references_sitesOf]
      cases Site.reference? (.action a) <;> rfl
    rw [own]
    cases a with
    | navigate n => exact (Lists.top (Reference.target n.target)).congr (by simp)
    | _ => exact Lists.nil (by simp)
  have walk := Lists.tree inner_smaller (fun depth a => (a.sites under depth).filterMap Site.reference?)
    (fun _ a => here a) (fun own => .inl own.1) (by
      intro depth a
      rw [sites_eq, List.filterMap_append, List.filterMap_flatMap, inner, List.flatten_eq_flatMap,
        List.flatMap_assoc]
      simp only [references_blockSites, id]) depth a
  refine walk.congr fun place r => ?_
  constructor
  · rintro ⟨n, hn, rfl⟩
    exact ⟨place, _, [], hn, (List.append_nil place).symm, rfl, n, rfl, rfl⟩
  · rintro ⟨above, _, _, hn, rfl, rfl, n, rfl, rfl⟩
    exact ⟨n, by rwa [List.append_nil], rfl⟩

theorem lists_block (under depth : Nat) (block : List Action) :
    Lists (fun place r => ∃ n, Navigates block place n ∧ r = .target n.target)
      ((blockSites under depth block).filterMap Site.reference?) := by
  rw [references_blockSites]
  refine (Lists.flatMap block fun a _ => lists_references under depth a).congr fun place r => ?_
  constructor
  · rintro ⟨n, ⟨hk, hn⟩, rfl⟩
    exact ⟨_, _, _, hk, rfl, n, hn, rfl⟩
  · rintro ⟨k, root, rest, hk, rfl, n, hn, rfl⟩
    exact ⟨n, ⟨hk, hn⟩, rfl⟩

end Action

namespace Node

theorem lists_own (depth : Nat) (n : Node) :
    Lists n.Refers ((n.ownSites depth).filterMap Site.reference?) := by
  cases n with
  | button label navigation handler actions =>
    have others : (button label navigation handler actions).ownSites depth =
        .node depth (.button label navigation handler actions) ::
          (navigation.toList.flatMap Navigation.sites ++
            (handler.toList.map .handler ++ Action.blockSites depth 1 actions)) := by
      simp [ownSites]
    have move : Lists (fun place r => place = [] ∧ ∃ n, navigation = some n ∧ r = .target n.target)
        ((navigation.toList.flatMap Navigation.sites).filterMap Site.reference?) := by
      cases navigation with
      | none => exact Lists.nil (by simp)
      | some n =>
        have own : (Navigation.sites n).filterMap Site.reference? = [.target n.target] := by
          rw [Navigation.sites, List.filterMap_cons, Expr.references_sitesOf]
          rfl
        simpa [own] using Lists.top (Reference.target n.target)
    have press : Lists (fun place r => place = [] ∧ ∃ name, handler = some name ∧ r = .handler name)
        ((handler.toList.map Site.handler).filterMap Site.reference?) := by
      cases handler with
      | none => exact Lists.nil (by simp)
      | some name => simpa [Site.reference?] using Lists.top (Reference.handler name)
    -- the navigation stands at number 0, the handler at 1, the block at 2, as they follow each other
    rw [others, List.filterMap_cons_none rfl, List.filterMap_append, List.filterMap_append]
    refine (move.beside 0 (press.beside 1 ((Action.lists_block depth 1 actions).below 2) ?_) ?_).congr ?_
    · rintro place r ⟨rest, rfl, -⟩
      exact ⟨2, rest, rfl, by decide⟩
    · rintro place r (⟨rest, rfl, -⟩ | ⟨rest, rfl, -⟩)
      · exact ⟨1, rest, rfl, by decide⟩
      · exact ⟨2, rest, rfl, by decide⟩
    · intro place r
      constructor
      · intro h
        cases h with
        | navigation => exact .inl ⟨[], rfl, rfl, _, rfl, rfl⟩
        | handler => exact .inr (.inl ⟨[], rfl, rfl, _, rfl, rfl⟩)
        | action hn => exact .inr (.inr ⟨_, rfl, _, hn, rfl⟩)
      · rintro (⟨rest, rfl, rfl, n, rfl, rfl⟩ | ⟨rest, rfl, rfl, name, rfl, rfl⟩ | ⟨rest, rfl, n, hn, rfl⟩)
        · exact .navigation
        · exact .handler
        · exact .action hn
  | input label binding =>
    refine (Lists.top (Reference.binding binding)).congr fun place r => ?_
    constructor
    · rintro ⟨⟩
      exact ⟨rfl, rfl⟩
    · rintro ⟨rfl, rfl⟩
      exact .input
  | list binding template =>
    refine (Lists.top (Reference.binding binding)).congr fun place r => ?_
    constructor
    · rintro ⟨⟩
      exact ⟨rfl, rfl⟩
    · rintro ⟨rfl, rfl⟩
      exact .list
  | component name props =>
    have none : (propSites name props).filterMap Site.reference? = [] := by
      rw [propSites, List.filterMap_flatMap]
      simp [List.filterMap_cons, Expr.references_sites, Site.reference?]
    rw [ownSites, List.filterMap_cons_none rfl, none]
    exact Lists.nil fun place r h => by cases h
  | _ =>
    rw [ownSites, List.filterMap_cons_none rfl, Expr.references_sitesOf]
    · exact Lists.nil fun place r h => by cases h
    all_goals simp

theorem lists_references (depth : Nat) (n : Node) :
    Lists (fun place r => ∃ above m rest, partAt? children n above = some m ∧ place = above ++ rest ∧
      m.Refers rest r) ((n.sites depth).filterMap Site.reference?) := by
  refine Lists.tree child_smaller (fun depth m => (m.sites depth).filterMap Site.reference?) lists_own ?_
    (fun depth m => ?_) depth n
  · rintro _ _ _ (_ | _ | _ | _ | _)
    · exact .inl rfl
    · exact .inl rfl
    · exact .inr rfl
    · exact .inr rfl
    · exact .inr rfl
  · rw [sites_eq, List.filterMap_append, List.filterMap_flatMap]

end Node

/-- The names that a screen uses, in the order of its sites. -/
theorem Screen.lists_references (s : Screen) :
    Lists s.Refers (s.sites.filterMap Site.reference?) := by
  have bodies := Lists.flatMap s.handlers fun h _ => Action.lists_block 0 1 h.body
  rw [Screen.sites, List.filterMap_append, List.filterMap_flatMap]
  refine ((s.ui.lists_references 1).beside 0 (bodies.below 1) ?_).congr ?_
  · rintro place r ⟨rest, rfl, -⟩
    exact ⟨1, rest, rfl, by decide⟩
  · intro place r
    constructor
    · intro h
      cases h with
      | node hn hr => exact .inl ⟨_, rfl, _, _, _, hn, rfl, hr⟩
      | body hj hn => exact .inr ⟨_, rfl, _, _, _, hj, rfl, _, hn, rfl⟩
    · rintro (⟨_, rfl, place, n, rest, hn, rfl, hr⟩ | ⟨_, rfl, j, h, place, hj, rfl, n, hn, rfl⟩)
      · exact .node hn hr
      · exact .body hj hn

/-! ## Offences -/

namespace Reference

/-- Whether a name is declared that is used in a screen of a program. -/
def Declared (p : Program) (s : Screen) : Reference → Prop
  | target name => name ∈ p.screenNames ∨ name ∈ backTargets
  | binding name => name ∈ s.state.map (·.name)
  | handler name => name ∈ s.handlers.map (·.name)

/-- The error about a name that is used in a screen without being declared. -/
def error (s : Screen) : Reference → ReferenceError
  | target name => ⟨.unknownTarget, name, some s.name⟩
  | binding name => ⟨.unknownBinding, name, some s.name⟩
  | handler name => ⟨.unknownHandler, name, some s.name⟩

instance (p : Program) (s : Screen) : (r : Reference) → Decidable (r.Declared p s)
  | target name => inferInstanceAs (Decidable (name ∈ p.screenNames ∨ name ∈ backTargets))
  | binding name => inferInstanceAs (Decidable (name ∈ s.state.map (·.name)))
  | handler name => inferInstanceAs (Decidable (name ∈ s.handlers.map (·.name)))

end Reference

/-- An error at a place of a program. The start screen stands before the screens, and in a screen its own
name, its state variables and the names that it uses stand in this order. A name is declared a second time
where it stands among the earlier ones. -/
inductive Program.Offends (p : Program) : List Nat → ReferenceError → Prop
  | start (h : p.start ∉ p.screenNames) : p.Offends [0] ⟨.unknownStart, p.start, none⟩
  | screen {i : Nat} {s : Screen} (hs : p.screens[i]? = some s) (h : s.name ∈ p.screenNames.take i) :
    p.Offends [1, i, 0] ⟨.repeatedScreen, s.name, some s.name⟩
  | state {i : Nat} {s : Screen} (hs : p.screens[i]? = some s) {k : Nat} {name : String}
    (hk : (s.state.map (·.name))[k]? = some name) (h : name ∈ (s.state.map (·.name)).take k) :
    p.Offends [1, i, 1, k] ⟨.repeatedState, name, some s.name⟩
  | reference {i : Nat} {s : Screen} (hs : p.screens[i]? = some s) {place : List Nat} {r : Reference}
    (hr : s.Refers place r) (h : ¬ r.Declared p s) : p.Offends (1 :: i :: 2 :: place) (r.error s)

/-- A program in which all names are declared, and declared once. -/
structure Program.Consistent (p : Program) : Prop where
  start : p.start ∈ p.screenNames
  screens : p.screenNames.Nodup
  state : ∀ s ∈ p.screens, (s.state.map (·.name)).Nodup
  targets : ∀ n, p.HasAction (.navigate n) → n.target ∈ p.screenNames ∨ n.target ∈ backTargets
  inputs : ∀ s ∈ p.screens, ∀ label binding, Holds Node.children s.ui (.input label binding) →
    binding ∈ s.state.map (·.name)
  lists : ∀ s ∈ p.screens, ∀ binding template, Holds Node.children s.ui (.list binding template) →
    binding ∈ s.state.map (·.name)
  handlers : ∀ s ∈ p.screens, ∀ label navigation name actions,
    Holds Node.children s.ui (.button label navigation (some name) actions) →
      name ∈ s.handlers.map (·.name)

/-! ### Listing them -/

/-- The repeated names of a list stand at the numbers at which they are found again. -/
theorem repeatedNames_eq (seen names : List String) :
    repeatedNames seen names =
      (names.mapIdx fun k n => if n ∈ seen ∨ n ∈ names.take k then [n] else []).flatten := by
  induction names generalizing seen with
  | nil => rfl
  | cons m names ih =>
    rw [repeatedNames, List.mapIdx_cons, List.flatten_cons]
    simp only [List.take_succ_cons, List.take_zero, List.mem_cons, List.not_mem_nil, or_false,
      List.contains_iff_mem]
    split
    · next hm =>
      have known (n : String) (earlier : List String) :
          n ∈ seen ∨ n ∈ earlier ↔ n ∈ seen ∨ n = m ∨ n ∈ earlier := by
        grind
      simp only [ih, known]
      rfl
    · simp only [ih, List.mem_cons, or_assoc, or_left_comm, List.nil_append]

/-- The errors of some screens are those of each, with the screens before it as those seen. -/
theorem screenErrors_eq (screens seen : List String) (ss : List Screen) :
    screenErrors screens seen ss =
      (ss.mapIdx fun i s =>
        (if s.name ∈ seen ∨ s.name ∈ (ss.map (·.name)).take i then
          [⟨.repeatedScreen, s.name, some s.name⟩] else [])
          ++ s.referenceErrors screens).flatten := by
  induction ss generalizing seen with
  | nil => rfl
  | cons s later ih =>
    rw [screenErrors, ih, List.mapIdx_cons, List.flatten_cons]
    simp only [List.map_cons, List.take_succ_cons, List.take_zero, List.mem_cons, List.not_mem_nil, or_false,
      List.contains_iff_mem, or_assoc, or_left_comm]

/-- The repeated names of a list, each where it is found again. -/
theorem lists_repeatedNames (names : List String) :
    Lists (fun place n => ∃ k, place = [k] ∧ names[k]? = some n ∧ n ∈ names.take k)
      (repeatedNames [] names) := by
  rw [repeatedNames_eq]
  simp only [List.not_mem_nil, false_or]
  refine (Lists.parts names fun k n _ => Lists.topIf (n ∈ names.take k) n).congr fun place n => ?_
  constructor
  · rintro ⟨k, rfl, hk, h⟩
    exact ⟨k, n, [], hk, rfl, rfl, h, rfl⟩
  · rintro ⟨k, _, _, hk, rfl, rfl, h, rfl⟩
    exact ⟨k, rfl, hk, h⟩

theorem Site.referenceError?_eq (p : Program) (s : Screen) (site : Site) :
    site.referenceError? p.screenNames s =
      site.reference?.bind fun r => if r.Declared p s then none else some (r.error s) := by
  unfold Site.referenceError? Site.reference?
  split <;> simp [Reference.Declared, Reference.error]
  congr

/-- The errors inside a screen: those of its state variables, then those of the names that it uses. -/
theorem Screen.lists_errors (p : Program) (s : Screen) :
    Lists (fun place e =>
      (∃ rest, place = 1 :: rest ∧ ∃ name, (∃ k, rest = [k] ∧ (s.state.map (·.name))[k]? = some name ∧
        name ∈ (s.state.map (·.name)).take k) ∧ e = ⟨.repeatedState, name, some s.name⟩) ∨
      ∃ rest, place = 2 :: rest ∧ ∃ r, s.Refers rest r ∧ ¬ r.Declared p s ∧ e = r.error s)
      (s.referenceErrors p.screenNames) := by
  have state := (lists_repeatedNames (s.state.map (·.name))).filterMap
    fun name => some (ReferenceError.mk .repeatedState name (some s.name))
  have uses := s.lists_references.filterMap
    fun r => if r.Declared p s then none else some (r.error s)
  rw [List.filterMap_filterMap] at uses
  rw [List.filterMap_eq_map'] at state
  simp only [← Site.referenceError?_eq] at uses
  refine (state.beside 1 (uses.below 2) ?_).congr fun place e => ?_
  · rintro place e ⟨rest, rfl, -⟩
    exact ⟨2, rest, rfl, by decide⟩
  · simp only [Option.some.injEq, Option.ite_none_left_eq_some, eq_comm (a := e)]

/-- The errors of a program, in program order. -/
theorem Program.lists_offences (p : Program) :
    Lists p.Offends ((if p.start ∈ p.screenNames then [] else [⟨.unknownStart, p.start, none⟩])
      ++ screenErrors p.screenNames [] p.screens) := by
  have start := Lists.topIf (p.start ∉ p.screenNames) (ReferenceError.mk .unknownStart p.start none)
  have screens := Lists.parts p.screens fun i s _ =>
    (Lists.topIf (s.name ∈ p.screenNames.take i)
      (ReferenceError.mk .repeatedScreen s.name (some s.name))).beside 0 (s.lists_errors p) (by
        rintro place e (⟨rest, rfl, -⟩ | ⟨rest, rfl, -⟩)
        · exact ⟨1, rest, rfl, by decide⟩
        · exact ⟨2, rest, rfl, by decide⟩)
  rw [ite_not] at start
  rw [screenErrors_eq]
  simp only [List.not_mem_nil, false_or]
  -- the start stands before the screens; in a screen its name, its state and its references follow each other
  refine (start.beside 0 (screens.below 1) ?_).congr fun place e => ?_
  · rintro place e ⟨rest, rfl, -⟩
    exact ⟨1, rest, rfl, by decide⟩
  constructor
  · intro h
    cases h with
    | start h => exact .inl ⟨[], rfl, rfl, h, rfl⟩
    | screen hs h => exact .inr ⟨_, rfl, _, _, _, hs, rfl, .inl ⟨[], rfl, rfl, h, rfl⟩⟩
    | state hs hk h =>
      exact .inr ⟨_, rfl, _, _, _, hs, rfl, .inr (.inl ⟨_, rfl, _, ⟨_, rfl, hk, h⟩, rfl⟩)⟩
    | reference hs hr h => exact .inr ⟨_, rfl, _, _, _, hs, rfl, .inr (.inr ⟨_, rfl, _, hr, h, rfl⟩)⟩
  · rintro (⟨_, rfl, rfl, h, rfl⟩ | ⟨_, rfl, i, s, _, hs, rfl, ⟨_, rfl, rfl, h, rfl⟩ |
      ⟨_, rfl, name, ⟨k, rfl, hk, h⟩, rfl⟩ | ⟨_, rfl, r, hr, h, rfl⟩⟩)
    · exact .start h
    · exact .screen hs h
    · exact .state hs hk h
    · exact .reference hs hr h

/-! ## No offences -/

/-- Names are distinct exactly if none stands among the earlier ones. -/
theorem nodup_iff_take {names : List String} :
    names.Nodup ↔ ∀ k name, names[k]? = some name → name ∉ names.take k := by
  induction names with
  | nil => simp
  | cons m names ih =>
    rw [List.nodup_cons, ih]
    constructor
    · rintro ⟨new, later⟩ (_ | k) name hk
      · exact List.not_mem_nil
      · rw [List.getElem?_cons_succ] at hk
        rw [List.take_succ_cons, List.mem_cons, not_or]
        exact ⟨fun he => new (he ▸ List.mem_of_getElem? hk), later k name hk⟩
    · intro h
      refine ⟨fun hm => ?_, fun k name hk hm => ?_⟩
      · obtain ⟨k, hk⟩ := List.mem_iff_getElem?.mp hm
        exact h (k + 1) m hk List.mem_cons_self
      · exact h (k + 1) name hk (List.mem_cons_of_mem _ hm)

theorem Action.exists_navigates {block : List Action} {n : Navigation} :
    (∃ place, Navigates block place n) ↔ ∃ b, Holds innerBlocks block b ∧ .navigate n ∈ b := by
  rw [← holds_inner]
  constructor
  · rintro ⟨_, hk, hn⟩
    exact ⟨_, List.mem_of_getElem? hk, _, hn⟩
  · rintro ⟨root, hr, place, hn⟩
    obtain ⟨k, hk⟩ := List.mem_iff_getElem?.mp hr
    exact ⟨k :: place, hk, hn⟩

namespace Program

variable {p : Program}

/-- The targets that the screens use are those of the navigations of the program. -/
theorem exists_refers_target {name : String} :
    (∃ s ∈ p.screens, ∃ place, s.Refers place (.target name)) ↔
      ∃ args, p.HasAction (.navigate ⟨name, args⟩) := by
  constructor
  · rintro ⟨s, hs, place, h⟩
    cases h with
    | node hn hr =>
      cases hr with
      | navigation => exact ⟨_, .navigation ⟨s, hs, _, hn⟩⟩
      | action ha =>
        obtain ⟨block, hb, hm⟩ := Action.exists_navigates.mp ⟨_, ha⟩
        exact ⟨_, .block (.button hs hn) hb hm⟩
    | body hj ha =>
      obtain ⟨block, hb, hm⟩ := Action.exists_navigates.mp ⟨_, ha⟩
      exact ⟨_, .block (.handler hs (List.mem_of_getElem? hj)) hb hm⟩
  · rintro ⟨args, h⟩
    cases h with
    | navigation h =>
      obtain ⟨s, hs, place, hn⟩ := h
      exact ⟨s, hs, _, .node hn .navigation⟩
    | block hb hi ha =>
      obtain ⟨place, hn⟩ := Action.exists_navigates.mpr ⟨_, hi, ha⟩
      cases hb with
      | button hs hp => exact ⟨_, hs, _, .node hp (.action hn)⟩
      | handler hs hh =>
        obtain ⟨j, hj⟩ := List.mem_iff_getElem?.mp hh
        exact ⟨_, hs, _, .body hj hn⟩

/-- A program offends nowhere exactly if it is consistent. -/
theorem consistent_iff : p.Consistent ↔ ∀ place e, ¬ p.Offends place e := by
  constructor
  · intro hc place e h
    -- every offence is of a kind that one of the conditions rules out
    cases h with
    | start h => exact h hc.start
    | screen hs h =>
      exact nodup_iff_take.mp hc.screens _ _ (by rw [screenNames, List.getElem?_map, hs]; rfl) h
    | state hs hk h => exact nodup_iff_take.mp (hc.state _ (List.mem_of_getElem? hs)) _ _ hk h
    | @reference _ s hs place r hr h =>
      have hm := List.mem_of_getElem? hs
      cases r with
      | target name =>
        obtain ⟨args, ha⟩ := exists_refers_target.mp ⟨s, hm, place, hr⟩
        exact h (hc.targets _ ha)
      | binding name =>
        cases hr with
        | node hn own =>
          cases own with
          | input => exact h (hc.inputs s hm _ _ ⟨_, hn⟩)
          | list => exact h (hc.lists s hm _ _ ⟨_, hn⟩)
      | handler name =>
        cases hr with
        | node hn own =>
          cases own
          exact h (hc.handlers s hm _ _ _ _ ⟨_, hn⟩)
  · intro h
    -- what is referred to stands at some place of some screen, and would offend there
    have declared {s : Screen} (hs : s ∈ p.screens) {place : List Nat} {r : Reference}
        (hr : s.Refers place r) : r.Declared p s := by
      obtain ⟨i, hi⟩ := List.mem_iff_getElem?.mp hs
      exact Decidable.not_not.mp fun hd => h _ _ (.reference hi hr hd)
    refine ⟨Decidable.not_not.mp fun hn => h _ _ (.start hn), nodup_iff_take.mpr ?_, ?_, ?_, ?_, ?_, ?_⟩
    · intro i name hi hm
      rw [screenNames, List.getElem?_map, Option.map_eq_some_iff] at hi
      obtain ⟨s, hs, rfl⟩ := hi
      exact h _ _ (.screen hs hm)
    · intro s hs
      obtain ⟨i, hi⟩ := List.mem_iff_getElem?.mp hs
      exact nodup_iff_take.mpr fun k name hk hm => h _ _ (.state hi hk hm)
    · intro n hn
      obtain ⟨s, hs, place, hr⟩ := exists_refers_target.mpr ⟨n.args, hn⟩
      exact declared hs hr
    · rintro s hs label binding ⟨place, hn⟩
      exact declared hs (.node hn .input)
    · rintro s hs binding template ⟨place, hn⟩
      exact declared hs (.node hn .list)
    · rintro s hs label navigation name actions ⟨place, hn⟩
      exact declared hs (.node hn .handler)

/-- The errors of a program list its offences. -/
theorem lists_referenceErrors {errors : List ReferenceError} (h : p.referenceErrors = .ok errors) :
    Lists p.Offends errors := by
  unfold referenceErrors at h
  split at h
  · cases h
  · cases h
    simpa only [List.contains_iff_mem] using p.lists_offences

/-- A program without errors is consistent. -/
theorem consistent_of_referenceErrors (h : p.referenceErrors = .ok []) : p.Consistent :=
  consistent_iff.mpr ((lists_referenceErrors h).eq_nil_iff.mp rfl)

/-- Checking the names of a program is sound and complete: the errors are those of all offences, each once
and in program order, and there are none exactly if the program is consistent. -/
theorem referenceErrors_exact {errors : List ReferenceError} (h : p.referenceErrors = .ok errors) :
    Lists p.Offends errors ∧ (errors = [] ↔ p.Consistent) := by
  have listed := lists_referenceErrors h
  exact ⟨listed, listed.eq_nil_iff.trans consistent_iff.symm⟩

/-- A program whose start screen is missing, with two screens of one name and a state variable that is
declared twice. Its names are wrong in a template, in an `else` block and in a handler. -/
def detour : Program :=
  ⟨"detour", "Start",
    [⟨"Home", [], [⟨"stops", .list []⟩, ⟨"stops", .null⟩],
      .container .column [
        .list "stops" (.input "name" "stop"),
        .button "go" none (some "leave") [
          .branch (.var "late") [.navigate ⟨"Back", []⟩] [.navigate ⟨"Away", []⟩]]],
      [⟨"turn", [.loop "i" "1..3" [.navigate ⟨"Nowhere", []⟩]]⟩]⟩,
    ⟨"Home", [], [], .text .label (.literal (.text "home")), []⟩], [], [], []⟩

/-- The errors of the detour. -/
def detourErrors : List ReferenceError := [
  ⟨.unknownStart, "Start", none⟩,
  ⟨.repeatedState, "stops", some "Home"⟩,
  ⟨.unknownBinding, "stop", some "Home"⟩,
  ⟨.unknownHandler, "leave", some "Home"⟩,
  ⟨.unknownTarget, "Away", some "Home"⟩,
  ⟨.unknownTarget, "Nowhere", some "Home"⟩,
  ⟨.repeatedScreen, "Home", some "Home"⟩]

/-- The detour is checked, offends where its errors say, and is not consistent. -/
theorem referenceErrors_detour :
    detour.referenceErrors = .ok detourErrors ∧ Lists detour.Offends detourErrors ∧
      ¬ detour.Consistent := by
  have found : detour.referenceErrors = .ok detourErrors := by decide +kernel
  obtain ⟨listed, none⟩ := referenceErrors_exact found
  exact ⟨found, listed, fun hc => absurd (none.mpr hc) (List.cons_ne_nil _ _)⟩

end Program

end Screenplay
