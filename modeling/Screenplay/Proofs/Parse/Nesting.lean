/-
The nesting of what is read. The parser counts how deeply its own calls are nested, and refuses to go
below the ceiling. A path of names is read in one call however long it is, and the literal pieces of a
text are read in the call that reads the text, so those two alone may bring an expression below the
ceiling. The check of references counts the blocks of a button below the node itself, one level even for
a button without actions, so it refuses some programs that have been read.
-/
import Screenplay.Proofs.Parse.Expressions
import Screenplay.Proofs.Parse.VettedPrograms

namespace Screenplay

open Parse

/-! ## Expressions -/

namespace Expr

/-- An expression in some levels of nesting, with a path counted as one level however many names it has,
and the literal pieces of a text not counted. -/
inductive Layered : Nat → Expr → Prop
  | literal {levels : Nat} (value : Value) : Layered (levels + 1) (.literal value)
  | path {levels : Nat} (head : String) (fields : List String) :
    Layered (levels + 1) (.ofPath (head :: fields))
  | not {levels : Nat} {operand : Expr} (h : Layered levels operand) : Layered (levels + 1) (.not operand)
  | binary {levels : Nat} (op : Operator) {left right : Expr} (hl : Layered levels left)
    (hr : Layered levels right) : Layered (levels + 1) (.binary op left right)
  | call {levels : Nat} (name : String) {args : List Expr} (h : ∀ arg ∈ args, Layered levels arg) :
    Layered (levels + 1) (.call name args)
  | interpolation {levels : Nat} {parts : List Expr}
    (h : ∀ part ∈ parts, (∀ value, part ≠ .literal value) → Layered levels part) :
    Layered (levels + 1) (.interpolation parts)

/-- The expression of a path has a level for every name. -/
theorem depth_ofPath (head : String) (fields : List String) :
    (ofPath (head :: fields)).depth = (head :: fields).length := by
  have select (fields : List String) : ∀ e : Expr, (fields.foldl field e).depth = e.depth + fields.length := by
    induction fields with
    | nil => exact fun _ => rfl
    | cons name fields ih =>
      intro e
      rw [List.foldl_cons, ih, depth, List.length_cons]
      omega
  rw [ofPath, select, depth, List.length_cons, Nat.add_comm]

namespace Layered

theorem succ {levels : Nat} {e : Expr} (h : Layered levels e) : Layered (levels + 1) e := by
  induction h with
  | literal value => exact .literal value
  | path head fields => exact .path head fields
  | not _ ih => exact .not ih
  | binary op _ _ ihl ihr => exact .binary op ihl ihr
  | call name _ ih => exact .call name ih
  | interpolation _ ih => exact .interpolation ih

theorem mono {levels more : Nat} {e : Expr} (h : Layered levels e) (le : levels ≤ more) : Layered more e := by
  induction le with
  | refl => exact h
  | step _ ih => exact ih.succ

end Layered

/-- The paths of an expression, and the literal pieces of the texts in it, stand within some levels: a path
takes one level for every name. -/
structure Fits (levels : Nat) (e : Expr) : Prop where
  paths : ∀ place names, partAt? operands e place = some (.ofPath names) → place.length + names.length ≤ levels
  pieces : ∀ place parts value, partAt? operands e place = some (.interpolation parts) →
    .literal value ∈ parts → place.length + 2 ≤ levels

theorem depth_lt_of_operand {e operand : Expr} (h : operand ∈ e.operands) : operand.depth < e.depth := by
  obtain ⟨k, hk⟩ := Nat.exists_eq_add_one_of_ne_zero e.depth_pos.ne'
  rw [hk]
  exact Nat.lt_succ_of_le (depth_le_succ.mp hk.le operand h)

theorem length_add_depth_le {e part : Expr} {place : List Nat} (h : partAt? operands e place = some part) :
    place.length + part.depth ≤ e.depth := by
  induction place generalizing e with
  | nil =>
    cases h
    exact (Nat.zero_add _).le
  | cons i place ih =>
    obtain ⟨operand, hi, hp⟩ := Option.bind_eq_some_iff.mp h
    have below := ih hp
    have inside := depth_lt_of_operand (List.mem_of_getElem? hi)
    rw [List.length_cons]
    omega

/-- Whatever stands within some levels fits into them. -/
theorem fits_of_depth {levels : Nat} {e : Expr} (h : e.depth ≤ levels) : e.Fits levels := by
  constructor
  · intro place names hp
    have below := length_add_depth_le hp
    cases names with
    | nil =>
      rw [List.length_nil]
      omega
    | cons head fields =>
      rw [depth_ofPath] at below
      omega
  · intro place parts value hp hv
    have below := length_add_depth_le hp
    have piece : (literal value).depth < (interpolation parts).depth := depth_lt_of_operand hv
    rw [depth] at piece
    omega

theorem Fits.operand {levels : Nat} {e operand : Expr} (h : e.Fits (levels + 1)) (ho : operand ∈ e.operands) :
    operand.Fits levels := by
  obtain ⟨i, hi⟩ := List.mem_iff_getElem?.mp ho
  have down {place : List Nat} {part : Expr} (hp : partAt? operands operand place = some part) :
      partAt? operands e (i :: place) = some part :=
    Option.bind_eq_some_iff.mpr ⟨operand, hi, hp⟩
  constructor
  · intro place names hp
    have := h.paths _ _ (down hp)
    rw [List.length_cons] at this
    omega
  · intro place parts value hp hv
    have := h.pieces _ _ _ (down hp) hv
    rw [List.length_cons] at this
    omega

/-- An expression in some levels of nesting stands within them exactly if its paths and pieces do. -/
theorem Layered.depth_le_iff {levels : Nat} {e : Expr} (h : Layered levels e) :
    e.depth ≤ levels ↔ e.Fits levels := by
  refine ⟨fits_of_depth, fun hf => ?_⟩
  induction h with
  | literal value =>
    rw [depth]
    omega
  | path head fields =>
    rw [depth_ofPath]
    simpa using hf.paths [] _ rfl
  | not _ ih =>
    refine depth_le_succ.mpr (List.forall_mem_singleton.mpr ?_)
    exact ih (hf.operand List.mem_cons_self)
  | binary op _ _ ihl ihr =>
    refine depth_le_succ.mpr (List.forall_mem_cons.mpr ⟨?_, List.forall_mem_singleton.mpr ?_⟩)
    · exact ihl (hf.operand List.mem_cons_self)
    · exact ihr (hf.operand (List.mem_cons_of_mem _ List.mem_cons_self))
  | call name _ ih => exact depth_le_succ.mpr fun arg ha => ih arg ha (hf.operand ha)
  | interpolation _ ih =>
    refine depth_le_succ.mpr fun part hp => ?_
    -- the judgement says nothing of literal pieces, so their depth comes from where they stand
    by_cases hl : ∃ value, part = .literal value
    · obtain ⟨value, rfl⟩ := hl
      have := hf.pieces [] _ value rfl hp
      rw [depth]
      simp only [List.length_nil] at this
      omega
    · exact ih part hp (fun value he => hl ⟨value, he⟩) (hf.operand hp)

/-! ### Reading expressions -/

variable {inner : Parse Expr} {levels : Nat}

section

variable (hi : Gives inner (Layered levels))
include hi

theorem gives_parseEmbedded (origin : Token) (source : List Char) :
    Gives (parseEmbedded inner origin source) (Layered levels) := by
  unfold parseEmbedded
  split
  · exact .throw _
  · refine .skip fun s => .skip fun _ => hi.bind fun e he => .skip fun b => ?_
    split
    · exact .skip fun _ => .pure he
    · exact .skip fun _ => .skip fun _ => .pure he

theorem gives_parseSegments (origin : Token) :
    ∀ segments, Gives (parseSegments inner origin segments) fun parts =>
      ∀ part ∈ parts, (∀ value, part ≠ .literal value) → Layered levels part
  | [] => .pure (List.forall_mem_nil _)
  | .literal _ :: later => (gives_parseSegments origin later).bind fun _ hp =>
    .pure (List.forall_mem_cons.mpr ⟨fun other => absurd rfl (other _), hp⟩)
  | .embedded source :: later => (gives_parseEmbedded hi origin source).bind fun _ he =>
    (gives_parseSegments origin later).bind fun _ hp => .pure (List.forall_mem_cons.mpr ⟨fun _ => he, hp⟩)

theorem gives_parseText (token : Token) : Gives (parseText inner token) (Layered (levels + 1)) := by
  refine .skip fun _ => ?_
  dsimp only
  split
  · exact (gives_parseSegments hi token _).bind fun _ hp => .pure (.interpolation hp)
  · exact .pure (.literal _)

theorem gives_parseOperandWith : Gives (parseOperandWith inner) (Layered (levels + 1)) := by
  -- a path counts as one level, however many names it has
  have named (token : Token) : Gives (do
      check [.text token.value "identifier"]
      if ← atSymbol "(" then return Expr.call token.value (← parseArguments inner)
      return Expr.ofPathText token.value) (Layered (levels + 1)) := by
    refine .skip fun _ => .skip fun b => ?_
    split
    · exact (gives_parseArguments hi).bind fun _ ha => .pure (.call _ ha)
    · refine .pure ?_
      rw [ofPathText]
      cases hn : (Text.cutAt '.' token.value.toList).map String.ofList with
      | nil => exact absurd (List.map_eq_nil_iff.mp hn) (Text.cutAt_ne_nil _ _)
      | cons head fields => exact .path head fields
  have word (token : Token) : Gives (parseWord inner token) (Layered (levels + 1)) := by
    refine .skip fun _ => ?_
    dsimp only
    split
    · exact .pure (.literal _)
    · refine .skip fun number => ?_
      split
      · exact .pure (.literal _)
      · split
        · exact named token
        · exact .skip fun _ => named token
  refine .skip fun token => ?_
  split
  · exact .skip fun _ => gives_parseText hi token
  · exact word token
  · exact .fail _

end

theorem gives_parseWith {operand : Parse Expr} (ho : Gives operand (Layered levels)) :
    Gives (parseWith operand) (Layered (levels + 1)) := by
  refine .skip fun _ => .skip fun _ => ?_
  split
  · exact .skip fun _ => ho.bind fun _ h => .pure (.not h)
  · refine ho.bind fun left hl => .skip fun token => ?_
    split
    · exact .skip fun _ => ho.bind fun right hr => .pure (.binary _ hl hr)
    · exact .pure hl.succ

/-- An operand is read in the levels that the parser has left. -/
theorem gives_parseOperand : ∀ levels, Gives (parseOperand levels) (Layered levels)
  | 0 => .tooDeep
  | 1 => gives_parseOperandWith .tooDeep
  | levels + 2 => gives_parseOperandWith (gives_parseWith (gives_parseOperand levels))

theorem gives_parse (levels : Nat) : Gives (parse levels) (Layered levels) := by
  cases levels with
  | zero => exact .tooDeep
  | succ levels => exact gives_parseWith (gives_parseOperand levels)

end Expr

/-! ## Programs -/

/-- The expression at a site. -/
def Site.expr? : Site → Option Expr
  | .expr _ e => some e
  | _ => none

namespace Program

variable {level : Level} {source : Source} {p : Program}

/-- The expressions of a program, at any depth, in source order. -/
def exprs (p : Program) : List Expr := (p.screens.flatMap Screen.sites).filterMap Site.expr?

theorem mem_exprs {e : Expr} : e ∈ p.exprs ↔ p.HasExpr e := by
  rw [← exists_has_expr, exprs, List.mem_filterMap]
  constructor
  · rintro ⟨site, hm, he⟩
    cases site with
    | expr depth root =>
      cases he
      exact ⟨depth, List.mem_flatMap.mp hm⟩
    | _ => cases he
  · rintro ⟨depth, h⟩
    exact ⟨.expr depth e, List.mem_flatMap.mpr h, rfl⟩

theorem layered_of_parse (h : (Program.parse level source).1 = .ok p) {root : Expr} (hr : p.Evaluates root) :
    root.Layered maxDepth := by
  refine forall_evaluated_of_parse (E := Expr.Layered maxDepth) ?_ ?_ h hr
  · exact fun depth hd => (Expr.gives_parse depth).mono fun _ he => he.mono hd.le
  · exact fun depth hd token => (Expr.gives_parseText (Expr.gives_parse depth) token).mono fun _ he => he.mono hd

/-- The depth of all expressions of a program is that of the expressions that stand by themselves. -/
theorem forall_depth_le_iff {bound : Nat} :
    (∀ e, p.HasExpr e → e.depth ≤ bound) ↔ ∀ root, p.Evaluates root → root.depth ≤ bound := by
  constructor
  · exact fun h root hr => h root ⟨root, hr, .refl root⟩
  · rintro h e ⟨root, hr, place, he⟩
    have below := Expr.length_add_depth_le he
    have top := h root hr
    omega

/-- The expressions of a program that has been read are within the ceiling on their levels, in which a path
counts as one. Their depth is within the ceiling exactly if their paths, with a level for every name, and
the literal pieces of their texts are. -/
theorem nesting_of_parse (h : (Program.parse level source).1 = .ok p) :
    (∀ root, p.Evaluates root → root.Layered maxDepth) ∧
      ((∀ e, p.HasExpr e → e.depth ≤ maxDepth) ↔ ∀ root, p.Evaluates root → root.Fits maxDepth) := by
  refine ⟨fun root => layered_of_parse h, ?_⟩
  rw [forall_depth_le_iff]
  exact forall₂_congr fun root hr => (layered_of_parse h hr).depth_le_iff

/-- A source text with one action, which assigns what stands at the end of a path of some fields. -/
def pathSource (fields : Nat) : Source :=
  ⟨.ofText ("app A \x7b start = H \x7d screen H \x7b action go \x7b x = a".toList
    ++ (List.replicate fields ".a".toList).flatten ++ " \x7d \x7d".toList), none⟩

/-- A path of fifty names fits. -/
theorem nesting_pathSource :
    ∃ p, (Program.parse .strict (pathSource 49)).1 = .ok p ∧ (∃ e, p.HasExpr e ∧ e.depth = maxDepth) ∧
      ∀ root, p.Evaluates root → root.Fits maxDepth := by
  have hc : (Program.parse .strict (pathSource 49)).1.toOption.any (fun p =>
      p.exprs.any (·.depth == maxDepth) && p.exprs.all (·.depth ≤ maxDepth)) = true := by
    decide +kernel
  obtain ⟨p, h, told⟩ := exists_parsed hc
  simp only [Bool.and_eq_true, List.any_eq_true, List.all_eq_true, beq_iff_eq, decide_eq_true_eq, mem_exprs]
    at told
  exact ⟨p, h, told.1, (nesting_of_parse h).2.mp told.2⟩

/-- A path of fifty-one names is read, although its expression is deeper than the ceiling. -/
theorem too_deep_pathSource :
    ∃ p, (Program.parse .strict (pathSource 50)).1 = .ok p ∧ ∃ e, p.HasExpr e ∧ maxDepth < e.depth := by
  have hc : (Program.parse .strict (pathSource 50)).1.toOption.any (fun p =>
      p.exprs.any (maxDepth < ·.depth)) = true := by
    decide +kernel
  obtain ⟨p, h, told⟩ := exists_parsed hc
  simp only [List.any_eq_true, decide_eq_true_eq, mem_exprs] at told
  exact ⟨p, h, told⟩

/-! ### References -/

/-- A program is checked for references exactly if nothing in it adds to a nesting below the ceiling. -/
theorem exists_referenceErrors_iff :
    (∃ errors, p.referenceErrors = .ok errors) ↔ ∀ site, p.Has site → site.nesting ≤ maxDepth := by
  have found : p.nestingViolation? = none ↔ ∀ site, p.Has site → site.nesting ≤ maxDepth := by
    rw [nestingViolation?, Option.map_eq_none_iff, List.find?_eq_none]
    simp only [List.mem_flatMap, decide_eq_true_eq, Nat.not_lt]
    rfl
  rw [← found, referenceErrors]
  cases p.nestingViolation? with
  | none => exact iff_of_true ⟨_, rfl⟩ rfl
  | some violation =>
    refine iff_of_false ?_ (Option.some_ne_none _)
    rintro ⟨_, h⟩
    cases h

/-- The blocks of actions under a node stand above the ceiling exactly if their levels, counted from the
node on, do. -/
theorem block_nesting_le_iff {under : Nat} {actions : List Action} (hu : under ≤ maxDepth) :
    (∀ place block, partAt? Action.innerBlocks actions place = some block →
      under + (1 + place.length) ≤ maxDepth) ↔ under + Action.nestingOf actions ≤ maxDepth := by
  have levels : under + Action.nestingOf actions ≤ maxDepth ↔
      Action.nestingOf actions ≤ maxDepth - under := by
    omega
  rw [levels, height_le_iff Action.nestingOf_pos Action.nestingOf_le_succ]
  refine forall₃_congr fun place block _ => ?_
  omega

/-- The references of a program that has been read are checked exactly if the blocks of its buttons, one at
least for each, stay within the nesting ceiling when they are counted from the button on. -/
theorem referenceErrors_of_parse (h : (Program.parse level source).1 = .ok p) :
    (∃ errors, p.referenceErrors = .ok errors) ↔
      ∀ s ∈ p.screens, ∀ place label navigation handler actions,
        partAt? Node.children s.ui place = some (.button label navigation handler actions) →
          1 + place.length + Action.nestingOf actions ≤ maxDepth := by
  have vetted := vetted_of_parse h
  have node {s : Screen} (hs : s ∈ p.screens) {place : List Nat} {n : Node}
      (hn : partAt? Node.children s.ui place = some n) : 1 + place.length ≤ maxDepth :=
    vetted.depth_le (has_node.mpr ⟨s, hs, place, hn, rfl⟩)
  rw [exists_referenceErrors_iff]
  constructor
  · intro low s hs place label navigation handler actions hb
    refine (block_nesting_le_iff (node hs hb)).mp fun inside block hi => ?_
    exact low _ (has_block.mpr ⟨actions, .button hs hb, inside, block, hi, rfl⟩)
  · intro low site hs
    cases site with
    | node depth n => exact vetted.depth_le hs
    | block under depth =>
      obtain ⟨actions, hb, inside, block, hi, rfl⟩ := has_block.mp hs
      cases hb with
      | button hm hb =>
        exact (block_nesting_le_iff (node hm hb)).mpr (low _ hm _ _ _ _ _ hb) inside block hi
      | handler =>
        -- under a handler the nesting is the depth of the block, which is checked when it is read
        have depth := Action.vetted_block.mp (vetted.site hs)
        rwa [Site.nesting, Nat.zero_add]
    | _ => exact Nat.zero_le _

/-- A source text with a button in some rows, each the only child of the one before. -/
def rowsSource (rows : Nat) : Source :=
  ⟨.ofText ("app A \x7b start = H \x7d screen H \x7b ui \x7b ".toList
    ++ (List.replicate rows "row \x7b".toList).flatten ++ "button \"b\" ".toList
    ++ List.replicate rows '\x7d' ++ "\x7d\x7d".toList), none⟩

/-- The block of a button in forty-eight rows stands right at the ceiling. -/
theorem referenceErrors_rowsSource :
    ∃ p, (Program.parse .strict (rowsSource 48)).1 = .ok p ∧
      (∃ site, p.Has site ∧ site.nesting = maxDepth) ∧
      ∀ s ∈ p.screens, ∀ place label navigation handler actions,
        partAt? Node.children s.ui place = some (.button label navigation handler actions) →
          1 + place.length + Action.nestingOf actions ≤ maxDepth := by
  have hc : (Program.parse .strict (rowsSource 48)).1.toOption.any (fun p =>
      (p.screens.flatMap Screen.sites).any (·.nesting == maxDepth) && p.referenceErrors.isOk) = true := by
    decide +kernel
  obtain ⟨p, h, told⟩ := exists_parsed hc
  simp only [Bool.and_eq_true, List.any_eq_true, beq_iff_eq] at told
  obtain ⟨⟨site, hm, deepest⟩, checked⟩ := told
  have errors : ∃ errors, p.referenceErrors = .ok errors := by
    cases he : p.referenceErrors with
    | error violation => rw [he] at checked; cases checked
    | ok errors => exact ⟨errors, rfl⟩
  exact ⟨p, h, ⟨site, List.mem_flatMap.mp hm, deepest⟩, (referenceErrors_of_parse h).mp errors⟩

/-- In one row more the button has no action either, and is read, but its references are not checked. -/
theorem no_referenceErrors_rowsSource :
    ∃ p, (Program.parse .strict (rowsSource 49)).1 = .ok p ∧
      p.referenceErrors = .error (.limit "nesting depth" (maxDepth + 1) maxDepth) := by
  have hc : (Program.parse .strict (rowsSource 49)).1.toOption.any (fun p =>
      p.nestingViolation? == some (.limit "nesting depth" (maxDepth + 1) maxDepth)) = true := by
    decide +kernel
  obtain ⟨p, h, told⟩ := exists_parsed hc
  exact ⟨p, h, by rw [referenceErrors, beq_iff_eq.mp told]⟩

end Program

end Screenplay
