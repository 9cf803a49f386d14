/-
The texts of what is read. Whatever names, values and lines of code a program has been read with at a level
that refuses hits on the denylist, they are free of it. Types, ranges of loops and right-hand sides as
written are kept without a check, and are not.
-/
import Screenplay.Proofs.Parse.VettedPrograms
import Screenplay.Proofs.Report.Safety

namespace Screenplay

/-! ## Values -/

namespace Value

/-- A text or a name of an entry that is written in a value, at any depth. -/
inductive Writes (v : Value) : String → Prop
  | text {text : String} (h : Holds members v (.text text)) : Writes v text
  | key {map : Value} (h : Holds members v map) {name : String} (hn : name ∈ map.keys) : Writes v name

namespace Admitted

variable {policy : Policy} {depth : Nat} {v : Value}

theorem of_member (h : v.Admitted policy depth) {w : Value} (hw : w ∈ v.members) :
    w.Admitted policy (depth + 1) := by
  cases v with
  | list items =>
    obtain ⟨-, -, inside⟩ := h
    exact inside.of_mem hw
  | map entries =>
    obtain ⟨-, -, inside⟩ := h
    obtain ⟨e, he, rfl⟩ := List.mem_map.mp hw
    exact inside.of_mem he
  | _ => cases hw

/-- Everything in an admitted value is admitted, at its own depth. -/
theorem of_holds (h : v.Admitted policy depth) {w : Value} (hw : Holds members v w) :
    ∃ depth, w.Admitted policy depth := by
  obtain ⟨place, hw⟩ := hw
  induction place generalizing depth v with
  | nil =>
    cases hw
    exact ⟨depth, h⟩
  | cons i place ih =>
    obtain ⟨part, hi, hw⟩ := Option.bind_eq_some_iff.mp hw
    exact ih (h.of_member (List.mem_of_getElem? hi)) hw

theorem key (h : v.Admitted policy depth) {name : String} (hn : name ∈ v.keys) :
    policy.findBlocked name = none := by
  cases v with
  | map entries =>
    obtain ⟨-, -, inside⟩ := h
    obtain ⟨e, he, rfl⟩ := List.mem_map.mp hn
    exact inside.clean_of_mem he
  | _ => cases hn

theorem clean (h : v.Admitted policy depth) {text : String} (ht : v.Writes text) :
    policy.findBlocked text = none := by
  cases ht with
  | text hw =>
    obtain ⟨_, -, -, clean⟩ := h.of_holds hw
    exact clean
  | key hw hn =>
    obtain ⟨_, inside⟩ := h.of_holds hw
    exact inside.key hn

end Admitted

end Value

/-! ## Programs -/

namespace Program

/-- A text of a program that is checked when it is read: an identifier, a literal or a line of code. -/
inductive Checked (p : Program) : String → Prop
  | mention {text : String} (h : p.Mentions text) : p.Checked text
  | start : p.Checked p.start
  | component {name : String} {props : List (String × Expr)} (h : p.HasNode (.component name props)) :
    p.Checked name
  | literal {value : Value} (h : p.HasExpr (.literal value)) {text : String} (ht : value.Writes text) :
    p.Checked text

/-- A text of a program that is kept as it is read: a type, the range of a loop or the right-hand side of an
assignment as written. -/
inductive Unchecked (p : Program) : String → Prop
  | fieldType {m : DataModel} (hm : m ∈ p.models) {f : DataField} (hf : f ∈ m.fields) : p.Unchecked f.typeName
  | paramType {s : Screen} (hs : s ∈ p.screens) {param : Param} (hq : param ∈ s.params) :
    p.Unchecked param.typeName
  | range {name range : String} {body : List Action} (h : p.HasAction (.loop name range body)) :
    p.Unchecked range
  | source {name source : String} {value : Expr} (h : p.HasAction (.update name value source)) :
    p.Unchecked source

variable {policy : Policy} {p : Program}

/-! ### Texts of vetted programs -/

namespace Vetted

variable (h : p.Vetted policy)
include h

theorem node {n : Node} (hn : p.HasNode n) : ∀ c ∈ n.checks, c.Passes policy := by
  obtain ⟨depth, hs⟩ := exists_has_node.mpr hn
  exact h.site hs

theorem action {a : Action} (ha : p.HasAction a) : ∀ c ∈ a.checks, c.Passes policy :=
  h.site (has_action.mpr ha)

theorem expr {e : Expr} (he : p.HasExpr e) : ∀ c ∈ e.checks, c.Passes policy := by
  obtain ⟨depth, hs⟩ := exists_has_expr.mpr he
  exact h.site hs

theorem initial {v : Value} (hv : p.Initial v) : v.Admitted policy 0 := by
  cases hv with
  | field hm hf => exact (h.models _ hm).defaults _ hf
  | app hv => exact (h.state _ hv).value
  | screen hs hv => exact ((h.screens _ hs).state _ hv).value

theorem literal {v : Value} (hv : p.HasExpr (.literal v)) : v.Admitted policy 0 :=
  (Check.passes_value 0 v).mp (h.expr hv)

theorem clean_of_name {name : String} (hn : p.HasName name) : policy.findBlocked name = none := by
  cases hn with
  | field hm hf => exact ((h.models _ hm).names _ hf).clean
  | app hv => exact (h.state _ hv).nameClean
  | screen hs hv => exact ((h.screens _ hs).state _ hv).nameClean
  | param hs hq => exact ((h.screens _ hs).params _ hq).clean
  | key hv hk =>
    obtain ⟨root, hr, hv⟩ := hv
    exact (h.initial hr).clean (.key hv hk)
  | input hn => exact Policy.AdmitsName.clean fun c hc => h.node hn c (List.mem_append_right _ hc)
  | list hn => exact Policy.AdmitsName.clean (h.node hn)
  | update ha => exact Policy.AdmitsName.clean (h.action ha)
  | loop ha => exact Policy.AdmitsName.clean fun c hc => h.action ha c (List.mem_append_left _ hc)
  | var he => exact Check.clean_of_mem (h.expr he) "identifier" List.mem_cons_self

theorem clean_of_shown {text : String} (ht : p.Shows text) : policy.findBlocked text = none := by
  cases ht with
  | value hv =>
    obtain ⟨root, hr, hv⟩ := hv
    exact (h.initial hr).clean (.text hv)
  | literal he => exact (h.literal he).clean (.text (.refl _))
  | button hn => exact Check.clean_of_mem (h.node hn) "button label" (by simp [Node.checks])
  | input hn => exact Check.clean_of_mem (h.node hn) "input label" (by simp [Node.checks, Check.string])

theorem clean_of_mention {text : String} (ht : p.Mentions text) : policy.findBlocked text = none := by
  cases ht with
  | app => exact Check.clean_of_mem h.name "app name" (by simp [Check.appName])
  | imported hm => exact Check.clean_of_mem (h.imports _ hm) "import path" (by simp [Check.string])
  | model hm => exact (h.models _ hm).name
  | screen hs => exact (h.screens _ hs).name
  | handler hs hh => exact (h.screens _ hs).handlers _ hh
  | reference hn =>
    exact Check.clean_of_mem (h.site (has_handler.mpr ⟨_, _, _, hn⟩)) "action reference" List.mem_cons_self
  | property hn he =>
    exact Check.clean_of_mem (h.site (has_property.mpr ⟨_, hn, _, he, rfl⟩)) "component property"
      List.mem_cons_self
  | image hn => exact Check.clean_of_mem (h.node hn) "image source" (by simp [Node.checks])
  | target ha => exact Check.clean_of_mem (h.action ha) "navigation target" (by simp [Action.checks])
  | code ha => exact Check.clean_of_mem (h.action ha) "action code" (by simp [Action.checks, Check.string])
  | name hn => exact h.clean_of_name hn
  | field hn =>
    obtain ⟨target, he⟩ := hn
    exact Check.clean_of_mem (h.expr he) "identifier" List.mem_cons_self
  | text ht => exact h.clean_of_shown ht
  | function hc =>
    cases hc with
    | action ha => exact Check.clean_of_mem (h.action ha) "function call" List.mem_cons_self
    | expr he => exact Check.clean_of_mem (h.expr he) "identifier" List.mem_cons_self

theorem clean {text : String} (ht : p.Checked text) : policy.findBlocked text = none := by
  cases ht with
  | mention hm => exact h.clean_of_mention hm
  | start => exact h.start
  | component hn => exact Check.clean_of_mem (h.node hn) "component name" List.mem_cons_self
  | literal he ht => exact (h.literal he).clean ht

end Vetted

/-! ### Texts of programs that have been read -/

/-- The identifiers, literals and lines of code of a program that has been read at a level that refuses hits
are free of the denylist, case ignored. All its texts are free of it exactly if those are that are kept as
they are read. -/
theorem clears_of_parse {level : Level} (hl : level ≠ .permissive) {source : Source}
    (h : (Program.parse level source).1 = .ok p) :
    (∀ text, p.Checked text → (Policy.ofLevel level).Clears text) ∧
      ((∀ text, p.Checked text ∨ p.Unchecked text → (Policy.ofLevel level).Clears text) ↔
        ∀ text, p.Unchecked text → (Policy.ofLevel level).Clears text) := by
  have vetted := vetted_of_parse h
  -- a level that refuses hits enforces its whole policy
  rw [Policy.enforced_eq_self (Policy.not_lenient hl)] at vetted
  have checked (text : String) (ht : p.Checked text) : (Policy.ofLevel level).Clears text :=
    Policy.findBlocked_eq_none.mp (vetted.clean ht)
  refine ⟨checked, fun all text ht => all text (.inr ht), ?_⟩
  rintro unchecked text (ht | ht)
  · exact checked text ht
  · exact unchecked text ht

/-- A source text with a data model and a screen, whose field and parameter have some type. -/
def typeSource (type : String) : Source :=
  .ofText ("app A \x7b start = H \x7d\ndata D \x7b x: " ++ type ++ " \x7d\nscreen H(a: " ++ type
    ++ ") \x7b \x7d") none

/-- The name of the data model is free of the denylist. -/
theorem clears_typeSource :
    ∃ p, (Program.parse .strict (typeSource "Int")).1 = .ok p ∧
      ∃ m ∈ p.models, m.name = "D" ∧ (Policy.ofLevel .strict).Clears m.name := by
  have hc : (Program.parse .strict (typeSource "Int")).1.toOption.any (fun p =>
      p.models.any (·.name == "D")) = true := by
    decide +kernel
  obtain ⟨p, h, told⟩ := Parse.exists_parsed hc
  obtain ⟨m, hm, name⟩ := List.any_eq_true.mp told
  exact ⟨p, h, m, hm, beq_iff_eq.mp name, (clears_of_parse (by decide) h).1 _ (.mention (.model hm))⟩

/-- Types on the denylist are let through, for a field as for a parameter. -/
theorem not_clears_typeSource :
    ∃ p, (Program.parse .strict (typeSource "eval")).1 = .ok p ∧
      (∃ m ∈ p.models, ∃ f ∈ m.fields, f.typeName = "eval") ∧
      (∃ s ∈ p.screens, ∃ param ∈ s.params, param.typeName = "eval") ∧
      ¬ (Policy.ofLevel .strict).Clears "eval" := by
  have hc : (Program.parse .strict (typeSource "eval")).1.toOption.any (fun p =>
      p.models.any (·.fields.any (·.typeName == "eval"))
        && p.screens.any (·.params.any (·.typeName == "eval"))) = true := by
    decide +kernel
  obtain ⟨p, h, told⟩ := Parse.exists_parsed hc
  simp only [Bool.and_eq_true, List.any_eq_true, beq_iff_eq] at told
  refine ⟨p, h, told.1, told.2, fun clear => ?_⟩
  have denied : (Policy.ofLevel .strict).findBlocked "eval" ≠ none := by decide
  exact denied (Policy.findBlocked_eq_none.mpr clear)

end Program

end Screenplay
