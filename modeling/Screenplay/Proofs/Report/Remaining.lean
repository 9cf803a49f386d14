/-
What the analysis of a vetted program can still find wrong. The guard has judged every name, literal and
piece of code while the program was read, as a whole and with the denylist and the ceilings that the
analysis has, so the analysis meets none of those again in the pieces. What remains are the dangers that
it alone looks for: nesting that a level forbids, too many calls, too much weight, and access to the
host page, which is no part of the denylist.
-/
import Screenplay.Proofs.Parse.VettedPrograms
import Screenplay.Report.Analysis

namespace Screenplay

/-! ## Violations that remain -/

/-- The ceilings that only the analysis has, or has lower than the guard. -/
def analysisLimits : List String :=
  ["UI nesting depth", "action nesting depth", "expression nesting depth", "function calls"]

/-- A violation that may remain in a program after its construction: not a hit on the denylist, host
access in the raw code of an action only, and of the ceilings only those of the analysis. -/
def Violation.Remains (p : Program) : Violation → Prop
  | .denied .. => False
  | .hostAccess pattern code => pattern ∈ hostPatterns ∧ p.Has (.action (.code code))
  | .limit entity .. => entity ∈ analysisLimits
  | _ => True

/-- The number of UI elements is no ceiling of the analysis, whatever the screen: the names of the ceilings
differ in their fourth character. -/
theorem not_mem_analysisLimits (screen : String) :
    s!"UI elements in screen '{screen}'" ∉ analysisLimits := by
  intro limits
  have fourth : (s!"UI elements in screen '{screen}'").toList[3]? = some 'e' := by
    rw [String.toList_append, String.toList_append]
    rfl
  have others : ∀ entity ∈ analysisLimits, entity.toList[3]? ≠ some 'e' := by decide
  exact others _ limits fourth

namespace Finding

/-! ## Lists of findings -/

/-- Whether all violations among some findings have a property. -/
def Within (P : Violation → Prop) (found : List Finding) : Prop := ∀ v, violation v ∈ found → P v

section

variable {P : Violation → Prop}

theorem within_nil : Within P [] := fun _ h => absurd h List.not_mem_nil

theorem within_append {found later : List Finding} :
    Within P (found ++ later) ↔ Within P found ∧ Within P later := by
  simp only [Within, List.mem_append, or_imp, forall_and]

theorem within_cons {f : Finding} {found : List Finding} :
    Within P (f :: found) ↔ (∀ v, f = violation v → P v) ∧ Within P found := by
  simp only [Within, List.mem_cons, or_imp, forall_and, eq_comm]

theorem within_flatMap {α : Type} {judge : α → List Finding} {items : List α}
    (h : ∀ a ∈ items, Within P (judge a)) : Within P (items.flatMap judge) := by
  rintro v hv
  obtain ⟨a, ha, hv⟩ := List.mem_flatMap.mp hv
  exact h a ha v hv

theorem within_map {α : Type} {judge : α → Finding} {items : List α}
    (h : ∀ a ∈ items, ∀ v, judge a = violation v → P v) : Within P (items.map judge) := by
  rintro v hv
  obtain ⟨a, ha, he⟩ := List.mem_map.mp hv
  exact h a ha v he

theorem within_refuseIf {condition : Bool} {v : Violation} (h : condition = true → P v) :
    Within P (refuseIf condition v) := by
  rintro w hw
  cases condition with
  | false => exact absurd hw List.not_mem_nil
  | true =>
    cases List.mem_singleton.mp hw
    exact h rfl

/-- A count within its ceiling is no violation. -/
theorem within_ofLimit {entity : String} {current ceiling : Nat} (h : current ≤ ceiling) :
    Within P (ofLimit entity current ceiling) := by
  refine within_refuseIf fun above => ?_
  have := of_decide_eq_true above
  omega

/-- The violation that ends an analysis is one of the findings. -/
theorem mem_of_firstViolation? {found : List Finding} {v : Violation}
    (h : firstViolation? found = some v) : violation v ∈ found := by
  obtain ⟨f, hf, hv⟩ := List.exists_of_findSome?_eq_some h
  cases f with
  | violation w => cases hv; exact hf
  | _ => cases hv

end

/-! ## Texts, names and values -/

section

variable {policy : Policy} {p : Program}

/-- The ceilings of the analysis may be found to be exceeded. -/
theorem remaining_ofLimit {entity : String} (h : entity ∈ analysisLimits) (current ceiling : Nat) :
    Within (Violation.Remains p) (ofLimit entity current ceiling) :=
  within_refuseIf fun _ => h

theorem ofText_of_clean {text : String} (h : policy.findBlocked text = none) (place : String) :
    ofText policy text place = [] := by
  unfold ofText
  rw [h]

theorem remaining_ofText {text : String} (h : policy.findBlocked text = none) (place : String) :
    Within (Violation.Remains p) (ofText policy text place) := by
  rw [ofText_of_clean h]
  exact within_nil

theorem remaining_ofString {text : String} (hl : text.length ≤ policy.maxString)
    (h : policy.findBlocked text = none) (place : String) :
    Within (Violation.Remains p) (ofString policy text place) := by
  refine within_append.mpr ⟨within_append.mpr ⟨within_ofLimit hl, ?_⟩, remaining_ofText h place⟩
  refine within_map fun pattern _ v hv => ?_
  cases hv
  exact trivial

theorem remaining_ofStateName {name : String} (h : policy.findBlocked name = none) :
    Within (Violation.Remains p) (ofStateName policy name) :=
  within_append.mpr ⟨within_refuseIf fun _ => trivial, remaining_ofText h _⟩

mutual

theorem remaining_ofValue (place : String) {depth : Nat} :
    ∀ v : Value, v.Admitted policy depth → Within (Violation.Remains p) (ofValue policy place v)
  | .text _, h => remaining_ofString h.2.1 h.2.2 place
  | .list items, h => remaining_ofValues place items h.2.2
  | .map entries, h => remaining_ofEntries place entries h.2.2
  | .null, _ | .bool _, _ | .int _, _ | .float _, _ => within_nil

theorem remaining_ofValues (place : String) {depth : Nat} :
    ∀ vs : List Value, Value.AllAdmitted policy depth vs →
      Within (Violation.Remains p) (ofValues policy place vs)
  | [], _ => within_nil
  | v :: vs, ⟨hv, hvs⟩ =>
    within_append.mpr ⟨remaining_ofValue place v hv, remaining_ofValues place vs hvs⟩

theorem remaining_ofEntries (place : String) {depth : Nat} :
    ∀ es : List (String × Value), Value.EntriesAdmitted policy depth es →
      Within (Violation.Remains p) (ofEntries policy place es)
  | [], _ => within_nil
  | (_, v) :: es, ⟨hk, hv, hes⟩ => by
    refine within_append.mpr ⟨within_append.mpr ⟨remaining_ofStateName hk, ?_⟩, ?_⟩
    · exact remaining_ofValue place v hv
    · exact remaining_ofEntries place es hes

end

theorem remaining_ofStateVar {v : StateVar} (h : policy.Admits v.name v.value) :
    Within (Violation.Remains p) (ofStateVar policy v) :=
  within_append.mpr ⟨remaining_ofStateName h.nameClean, remaining_ofValue _ v.value h.value⟩

theorem remaining_ofUrl (url : List Char) : Within (Violation.Remains p) (ofUrl policy url) := by
  refine within_cons.mpr ⟨nofun, ?_⟩
  split
  · exact within_nil
  · split
    · exact within_cons.mpr ⟨by rintro _ ⟨⟩; trivial, within_nil⟩
    · exact within_cons.mpr ⟨nofun, within_nil⟩

theorem remaining_ofImport {path : String} (h : policy.findBlocked path = none) :
    Within (Violation.Remains p) (ofImport policy path) := by
  refine within_append.mpr ⟨within_cons.mpr ⟨nofun, remaining_ofText h _⟩, ?_⟩
  split
  · exact within_nil
  · split
    · exact within_cons.mpr ⟨by rintro _ ⟨⟩; trivial, within_nil⟩
    · exact within_cons.mpr ⟨nofun, within_nil⟩

theorem remaining_ofImage {source : String} (h : policy.findBlocked source = none) :
    Within (Violation.Remains p) (ofImage policy source) := by
  refine within_append.mpr ⟨within_append.mpr ⟨within_append.mpr ⟨?_, remaining_ofText h _⟩, ?_⟩, ?_⟩
  · refine within_map fun scheme _ v hv => ?_
    cases hv
    exact trivial
  · split
    · exact remaining_ofUrl _
    · exact within_nil
  · exact within_cons.mpr ⟨nofun, within_nil⟩

/-! ## Sites -/

/-- Host access may be found in the raw code of the program. -/
theorem remaining_ofCode {code : String} (hc : p.Has (.action (.code code)))
    (h : policy.findBlocked code = none) : Within (Violation.Remains p) (ofCode policy code) := by
  refine within_append.mpr ⟨within_append.mpr ⟨remaining_ofText h _, ?_⟩, ?_⟩
  · refine within_map fun pattern hm v hv => ?_
    split at hv
    · cases hv
    · cases hv
      exact ⟨(List.mem_filter.mp hm).1, hc⟩
  · split
    · exact within_cons.mpr ⟨nofun, within_nil⟩
    · exact within_nil

theorem remaining_ofNode (labels : maxButtonLabel ≤ policy.maxString) {depth : Nat} {node : Node}
    (h : ∀ c ∈ node.checks, c.Passes policy) : Within (Violation.Remains p) (ofNode policy depth node) := by
  refine within_append.mpr ⟨remaining_ofLimit (by decide) _ _, ?_⟩
  cases node with
  | button label =>
    obtain ⟨short, clean⟩ : label.length ≤ maxButtonLabel ∧ policy.findBlocked label = none := by
      simpa [Node.checks] using h
    exact remaining_ofString (Nat.le_trans short labels) clean _
  | image source =>
    exact remaining_ofImage (Check.clean_of_mem h "image source" (by simp [Node.checks]))
  | input label binding =>
    obtain ⟨labelled, bound⟩ := List.forall_mem_append.mp h
    obtain ⟨short, clean⟩ : label.length ≤ policy.maxString ∧ policy.findBlocked label = none := by
      simpa [Check.string, Policy.ceiling] using labelled
    refine within_append.mpr ⟨within_append.mpr ⟨remaining_ofString short clean _, ?_⟩, ?_⟩
    · exact remaining_ofStateName (Policy.AdmitsName.clean bound)
    · refine within_cons.mpr ⟨nofun, ?_⟩
      split
      · exact within_cons.mpr ⟨nofun, within_nil⟩
      · exact within_nil
  | list binding template =>
    refine within_append.mpr ⟨remaining_ofStateName (Policy.AdmitsName.clean h), ?_⟩
    exact within_cons.mpr ⟨nofun, within_nil⟩
  | component name props => exact within_refuseIf fun _ => trivial
  | container | text | conditional => exact within_nil

theorem remaining_ofAction {action : Action} (ha : p.Has (.action action))
    (h : ∀ c ∈ action.checks, c.Passes policy) :
    Within (Violation.Remains p) (ofAction policy action) := by
  refine within_append.mpr ⟨within_append.mpr ⟨?_, within_map (by rintro _ _ _ ⟨⟩)⟩, ?_⟩
  · exact within_map (by rintro _ _ _ ⟨⟩)
  cases action with
  | navigate n =>
    refine within_append.mpr ⟨?_, within_cons.mpr ⟨by rintro _ ⟨⟩, within_nil⟩⟩
    exact remaining_ofText (Check.clean_of_mem h "navigation target" (by simp [Action.checks])) _
  | update name value source =>
    exact within_append.mpr ⟨remaining_ofStateName (Policy.AdmitsName.clean h),
      within_cons.mpr ⟨by rintro _ ⟨⟩, within_nil⟩⟩
  | call function args =>
    refine within_append.mpr ⟨?_, within_cons.mpr ⟨by rintro _ ⟨⟩, within_nil⟩⟩
    exact remaining_ofText (Check.clean_of_mem h "function call" (by simp [Action.checks])) _
  | branch => exact within_nil
  | loop name range body =>
    exact remaining_ofStateName (Policy.AdmitsName.clean (List.forall_mem_append.mp h).1)
  | code text =>
    refine remaining_ofCode ha (Check.clean_of_mem h "action code" ?_)
    simp [Action.checks, Check.string]

theorem remaining_ofExpr {depth : Nat} {e : Expr} (h : ∀ c ∈ e.checks, c.Passes policy) :
    Within (Violation.Remains p) (ofExpr policy depth e) := by
  refine within_append.mpr ⟨remaining_ofLimit (by decide) _ _, ?_⟩
  cases e with
  | literal value =>
    cases value with
    | text t =>
      obtain ⟨-, short, clean⟩ := (Check.passes_value 0 _).mp h
      exact remaining_ofString short clean _
    | _ => exact within_nil
  | var name =>
    exact within_append.mpr ⟨remaining_ofStateName (Check.clean_of_mem h "identifier" List.mem_cons_self),
      within_cons.mpr ⟨nofun, within_nil⟩⟩
  | field target name =>
    exact within_append.mpr ⟨within_refuseIf fun _ => trivial,
      remaining_ofText (Check.clean_of_mem h "identifier" List.mem_cons_self) _⟩
  | call name args =>
    exact within_append.mpr ⟨remaining_ofText (Check.clean_of_mem h "identifier" List.mem_cons_self) _,
      within_cons.mpr ⟨nofun, within_nil⟩⟩
  | not | binary | interpolation => exact within_nil

/-- Only what may remain is found at a vetted site of the program. -/
theorem remaining_ofSite (labels : maxButtonLabel ≤ policy.maxString) {site : Site} (hs : p.Has site)
    (h : site.Vetted policy) : Within (Violation.Remains p) (ofSite policy site) := by
  cases site with
  | node depth n => exact remaining_ofNode labels h
  | handler name => exact remaining_ofText (Check.passes_text.mp (h _ List.mem_cons_self)) _
  | property component key => exact remaining_ofText (Check.passes_text.mp (h _ List.mem_cons_self)) _
  | block under depth => exact remaining_ofLimit (by decide) _ _
  | action a => exact remaining_ofAction hs h
  | expr depth e => exact remaining_ofExpr h

/-! ## Programs -/

theorem remaining_ofModel {m : DataModel} (h : m.Vetted policy) :
    Within (Violation.Remains p) (ofModel policy m) := by
  refine within_append.mpr ⟨remaining_ofText h.name _, within_flatMap fun f hf => ?_⟩
  refine within_append.mpr ⟨remaining_ofStateName (Policy.AdmitsName.clean (h.names f hf)), ?_⟩
  exact remaining_ofValue _ f.default (h.defaults f hf)

theorem remaining_ofScreen (labels : maxButtonLabel ≤ policy.maxString) {s : Screen} (hs : s ∈ p.screens)
    (h : s.Vetted policy) : Within (Violation.Remains p) (ofScreen policy s) := by
  have site {site : Site} (hm : site ∈ s.sites) : Within (Violation.Remains p) (ofSite policy site) :=
    remaining_ofSite labels ⟨s, hs, hm⟩ (h.sites site hm)
  unfold ofScreen
  simp only [within_append]
  refine ⟨⟨⟨⟨⟨remaining_ofText h.name _, ?_⟩, ?_⟩, ?_⟩, within_ofLimit h.size⟩, ?_⟩
  · exact within_flatMap fun param hm => remaining_ofStateName (Policy.AdmitsName.clean (h.params param hm))
  · exact within_flatMap fun v hm => remaining_ofStateVar (h.state v hm)
  · exact within_flatMap fun _ hm => site (List.mem_append_left _ hm)
  · refine within_flatMap fun handler hm => ?_
    refine within_append.mpr ⟨remaining_ofText (h.handlers handler hm) _, within_flatMap fun _ hb => ?_⟩
    exact site (List.mem_append_right _ (List.mem_flatMap.mpr ⟨handler, hm, hb⟩))

theorem remaining_ofProgram (labels : maxButtonLabel ≤ policy.maxString) (h : p.Vetted policy)
    (source : Option String) : Within (Violation.Remains p) (ofProgram policy p source) := by
  unfold ofProgram
  simp only [within_append]
  refine ⟨⟨⟨⟨⟨⟨⟨within_ofLimit h.screenCount, within_ofLimit h.stateCount⟩, ?_⟩, ?_⟩, ?_⟩, ?_⟩, ?_⟩, ?_⟩
  · exact remaining_ofText (Check.clean_of_mem h.name "app name" (by simp [Check.appName])) _
  · refine within_flatMap fun path hm => remaining_ofImport ?_
    exact Check.clean_of_mem (h.imports path hm) "import path" (by simp [Check.string])
  · exact within_flatMap fun m hm => remaining_ofModel (h.models m hm)
  · exact within_flatMap fun v hm => remaining_ofStateVar (h.state v hm)
  · exact within_flatMap fun s hm => remaining_ofScreen labels hm (h.screens s hm)
  · exact within_flatMap fun url _ => remaining_ofUrl url

theorem remaining_ofWhole (found : List Finding) :
    Within (Violation.Remains p) (ofWhole policy p found) :=
  within_append.mpr ⟨remaining_ofLimit (by decide) _ _, within_refuseIf fun _ => trivial⟩

end

end Finding

/-! ## Analyses -/

namespace Report

/-- What an analysis finds wrong in a vetted program is one of the violations that remain. -/
theorem remains_of_vetted {level : Level} {p : Program} (hp : p.Vetted (Policy.ofLevel level))
    {source : Option String} {v : Violation} (h : analyze level p source = .error v) :
    v.Remains p := by
  unfold analyze at h
  dsimp only at h
  split at h
  · next w hw =>
    cases h
    have labels : maxButtonLabel ≤ (Policy.ofLevel level).maxString := by cases level <;> decide
    rcases List.mem_append.mp (Finding.mem_of_firstViolation? hw) with hm | hm
    · exact Finding.remaining_ofProgram labels hp source v hm
    · exact Finding.remaining_ofWhole _ v hm
  · cases h

/-- The construction of a program at a level that refuses hits has done the checks of the denylist and of
the sizes. An analysis at that level, with whatever source text, that ends with a dangerous function ends
with access to the host page in a piece of raw code; and it never ends with the number of screens, of
state variables or of UI elements, or with the length of a text. -/
theorem remains_of_parsed {level : Level} (hl : level ≠ .permissive) {source : Source} {p : Program}
    (hp : (Program.parse level source).1 = .ok p) (text : Option String) {v : Violation}
    (h : analyze level p text = .error v) :
    (v.kind = .dangerousFunction → ∃ pattern code, v = .hostAccess pattern code ∧
      pattern ∈ hostPatterns ∧ p.Has (.action (.code code))) ∧
    ∀ entity current ceiling, v = .limit entity current ceiling →
      entity ≠ "screens" ∧ entity ≠ "state variables" ∧ entity ≠ "string length" ∧
        ∀ name : String, entity ≠ s!"UI elements in screen '{name}'" := by
  have vetted := Program.vetted_of_parse hp
  rw [Policy.enforced_eq_self (Policy.not_lenient hl)] at vetted
  have remains := remains_of_vetted vetted h
  constructor
  · intro hk
    cases v with
    | denied => exact remains.elim
    | hostAccess pattern code => exact ⟨pattern, code, rfl, remains⟩
    | _ => cases hk
  · rintro entity current ceiling rfl
    -- a limit that remains is one that is not checked while a program is read
    have limits : entity ∈ analysisLimits := remains
    refine ⟨?_, ?_, ?_, ?_⟩
    · rintro rfl
      exact absurd limits (by decide)
    · rintro rfl
      exact absurd limits (by decide)
    · rintro rfl
      exact absurd limits (by decide)
    · rintro name rfl
      exact not_mem_analysisLimits name limits

/-- A source text with one screen, whose only button writes to the host page. -/
def hostSource : Source :=
  .ofText ("app A \x7b start = H \x7d\nscreen H \x7b ui \x7b button \"b\" \x7b "
    ++ "document.write(\"x\") y \x7d \x7d \x7d") none

/-- The host page is reached for in raw code, and nothing else is wrong. -/
theorem remains_hostSource :
    ∃ p, (Program.parse .strict hostSource).1 = .ok p ∧
      analyze .strict p none = .error (.hostAccess "document." "document.write(\"x\") y") ∧
      p.Has (.action (.code "document.write(\"x\") y")) := by
  have hc : (Program.parse .strict hostSource).1.toOption.any (fun p =>
      match analyze .strict p none with
      | .error v => v == .hostAccess "document." "document.write(\"x\") y"
      | .ok _ => false) = true := by
    decide +kernel
  cases hp : (Program.parse .strict hostSource).1 with
  | error e => rw [hp] at hc; cases hc
  | ok p =>
    rw [hp] at hc
    cases ha : analyze .strict p none with
    | ok report =>
      rw [Except.toOption, Option.any_some, ha] at hc
      cases hc
    | error v =>
      rw [Except.toOption, Option.any_some, ha] at hc
      cases beq_iff_eq.mp hc
      obtain ⟨pattern, code, he, -, held⟩ := (remains_of_parsed (by decide) hp none ha).1 rfl
      cases he
      exact ⟨p, rfl, ha, held⟩

end Report

end Screenplay
