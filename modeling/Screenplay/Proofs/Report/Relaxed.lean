/-
One program analyzed under two policies, of which the second is more relaxed: its ceilings are as high
and it blocks no more. Where the first policy finds no violation, the second one finds none, and both
record the same facts; if its denylist is covered as well, the findings are even the same. There is one
lemma for every judgement, from texts up to whole programs.
-/
import Screenplay.Proofs.Report.Allowed

namespace Screenplay

/-! ## Relaxed policies -/

/-- A policy that refuses nothing that another one lets pass. -/
structure Policy.Relaxes (other policy : Policy) : Prop where
  refuses : policy.lenient = false
  denylist : other.lenient = true ∨ policy.Covers other
  ceilings : ∀ c, policy.ceiling c ≤ other.ceiling c
  uiDepth : policy.maxUiDepth ≤ other.maxUiDepth
  exprDepth : policy.maxExprDepth ≤ other.maxExprDepth
  complexity : policy.maxComplexity ≤ other.maxComplexity
  functions : policy.maxFunctions ≤ other.maxFunctions
  http : other.blocksHttp = true → policy.blocksHttp = true
  imports : other.blocksImports = true → policy.blocksImports = true

theorem Policy.relaxes_strict (level : Level) : (ofLevel level).Relaxes (ofLevel .strict) := by
  have ceilings (c : Ceiling) : (ofLevel .strict).ceiling c ≤ (ofLevel level).ceiling c :=
    Nat.le_of_eq (congrFun (ceiling_ofLevel level .strict) c)
  refine ⟨rfl, .inr (covers_ofLevel level), ceilings, ?_, ?_, ?_, ?_, fun _ => rfl, fun _ => rfl⟩ <;>
    cases level <;> decide

/-- The moderate denylist does not cover the permissive one, which only warns. -/
theorem Policy.permissive_relaxes_moderate :
    (ofLevel .permissive).Relaxes (ofLevel .moderate) := by
  have ceilings (c : Ceiling) : (ofLevel .moderate).ceiling c ≤ (ofLevel .permissive).ceiling c :=
    Nat.le_of_eq (congrFun (ceiling_ofLevel .permissive .moderate) c)
  refine ⟨rfl, .inl rfl, ceilings, ?_, ?_, ?_, ?_, fun h => h, ?_⟩ <;> decide

namespace Finding

/-! ## Judgements -/

/-- A finding that neither refuses nor warns. -/
def isFact : Finding → Bool
  | violation _ | warning _ => false
  | _ => true

/-- The functions called are recorded as facts. -/
theorem calls_filter_isFact (found : List Finding) : calls (found.filter isFact) = calls found := by
  unfold calls
  rw [List.filterMap_filter]
  congr 2
  funext f
  cases f <;> rfl

/-- A judgement that a relaxed policy makes no harder: where the first policy finds no violation, the
other one finds none either and records the same facts, and it finds just the same if its denylist is
covered. -/
def Eases (policy other : Policy) (judge : Policy → List Finding) : Prop :=
  Allowed (judge policy) →
    Allowed (judge other) ∧ (judge other).filter isFact = (judge policy).filter isFact ∧
      (policy.Covers other → judge other = judge policy)

variable {policy other : Policy}

namespace Eases

/-- What does not depend on the policy. -/
theorem const (found : List Finding) : Eases policy other fun _ => found :=
  fun h => ⟨h, rfl, fun _ => rfl⟩

theorem append {judge later : Policy → List Finding} (hj : Eases policy other judge)
    (hl : Eases policy other later) : Eases policy other fun p => judge p ++ later p := by
  intro h
  obtain ⟨h1, h2⟩ := allowed_append.mp h
  obtain ⟨ha, hf, hs⟩ := hj h1
  obtain ⟨ka, kf, ks⟩ := hl h2
  refine ⟨allowed_append.mpr ⟨ha, ka⟩, ?_, fun q => ?_⟩
  · rw [List.filter_append, List.filter_append, hf, kf]
  · show judge other ++ later other = judge policy ++ later policy
    rw [hs q, ks q]

theorem cons (f : Finding) {judge : Policy → List Finding} (h : Eases policy other judge) :
    Eases policy other fun p => f :: judge p :=
  append (const [f]) h

theorem flatMap {α : Type} {judge : α → Policy → List Finding} {items : List α}
    (h : ∀ a, Eases policy other (judge a)) :
    Eases policy other fun p => items.flatMap fun a => judge a p := by
  induction items with
  | nil => exact const []
  | cons a items ih => exact append (h a) ih

/-- A ceiling that the relaxed policy does not lower. -/
theorem limit (entity : String) (current : Nat) {ceiling : Policy → Nat}
    (h : ceiling policy ≤ ceiling other) :
    Eases policy other fun p => ofLimit entity current (ceiling p) := by
  intro ha
  have hp : ¬ ceiling policy < current := by simpa [ofLimit, allowed_refuseIf] using ha
  have ho : ¬ ceiling other < current := fun hc => hp (Nat.lt_of_le_of_lt h hc)
  simp only [ofLimit, refuseIf, hp, ho, decide_false]
  exact ⟨allowed_nil, rfl, fun _ => rfl⟩

/-- Something that is refused or warned about, as a switch of the policy tells. -/
theorem blocked {switch : Policy → Bool} (h : switch other = true → switch policy = true)
    (v : Violation) (text : String) :
    Eases policy other fun p => if switch p then [violation v] else [warning text] := by
  intro ha
  cases hp : switch policy with
  | true => exact absurd ha (by simp [hp, Allowed])
  | false =>
    have ho : switch other = false := by
      cases ho : switch other with
      | true => rw [h ho] at hp; cases hp
      | false => rfl
    refine ⟨?_, ?_, fun _ => ?_⟩ <;> simp [hp, ho, Allowed]

/-- Things that are refused unless the policy is lenient. -/
theorem refused {α : Type} (hp : policy.lenient = false) (items : List α) (v : α → Violation)
    (text : α → String) :
    Eases policy other fun p =>
      items.map fun a => if p.lenient then warning (text a) else violation (v a) := by
  cases items with
  | nil => exact const []
  | cons a items =>
    intro ha
    simp only [List.map_cons, hp, Bool.false_eq_true, if_false] at ha
    exact absurd ha not_allowed_violation

end Eases

/-! ## Texts, names and values -/

section

variable (h : other.Relaxes policy)
include h

theorem eases_ofText (text place : String) :
    Eases policy other fun p => ofText p text place := by
  intro ha
  have hb : policy.findBlocked text = none := (allowed_ofText h.refuses).mp ha
  simp only [ofText, hb]
  cases ho : other.findBlocked text with
  | none => exact ⟨allowed_nil, rfl, fun _ => rfl⟩
  | some pattern =>
    -- a pattern that the first denylist lacks is only warned about
    have hc : ¬ policy.Covers other := fun hc => by rw [hc text hb] at ho; cases ho
    rcases h.denylist with hl | hl
    · rw [hl]
      exact ⟨by simp [Allowed], rfl, fun hc' => absurd hc' hc⟩
    · exact absurd hl hc

theorem eases_ofString (text place : String) :
    Eases policy other fun p => ofString p text place :=
  .append (.append (.limit _ _ (h.ceilings .string)) (.const _)) (eases_ofText h text place)

theorem eases_ofStateName (name : String) : Eases policy other fun p => ofStateName p name :=
  .append (.const _) (eases_ofText h name _)

omit h

mutual

theorem eases_ofValue (h : other.Relaxes policy) (place : String) :
    ∀ v, Eases policy other fun p => ofValue p place v
  | .text text => by simpa only [ofValue] using eases_ofString h text place
  | .list items => by simpa only [ofValue] using eases_ofValues h place items
  | .map entries => by simpa only [ofValue] using eases_ofEntries h place entries
  | .null | .bool _ | .int _ | .float _ => by simpa only [ofValue] using Eases.const []

theorem eases_ofValues (h : other.Relaxes policy) (place : String) :
    ∀ vs, Eases policy other fun p => ofValues p place vs
  | [] => .const []
  | v :: vs => by
    simpa only [ofValues] using Eases.append (eases_ofValue h place v) (eases_ofValues h place vs)

theorem eases_ofEntries (h : other.Relaxes policy) (place : String) :
    ∀ es, Eases policy other fun p => ofEntries p place es
  | [] => .const []
  | (key, v) :: es => by
    simpa only [ofEntries] using
      Eases.append (.append (eases_ofStateName h key) (eases_ofValue h place v))
        (eases_ofEntries h place es)

end

include h

theorem eases_ofStateVar (v : StateVar) : Eases policy other fun p => ofStateVar p v :=
  .append (eases_ofStateName h v.name) (eases_ofValue h _ v.value)

theorem eases_ofImport (path : String) : Eases policy other fun p => ofImport p path := by
  refine .cons _ (.append (eases_ofText h path "import") ?_)
  split
  · exact .const []
  · exact .blocked h.imports _ _

/-! ## Addresses and code -/

theorem eases_ofUrl (url : List Char) : Eases policy other fun p => ofUrl p url := by
  refine .cons _ ?_
  split
  · exact .const []
  · exact .blocked h.http _ _

theorem eases_ofImage (source : String) : Eases policy other fun p => ofImage p source := by
  refine .append (.append (.append (.const _) (eases_ofText h source "image source")) ?_) (.const _)
  split
  · exact eases_ofUrl h _
  · exact .const []

theorem eases_ofCode (code : String) : Eases policy other fun p => ofCode p code :=
  .append (.append (eases_ofText h code "action code") (.refused h.refuses _ _ _)) (.const _)

/-! ## Sites -/

theorem eases_ofNode (depth : Nat) (node : Node) :
    Eases policy other fun p => ofNode p depth node := by
  refine .append (.limit _ _ h.uiDepth) ?_
  cases node with
  | button label => exact eases_ofString h label "button label"
  | image source => exact eases_ofImage h source
  | input label binding =>
    exact .append (.append (eases_ofString h label "input label") (eases_ofStateName h binding))
      (.const _)
  | list binding => exact .append (eases_ofStateName h binding) (.const _)
  | _ => exact .const _

theorem eases_ofAction (action : Action) : Eases policy other fun p => ofAction p action := by
  refine .append (.const _) ?_
  cases action with
  | navigate n => exact .append (eases_ofText h n.target "navigation target") (.const _)
  | update name => exact .append (eases_ofStateName h name) (.const _)
  | call function => exact .append (eases_ofText h function "function call") (.const _)
  | branch => exact .const []
  | loop name => exact eases_ofStateName h name
  | code text => exact eases_ofCode h text

theorem eases_ofExpr (depth : Nat) (e : Expr) : Eases policy other fun p => ofExpr p depth e := by
  refine .append (.limit _ _ h.exprDepth) ?_
  cases e with
  | literal v =>
    cases v with
    | text text => exact eases_ofString h text "string literal"
    | _ => exact .const []
  | var name => exact .append (eases_ofStateName h name) (.const _)
  | field target name => exact .append (.const _) (eases_ofText h name "field access")
  | call name => exact .append (eases_ofText h name "function call") (.const _)
  | _ => exact .const []

theorem eases_ofSite (site : Site) : Eases policy other fun p => ofSite p site := by
  cases site with
  | node depth node => exact eases_ofNode h depth node
  | handler name => exact eases_ofText h name "action reference"
  | property component key => exact eases_ofText h key _
  | block under depth => exact .limit _ _ h.uiDepth
  | action action => exact eases_ofAction h action
  | expr depth e => exact eases_ofExpr h depth e

/-! ## Programs -/

theorem eases_ofModel (m : DataModel) : Eases policy other fun p => ofModel p m :=
  .append (eases_ofText h m.name "data model name")
    (.flatMap fun f => .append (eases_ofStateName h f.name) (eases_ofValue h _ f.default))

theorem eases_ofHandler (handler : Handler) : Eases policy other fun p => ofHandler p handler :=
  .append (eases_ofText h handler.name "action name") (.flatMap (eases_ofSite h))

theorem eases_ofScreen (s : Screen) : Eases policy other fun p => ofScreen p s :=
  .append (.append (.append (.append (.append (eases_ofText h s.name "screen name")
      (.flatMap fun param => eases_ofStateName h param.name))
      (.flatMap (eases_ofStateVar h)))
      (.flatMap (eases_ofSite h)))
      (.limit _ _ (h.ceilings .elements)))
      (.flatMap (eases_ofHandler h))

theorem eases_ofProgram (p : Program) (source : Option String) :
    Eases policy other fun q => ofProgram q p source :=
  .append (.append (.append (.append (.append (.append (.append
      (.limit _ _ (h.ceilings .screens)) (.limit _ _ (h.ceilings .stateVariables)))
      (eases_ofText h p.name "app name"))
      (.flatMap (eases_ofImport h)))
      (.flatMap (eases_ofModel h)))
      (.flatMap (eases_ofStateVar h)))
      (.flatMap (eases_ofScreen h)))
      (.flatMap (eases_ofUrl h))

end

end Finding

/-! ## Reports -/

namespace Report

open Finding

/-- A program that passes the analysis at a level passes it at a relaxed one, with the same report
but for the level if the denylist is covered. -/
theorem analyze_relaxed {level other : Level}
    (h : (Policy.ofLevel other).Relaxes (Policy.ofLevel level)) {p : Program}
    {source : Option String} {report : Report} (hr : analyze level p source = .ok report) :
    ∃ report', analyze other p source = .ok report' ∧
      ((Policy.ofLevel level).Covers (Policy.ofLevel other) →
        report' = { report with level := other }) := by
  obtain ⟨ha, hw, rfl⟩ := analyze_eq_ok.mp hr
  obtain ⟨hb, hf, he⟩ := eases_ofProgram h p source ha
  rw [allowed_ofWhole] at hw
  have hc : Finding.calls (ofProgram (Policy.ofLevel other) p source) =
      Finding.calls (ofProgram (Policy.ofLevel level) p source) := by
    rw [← calls_filter_isFact, hf, calls_filter_isFact]
  refine ⟨_, analyze_eq_ok.mpr ⟨hb, allowed_ofWhole.mpr ⟨?_, ?_⟩, rfl⟩, fun hd => ?_⟩
  · rw [hc]
    exact Nat.le_trans hw.1 h.functions
  · exact Nat.le_trans hw.2 h.complexity
  · have hl : (Policy.ofLevel other).level = other := by cases other <;> rfl
    have hs : ofProgram (Policy.ofLevel other) p source = ofProgram (Policy.ofLevel level) p source :=
      he hd
    rw [hs]
    unfold ofFindings
    rw [hl]

end Report

end Screenplay
