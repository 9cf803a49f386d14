/-
What an analysis at a level that refuses hits on the denylist lets through: texts and names that are free of
the denylist, values with such texts and names inside, addresses that are encrypted or local, and the nodes,
actions and expressions that are made of them.
-/
import Screenplay.Proofs.Guard.Denylist
import Screenplay.Proofs.Program.Places
import Screenplay.Proofs.Report.Addresses
import Screenplay.Proofs.Report.Allowed

namespace Screenplay

open Screenplay.Text

/-! ## Texts and names -/

namespace Policy

/-- A text without a pattern of the denylist, case ignored. -/
def Clears (policy : Policy) (text : String) : Prop :=
  ∀ pattern ∈ policy.patterns, ¬ pattern.toList <:+: fold text.toList

/-- A text that is not too long, without an attempt to inject a script. -/
structure AllowsText (policy : Policy) (text : String) : Prop where
  length : text.length ≤ policy.maxString
  scripts : ∀ pattern ∈ scriptPatterns, ¬ pattern.toList <:+: fold text.toList
  clear : policy.Clears text

/-- A name of a variable or a field that is not one of the dangerous ones. -/
structure AllowsName (policy : Policy) (name : String) : Prop where
  harmless : name ∉ dangerousNames
  clear : policy.Clears name

end Policy

/-! ## Values -/

namespace Value

/-- The values directly inside a value. -/
def members : Value → List Value
  | list items => items
  | map entries => entries.map (·.2)
  | null | bool _ | int _ | float _ | text _ => []

/-- The names of the entries of a map. -/
def keys : Value → List String
  | map entries => entries.map (·.1)
  | null | bool _ | int _ | float _ | text _ | list _ => []

end Value

/-- A value whose own text and names are allowed. -/
structure Policy.AllowsValue (policy : Policy) (v : Value) : Prop where
  text : ∀ t, v = .text t → policy.AllowsText t
  keys : ∀ name ∈ v.keys, policy.AllowsName name

/-! ## Addresses and names of components -/

/-- An address of the local host: its host, which ends at the next slash or colon, has the name of the local
host, or it starts with the bracketed local address. -/
def Finding.Local (url : List Char) : Prop :=
  "[::1]".toList <+: url.drop plainScheme.length ∨
    ∃ host rest, host ++ rest = url.drop plainScheme.length ∧ (∀ c ∈ host, c ≠ '/' ∧ c ≠ ':') ∧
      (∀ c, rest.head? = some c → c = '/' ∨ c = ':') ∧ String.ofList (fold host) ∈ localHosts

/-- An address that is not fetched without encryption from another host, if the policy cares. -/
def Policy.AllowsUrl (policy : Policy) (url : List Char) : Prop :=
  policy.blocksHttp = true → Finding.plainScheme <+: fold url → Finding.Local url

/-- The name of a component: a capital followed by letters, digits and underscores. One line break may
follow. -/
def Capitalized (name : String) : Prop :=
  ∃ c cs last, name.toList = c :: cs ++ last ∧ c.isUpper = true ∧
    (∀ d ∈ cs, d.isAlphanum = true ∨ d = '_') ∧ (last = [] ∨ last = ['\n'])

/-! ## Nodes, actions and expressions -/

namespace Policy

variable (policy : Policy)

/-- A node whose own texts, names and source are allowed. -/
def AllowsNode : Node → Prop
  | .button label .. => policy.AllowsText label
  | .image source =>
    (∀ scheme ∈ imageSchemes, ¬ scheme.toList <+: fold (trim source.toList)) ∧ policy.Clears source ∧
      policy.AllowsUrl (trim source.toList)
  | .input label binding => policy.AllowsText label ∧ policy.AllowsName binding
  | .list binding _ => policy.AllowsName binding
  | .component name _ => Capitalized name
  | .container .. | .text .. | .conditional .. => True

/-- An action whose own names and code are allowed. -/
def AllowsAction : Action → Prop
  | .navigate n => policy.Clears n.target
  | .update name .. | .loop name .. => policy.AllowsName name
  | .call function _ => policy.Clears function
  | .code text =>
    policy.Clears text ∧ ∀ pattern ∈ hostPatterns, ¬ pattern.toList <:+: fold text.toList
  | .branch .. => True

/-- An expression whose own text or name is allowed. Literals are numbers, texts and truth values. -/
def AllowsExpr : Expr → Prop
  | .literal (.text text) => policy.AllowsText text
  | .var name | .field _ name => policy.AllowsName name
  | .call function _ => policy.Clears function
  | .literal _ | .not _ | .binary .. | .interpolation _ => True

end Policy

namespace Finding

variable {policy : Policy}

theorem allowed_ofLimit {entity : String} {current ceiling : Nat} :
    Allowed (ofLimit entity current ceiling) ↔ current ≤ ceiling := by
  simp [ofLimit, allowed_refuseIf]

theorem allowed_violations {α : Type} {judge : α → Violation} {items : List α} :
    Allowed (items.map fun a => violation (judge a)) ↔ items = [] := by
  cases items with
  | nil => exact iff_of_true allowed_nil rfl
  | cons a items => exact iff_of_false not_allowed_violation (List.cons_ne_nil _ _)

/-- A finding that is no violation is let through. -/
theorem allowed_concat {found : List Finding} {f : Finding} (h : ∀ v, f ≠ violation v) :
    Allowed (found ++ [f]) ↔ Allowed found := by
  rw [allowed_append, and_iff_left]
  exact fun v hv => h v (List.mem_singleton.mp hv).symm

theorem filter_occurs_eq_nil {patterns : List String} {text : List Char} :
    (patterns.filter fun pattern => occurs pattern.toList text) = [] ↔
      ∀ pattern ∈ patterns, ¬ pattern.toList <:+: text := by
  rw [List.filter_eq_nil_iff]
  exact forall₂_congr fun pattern _ => not_congr (occurs_iff _ _)

section

variable (hp : policy.lenient = false)
include hp

theorem allowed_ofText_iff {text place : String} : Allowed (ofText policy text place) ↔ policy.Clears text :=
  (allowed_ofText hp).trans Policy.findBlocked_eq_none

theorem allowed_ofString {text place : String} :
    Allowed (ofString policy text place) ↔ policy.AllowsText text := by
  rw [ofString, allowed_append, allowed_append, allowed_ofLimit, allowed_violations, filter_occurs_eq_nil,
    allowed_ofText_iff hp]
  exact ⟨fun ⟨⟨length, scripts⟩, clear⟩ => ⟨length, scripts, clear⟩,
    fun h => ⟨⟨h.length, h.scripts⟩, h.clear⟩⟩

theorem allowed_ofName {name place : String} {v : Violation} :
    Allowed (refuseIf (dangerousNames.contains name) v ++ ofText policy name place) ↔
      policy.AllowsName name := by
  rw [allowed_append, allowed_refuseIf, allowed_ofText_iff hp]
  exact ⟨fun ⟨harmless, clear⟩ => ⟨by simpa using harmless, clear⟩,
    fun h => ⟨by simpa using h.harmless, h.clear⟩⟩

theorem allowed_ofStateName {name : String} :
    Allowed (ofStateName policy name) ↔ policy.AllowsName name :=
  allowed_ofName hp

end

mutual

theorem allowed_ofValue (hp : policy.lenient = false) {place : String} :
    ∀ v, Allowed (ofValue policy place v) ↔ ∀ w, Holds Value.members v w → policy.AllowsValue w
  | .text text => by
    rw [forall_holds, ofValue, allowed_ofString hp]
    constructor
    · intro h
      refine ⟨⟨fun t ht => ?_, by simp [Value.keys]⟩, by simp [Value.members]⟩
      cases ht
      exact h
    · exact fun h => h.1.text text rfl
  | .list items => by
    rw [forall_holds, ofValue, allowed_ofValues hp items]
    exact ⟨fun h => ⟨⟨nofun, by simp [Value.keys]⟩, h⟩, fun h => h.2⟩
  | .map entries => by
    rw [forall_holds, ofValue, allowed_ofEntries hp entries]
    constructor
    · rintro ⟨names, inside⟩
      exact ⟨⟨nofun, List.forall_mem_map.mpr names⟩, List.forall_mem_map.mpr inside⟩
    · rintro ⟨own, inside⟩
      exact ⟨List.forall_mem_map.mp own.keys, List.forall_mem_map.mp inside⟩
  | .null | .bool _ | .int _ | .float _ => by
    rw [forall_holds]
    exact iff_of_true allowed_nil ⟨⟨nofun, by simp [Value.keys]⟩, by simp [Value.members]⟩

theorem allowed_ofValues (hp : policy.lenient = false) {place : String} :
    ∀ vs, Allowed (ofValues policy place vs) ↔
      ∀ v ∈ vs, ∀ w, Holds Value.members v w → policy.AllowsValue w
  | [] => iff_of_true allowed_nil fun _ h => absurd h List.not_mem_nil
  | v :: vs => by
    rw [ofValues, allowed_append, allowed_ofValue hp v, allowed_ofValues hp vs, List.forall_mem_cons]

theorem allowed_ofEntries (hp : policy.lenient = false) {place : String} :
    ∀ es, Allowed (ofEntries policy place es) ↔
      (∀ e ∈ es, policy.AllowsName e.1) ∧
        ∀ e ∈ es, ∀ w, Holds Value.members e.2 w → policy.AllowsValue w
  | [] =>
    iff_of_true allowed_nil ⟨fun _ h => absurd h List.not_mem_nil, fun _ h => absurd h List.not_mem_nil⟩
  | (key, v) :: es => by
    rw [ofEntries, allowed_append, allowed_append, allowed_ofStateName hp, allowed_ofValue hp v,
      allowed_ofEntries hp es, List.forall_mem_cons, List.forall_mem_cons, and_and_and_comm]

end

/-! ### Addresses and names of components -/

theorem isLocal_iff {url : List Char} : isLocal url = true ↔ Local url := by
  have host (rest : List Char) : (rest.takeWhile (· ≠ '/')).takeWhile (· ≠ ':') =
      rest.takeWhile fun c => decide (c ≠ '/' ∧ c ≠ ':') := by
    simp [List.takeWhile_takeWhile, and_comm]
  have ends (c : Char) : (c = '/' ∨ c = ':') ↔ ¬ (c ≠ '/' ∧ c ≠ ':') := by
    rw [not_and_or, not_not, not_not]
  rw [isLocal]
  simp only [host, Bool.or_eq_true, List.contains_iff_mem, List.isPrefixOf_iff_prefix]
  rw [or_comm]
  refine or_congr_right ⟨fun h => ?_, ?_⟩
  · refine ⟨_, _, List.takeWhile_append_dropWhile, fun c hc => ?_, fun c hc => ?_, h⟩
    · exact of_decide_eq_true (List.mem_takeWhile_imp (p := fun c => decide (c ≠ '/' ∧ c ≠ ':')) hc)
    · exact (ends c).mpr (of_decide_eq_false (ends_dropWhile _ _ c hc))
  · rintro ⟨host, rest, hs, all, stop, h⟩
    rw [← hs, takeWhile_eq_of_ends (fun c hc => decide_eq_true (all c hc)) fun c hc =>
      decide_eq_false ((ends c).mp (stop c hc))]
    exact h

theorem allowed_ofUrl {url : List Char} : Allowed (ofUrl policy url) ↔ policy.AllowsUrl url := by
  have own (f : List Finding) (name : String) : Allowed (resource name :: f) ↔ Allowed f := by
    simp [Allowed]
  unfold ofUrl Policy.AllowsUrl
  rw [own, ← isLocal_iff, ← List.isPrefixOf_iff_prefix]
  cases plainScheme.isPrefixOf (fold url) <;> cases isLocal url <;> cases policy.blocksHttp <;>
    simp [Allowed]

theorem isComponentName_iff {name : String} : isComponentName name = true ↔ Capitalized name := by
  unfold isComponentName Capitalized
  cases name.toList with
  | nil => simp
  | cons c cs =>
    simp only [Bool.and_eq_true, List.contains_iff_mem, List.mem_cons, List.not_mem_nil, or_false]
    constructor
    · rintro ⟨upper, last⟩
      refine ⟨c, _, _, congrArg (c :: ·) List.takeWhile_append_dropWhile.symm, upper, fun d hd => ?_, last⟩
      simpa using List.mem_takeWhile_imp hd
    · rintro ⟨_, part, last, he, upper, all, hl⟩
      rw [List.cons_append] at he
      obtain ⟨rfl, rfl⟩ := List.cons.inj he
      refine ⟨upper, ?_⟩
      rw [List.dropWhile_append_of_pos (p := fun c => c.isAlphanum || c == '_') fun d hd => by
        simpa using all d hd]
      rcases hl with rfl | rfl
      · exact .inl rfl
      · exact .inr (by decide)

/-! ### Nodes, actions and expressions -/

section

variable (hp : policy.lenient = false)
include hp

theorem allowed_ofImage {source : String} :
    Allowed (ofImage policy source) ↔
      (∀ scheme ∈ imageSchemes, ¬ scheme.toList <+: fold (trim source.toList)) ∧ policy.Clears source ∧
        policy.AllowsUrl (trim source.toList) := by
  have schemes :
      (imageSchemes.filter fun scheme => scheme.toList.isPrefixOf (fold (trim source.toList))) = [] ↔
      ∀ scheme ∈ imageSchemes, ¬ scheme.toList <+: fold (trim source.toList) := by
    rw [List.filter_eq_nil_iff]
    exact forall₂_congr fun scheme _ => not_congr List.isPrefixOf_iff_prefix
  have permitted : Allowed [permission "READ_EXTERNAL_STORAGE"] := by simp [Allowed]
  rw [ofImage, allowed_append, allowed_append, allowed_append, allowed_violations, schemes,
    allowed_ofText_iff hp, and_iff_left permitted, and_assoc]
  refine and_congr_right fun _ => and_congr_right fun _ => ?_
  split
  · exact allowed_ofUrl
  · next hn =>
    -- what is no address of either scheme is none without encryption
    refine iff_of_true allowed_nil fun _ plain => absurd (List.isPrefixOf_iff_prefix.mpr plain) ?_
    simp only [Bool.or_eq_true, not_or] at hn
    exact hn.1

theorem allowed_ofCode {text : String} :
    Allowed (ofCode policy text) ↔
      policy.Clears text ∧ ∀ pattern ∈ hostPatterns, ¬ pattern.toList <:+: fold text.toList := by
  have warned (condition : Bool) (w : String) : Allowed (if condition then [warning w] else []) := by
    cases condition <;> simp [Allowed]
  unfold ofCode
  dsimp only
  rw [allowed_append, allowed_append, allowed_ofText_iff hp, and_iff_left (warned _ _), hp]
  refine and_congr_right fun _ => ?_
  exact allowed_violations.trans filter_occurs_eq_nil

theorem allowed_ofImport (hb : policy.blocksImports = true) {path : String} :
    Allowed (ofImport policy path) ↔ policy.Clears path ∧ path ∈ allowedImports := by
  have own (f : List Finding) : Allowed (imported path :: f) ↔ Allowed f := by simp [Allowed]
  rw [ofImport, allowed_append, own, allowed_ofText_iff hp, hb]
  refine and_congr_right fun _ => ?_
  rw [← List.contains_iff_mem]
  split
  · next h => exact iff_of_true allowed_nil h
  · next h => exact iff_of_false not_allowed_violation h

theorem allowed_ofNode {depth : Nat} {n : Node} :
    Allowed (ofNode policy depth n) ↔ depth ≤ policy.maxUiDepth ∧ policy.AllowsNode n := by
  unfold ofNode
  rw [allowed_append, allowed_ofLimit]
  refine and_congr_right fun _ => ?_
  cases n with
  | button label => exact allowed_ofString hp
  | image source => exact allowed_ofImage hp
  | input label binding =>
    have uses : Allowed (access binding ::
        if holdsWord secretWords endsWord false label.toList then [sensitive binding] else []) := by
      split <;> simp [Allowed]
    rw [allowed_append, allowed_append, allowed_ofString hp, allowed_ofStateName hp, and_iff_left uses]
    rfl
  | list binding template => exact (allowed_concat (by simp)).trans (allowed_ofStateName hp)
  | component name props =>
    rw [allowed_refuseIf, Bool.not_eq_false', isComponentName_iff]
    rfl
  | container | text | conditional => exact iff_of_true allowed_nil trivial

theorem allowed_ofAction {a : Action} : Allowed (ofAction policy a) ↔ policy.AllowsAction a := by
  have permitted : Allowed (a.worded.map wording ++ ofActionText a.text) := by
    simp [ofActionText, Allowed]
  unfold ofAction
  rw [allowed_append, and_iff_right permitted]
  cases a with
  | navigate n => exact (allowed_concat (by simp)).trans (allowed_ofText_iff hp)
  | update name => exact (allowed_concat (by simp)).trans (allowed_ofStateName hp)
  | call function => exact (allowed_concat (by simp)).trans (allowed_ofText_iff hp)
  | branch => exact iff_of_true allowed_nil trivial
  | loop name => exact allowed_ofStateName hp
  | code text => exact allowed_ofCode hp

theorem allowed_ofExpr {depth : Nat} {e : Expr} :
    Allowed (ofExpr policy depth e) ↔ depth ≤ policy.maxExprDepth ∧ policy.AllowsExpr e := by
  unfold ofExpr
  rw [allowed_append, allowed_ofLimit]
  refine and_congr_right fun _ => ?_
  cases e with
  | literal v =>
    cases v with
    | text text => exact allowed_ofString hp
    | _ => exact iff_of_true allowed_nil trivial
  | var name => exact (allowed_concat (by simp)).trans (allowed_ofStateName hp)
  | field target name => exact allowed_ofName hp
  | call function => exact (allowed_concat (by simp)).trans (allowed_ofText_iff hp)
  | not | binary | interpolation => exact iff_of_true allowed_nil trivial

end

end Finding

end Screenplay
