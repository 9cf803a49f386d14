/-
The texts that an analysis writes. It writes the text of every action, so it needs room for the expressions in
it: a text takes one place on the call stack for each level that its writing goes down, and a whole number in it
must not have too many digits. What is needed does not depend on the policy.
-/
import Screenplay.Proofs.Report.Judgements
import Screenplay.Proofs.Report.Uses

namespace Screenplay

/-! ## Values -/

namespace Value

mutual

/-- The levels that the writing of a value goes down. -/
def levels : Value → Nat
  | .list items => 1 + levelsOf items
  | .map entries => 1 + levelsOfEntries entries
  | .null | .bool _ | .int _ | .float _ | .text _ => 1

/-- The levels that the writing of some values goes down. -/
def levelsOf : List Value → Nat
  | [] => 0
  | v :: vs => max v.levels (levelsOf vs)

/-- The levels that the writing of some entries goes down. -/
def levelsOfEntries : List (String × Value) → Nat
  | [] => 0
  | (_, v) :: es => max v.levels (levelsOfEntries es)

end

/-- A value in which no whole number has too many digits. -/
def Countable (v : Value) : Prop := ∀ w, Holds members v w → ∀ n, w = .int n → isOversized n = false

/-- A value that can be written in some room. -/
structure Writable (room : Nat) (v : Value) : Prop where
  levels : v.levels ≤ room
  countable : v.Countable

theorem levels_pos (v : Value) : 0 < v.levels := by
  cases v <;> simp only [levels] <;> omega

theorem levelsOf_le {vs : List Value} {room : Nat} : levelsOf vs ≤ room ↔ ∀ v ∈ vs, v.levels ≤ room := by
  induction vs with
  | nil => simp [levelsOf]
  | cons v vs ih => simp [levelsOf, ih]

theorem levelsOfEntries_le {es : List (String × Value)} {room : Nat} :
    levelsOfEntries es ≤ room ↔ ∀ e ∈ es, e.2.levels ≤ room := by
  induction es with
  | nil => simp [levelsOfEntries]
  | cons e es ih => simp [levelsOfEntries, ih]

theorem not_writable_zero (v : Value) : ¬ v.Writable 0 :=
  fun h => absurd h.levels (Nat.not_le_of_lt v.levels_pos)

/-- A value with others inside can be written if they can, one level further down. -/
theorem writable_succ (v : Value) {room inner : Nat} (levels : v.levels = 1 + inner)
    (fits : ∀ n, v = .int n → isOversized n = false) :
    v.Writable (room + 1) ↔ inner ≤ room ∧ ∀ w ∈ v.members, w.Countable := by
  have deep : v.levels ≤ room + 1 ↔ inner ≤ room := by omega
  have counted : v.Countable ↔ ∀ w ∈ v.members, w.Countable := forall_holds.trans (and_iff_right fits)
  rw [← deep, ← counted]
  exact ⟨fun h => ⟨h.levels, h.countable⟩, fun h => ⟨h.1, h.2⟩⟩

theorem forall_writable {room : Nat} {vs : List Value} :
    (∀ v ∈ vs, v.Writable room) ↔ levelsOf vs ≤ room ∧ ∀ v ∈ vs, v.Countable := by
  rw [levelsOf_le]
  exact ⟨fun h => ⟨fun v hv => (h v hv).levels, fun v hv => (h v hv).countable⟩, fun h v hv => ⟨h.1 v hv, h.2 v hv⟩⟩

theorem forall_writable_entries {room : Nat} {es : List (String × Value)} :
    (∀ e ∈ es, e.2.Writable room) ↔ levelsOfEntries es ≤ room ∧ ∀ e ∈ es, e.2.Countable := by
  rw [levelsOfEntries_le]
  exact ⟨fun h => ⟨fun v hv => (h v hv).levels, fun v hv => (h v hv).countable⟩, fun h v hv => ⟨h.1 v hv, h.2 v hv⟩⟩

theorem writable_text (room : Nat) (text : String) : (Value.text text).Writable (room + 1) :=
  (writable_succ (.text text) (by rfl) (by nofun)).mpr ⟨Nat.zero_le _, by simp [members]⟩

mutual

/-- The source form of a value falls short of nothing exactly if it can be written. -/
theorem shortage?_eq_none : ∀ (room : Nat) (v : Value), v.shortage? room = none ↔ v.Writable room
  | 0, v => by
    rw [shortage?]
    exact iff_of_false nofun v.not_writable_zero
  | room + 1, .int n => by
    rw [shortage?, wholeShortage?]
    cases hn : isOversized n with
    | true =>
      refine iff_of_false nofun fun h => ?_
      have fits := h.countable _ (.refl _) n rfl
      rw [hn] at fits
      cases fits
    | false =>
      refine iff_of_true rfl ((writable_succ (.int n) (by rfl) ?_).mpr ⟨Nat.zero_le _, by simp [members]⟩)
      rintro _ ⟨⟩
      exact hn
  | room + 1, .list items => by
    rw [shortage?, itemsShortage?_eq_none room items, forall_writable]
    exact (writable_succ (.list items) (by rfl) (by nofun)).symm
  | room + 1, .map entries => by
    rw [shortage?, entriesShortage?_eq_none room entries, forall_writable_entries]
    refine Iff.trans (and_congr_right fun _ => ?_) (writable_succ (.map entries) (by rfl) (by nofun)).symm
    exact List.forall_mem_map.symm
  | room + 1, .text t => iff_of_true rfl (writable_text room t)
  | room + 1, .null | room + 1, .bool _ | room + 1, .float _ => by
    exact iff_of_true rfl ((writable_succ _ (by rfl) (by nofun)).mpr ⟨Nat.zero_le _, by simp [members]⟩)

theorem itemsShortage?_eq_none (room : Nat) :
    ∀ vs : List Value, itemsShortage? room vs = none ↔ ∀ v ∈ vs, v.Writable room
  | [] => iff_of_true rfl (List.forall_mem_nil _)
  | v :: vs => by
    rw [itemsShortage?, Option.or_eq_none_iff, shortage?_eq_none room v, itemsShortage?_eq_none room vs,
      List.forall_mem_cons]

theorem entriesShortage?_eq_none (room : Nat) :
    ∀ es : List (String × Value), entriesShortage? room es = none ↔ ∀ e ∈ es, e.2.Writable room
  | [] => iff_of_true rfl (List.forall_mem_nil _)
  | (_, v) :: es => by
    rw [entriesShortage?, Option.or_eq_none_iff, shortage?_eq_none room v, entriesShortage?_eq_none room es,
      List.forall_mem_cons]

end

end Value

/-! ## Expressions -/

namespace Expr

mutual

/-- The levels that the writing of an expression goes down. -/
def levels : Expr → Nat
  | .literal value => 1 + value.levels
  | .var _ => 1
  | .field target _ => 1 + target.levels
  | .not operand => 1 + operand.levels
  | .binary _ left right => 1 + max left.levels right.levels
  | .call _ args => 1 + levelsOf args
  | .interpolation parts => 1 + levelsOfPieces parts

/-- The levels that the writing of some expressions goes down. -/
def levelsOf : List Expr → Nat
  | [] => 0
  | e :: es => max e.levels (levelsOf es)

/-- The levels that the writing of the pieces of a text goes down; a literal text stands there as it is. -/
def levelsOfPieces : List Expr → Nat
  | [] => 0
  | .literal (.text _) :: es => levelsOfPieces es
  | e :: es => max e.levels (levelsOfPieces es)

end

/-- An expression in which no whole number has too many digits. -/
def Countable (e : Expr) : Prop := ∀ x, Holds operands e x → ∀ v, x = .literal v → v.Countable

/-- An expression that can be written in some room. -/
structure Writable (room : Nat) (e : Expr) : Prop where
  levels : e.levels ≤ room
  countable : e.Countable

theorem levels_pos (e : Expr) : 0 < e.levels := by
  cases e <;> simp only [levels] <;> omega

theorem not_writable_zero (e : Expr) : ¬ e.Writable 0 :=
  fun h => absurd h.levels (Nat.not_le_of_lt e.levels_pos)

theorem writable_iff {room : Nat} {e : Expr} : e.Writable room ↔ e.levels ≤ room ∧ e.Countable :=
  ⟨fun h => ⟨h.levels, h.countable⟩, fun h => ⟨h.1, h.2⟩⟩

/-- A literal can be written if its value can, one level further down. -/
theorem writable_literal {room : Nat} {v : Value} : (literal v).Writable (room + 1) ↔ v.Writable room := by
  have counted : (literal v).Countable ↔ v.Countable := by
    refine forall_holds.trans ⟨fun h => h.1 v rfl, fun h => ⟨?_, by simp [operands]⟩⟩
    rintro _ ⟨⟩
    exact h
  rw [writable_iff, counted, levels]
  exact ⟨fun h => ⟨by omega, h.2⟩, fun h => ⟨have := h.levels; by omega, h.countable⟩⟩

/-- Any other expression can be written if its operands can, one level further down. -/
theorem writable_succ (e : Expr) {room inner : Nat} (composed : ∀ v, e ≠ literal v) (levels : e.levels = 1 + inner) :
    e.Writable (room + 1) ↔ inner ≤ room ∧ ∀ x ∈ e.operands, x.Countable := by
  have deep : e.levels ≤ room + 1 ↔ inner ≤ room := by omega
  have counted : e.Countable ↔ ∀ x ∈ e.operands, x.Countable :=
    forall_holds.trans (and_iff_right fun v same => absurd same (composed v))
  rw [writable_iff, deep, counted]

mutual

/-- The text form of an expression falls short of nothing exactly if it can be written. -/
theorem shortage?_eq_none : ∀ (room : Nat) (e : Expr), e.shortage? room = none ↔ e.Writable room
  | 0, e => by
    rw [shortage?]
    exact iff_of_false nofun e.not_writable_zero
  | room + 1, .literal v => by rw [shortage?, Value.shortage?_eq_none, writable_literal]
  | room + 1, .var name => by
    exact iff_of_true rfl ((writable_succ (.var name) (by nofun) (by rfl)).mpr ⟨Nat.zero_le _, by simp [operands]⟩)
  | room + 1, .field target name => by
    rw [shortage?, shortage?_eq_none room target, writable_iff]
    refine Iff.trans (and_congr_right fun _ => ?_) (writable_succ (.field target name) (by nofun) (by rfl)).symm
    exact List.forall_mem_singleton.symm
  | room + 1, .not operand => by
    rw [shortage?, shortage?_eq_none room operand, writable_iff]
    refine Iff.trans (and_congr_right fun _ => ?_) (writable_succ (.not operand) (by nofun) (by rfl)).symm
    exact List.forall_mem_singleton.symm
  | room + 1, .binary op left right => by
    rw [shortage?, Option.or_eq_none_iff, shortage?_eq_none room left, shortage?_eq_none room right, writable_iff,
      writable_iff, and_and_and_comm, ← Nat.max_le]
    refine Iff.trans (and_congr_right fun _ => ?_) (writable_succ (.binary op left right) (by nofun) (by rfl)).symm
    simp [operands]
  | room + 1, .call name args => by
    rw [shortage?, shortageOf?_eq_none room args]
    exact (writable_succ (.call name args) (by nofun) (by rfl)).symm
  | room + 1, .interpolation parts => by
    rw [shortage?, piecesShortage?_eq_none room parts]
    exact (writable_succ (.interpolation parts) (by nofun) (by rfl)).symm

theorem shortageOf?_eq_none (room : Nat) :
    ∀ es : List Expr, shortageOf? room es = none ↔ levelsOf es ≤ room ∧ ∀ e ∈ es, e.Countable
  | [] => iff_of_true rfl ⟨Nat.zero_le _, List.forall_mem_nil _⟩
  | e :: es => by
    rw [shortageOf?, Option.or_eq_none_iff, shortage?_eq_none room e, shortageOf?_eq_none room es, writable_iff,
      and_and_and_comm, ← Nat.max_le, List.forall_mem_cons]
    rfl

theorem piecesShortage?_eq_none (room : Nat) :
    ∀ es : List Expr, piecesShortage? room es = none ↔ levelsOfPieces es ≤ room ∧ ∀ e ∈ es, e.Countable
  | [] => iff_of_true rfl ⟨Nat.zero_le _, List.forall_mem_nil _⟩
  | e :: es => by
    rw [List.forall_mem_cons]
    -- a literal text among the pieces is copied and takes no place, so it is told apart first
    by_cases plain : ∃ text, e = .literal (.text text)
    · obtain ⟨text, rfl⟩ := plain
      have countable : (literal (.text text)).Countable := (writable_literal.mpr (Value.writable_text 0 text)).countable
      rw [piecesShortage?, piecesShortage?_eq_none room es, levelsOfPieces, and_iff_right countable]
    · have other : ∀ text, e = .literal (.text text) → False := fun text same => plain ⟨text, same⟩
      rw [piecesShortage?.eq_3 _ _ _ other, Option.or_eq_none_iff, shortage?_eq_none room e,
        piecesShortage?_eq_none room es, writable_iff, and_and_and_comm, ← Nat.max_le, levelsOfPieces.eq_3 _ _ other]

end

/-- Texts that are written one after the other can all be written exactly if each can in its own room. -/
theorem firstShortage?_eq_none {room : Room} {es : List Expr} :
    firstShortage? room es = none ↔ ∀ (i : Nat) (e : Expr), es[i]? = some e → e.Writable (room i) := by
  induction es generalizing room with
  | nil => exact iff_of_true rfl (by simp)
  | cons e es ih =>
    rw [firstShortage?, Option.or_eq_none_iff, shortage?_eq_none, ih]
    constructor
    · rintro ⟨first, later⟩ (_ | i) x hx
      · cases hx
        exact first
      · exact later i x hx
    · intro all
      exact ⟨all 0 e rfl, fun i x hx => all (i + 1) x hx⟩

end Expr

/-! ## Programs -/

/-- The expressions whose texts are written at a site. -/
def Site.worded : Site → List Expr
  | .action a => a.worded
  | _ => []

namespace Program

/-- The expressions whose texts the analysis of a program writes, in order: those in the texts of its actions. -/
def worded (p : Program) : List Expr := (p.screens.flatMap Screen.sites).flatMap Site.worded

/-- There is room for all texts that the analysis of a program writes. -/
def Writable (room : Room) (p : Program) : Prop :=
  ∀ (i : Nat) (e : Expr), p.worded[i]? = some e → e.Writable (room i)

end Program

namespace Finding

/-- A finding that records that a text is written. -/
def isWording : Finding → Bool
  | wording _ => true
  | _ => false

instance : Records isWording := ⟨fun _ => rfl, fun _ => rfl, fun _ => rfl⟩

variable {policy : Policy}

theorem wordings_ofUrl (url : List Char) : (ofUrl policy url).filter isWording = [] := by
  unfold ofUrl
  dsimp only
  split
  · rfl
  · split <;> rfl

theorem wordings_ofImage (source : String) : (ofImage policy source).filter isWording = [] := by
  unfold ofImage
  rw [List.filter_append, List.filter_append, List.filter_append, records_map fun _ => rfl]
  split <;> simp [isWording, wordings_ofUrl]

theorem wordings_ofImport (path : String) : (ofImport policy path).filter isWording = [] := by
  unfold ofImport
  rw [List.filter_append, List.filter_cons_of_neg Bool.false_ne_true, records_ofText]
  split
  · rfl
  · split <;> rfl

theorem wordings_ofSite (site : Site) : (ofSite policy site).filter isWording = site.worded.map wording := by
  cases site with
  | node depth n =>
    cases n with
    | input label binding =>
      simp only [ofSite, ofNode, List.filter_append, records_ofLimit, records_ofString, records_ofStateName,
        List.nil_append]
      split <;> rfl
    | image source => simp [ofSite, ofNode, Site.worded, wordings_ofImage]
    | _ => simp [ofSite, ofNode, Site.worded, isWording]
  | handler | property | block => simp [ofSite, Site.worded]
  | action a =>
    have all : (a.worded.map wording).filter isWording = a.worded.map wording := by
      rw [List.filter_eq_self, List.forall_mem_map]
      exact fun _ _ => rfl
    unfold ofSite ofAction
    rw [List.filter_append, List.filter_append, all]
    cases a <;> simp [Site.worded, isWording]
  | expr depth e =>
    cases e with
    | literal v => cases v <;> simp [ofSite, ofExpr, Site.worded]
    | _ => simp [ofSite, ofExpr, Site.worded, isWording]

/-- The texts that are written are those of the actions, whatever the policy. -/
theorem wordings_all (p : Program) (source : Option String) :
    (Finding.all policy p source).filter isWording = p.worded.map wording := by
  have whole : (ofWhole policy p (ofProgram policy p source)).filter isWording = [] := by
    rw [ofWhole, List.filter_append, records_ofLimit, records_refuseIf, List.nil_append]
  have nothing {α : Type} (items : List α) : (items.flatMap fun _ => []) = ([] : List Finding) :=
    List.flatMap_eq_nil_iff.mpr fun _ _ => rfl
  rw [Finding.all, List.filter_append, whole, List.append_nil,
    records_ofProgram wordings_ofImport wordings_ofSite wordings_ofUrl, nothing, nothing, List.nil_append,
    List.append_nil, Program.worded, List.map_flatMap]

/-- Without a violation among some findings, all their texts are written. -/
theorem shortage?_of_allowed {room : Room} {found : List Finding} (h : Allowed found) {es : List Expr}
    (worded : found.filter isWording = es.map wording) : shortage? room found = Expr.firstShortage? room es := by
  -- one text of the list is used up at each finding that writes one
  induction found generalizing room es with
  | nil =>
    cases List.map_eq_nil_iff.mp worded.symm
    rfl
  | cons f found ih =>
    have later : Allowed found := fun v hv => h v (List.mem_cons_of_mem f hv)
    cases f with
    | violation v => exact absurd h not_allowed_violation
    | wording e =>
      cases es with
      | nil => cases worded
      | cons x es =>
        rw [List.filter_cons_of_pos rfl, List.map_cons] at worded
        obtain ⟨same, rest⟩ := List.cons.inj worded
        cases same
        rw [shortage?, Expr.firstShortage?, ih later rest]
    | _ => exact ih later worded

/-- Whatever falls short, it is one of the texts that the analysis writes. -/
theorem firstShortage?_of_shortage? {room : Room} {found : List Finding} {es : List Expr}
    (worded : found.filter isWording = es.map wording) {shortage : Shortage}
    (h : shortage? room found = some shortage) : Expr.firstShortage? room es = some shortage := by
  induction found generalizing room es with
  | nil => cases h
  | cons f found ih =>
    cases f with
    | violation v => cases h
    | wording e =>
      cases es with
      | nil => cases worded
      | cons x es =>
        rw [List.filter_cons_of_pos rfl, List.map_cons] at worded
        obtain ⟨same, rest⟩ := List.cons.inj worded
        cases same
        rw [shortage?] at h
        rw [Expr.firstShortage?]
        cases he : e.shortage? (room 0) with
        | none => rw [he] at h; exact ih rest h
        | some first => rw [he] at h; exact h
    | _ => exact ih worded h

end Finding

namespace Report

variable {room : Room} {level : Level} {p : Program} {source : Option String}

/-- An analysis comes to a report exactly if it finds no violation and there is room for all texts that it
writes. -/
theorem analyzeIn_eq_ok {report : Report} :
    analyzeIn room level p source = .ok report ↔ analyze level p source = .ok report ∧ p.Writable room := by
  have written : p.Writable room ↔ Expr.firstShortage? room p.worded = none := Expr.firstShortage?_eq_none.symm
  rw [written]
  unfold analyzeIn
  constructor
  · intro h
    split at h
    · cases h
    · next short =>
      split at h
      · next found =>
        cases h
        obtain ⟨places, whole, -⟩ := analyze_eq_ok.mp found
        have all : Finding.shortage? room _ = Expr.firstShortage? room p.worded :=
          Finding.shortage?_of_allowed (Finding.allowed_append.mpr ⟨places, whole⟩) (Finding.wordings_all p source)
        exact ⟨found, all.symm.trans short⟩
      · cases h
  · rintro ⟨found, enough⟩
    obtain ⟨places, whole, -⟩ := analyze_eq_ok.mp found
    have all : Finding.shortage? room (Finding.all (Policy.ofLevel level) p source) = none :=
      (Finding.shortage?_of_allowed (Finding.allowed_append.mpr ⟨places, whole⟩)
        (Finding.wordings_all p source)).trans enough
    rw [all, found]

/-- It ends without one for a violation, or because there is no room for a text. -/
theorem analyzeIn_eq_error {e : Failure} (h : analyzeIn room level p source = .error e) :
    (∃ v, e = .refused v ∧ analyze level p source = .error v) ∨
      ∃ shortage, e = .short shortage ∧ ¬ p.Writable room := by
  have written : p.Writable room ↔ Expr.firstShortage? room p.worded = none := Expr.firstShortage?_eq_none.symm
  -- a text that falls short may come before a violation, so the two reasons are told apart here
  unfold analyzeIn at h
  split at h
  · next shortage short =>
    cases h
    refine .inr ⟨shortage, rfl, fun all => ?_⟩
    have first := Finding.firstShortage?_of_shortage? (Finding.wordings_all p source) short
    rw [written.mp all] at first
    cases first
  · split at h
    · cases h
    · next found =>
      cases h
      exact .inl ⟨_, rfl, found⟩

end Report

end Screenplay
