/-
Places in trees. A place is the way from the whole down to a part: the number of a child at every step.
Places are ordered from left to right, a whole before its parts. A listing gives what stands at the places
of a relation in this order, each occurrence once; the listings of the children of a tree make up that of
the tree. The height of a tree is a bound on its places.
-/
import Mathlib.Data.Set.Card
import Screenplay.Total

namespace Screenplay

/-! ## Parts of a whole -/

section

variable {α : Type} (parts : α → List α)

/-- The part of a whole at a place. -/
def partAt? (whole : α) : List Nat → Option α
  | [] => some whole
  | i :: place => (parts whole)[i]?.bind fun part => partAt? part place

/-- A whole holds itself, its parts and everything that they hold. -/
def Holds (whole part : α) : Prop := ∃ place, partAt? parts whole place = some part

variable {parts}

theorem holds_iff {whole x : α} :
    Holds parts whole x ↔ x = whole ∨ ∃ part ∈ parts whole, Holds parts part x := by
  constructor
  · rintro ⟨_ | ⟨i, place⟩, h⟩
    · exact .inl (Option.some.inj h).symm
    · obtain ⟨part, hi, hp⟩ := Option.bind_eq_some_iff.mp h
      exact .inr ⟨part, List.mem_of_getElem? hi, place, hp⟩
  · rintro (rfl | ⟨part, hm, place, hp⟩)
    · exact ⟨[], rfl⟩
    · obtain ⟨i, hi⟩ := List.mem_iff_getElem?.mp hm
      exact ⟨i :: place, Option.bind_eq_some_iff.mpr ⟨part, hi, hp⟩⟩

theorem Holds.refl (whole : α) : Holds parts whole whole := ⟨[], rfl⟩

theorem Holds.of_part {whole part x : α} (hm : part ∈ parts whole) (h : Holds parts part x) :
    Holds parts whole x :=
  holds_iff.mpr (.inr ⟨part, hm, h⟩)

/-- What holds of everything in a whole holds of the whole, and of everything in its parts. -/
theorem forall_holds {P : α → Prop} {whole : α} :
    (∀ x, Holds parts whole x → P x) ↔ P whole ∧ ∀ part ∈ parts whole, ∀ x, Holds parts part x → P x := by
  constructor
  · intro h
    exact ⟨h whole (.refl whole), fun part hm x hx => h x (hx.of_part hm)⟩
  · rintro ⟨here, below⟩ x hx
    rcases holds_iff.mp hx with rfl | ⟨part, hm, hp⟩
    · exact here
    · exact below part hm x hp

section

variable [SizeOf α] (smaller : ∀ {whole part : α}, part ∈ parts whole → sizeOf part < sizeOf whole)
include smaller

/-- What passes from the parts to the whole holds of all trees. -/
theorem forall_of_parts {P : α → Prop} (step : ∀ whole, (∀ part ∈ parts whole, P part) → P whole)
    (whole : α) : P whole :=
  (measure sizeOf).wf.induction whole fun whole ih => step whole fun part hm => ih part (smaller hm)

/-- A walk that goes down into the parts, one level deeper, comes to everything in the whole. -/
theorem mem_walk {γ : Type} (walk here : Nat → α → List γ) {a : γ}
    (down : ∀ {depth whole}, a ∈ walk depth whole ↔
      a ∈ here depth whole ∨ ∃ part ∈ parts whole, a ∈ walk (depth + 1) part)
    {depth : Nat} {whole : α} :
    a ∈ walk depth whole ↔
      ∃ place x, partAt? parts whole place = some x ∧ a ∈ here (depth + place.length) x := by
  constructor
  · intro h
    induction whole using forall_of_parts smaller generalizing depth with
    | step whole ih =>
      rcases down.mp h with h | ⟨part, hm, h⟩
      · exact ⟨[], whole, rfl, h⟩
      · obtain ⟨place, x, hp, hx⟩ := ih part hm h
        obtain ⟨i, hi⟩ := List.mem_iff_getElem?.mp hm
        refine ⟨i :: place, x, Option.bind_eq_some_iff.mpr ⟨part, hi, hp⟩, ?_⟩
        -- the way into the part is one step more, and the walk starts one level deeper there
        rwa [Nat.add_right_comm] at hx
  · rintro ⟨place, x, hp, hx⟩
    induction place generalizing depth whole with
    | nil =>
      cases hp
      exact down.mpr (.inl hx)
    | cons i place ih =>
      obtain ⟨part, hi, hp⟩ := Option.bind_eq_some_iff.mp hp
      refine down.mpr (.inr ⟨part, List.mem_of_getElem? hi, ih hp ?_⟩)
      rwa [Nat.add_right_comm]

end

/-- The height of a tree, as a function that is one more on a whole than on its highest part, is the
length of its longest place, the whole counted. -/
theorem height_le_iff {height : α → Nat} (pos : ∀ x, 0 < height x)
    (step : ∀ {x : α} {k : Nat}, height x ≤ k + 1 ↔ ∀ part ∈ parts x, height part ≤ k) {k : Nat}
    {whole : α} :
    height whole ≤ k ↔ ∀ place x, partAt? parts whole place = some x → place.length < k := by
  induction k generalizing whole with
  | zero =>
    have := pos whole
    refine iff_of_false (by omega) fun h => ?_
    exact absurd (h [] whole rfl) (Nat.lt_irrefl 0)
  | succ k ih =>
    rw [step]
    constructor
    · rintro h (_ | ⟨i, place⟩) x hx
      · exact Nat.succ_pos k
      · obtain ⟨part, hi, hp⟩ := Option.bind_eq_some_iff.mp hx
        exact Nat.succ_lt_succ (ih.mp (h part (List.mem_of_getElem? hi)) place x hp)
    · intro h part hm
      obtain ⟨i, hi⟩ := List.mem_iff_getElem?.mp hm
      refine ih.mpr fun place x hx => ?_
      exact Nat.lt_of_succ_lt_succ (h (i :: place) x (Option.bind_eq_some_iff.mpr ⟨part, hi, hx⟩))

/-- Everything in a tree stands above some depth and has a property exactly if the tree is no higher and
everything in it has the property. -/
theorem height_le_and_holds_iff {height : α → Nat} (pos : ∀ x, 0 < height x)
    (step : ∀ {x : α} {k : Nat}, height x ≤ k + 1 ↔ ∀ part ∈ parts x, height part ≤ k) (k : Nat)
    (P : α → Prop) (whole : α) :
    (∀ place x, partAt? parts whole place = some x → 1 + place.length ≤ k ∧ P x) ↔
      height whole ≤ k ∧ ∀ x, Holds parts whole x → P x := by
  rw [height_le_iff pos step]
  constructor
  · intro h
    refine ⟨fun place x hx => ?_, fun x ⟨place, hx⟩ => (h place x hx).2⟩
    have := (h place x hx).1
    omega
  · rintro ⟨low, all⟩ place x hx
    have := low place x hx
    exact ⟨by omega, all x ⟨place, hx⟩⟩

end

/-! ## Listings -/

/-- A list of what stands at the places of a relation, each occurrence once, in the order of the places:
from left to right, and what stands at a place before what stands below it. -/
def Lists {α : Type} (At : List Nat → α → Prop) (out : List α) : Prop :=
  ∃ found : List (List Nat × α), found.map (·.2) = out ∧ found.Pairwise (·.1 < ·.1) ∧
    ∀ place a, (place, a) ∈ found ↔ At place a

namespace Lists

variable {α β : Type} {At Later : List Nat → α → Prop} {out later : List α}

theorem congr (h : Lists At out) (he : ∀ place a, Later place a ↔ At place a) : Lists Later out := by
  obtain ⟨found, hm, sorted, mem⟩ := h
  exact ⟨found, hm, sorted, fun place a => (mem place a).trans (he place a).symm⟩

/-- A list is empty exactly if nothing stands anywhere. -/
theorem eq_nil_iff (h : Lists At out) : out = [] ↔ ∀ place a, ¬ At place a := by
  obtain ⟨found, rfl, -, mem⟩ := h
  rw [List.map_eq_nil_iff, List.eq_nil_iff_forall_not_mem, Prod.forall]
  exact forall₂_congr fun place a => not_congr (mem place a)

/-- As many things are listed as there are places. -/
theorem encard_places (h : Lists At out) : {place | ∃ a, At place a}.encard = out.length := by
  classical
  obtain ⟨found, rfl, sorted, mem⟩ := h
  have distinct : (found.map (·.1)).Nodup :=
    List.pairwise_map.mpr (sorted.imp fun h he => absurd (he ▸ h) (List.lt_irrefl _))
  have places : {place | ∃ a, At place a} = ((found.map (·.1)).toFinset : Set (List Nat)) := by
    ext place
    simp only [Set.mem_ofPred_eq, List.coe_toFinset, List.mem_map, Prod.exists, exists_and_right,
      exists_eq_right, mem]
  rw [places, Set.encard_coe_eq_coe_finsetCard, List.toFinset_card_of_nodup distinct, List.length_map,
    List.length_map]

/-! ### Making up listings -/

theorem nil (h : ∀ place a, ¬ At place a) : Lists At [] :=
  ⟨[], rfl, .nil, fun place a => iff_of_false List.not_mem_nil (h place a)⟩

/-- A single thing, at the top. -/
theorem top (a : α) : Lists (fun place b => place = [] ∧ b = a) [a] :=
  ⟨[([], a)], rfl, List.pairwise_singleton _ _, by simp⟩

/-- A single thing, at the top, under a condition. -/
theorem topIf (condition : Prop) [Decidable condition] (a : α) :
    Lists (fun place b => place = [] ∧ condition ∧ b = a) (if condition then [a] else []) := by
  split
  · next h => exact (top a).congr (by simp [h])
  · next h => exact nil (by simp [h])

/-- What stands further right or further down is listed later. -/
theorem append (h : Lists At out) (hl : Lists Later later)
    (lt : ∀ place a next b, At place a → Later next b → place < next) :
    Lists (fun place a => At place a ∨ Later place a) (out ++ later) := by
  obtain ⟨found, rfl, sorted, mem⟩ := h
  obtain ⟨next, rfl, nextSorted, nextMem⟩ := hl
  refine ⟨found ++ next, List.map_append, List.pairwise_append.mpr ⟨sorted, nextSorted, ?_⟩, ?_⟩
  · rintro ⟨place, a⟩ ha ⟨other, b⟩ hb
    exact lt place a other b ((mem _ _).mp ha) ((nextMem _ _).mp hb)
  · intro place a
    rw [List.mem_append, mem, nextMem]

/-- What stands in one part of a whole stands below the number of this part. -/
theorem below (i : Nat) (h : Lists At out) :
    Lists (fun place a => ∃ rest, place = i :: rest ∧ At rest a) out := by
  obtain ⟨found, rfl, sorted, mem⟩ := h
  refine ⟨found.map fun e => (i :: e.1, e.2), by simp [Function.comp_def], ?_, ?_⟩
  · exact List.pairwise_map.mpr (sorted.imp fun h => List.Lex.cons h)
  · intro place a
    simp only [List.mem_map, Prod.exists, Prod.mk.injEq, mem]
    constructor
    · rintro ⟨rest, b, hb, rfl, rfl⟩
      exact ⟨rest, rfl, hb⟩
    · rintro ⟨rest, rfl, ha⟩
      exact ⟨rest, a, ha, rfl, rfl⟩

/-- What stands in one part of a whole comes before what stands in parts with greater numbers. -/
theorem beside (i : Nat) (h : Lists At out) (hl : Lists Later later)
    (right : ∀ place a, Later place a → ∃ j rest, place = j :: rest ∧ i < j) :
    Lists (fun place a => (∃ rest, place = i :: rest ∧ At rest a) ∨ Later place a) (out ++ later) := by
  refine (h.below i).append hl ?_
  rintro place a next b ⟨rest, rfl, -⟩ hb
  obtain ⟨j, other, rfl, lt⟩ := right next b hb
  exact List.Lex.rel lt

/-- The parts of a whole from some number on. -/
theorem partsFrom (At : Nat → β → List Nat → α → Prop) (out : Nat → β → List α) (k : Nat)
    (items : List β) (h : ∀ i x, items[i]? = some x → Lists (At (k + i) x) (out (k + i) x)) :
    Lists (fun place a => ∃ i x rest, items[i]? = some x ∧ place = (k + i) :: rest ∧ At (k + i) x rest a)
      (items.mapIdx fun i x => out (k + i) x).flatten := by
  induction items generalizing k with
  | nil => exact nil (by simp)
  | cons x items ih =>
    have first := (h 0 x rfl).below k
    -- seen from the second part on, all numbers are one less
    have others := ih (k + 1) fun i y hy => by
      rw [Nat.add_right_comm]
      exact h (i + 1) y hy
    rw [List.mapIdx_cons, List.flatten_cons]
    simp only [Nat.add_right_comm k 1] at others
    refine (first.append others ?_).congr ?_
    · rintro place a next b ⟨rest, rfl, -⟩ ⟨i, y, rest', -, rfl, -⟩
      exact List.Lex.rel (by omega)
    · intro place a
      constructor
      · rintro ⟨_ | i, y, rest, hy, rfl, ha⟩
        · cases hy
          exact .inl ⟨rest, rfl, ha⟩
        · exact .inr ⟨i, y, rest, hy, rfl, ha⟩
      · rintro (⟨rest, rfl, ha⟩ | ⟨i, y, rest, hy, rfl, ha⟩)
        · exact ⟨0, x, rest, rfl, rfl, ha⟩
        · exact ⟨i + 1, y, rest, hy, rfl, ha⟩

/-- All parts of a whole, in order. -/
theorem parts {At : Nat → β → List Nat → α → Prop} {out : Nat → β → List α} (items : List β)
    (h : ∀ i x, items[i]? = some x → Lists (At i x) (out i x)) :
    Lists (fun place a => ∃ i x rest, items[i]? = some x ∧ place = i :: rest ∧ At i x rest a)
      (items.mapIdx out).flatten := by
  have counted := partsFrom At out 0 items (by simpa only [Nat.zero_add] using h)
  simpa only [Nat.zero_add] using counted

/-- Parts that are listed alike, whatever their number. -/
theorem flatMap {At : β → List Nat → α → Prop} {out : β → List α} (items : List β)
    (h : ∀ x ∈ items, Lists (At x) (out x)) :
    Lists (fun place a => ∃ i x rest, items[i]? = some x ∧ place = i :: rest ∧ At x rest a)
      (items.flatMap out) := by
  have alike : items.mapIdx (fun _ => out) = items.map out :=
    List.mapIdx_eq_iff.mpr fun i => List.getElem?_map
  rw [List.flatMap_def, ← alike]
  exact parts items fun i x hx => h x (List.mem_of_getElem? hx)

/-- What stands in a tree: at every node what it has of its own, then what stands in its parts. A node that
has more than one thing of its own has no parts. -/
theorem tree {parts : β → List β} [SizeOf β]
    (smaller : ∀ {whole part : β}, part ∈ parts whole → sizeOf part < sizeOf whole)
    {Own : β → List Nat → α → Prop} {own : Nat → β → List α} (walk : Nat → β → List α)
    (here : ∀ depth x, Lists (Own x) (own depth x))
    (apart : ∀ {x place a}, Own x place a → place = [] ∨ parts x = [])
    (down : ∀ depth x, walk depth x = own depth x ++ (parts x).flatMap (walk (depth + 1))) (depth : Nat)
    (whole : β) :
    Lists (fun place a => ∃ above x rest, partAt? parts whole above = some x ∧
      place = above ++ rest ∧ Own x rest a) (walk depth whole) := by
  induction whole using forall_of_parts smaller generalizing depth with
  | step whole ih =>
    have inside := flatMap (parts whole) fun part hm => ih part hm (depth + 1)
    rw [down]
    -- what a node has of its own comes first, then what stands in its parts, in their order
    refine ((here depth whole).append inside ?_).congr ?_
    · -- the own things of a node come before those of its parts: there is one, at the top, or no part
      rintro place a next b own ⟨i, part, rest, hi, rfl, -⟩
      rcases apart own with rfl | none
      · exact List.Lex.nil
      · rw [none] at hi
        cases hi
    · intro place a
      constructor
      · rintro ⟨_ | ⟨i, above⟩, x, rest, hx, rfl, own⟩
        · cases hx
          exact .inl own
        · obtain ⟨part, hi, hx⟩ := Option.bind_eq_some_iff.mp hx
          exact .inr ⟨i, part, above ++ rest, hi, rfl, above, x, rest, hx, rfl, own⟩
      · rintro (own | ⟨i, part, _, hi, rfl, above, x, rest, hx, rfl, own⟩)
        · exact ⟨[], whole, place, rfl, rfl, own⟩
        · exact ⟨i :: above, x, rest, Option.bind_eq_some_iff.mpr ⟨part, hi, hx⟩, rfl, own⟩

/-- Everything in a tree, each node before its parts. -/
theorem everything {parts : α → List α} [SizeOf α]
    (smaller : ∀ {whole part : α}, part ∈ parts whole → sizeOf part < sizeOf whole) (walk : Nat → α → List α)
    (down : ∀ depth x, walk depth x = x :: (parts x).flatMap (walk (depth + 1))) (depth : Nat) (whole : α) :
    Lists (fun place x => partAt? parts whole place = some x) (walk depth whole) := by
  have walked := tree smaller walk (fun _ x => top x) (fun own => .inl own.1) down depth whole
  refine walked.congr fun place x => ?_
  constructor
  · intro hx
    exact ⟨place, x, [], hx, (List.append_nil place).symm, rfl, rfl⟩
  · rintro ⟨above, _, _, hx, rfl, rfl, rfl⟩
    rwa [List.append_nil]

/-- What some of the listed things give. -/
theorem filterMap {γ : Type} (f : α → Option γ) (h : Lists At out) :
    Lists (fun place c => ∃ a, At place a ∧ f a = some c) (out.filterMap f) := by
  obtain ⟨found, rfl, sorted, mem⟩ := h
  refine ⟨found.filterMap fun e => (f e.2).map (e.1, ·), ?_, ?_, ?_⟩
  · rw [List.map_filterMap, List.filterMap_map]
    congr 1
    funext e
    exact (Option.map_map _ _ _).trans Option.map_id'
  · refine List.Pairwise.filterMap _ ?_ sorted
    rintro ⟨place, a⟩ ⟨next, b⟩ lt x hx y hy
    obtain ⟨c, -, rfl⟩ := Option.map_eq_some_iff.mp hx
    obtain ⟨d, -, rfl⟩ := Option.map_eq_some_iff.mp hy
    exact lt
  · intro place c
    simp only [List.mem_filterMap, Prod.exists, Option.map_eq_some_iff, Prod.mk.injEq, mem]
    constructor
    · rintro ⟨at', a, ha, d, hd, rfl, rfl⟩
      exact ⟨a, ha, hd⟩
    · rintro ⟨a, ha, hc⟩
      exact ⟨place, a, ha, c, hc, rfl, rfl⟩

/-- The first of the listed things with a property stands at the least place of all of them. -/
theorem find?_eq_some_iff (h : Lists At out) {p : α → Bool} {a : α} :
    out.find? p = some a ↔
      ∃ place, At place a ∧ p a = true ∧ ∀ other < place, ∀ b, At other b → p b = false := by
  obtain ⟨found, rfl, sorted, mem⟩ := h
  constructor
  · intro h
    rw [List.find?_map, Option.map_eq_some_iff] at h
    obtain ⟨⟨place, a⟩, hf, rfl⟩ := h
    obtain ⟨holds, before, after, rfl, none⟩ := List.find?_eq_some_iff_append.mp hf
    refine ⟨place, (mem place a).mp (by simp), holds, fun other lt b hb => ?_⟩
    rcases List.mem_append.mp ((mem other b).mpr hb) with hm | hm
    · exact Bool.not_eq_true' _ ▸ none _ hm
    · -- what is listed from there on does not stand at a lesser place
      rcases List.mem_cons.mp hm with eq | hm
      · cases eq
        exact absurd lt (List.lt_irrefl _)
      · have later := (List.pairwise_cons.mp (List.pairwise_append.mp sorted).2.1).1 _ hm
        exact absurd (List.lt_trans lt later) (List.lt_irrefl _)
  · rintro ⟨place, ha, holds, least⟩
    obtain ⟨before, after, rfl⟩ := List.append_of_mem ((mem place a).mpr ha)
    have none : ∀ e ∈ before, p e.2 = false := by
      rintro ⟨other, b⟩ hm
      have lt : other < place := (List.pairwise_append.mp sorted).2.2 _ hm _ List.mem_cons_self
      exact least other lt b ((mem other b).mp (List.mem_append_left _ hm))
    rw [List.find?_map, List.find?_append, List.find?_eq_none.mpr, Option.none_or, List.find?_cons_of_pos]
    · rfl
    · exact holds
    · intro e hm
      rw [Function.comp_apply, none e hm]
      exact Bool.false_ne_true

end Lists

end Screenplay
