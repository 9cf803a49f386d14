/-
Exact reports. The sets of a report hold what the program uses and nothing else: the functions that its
actions and expressions call, the targets of its navigations, the variables that it binds, assigns and reads,
and its imports. The UI elements are counted once for each place in the trees of the screens, and no warning
is given twice.
-/
import Screenplay.Proofs.Program.Trees
import Screenplay.Proofs.Report.Allowed
import Screenplay.Proofs.Report.Uses

namespace Screenplay

/-! ## UI elements -/

/-- The node of a UI tree at a site. -/
def Site.node? : Site → Option Node
  | .node _ n => some n
  | _ => none

namespace Node

/-- The one node among the sites of a node that are in none of its children is the node itself. -/
theorem ownSites_nodes (depth : Nat) (n : Node) : (n.ownSites depth).filterMap Site.node? = [n] := by
  obtain ⟨others, own, leaves⟩ : ∃ others, n.ownSites depth = .node depth n :: others ∧
      ∀ d m, Site.node d m ∉ others := by
    cases n <;>
      exact ⟨_, rfl, by
        simp [Expr.sitesOf, propSites, Navigation.sites, Action.blockSites, not_mem_exprSites,
          not_mem_actionSitesOf]⟩
  have none : others.filterMap Site.node? = [] := by
    rw [List.filterMap_eq_nil_iff]
    intro site hs
    cases site with
    | node d m => exact absurd hs (leaves d m)
    | _ => rfl
  rw [own, List.filterMap_cons, none]
  rfl

/-- The nodes of a tree, in the order of their places. -/
theorem lists_nodes (depth : Nat) (n : Node) :
    Lists (fun place m => partAt? children n place = some m) ((n.sites depth).filterMap Site.node?) := by
  refine Lists.everything child_smaller (fun depth m => (m.sites depth).filterMap Site.node?) ?_ depth n
  intro depth m
  rw [sites_eq, List.filterMap_append, ownSites_nodes, List.filterMap_flatMap, List.singleton_append]

/-- A tree has as many nodes as its size says. -/
theorem length_nodes (depth : Nat) (n : Node) : ((n.sites depth).filterMap Site.node?).length = n.size := by
  induction n using forall_of_parts child_smaller generalizing depth with
  | step n ih =>
    rw [sites_eq, List.filterMap_append, ownSites_nodes, List.filterMap_flatMap, List.length_append, size_eq,
      length_flatMap fun child hm => ih child hm (depth + 1)]
    rfl

end Node

namespace Program

/-- The node of a program at a place: the number of the screen, then the place in its tree. -/
def nodeAt? (p : Program) : List Nat → Option Node
  | [] => none
  | i :: place => p.screens[i]?.bind fun s => partAt? Node.children s.ui place

/-- There are as many places with a node as the sizes of the trees make up. -/
theorem encard_nodeAt? (p : Program) :
    {place | ∃ n, p.nodeAt? place = some n}.encard = total (p.screens.map (·.ui.size)) := by
  have nodes := Lists.flatMap p.screens fun s _ => Node.lists_nodes 1 s.ui
  rw [← length_flatMap fun s _ => Node.length_nodes 1 s.ui, ← nodes.encard_places]
  congr
  ext place
  refine exists_congr fun n => ?_
  cases place with
  | nil => simp [nodeAt?]
  | cons i place => simp [nodeAt?, Option.bind_eq_some_iff]

end Program

/-! ## Reports -/

/-- No warning stands twice among those collected. -/
theorem Finding.nodup_warnings (found : List Finding) : (warnings found).Nodup := by
  -- what follows the first text is filtered before it is looked at, so the induction is on a bound
  -- of the length
  have distinct (n : Nat) (texts : List String) (h : texts.length ≤ n) : texts.eraseDups.Nodup := by
    induction n generalizing texts with
    | zero =>
      rw [List.length_eq_zero_iff.mp (Nat.le_zero.mp h), List.eraseDups_nil]
      exact .nil
    | succ n ih =>
      cases texts with
      | nil => exact .nil
      | cons text texts =>
        rw [List.eraseDups_cons, List.nodup_cons, List.mem_eraseDups, List.mem_filter]
        refine ⟨by simp, ih _ ?_⟩
        exact Nat.le_trans (List.length_filter_le _ _) (Nat.le_of_succ_le_succ h)
  exact distinct _ _ (Nat.le_refl _)

namespace Report

/-- A report whose sets are exactly those of a program. -/
structure Exact (report : Report) (p : Program) : Prop where
  calls : ∀ function, function ∈ report.calls ↔ p.Calls function
  targets : ∀ target, target ∈ report.targets ↔ ∃ args, p.HasAction (.navigate ⟨target, args⟩)
  accessed : ∀ name, name ∈ report.accessed ↔
    (∃ label, p.HasNode (.input label name)) ∨ (∃ template, p.HasNode (.list name template)) ∨
      (∃ value source, p.HasAction (.update name value source)) ∨ p.HasExpr (.var name)
  imports : ∀ path, path ∈ report.imports ↔ path ∈ p.imports
  elements : {place | ∃ n, p.nodeAt? place = some n}.encard = report.elements
  warnings : report.warnings.Nodup

open Finding in
/-- The sets of the report on a program are exact, whatever the level and the source text. -/
theorem exact_of_analyzed {level : Level} {p : Program} {source : Option String} {report : Report}
    (h : analyze level p source = .ok report) : report.Exact p := by
  obtain ⟨-, -, rfl⟩ := analyze_eq_ok.mp h
  refine ⟨fun function => ?_, fun target => ?_, fun name => ?_, fun path => ?_, p.encard_nodeAt?,
    nodup_warnings _⟩
  · exact mem_calls.trans call_mem
  · refine (mem_collected Finding.target fun f name => ?_).trans target_mem
    cases f <;> simp
  · refine (mem_collected access fun f name => ?_).trans access_mem
    cases f <;> simp
  · refine (mem_collected imported fun f name => ?_).trans imported_mem
    cases f <;> simp

/-- A program that calls in an action and in an expression, navigates in an `else` block and in a handler,
and repeats a template. -/
def gallery : Program :=
  ⟨"gallery", "Home",
    [⟨"Home", [], [⟨"photos", .list []⟩, ⟨"full", .bool false⟩],
      .container .column [
        .list "photos" (.text .label (.call "caption" [.var "size"])),
        .button "show" none none [
          .branch (.not (.var "full")) [.call "grow" [], .update "full" (.literal (.bool true)) "true"]
            [.navigate ⟨"Photo", []⟩]]],
      []⟩,
    ⟨"Photo", [], [], .text .label (.literal (.text "photo")), [⟨"leave", [.navigate ⟨"Back", []⟩]⟩]⟩],
    [], ["@sprout/ui"], []⟩

/-- The report on the gallery. -/
theorem exact_gallery :
    ∃ report, analyze .moderate gallery none = .ok report ∧ report.Exact gallery ∧
      report.calls = ["caption", "grow"] ∧ report.targets = ["Back", "Photo"] ∧
      report.accessed = ["full", "photos", "size"] ∧ report.imports = ["@sprout/ui"] ∧
      report.elements = 5 := by
  have ha : (analyze .moderate gallery none).toOption.any (fun report =>
      decide (report.calls = ["caption", "grow"] ∧ report.targets = ["Back", "Photo"] ∧
        report.accessed = ["full", "photos", "size"] ∧ report.imports = ["@sprout/ui"] ∧
        report.elements = 5)) = true := by
    decide +kernel
  cases hr : analyze .moderate gallery none with
  | error v => rw [hr] at ha; cases ha
  | ok report =>
    rw [hr] at ha
    exact ⟨report, rfl, exact_of_analyzed hr, of_decide_eq_true ha⟩

end Report

end Screenplay
