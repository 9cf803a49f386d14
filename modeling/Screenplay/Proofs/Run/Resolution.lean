/-
Programs without reference errors. Where every name that a program uses is declared, a run meets no
undefined name: the screens and handlers that it looks up are there, and it navigates to declared screens
or back. The errors are those of a walk over the sites of the program, and so are the records of a run.
-/
import Mathlib.Data.List.Nodup
import Screenplay.Program.References
import Screenplay.Proofs.Run.Origins

namespace Screenplay

/-! ## Resolved programs -/

/-- A program in which the names of screens are distinct, and every screen and handler that is referred
to is declared. -/
structure Program.Resolved (p : Program) : Prop where
  start : p.start ∈ p.screenNames
  distinct : p.screenNames.Nodup
  targets : ∀ n, p.Has (.action (.navigate n)) → n.target ∈ p.screenNames ∨ n.target ∈ backTargets
  handlers : ∀ s ∈ p.screens, ∀ name, Site.handler name ∈ s.sites → s.handler? name ≠ none

/-- A handler is found by its name. -/
theorem Screen.handler?_ne_none {s : Screen} {name : String} :
    s.handler? name ≠ none ↔ name ∈ s.handlers.map (·.name) := by
  unfold Screen.handler?
  simp [List.find?_eq_none]

/-- A site of a screen without errors is in order. -/
theorem Screen.referenceError?_eq_none {screens : List String} {s : Screen}
    (h : s.referenceErrors screens = []) {site : Site} (hs : site ∈ s.sites) :
    site.referenceError? screens s = none := by
  obtain ⟨-, sites⟩ := List.append_eq_nil_iff.mp h
  exact List.filterMap_eq_nil_iff.mp sites site hs

/-- Screens without errors are in order one by one, and their names are new. -/
theorem screenErrors_eq_nil {screens seen : List String} {ss : List Screen}
    (h : screenErrors screens seen ss = []) :
    (∀ s ∈ ss, s.referenceErrors screens = [] ∧ s.name ∉ seen) ∧ (ss.map (·.name)).Nodup := by
  induction ss generalizing seen with
  | nil => exact ⟨fun _ hs => absurd hs List.not_mem_nil, List.nodup_nil⟩
  | cons s later ih =>
    obtain ⟨here, rest⟩ := List.append_eq_nil_iff.mp h
    obtain ⟨new, own⟩ := List.append_eq_nil_iff.mp here
    obtain ⟨others, distinct⟩ := ih rest
    have fresh : s.name ∉ seen := by
      intro hm
      rw [if_pos (List.contains_iff_mem.mpr hm)] at new
      cases new
    refine ⟨List.forall_mem_cons.mpr ⟨⟨own, fresh⟩, ?_⟩, ?_⟩
    · intro t ht
      obtain ⟨ok, unseen⟩ := others t ht
      exact ⟨ok, fun hm => unseen (List.mem_cons_of_mem _ hm)⟩
    · rw [List.map_cons, List.nodup_cons]
      refine ⟨?_, distinct⟩
      intro hm
      obtain ⟨t, ht, he⟩ := List.mem_map.mp hm
      exact (others t ht).2 (he ▸ List.mem_cons_self)

/-- A program whose names are checked without an error is resolved. -/
theorem Program.Resolved.of_referenceErrors {p : Program} (h : p.referenceErrors = .ok []) :
    p.Resolved := by
  unfold Program.referenceErrors at h
  split at h
  · cases h
  · obtain ⟨start, screens⟩ := List.append_eq_nil_iff.mp (Except.ok.inj h)
    obtain ⟨ok, distinct⟩ := screenErrors_eq_nil screens
    refine ⟨?_, distinct, ?_, ?_⟩
    · by_contra hm
      rw [if_neg fun hc => hm (List.contains_iff_mem.mp hc)] at start
      cases start
    · rintro n ⟨s, hs, hn⟩
      have known := Screen.referenceError?_eq_none (ok s hs).1 hn
      by_contra hm
      rw [not_or] at hm
      simp [Site.referenceError?, hm] at known
    · rintro s hs name hn
      have known := Screen.referenceError?_eq_none (ok s hs).1 hn
      rw [Screen.handler?_ne_none]
      by_contra hm
      simp only [Site.referenceError?, List.contains_iff_mem] at known
      rw [if_neg hm] at known
      cases known

namespace Program

variable {p : Program}

/-- The screen with a declared name is found. -/
theorem screen?_ne_none {name : String} (hn : name ∈ p.screenNames) : p.screen? name ≠ none := by
  obtain ⟨s, hs, rfl⟩ := List.mem_map.mp hn
  unfold Program.screen?
  rw [ne_eq, List.find?_eq_none]
  exact fun none => none s hs (beq_self_eq_true _)

/-- The screen that is found by the name of a screen is that screen. -/
theorem Resolved.screen?_name (h : p.Resolved) {s t : Screen} (hs : s ∈ p.screens)
    (ht : p.screen? s.name = some t) : t = s := by
  have found := List.find?_some ht
  have same : t.name = s.name := beq_iff_eq.mp found
  exact List.inj_on_of_nodup_map h.distinct (List.mem_of_find?_eq_some ht) hs same

end Program

/-! ## Runs of resolved programs -/

/-- A result that met no undefined name, and navigated to screens of the program or back. -/
structure RunResult.Resolved (p : Program) (r : RunResult) : Prop where
  error : ∀ e, r.error = some e → e.kind ≠ "undefined_variable"
  navigations : ∀ target ∈ r.navigations, target ∈ p.screenNames ∨ target ∈ backTargets

namespace Engine

/-- What an engine performs of a resolved program is resolved, if the run stops for no undefined name. -/
theorem perform_resolved {p : Program} (hp : p.Resolved) {engine : Engine} {run : Run Unit}
    (hr : ∀ before, run.Safe (RunState.Originates p before) (·.kind ≠ "undefined_variable"))
    {r : RunResult} (h : (engine.perform run).result = .ok r) : r.Resolved p := by
  obtain ⟨⟨before, -, records⟩, errors⟩ := perform_originates hr h
  refine ⟨errors, ?_⟩
  rintro target hm
  obtain ⟨args, hn⟩ := records.navigations target hm
  exact hp.targets _ hn

/-- A program without reference errors never meets an undefined name at run time, and navigates to its
screens or back only: whatever the engine, a run that starts on no screen in particular or on a declared
one, and a declared handler of a declared screen. -/
theorem resolved_of_referenceErrors {p : Program} (hp : p.referenceErrors = .ok []) (engine : Engine) :
    (∀ entry risk r, (∀ name, entry = some name → name ∈ p.screenNames) →
      (engine.run p entry risk).result = .ok r → r.Resolved p) ∧
    ∀ screen handler r, (∃ s ∈ p.screens, s.name = screen ∧ handler ∈ s.handlers.map (·.name)) →
      (engine.dispatch p screen handler).result = .ok r → r.Resolved p := by
  have resolved := Program.Resolved.of_referenceErrors hp
  have steps (before : Store) :
      Steps p (RunState.Originates p before) (·.kind ≠ "undefined_variable") :=
    Run.steps_originate (fun _ he => he) fun s hs name hn hh => absurd hh (resolved.handlers s hs name hn)
  constructor
  · intro entry risk r he h
    have shown {name : String} (hn : name ∈ p.screenNames) (before : Store) :
        (Run.showing p name risk).Safe (RunState.Originates p before) (·.kind ≠ "undefined_variable") :=
      (steps before).showing (fun none => absurd none (Program.screen?_ne_none hn)) risk
    unfold Engine.run at h
    -- the empty name stands for the start screen too
    split at h
    · exact perform_resolved resolved (shown resolved.start) h
    · exact perform_resolved resolved (shown resolved.start) h
    · next name _ => exact perform_resolved resolved (shown (he name rfl)) h
  · rintro screen handler r ⟨s, hs, rfl, hh⟩ h
    refine perform_resolved resolved (fun before => ?_) h
    refine (steps before).handling (fun none => ?_) fun t ht none => ?_
    · exact absurd none (Program.screen?_ne_none (List.mem_map_of_mem hs))
    · rw [resolved.screen?_name hs ht] at none
      exact absurd none (Screen.handler?_ne_none.mpr hh)

/-- A program with two screens, a button that leads from the first to the second, and a handler that leads
back. -/
def tour : Program :=
  ⟨"tour", "Home", [
    ⟨"Home", [], [], .button "go" (some ⟨"Away", []⟩) (some "leave") [],
      [⟨"leave", [.navigate ⟨"Back", []⟩]⟩]⟩,
    ⟨"Away", [], [], .text .label (.literal (.text "away")), []⟩], [], [], []⟩

/-- All names of the tour are declared. Its button leads back by the handler and then away, its handler leads
back, and neither the run nor the dispatch meets an undefined name. -/
theorem resolved_tour :
    tour.referenceErrors = .ok [] ∧
      (∃ r, ((ofOptions .default).run tour none none).result = .ok r ∧
        r.navigations = ["Back", "Away"] ∧ r.Resolved tour) ∧
      ∃ r, ((ofOptions .default).dispatch tour "Home" "leave").result = .ok r ∧
        r.navigations = ["Back"] ∧ r.Resolved tour := by
  have declared : tour.referenceErrors = .ok [] := by decide +kernel
  have shown : ((ofOptions .default).run tour none none).result.toOption.any
      (·.navigations == ["Back", "Away"]) = true := by
    decide +kernel
  have handled : ((ofOptions .default).dispatch tour "Home" "leave").result.toOption.any
      (·.navigations == ["Back"]) = true := by
    decide +kernel
  obtain ⟨r, hr, shown⟩ := EngineStep.exists_result shown
  obtain ⟨t, ht, handled⟩ := EngineStep.exists_result handled
  obtain ⟨runs, dispatches⟩ := resolved_of_referenceErrors declared (ofOptions .default)
  refine ⟨declared, ⟨r, hr, beq_iff_eq.mp shown, runs none none r nofun hr⟩, t, ht, beq_iff_eq.mp handled, ?_⟩
  exact dispatches "Home" "leave" t ⟨_, List.mem_cons_self, rfl, List.mem_cons_self⟩ ht

end Engine

end Screenplay
