/-
The report covers every run. The analysis judges all sites of a program, and whatever a run records comes
from one of them; so the targets, calls, permissions and variables of the report take in everything that
a run navigates to, calls, executes or writes, apart from variables that the program declares itself and
those of its loops.
-/
import Screenplay.Proofs.Report.Allowed
import Screenplay.Proofs.Run.Origins

namespace Screenplay

/-! ## Findings of sites -/

/-- What is found at a site of the program is found in the program. -/
theorem Finding.mem_ofProgram {policy : Policy} {p : Program} {site : Site} (hs : p.Has site)
    {f : Finding} (hf : f ∈ ofSite policy site) (source : Option String) :
    f ∈ ofProgram policy p source := by
  obtain ⟨s, hm, hs⟩ := hs
  have screen : f ∈ ofScreen policy s := by
    simp only [ofScreen, List.mem_append, List.mem_flatMap]
    rcases List.mem_append.mp hs with ui | handlers
    · exact .inl (.inl (.inr ⟨site, ui, hf⟩))
    · obtain ⟨h, hh, hs⟩ := List.mem_flatMap.mp handlers
      refine .inr ⟨h, hh, ?_⟩
      exact List.mem_append_right _ (List.mem_flatMap.mpr ⟨site, hs, hf⟩)
  simp only [ofProgram, List.mem_append, List.mem_flatMap]
  exact .inl (.inr ⟨s, hm, screen⟩)

namespace Report

section

variable {level : Level} {p : Program} {source : Option String} {report : Report}
  (h : analyze level p source = .ok report)
include h

theorem mem_targets {n : Navigation} (hn : p.Has (.action (.navigate n))) :
    n.target ∈ report.targets := by
  obtain ⟨-, -, rfl⟩ := analyze_eq_ok.mp h
  refine Names.mem_ofList.mpr (List.mem_filterMap.mpr ⟨.target n.target, ?_, rfl⟩)
  refine Finding.mem_ofProgram hn ?_ source
  simp [Finding.ofSite, Finding.ofAction]

theorem mem_calls {function : String} {args : List Expr} (hc : p.Has (.action (.call function args))) :
    function ∈ report.calls := by
  obtain ⟨-, -, rfl⟩ := analyze_eq_ok.mp h
  refine Names.mem_ofList.mpr (List.mem_filterMap.mpr ⟨.call function, ?_, rfl⟩)
  refine Finding.mem_ofProgram hc ?_ source
  simp [Finding.ofSite, Finding.ofAction]

/-- The keywords of an action of the program ask for permissions of the report. -/
theorem mem_permissions {action : Action} (ha : p.Has (.action action)) {words : List String}
    {permission : String} (hp : (words, permission) ∈ Finding.permissionKeywords)
    (hw : ∃ word ∈ words, word.toList <:+: Text.fold action.text.toList) :
    permission ∈ report.permissions := by
  obtain ⟨-, -, rfl⟩ := analyze_eq_ok.mp h
  refine Names.mem_ofList.mpr (List.mem_filterMap.mpr ⟨.permission permission, ?_, rfl⟩)
  refine Finding.mem_ofProgram ha (List.mem_append_left _ ?_) source
  refine List.mem_append_right _ (List.mem_map.mpr ⟨(words, permission), List.mem_filter.mpr ⟨hp, ?_⟩, rfl⟩)
  obtain ⟨word, hm, ho⟩ := hw
  exact List.any_eq_true.mpr ⟨word, hm, (Text.occurs_iff _ _).mpr ho⟩

theorem mem_accessed {site : Site} (hs : p.Has site) {name : String}
    (hf : Finding.access name ∈ Finding.ofSite (Policy.ofLevel level) site) :
    name ∈ report.accessed := by
  obtain ⟨-, -, rfl⟩ := analyze_eq_ok.mp h
  refine Names.mem_ofList.mpr (List.mem_filterMap.mpr ⟨.access name, ?_, rfl⟩)
  exact Finding.mem_ofProgram hs hf source

end

/-- A variable that is declared, reported as accessed, or the variable of a loop. -/
def Accounts (report : Report) (p : Program) (name : String) : Prop :=
  name ∈ p.state.map (·.name) ∨ (∃ s ∈ p.screens, name ∈ s.state.map (·.name)) ∨
    name ∈ report.accessed ∨ ∃ range body, p.Has (.action (.loop name range body))

theorem accounts_of_writes {level : Level} {p : Program} {source : Option String} {report : Report}
    (h : analyze level p source = .ok report) {name : String} (hw : p.Writes name) :
    report.Accounts p name := by
  cases hw with
  | appState hv => exact .inl (List.mem_map_of_mem hv)
  | screenState hs hv => exact .inr (.inl ⟨_, hs, List.mem_map_of_mem hv⟩)
  | input hn => exact .inr (.inr (.inl (mem_accessed h hn (by simp [Finding.ofSite, Finding.ofNode]))))
  | list hn => exact .inr (.inr (.inl (mem_accessed h hn (by simp [Finding.ofSite, Finding.ofNode]))))
  | update ha =>
    exact .inr (.inr (.inl (mem_accessed h ha (by simp [Finding.ofSite, Finding.ofAction]))))
  | loop ha => exact .inr (.inr (.inr ⟨_, _, ha⟩))

end Report

/-! ## Results -/

/-- A result of a run of a program that a report covers. What the run writes shows in the variables that
it ends with and in the changes that are kept, as far as the store did not hold them before, in what
listeners hear, and in the trace. -/
structure RunResult.Covered (report : Report) (p : Program) (before : Store) (heard : List Delivery)
    (r : RunResult) : Prop where
  navigations : ∀ target ∈ r.navigations, target ∈ report.targets
  calls : ∀ event ∈ r.events, event.kind = .functionCalled → ∃ function args texts,
    p.Has (.action (.call function args)) ∧ function ∈ report.calls ∧
      event.detail = function ++ "(" ++ Text.join ", " texts ++ ")"
  permissions : ∀ event ∈ r.events, event.kind = .actionExecuted →
    ∀ words permission, (words, permission) ∈ Finding.permissionKeywords →
      (∃ word ∈ words, word.toList <:+: Text.fold event.detail.toList) →
        permission ∈ report.permissions
  values : ∀ e ∈ r.values, e ∈ before.values ∨ report.Accounts p e.1
  history : ∀ c ∈ r.history, c ∈ before.history ∨ report.Accounts p c.name
  heard : ∀ d ∈ heard, report.Accounts p d.change.name
  updates : ∀ event ∈ r.events, event.kind = .stateUpdated → ∃ name value,
    report.Accounts p name ∧ event.detail = s!"{name} = {Value.display value}"

/-- Records that come from the program are covered by its report. -/
theorem RunResult.Originates.covered {level : Level} {p : Program} {source : Option String}
    {report : Report} (h : Report.analyze level p source = .ok report) {before : Store}
    {heard : List Delivery} {r : RunResult} (hr : r.Originates p before heard) :
    r.Covered report p before heard := by
  refine ⟨?_, ?_, ?_, ?_, ?_, ?_, ?_⟩
  -- every record leads to the part of the program that it comes from, and the analysis has found this part
  · rintro target hm
    obtain ⟨args, hn⟩ := hr.navigations target hm
    exact Report.mem_targets h hn
  · rintro event hm hk
    have origin := hr.events event hm
    rw [Event.Originates, hk] at origin
    obtain ⟨function, args, texts, hc, detail⟩ := origin
    exact ⟨function, args, texts, hc, Report.mem_calls h hc, detail⟩
  · rintro event hm hk words permission hp hw
    have origin := hr.events event hm
    rw [Event.Originates, hk] at origin
    obtain ⟨action, ha, detail⟩ := origin
    exact Report.mem_permissions h ha hp (detail ▸ hw)
  · rintro e he
    exact (hr.values e he).imp_right (Report.accounts_of_writes h)
  · rintro c hc
    exact (hr.history c hc).imp_right (Report.accounts_of_writes h)
  · rintro d hd
    exact Report.accounts_of_writes h (hr.heard d hd)
  · rintro event hm hk
    have origin := hr.events event hm
    rw [Event.Originates, hk] at origin
    obtain ⟨name, value, hn, detail⟩ := origin
    exact ⟨name, value, Report.accounts_of_writes h hn, detail⟩

namespace Engine

/-- The report of a program covers all its runs. Whatever the level of the analysis and whatever the
engine, each run and each dispatch that comes to a result navigates to targets of the report, calls
functions of the report, executes actions whose keywords ask for permissions of the report, and writes
variables that are declared, reported as accessed or variables of loops. The permissions are those of all
actions of the program, so they do not depend on how much a trace keeps. -/
theorem covered_of_analyzed {level : Level} {p : Program} {source : Option String} {report : Report}
    (h : Report.analyze level p source = .ok report) (engine : Engine) :
    (∀ entry risk r, (engine.run p entry risk).result = .ok r →
      ∃ before, engine.storeForRun = .ok before ∧
        r.Covered report p before (engine.run p entry risk).heard) ∧
    (∀ screen handler r, (engine.dispatch p screen handler).result = .ok r →
      ∃ before, engine.storeForRun = .ok before ∧
        r.Covered report p before (engine.dispatch p screen handler).heard) ∧
    ∀ action, p.Has (.action action) → ∀ words permission,
      (words, permission) ∈ Finding.permissionKeywords →
        (∃ word ∈ words, word.toList <:+: Text.fold action.text.toList) →
          permission ∈ report.permissions := by
  have steps (before : Store) : Steps p (RunState.Originates p before) fun _ => True :=
    Run.steps_originate (fun _ _ => trivial) fun _ _ _ _ _ => trivial
  have covered {run : Run Unit} (hr : ∀ before, run.Safe (RunState.Originates p before) fun _ => True)
      {r : RunResult} (ho : (engine.perform run).result = .ok r) :
      ∃ before, engine.storeForRun = .ok before ∧
        r.Covered report p before (engine.perform run).heard := by
    obtain ⟨⟨before, hs, records⟩, -⟩ := perform_originates hr ho
    exact ⟨before, hs, records.covered h⟩
  refine ⟨?_, ?_, ?_⟩
  · intro entry risk r hr
    exact covered (fun before => (steps before).showing (fun _ => trivial) risk) hr
  · intro screen handler r hr
    exact covered (fun before => (steps before).handling (fun _ => trivial) fun _ _ _ => trivial) hr
  · intro action ha words permission hp hw
    exact Report.mem_permissions h ha hp hw

/-- A program whose only button names the last picture, takes it and leads to all of them. -/
def album : Program :=
  ⟨"album", "Home",
    [⟨"Home", [], [],
      .button "new" (some ⟨"Gallery", []⟩) none
        [.update "last" (.literal (.text "dunes")) "\"dunes\"", .call "camera" [.var "last"]],
      []⟩,
     ⟨"Gallery", [], [], .list "pictures" (.text .label (.var "picture")), []⟩],
    [⟨"count", .int 1⟩], [], []⟩

/-- It is run to its end. The navigation is a target of the report, the action that is executed asks for one of
its permissions, and the variables that are written are declared or reported. -/
theorem covered_album :
    ∃ report, Report.analyze .strict album none = .ok report ∧
      ∃ r, ((ofOptions .default).run album none none).result = .ok r ∧ r.success = true ∧
        (r.navigations = ["Gallery"] ∧ "Gallery" ∈ report.targets) ∧
        (⟨.actionExecuted, "camera(last)"⟩ ∈ r.events ∧ "CAMERA" ∈ report.permissions) ∧
        (r.values.map (·.1) = ["count", "last"] ∧ ∀ e ∈ r.values, report.Accounts album e.1) := by
  have accepted : (Report.analyze .strict album none).toOption.isSome = true := by decide +kernel
  have told : ((ofOptions .default).run album none none).result.toOption.any (fun r =>
      r.success && r.navigations == ["Gallery"] && r.events.contains ⟨.actionExecuted, "camera(last)"⟩ &&
        r.values.map (·.1) == ["count", "last"]) = true := by
    decide +kernel
  obtain ⟨r, hr, told⟩ := EngineStep.exists_result told
  simp only [Bool.and_eq_true, beq_iff_eq, List.contains_iff_mem] at told
  obtain ⟨⟨⟨success, left⟩, executed⟩, written⟩ := told
  cases ha : Report.analyze .strict album none with
  | error v => rw [ha] at accepted; cases accepted
  | ok report =>
    obtain ⟨runs, -, -⟩ := covered_of_analyzed ha (ofOptions .default)
    obtain ⟨before, hs, covered⟩ := runs none none r hr
    refine ⟨report, rfl, r, hr, success, ⟨left, ?_⟩, ⟨executed, ?_⟩, written, fun e he => ?_⟩
    · exact covered.navigations _ (by rw [left]; exact List.mem_cons_self)
    · exact covered.permissions _ executed rfl ["camera"] "CAMERA" (by decide) ⟨_, List.mem_cons_self, by decide⟩
    · cases hs
      exact (covered.values e he).resolve_left List.not_mem_nil

end Engine

end Screenplay
