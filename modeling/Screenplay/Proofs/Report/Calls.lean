/-
The calls of a program that passes the analysis. The analysis judges the bare name of a call, so no name
holds a pattern of the denylist; but a pattern that forbids a call by the bracket after the name, as in
`open(`, is never found in a name. Such calls get through, and only such calls.
-/
import Screenplay.Proofs.Compile.Stages
import Screenplay.Proofs.Guard.Denylist
import Screenplay.Proofs.Report.Allowed

namespace Screenplay

/-! ## Calls -/

/-- The function that is called at a site, by an action or in an expression. -/
def Site.call? : Site → Option String
  | .action (.call function _) => some function
  | .expr _ (.call name _) => some name
  | _ => none

/-- The names of all calls of a program. -/
def Program.calls (p : Program) : List String :=
  (p.screens.flatMap Screen.sites).filterMap Site.call?

/-- A site without a violation calls nothing that is on the denylist. -/
theorem Finding.findBlocked_of_call {policy : Policy} (hp : policy.lenient = false) {site : Site}
    (h : Allowed (ofSite policy site)) {name : String} (hc : site.call? = some name) :
    policy.findBlocked name = none := by
  unfold Site.call? at hc
  split at hc
  · cases hc
    simp only [ofSite, ofAction, allowed_append, allowed_ofText hp] at h
    exact h.2.1
  · cases hc
    simp only [ofSite, ofExpr, allowed_append, allowed_ofText hp] at h
    exact h.2.1
  · cases hc

/-! ## Calls that get through -/

/-- A source text with one screen, whose only button calls a function. -/
def callSource (function : String) : String :=
  "app A \x7b start = H \x7d\nscreen H \x7b ui \x7b button \"b\" \x7b " ++ function
    ++ "(\"x\") \x7d \x7d \x7d"

/-- A test that the outcome of an analysis passes is passed by an analyzed program. -/
theorem exists_analyzed {room : Room} {source : SourceInput} {levelName : String} {file : Option String}
    {test : Analyzed → Bool}
    (h : (analyzeSource room source levelName file).1.toOption.any test = true) :
    ∃ a, (analyzeSource room source levelName file).1 = .ok a ∧ test a = true := by
  cases hr : (analyzeSource room source levelName file).1 with
  | error e => rw [hr] at h; cases h
  | ok a => rw [hr] at h; exact ⟨a, rfl, h⟩

/-- In a program that is analyzed at a level that refuses, no name of a call holds a pattern of the
denylist, and with the bracket after it a name holds one exactly if it ends in a word that the
denylist forbids before a bracket. -/
theorem analyzed_calls {room : Room} {source : SourceInput} {level : Level} (hl : level ≠ .permissive)
    {file : Option String} {a : Analyzed}
    (h : (analyzeSource room source level.name file).1 = .ok a) :
    ∀ name ∈ a.program.calls, (Policy.ofLevel level).findBlocked name = none ∧
      ((Policy.ofLevel level).findBlocked (name ++ "(") = none ↔
        ∀ word ∈ Policy.callWords, ¬ word.toList <:+ Text.fold name.toList) := by
  obtain ⟨text, hs⟩ := analyzeSource_eq_ok.mp h
  intro name hn
  obtain ⟨site, hm, hc⟩ := List.mem_filterMap.mp hn
  obtain ⟨s, hs', hm⟩ := List.mem_flatMap.mp hm
  have found := (Report.analyze_eq_ok.mp hs.analyzed).1
  have allowed := Finding.allowed_of_mem_sites (Finding.allowed_ofScreen_of_mem found hs') hm
  have clean := Finding.findBlocked_of_call (Policy.not_lenient hl) allowed hc
  exact ⟨clean, Policy.findBlocked_bracket clean⟩

/-- A call of `save` is free of the denylist, with its bracket too. -/
theorem analyzed_calls_save :
    ∃ a, (analyzeSource .usual (.text (callSource "save")) Level.strict.name none).1 = .ok a ∧
      "save" ∈ a.program.calls ∧ (Policy.ofLevel .strict).findBlocked ("save" ++ "(") = none := by
  have hc : (analyzeSource .usual (.text (callSource "save")) Level.strict.name none).1.toOption.any
      (fun a => a.program.calls.contains "save") = true := by
    decide +kernel
  obtain ⟨a, h, hm⟩ := exists_analyzed hc
  rw [List.contains_iff_mem] at hm
  exact ⟨a, h, hm, (analyzed_calls (by decide) h "save" hm).2.mpr (by decide)⟩

/-- A call of `open` is let through, although the denylist holds `open(`. -/
theorem analyzed_calls_open :
    ∃ a, (analyzeSource .usual (.text (callSource "open")) Level.strict.name none).1 = .ok a ∧
      "open" ∈ a.program.calls ∧
      (Policy.ofLevel .strict).findBlocked ("open" ++ "(") = some "open(" := by
  have hc : (analyzeSource .usual (.text (callSource "open")) Level.strict.name none).1.toOption.any
      (fun a => a.program.calls.contains "open") = true := by
    decide +kernel
  obtain ⟨a, h, hm⟩ := exists_analyzed hc
  exact ⟨a, h, List.contains_iff_mem.mp hm, by decide⟩

end Screenplay
