/-
One source at several levels. What passes all stages at the strict level passes them at every level
with nothing changed but the level itself, down to the artifact; what passes them at the moderate level
passes them at the permissive one.
-/
import Screenplay.Proofs.Compile.Stages
import Screenplay.Proofs.Parse.Levels
import Screenplay.Proofs.Report.Relaxed

namespace Screenplay

variable {room : Room} {source : SourceInput} {file : Option String} {a : Analyzed} {text : String}

namespace Analyzed.Stages

/-- A source that passes the strict stages passes those of every level. -/
theorem of_strict (h : a.Stages room source .strict file text) (level : Level) :
    Analyzed.Stages room source level file { a with report := { a.report with level } } text := by
  obtain ⟨report, hr, he⟩ := Report.analyze_relaxed (Policy.relaxes_strict level) h.analyzed
  obtain rfl := he (Policy.covers_ofLevel level)
  have hp := Program.parse_of_strict h.parsed
  refine ⟨h.decoded, by rw [hp], h.valid, hr, h.written, ?_⟩
  rw [h.warned, hp, hp]
  rfl

/-- A source that passes the stages of a level passes those of a relaxed level, as the same program. -/
theorem of_relaxed {level other : Level} (ho : (Policy.ofLevel other).Relaxes (Policy.ofLevel level))
    (h : a.Stages room source level file text) :
    ∃ b, Analyzed.Stages room source other file b text ∧ b.program = a.program := by
  obtain ⟨report, hr, -⟩ := Report.analyze_relaxed ho h.analyzed
  have hp := Program.parse_ok_of_relaxed ho.refuses ho.denylist h.parsed
  let warnings := mergeWarnings (Program.parse other (.ofText text file)).2.warnings report.warnings
  exact ⟨⟨a.program, report, warnings⟩, ⟨h.decoded, hp, h.valid, hr, h.written, rfl⟩, rfl⟩

end Analyzed.Stages

/-- Relaxing the level never changes or rejects what a stricter level accepts. A source accepted at the
strict level is accepted at every level with the same program, the same warnings and a report that
differs in the level only, and compiles to the same artifact with the same metadata; a source accepted
at the moderate level is accepted at the permissive one with the same program. -/
theorem accepted_of_relaxed (room : Room) (source : SourceInput) :
    (∀ file a, (analyzeSource room source Level.strict.name file).1 = .ok a → ∀ level : Level,
      (analyzeSource room source level.name file).1 =
        .ok { a with report := { a.report with level } }) ∧
    (∀ a, (analyzeSource room source Level.strict.name none).1 = .ok a → ∀ options,
      ∃ artifact metadata, ∀ level : Level, ∃ c,
        (compileSource room source level.name options).1 = .ok c ∧
          c.artifact = artifact ∧ c.metadata = metadata) ∧
    ∀ file a, (analyzeSource room source Level.moderate.name file).1 = .ok a →
      ∃ b, (analyzeSource room source Level.permissive.name file).1 = .ok b ∧ b.program = a.program := by
  have strict : ∀ file a, (analyzeSource room source Level.strict.name file).1 = .ok a → ∀ level : Level,
      (analyzeSource room source level.name file).1 =
        .ok { a with report := { a.report with level } } := by
    intro file a h level
    obtain ⟨text, hs⟩ := analyzeSource_eq_ok.mp h
    exact analyzeSource_eq_ok.mpr ⟨text, hs.of_strict level⟩
  refine ⟨strict, ?_, ?_⟩
  · intro a h options
    -- neither the artifact nor the metadata mention the level
    let compiled := Compiled.ofAnalyzed options a
    refine ⟨compiled.artifact, compiled.metadata, fun level => ?_⟩
    refine ⟨Compiled.ofAnalyzed options { a with report := { a.report with level } }, ?_, rfl, rfl⟩
    have hl := strict none a h level
    unfold compileSource
    dsimp only
    rw [hl]
    rfl
  · intro file a h
    obtain ⟨text, hs⟩ := analyzeSource_eq_ok.mp h
    obtain ⟨b, hb, he⟩ := hs.of_relaxed Policy.permissive_relaxes_moderate
    exact ⟨b, analyzeSource_eq_ok.mpr ⟨text, hb⟩, he⟩

end Screenplay
