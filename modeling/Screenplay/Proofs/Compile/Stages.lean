/-
The stages of the analysis of a source. Once it is analyzed it has passed all of them: it holds a text, the text
is read as a program, the names of the program are declared, and the analysis finds no violation and has room
for the texts that it writes.
-/
import Screenplay.Compile
import Screenplay.Proofs.Report.Wordings

namespace Screenplay

/-! ## Reading -/

theorem Level.read_name (level : Level) : read level.name = .ok level := by
  rw [read, ofName?_name]

section

variable {source : SourceInput} {levelName : String}

theorem Level.read_eq_ok {level : Level} : Level.read levelName = .ok level ↔ level.name = levelName := by
  constructor
  · intro h
    unfold Level.read at h
    cases hn : ofName? levelName with
    | some other =>
      rw [hn] at h
      cases h
      simpa using List.find?_some hn
    | none =>
      rw [hn] at h
      cases h
  · rintro rfl
    exact level.read_name

theorem Level.read_eq_error {e : InputError} :
    Level.read levelName = .error e ↔ (∀ level : Level, level.name ≠ levelName) ∧ e = .unknownLevel levelName := by
  constructor
  · intro h
    refine ⟨fun level named => ?_, ?_⟩
    · rw [read_eq_ok.mpr named] at h
      cases h
    · unfold Level.read at h
      split at h <;> cases h
      rfl
  · rintro ⟨unknown, rfl⟩
    unfold Level.read
    cases h : ofName? levelName with
    | some level => exact absurd (by simpa using List.find?_some h) (unknown level)
    | none => rfl

/-- An input is read to the level of the name that is given and the text that it holds. -/
theorem readInput_eq_ok {level : Level} {text : String} :
    readInput source levelName = .ok (level, text) ↔ source.decode = .ok text ∧ level.name = levelName := by
  rw [← Level.read_eq_ok]
  unfold readInput
  cases source.decode with
  | error cause => exact iff_of_false nofun fun h => by cases h.1
  | ok decoded =>
    cases Level.read levelName with
    | error cause => exact iff_of_false nofun fun h => by cases h.2
    | ok known => simp [and_comm]

/-- An input that is not read holds no text, or its level is unknown. -/
theorem readInput_eq_error {e : Failure} :
    readInput source levelName = .error e ↔
      (∃ cause, source.decode = .error cause ∧ e = .input cause) ∨
        ∃ text, source.decode = .ok text ∧ (∀ level : Level, level.name ≠ levelName) ∧
          e = .input (.unknownLevel levelName) := by
  unfold readInput
  cases source.decode with
  | error cause => simp [eq_comm]
  | ok text =>
    cases h : Level.read levelName with
    | error cause =>
      obtain ⟨unknown, rfl⟩ := Level.read_eq_error.mp h
      simp [unknown, eq_comm]
    | ok level =>
      have known := Level.read_eq_ok.mp h
      simp only [reduceCtorEq, false_and, exists_false, false_or, false_iff]
      rintro ⟨_, -, unknown, -⟩
      exact unknown level known

/-- An input that is read is parsed, and the program is judged. -/
theorem analyzeSource_of_read {room : Room} {file : Option String} {level : Level} {text : String}
    (h : readInput source levelName = .ok (level, text)) :
    (analyzeSource room source levelName file).1 = do
      let p ← (Program.parse level (.ofText text file)).1
      let report ← p.judge room level text
      return ⟨p, report, mergeWarnings (Program.parse level (.ofText text file)).2.warnings report.warnings⟩ := by
  rw [analyzeSource, h]
  dsimp only
  rcases Program.parse level (.ofText text file) with ⟨e | p, guard⟩
  · rfl
  · cases hj : p.judge room level text <;> simp only [bind, Except.bind, hj] <;> rfl

end

/-! ## Stages -/

/-- The stages of an analyzed source. -/
structure Analyzed.Stages (room : Room) (source : SourceInput) (level : Level) (file : Option String)
    (a : Analyzed) (text : String) : Prop where
  decoded : source.decode = .ok text
  parsed : (Program.parse level (.ofText text file)).1 = .ok a.program
  valid : a.program.validate = .ok ()
  analyzed : Report.analyze level a.program (some text) = .ok a.report
  written : a.program.Writable room
  warned : a.warnings =
    mergeWarnings (Program.parse level (.ofText text file)).2.warnings a.report.warnings

variable {room : Room}

theorem Program.judge_eq_ok {level : Level} {text : String} {p : Program} {report : Report} :
    p.judge room level text = .ok report ↔
      p.validate = .ok () ∧ Report.analyze level p (some text) = .ok report ∧ p.Writable room := by
  rw [← Report.analyzeIn_eq_ok]
  unfold judge
  cases p.validate with
  | error e => simp [bind, Except.bind]
  | ok u => simp [bind, Except.bind]

theorem analyzeSource_eq_ok {source : SourceInput} {level : Level} {file : Option String}
    {a : Analyzed} :
    (analyzeSource room source level.name file).1 = .ok a ↔ ∃ text, a.Stages room source level file text := by
  constructor
  · intro h
    cases hd : source.decode with
    | error cause =>
      rw [analyzeSource, readInput_eq_error.mpr (.inl ⟨cause, hd, rfl⟩)] at h
      cases h
    | ok text =>
      rw [analyzeSource_of_read (readInput_eq_ok.mpr ⟨hd, rfl⟩)] at h
      cases hp : (Program.parse level (.ofText text file)).1 with
      | error e => rw [hp] at h; cases h
      | ok p =>
        rw [hp] at h
        cases hj : p.judge room level text with
        | error e => simp only [bind, Except.bind, hj] at h; cases h
        | ok report =>
          simp only [bind, Except.bind, hj] at h
          cases h
          -- the last stage has three parts: the references, the findings, and the room for its texts
          obtain ⟨hv, ha, hw⟩ := Program.judge_eq_ok.mp hj
          exact ⟨text, hd, hp, hv, ha, hw, rfl⟩
  · rintro ⟨text, h⟩
    have judged := Program.judge_eq_ok.mpr ⟨h.valid, h.analyzed, h.written⟩
    rw [analyzeSource_of_read (readInput_eq_ok.mpr ⟨h.decoded, rfl⟩), h.parsed]
    simp only [bind, Except.bind, judged, ← h.warned]
    rfl

end Screenplay
