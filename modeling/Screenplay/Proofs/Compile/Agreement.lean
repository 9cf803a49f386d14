/-
The ways to use a source agree. Parsing it for display, validating it and compiling it fail for the same
reason, that of the first stage which the source does not pass, and what they tell about a source that passes
all of them is the same. Each of them comes to a result, with one exception: parsing a source for display shows
the outline of its program, and comes to none if there is no room for a text in it.
-/
import Screenplay.Proofs.Compile.Stages

namespace Screenplay

variable {room : Room} {source : SourceInput} {levelName : String}

/-! ## The first failure -/

/-- Why a source is not analyzed: the failure of the first stage that it does not pass. -/
inductive FirstFailure (room : Room) (source : SourceInput) (levelName : String) : Failure → Prop
  | decoding {e : InputError} (h : source.decode = .error e) : FirstFailure room source levelName (.input e)
  | level {text : String} (hd : source.decode = .ok text) (h : ∀ level : Level, level.name ≠ levelName) :
    FirstFailure room source levelName (.input (.unknownLevel levelName))
  | parsing {text : String} {level : Level} {e : Failure} (hd : source.decode = .ok text)
    (hl : level.name = levelName) (h : (Program.parse level (.ofText text none)).1 = .error e) :
    FirstFailure room source levelName e
  | references {text : String} {level : Level} {p : Program} {e : Failure} (hd : source.decode = .ok text)
    (hl : level.name = levelName) (hp : (Program.parse level (.ofText text none)).1 = .ok p)
    (h : p.validate = .error e) : FirstFailure room source levelName e
  | analysis {text : String} {level : Level} {p : Program} {e : Failure} (hd : source.decode = .ok text)
    (hl : level.name = levelName) (hp : (Program.parse level (.ofText text none)).1 = .ok p)
    (hv : p.validate = .ok ()) (h : Report.analyzeIn room level p (some text) = .error e) :
    FirstFailure room source levelName e

theorem Program.judge_eq_error {level : Level} {text : String} {p : Program} {e : Failure} :
    p.judge room level text = .error e ↔ p.validate = .error e ∨
      p.validate = .ok () ∧ Report.analyzeIn room level p (some text) = .error e := by
  unfold judge
  cases p.validate with
  | error e => simp [bind, Except.bind]
  | ok u => simp [bind, Except.bind]

/-- A source fails to be analyzed at the first stage that it does not pass. -/
theorem analyzeSource_eq_error {e : Failure} :
    (analyzeSource room source levelName none).1 = .error e ↔ FirstFailure room source levelName e := by
  constructor
  -- down the stages in their order: the one that fails names the case, and those before it have been passed
  · intro h
    cases hr : readInput source levelName with
    | error cause =>
      rw [analyzeSource, hr] at h
      cases h
      rcases readInput_eq_error.mp hr with ⟨cause, hd, rfl⟩ | ⟨text, hd, unknown, rfl⟩
      · exact .decoding hd
      · exact .level hd unknown
    | ok input =>
      obtain ⟨level, text⟩ := input
      obtain ⟨hd, named⟩ := readInput_eq_ok.mp hr
      rw [analyzeSource_of_read hr] at h
      cases hp : (Program.parse level (.ofText text none)).1 with
      | error cause =>
        rw [hp] at h
        cases h
        exact .parsing hd named hp
      | ok p =>
        rw [hp] at h
        cases hj : p.judge room level text with
        | ok report => simp only [bind, Except.bind, hj] at h; cases h
        | error cause =>
          simp only [bind, Except.bind, hj] at h
          cases h
          rcases Program.judge_eq_error.mp hj with hv | ⟨hv, ha⟩
          · exact .references hd named hp hv
          · exact .analysis hd named hp hv ha
  -- each case says how far the source gets, so what fails is its own stage
  · rintro (hd | ⟨hd, unknown⟩ | ⟨hd, named, hp⟩ | ⟨hd, named, hp, hv⟩ | ⟨hd, named, hp, hv, ha⟩)
    · rw [analyzeSource, readInput_eq_error.mpr (.inl ⟨_, hd, rfl⟩)]
    · rw [analyzeSource, readInput_eq_error.mpr (.inr ⟨_, hd, unknown, rfl⟩)]
    · rw [analyzeSource_of_read (readInput_eq_ok.mpr ⟨hd, named⟩), hp]
      rfl
    · rw [analyzeSource_of_read (readInput_eq_ok.mpr ⟨hd, named⟩), hp]
      simp only [bind, Except.bind, Program.judge_eq_error.mpr (.inl hv)]
    · rw [analyzeSource_of_read (readInput_eq_ok.mpr ⟨hd, named⟩), hp]
      simp only [bind, Except.bind, Program.judge_eq_error.mpr (.inr ⟨hv, ha⟩)]

/-- No analysis of a source runs short of room: there is another reason, if it fails. -/
def Suffices (source : SourceInput) (levelName : String) (room : Room) : Prop :=
  ∀ shortage, ¬ FirstFailure room source levelName (.short shortage)

/-- With room enough, a source fails for the same reason whatever the room is. -/
theorem FirstFailure.unchanged {other : Room} {e : Failure} (h : FirstFailure room source levelName e)
    (enough : Suffices source levelName room) (enough_there : Suffices source levelName other) :
    FirstFailure other source levelName e := by
  cases h with
  | decoding h => exact .decoding h
  | level hd h => exact .level hd h
  | parsing hd hl h => exact .parsing hd hl h
  | references hd hl hp h => exact .references hd hl hp h
  | @analysis text level p e hd hl hp hv h =>
    refine .analysis hd hl hp hv ?_
    rcases Report.analyzeIn_eq_error h with ⟨v, rfl, found⟩ | ⟨shortage, rfl, -⟩
    · cases there : Report.analyzeIn other level p (some text) with
      | ok report =>
        rw [(Report.analyzeIn_eq_ok.mp there).1] at found
        cases found
      | error cause =>
        rcases Report.analyzeIn_eq_error there with ⟨w, rfl, found_there⟩ | ⟨shortage, rfl, -⟩
        · rw [found, Except.error.injEq] at found_there
          rw [found_there]
        · exact absurd (.analysis hd hl hp hv there) (enough_there shortage)
    · exact absurd (.analysis hd hl hp hv h) (enough shortage)

/-- With room enough, a source that is analyzed elsewhere is analyzed to the same. -/
theorem analyzeSource_unchanged {other : Room} {a : Analyzed}
    (h : (analyzeSource room source levelName none).1 = .ok a) (enough_there : Suffices source levelName other) :
    (analyzeSource other source levelName none).1 = .ok a := by
  have named : ∃ level : Level, level.name = levelName := by
    cases hr : readInput source levelName with
    | error e => rw [analyzeSource, hr] at h; cases h
    | ok input => exact ⟨input.1, (readInput_eq_ok.mp hr).2⟩
  obtain ⟨level, rfl⟩ := named
  obtain ⟨text, stages⟩ := analyzeSource_eq_ok.mp h
  refine analyzeSource_eq_ok.mpr ⟨text, { stages with written := ?_ }⟩
  cases there : Report.analyzeIn other level a.program (some text) with
  | ok report => exact (Report.analyzeIn_eq_ok.mp there).2
  | error e =>
    rcases Report.analyzeIn_eq_error there with ⟨v, rfl, found⟩ | ⟨shortage, rfl, -⟩
    · rw [stages.analyzed] at found
      cases found
    · exact absurd (.analysis stages.decoded rfl stages.parsed stages.valid there) (enough_there shortage)

/-! ## The outline -/

/-- There is room for all texts that the outline of a program shows. -/
def Program.Showable (room : Room) (p : Program) : Prop :=
  ∀ (i : Nat) (e : Expr), p.shown[i]? = some e → e.Writable (room i)

theorem Program.outlineIn_eq_ok {p : Program} {outline : String} :
    p.outlineIn room = .ok outline ↔ p.outline = outline ∧ p.Showable room := by
  rw [Showable, ← Expr.firstShortage?_eq_none, outlineIn]
  cases Expr.firstShortage? room p.shown with
  | some shortage => exact iff_of_false nofun nofun
  | none => rw [Except.ok.injEq, and_iff_left rfl]

theorem Program.outlineIn_eq_error {p : Program} :
    (∃ shortage, p.outlineIn room = .error shortage) ↔ ¬ p.Showable room := by
  cases h : p.outlineIn room with
  | ok outline => exact iff_of_false nofun (not_not_intro (outlineIn_eq_ok.mp h).2)
  | error shortage =>
    refine iff_of_true ⟨shortage, rfl⟩ fun all => ?_
    rw [outlineIn_eq_ok.mpr ⟨rfl, all⟩] at h
    cases h

/-- A source that is read as a program of which the outline cannot be written. -/
inductive Unshowable (room : Room) (source : SourceInput) (levelName : String) : Prop
  | mk {text : String} {level : Level} {p : Program} (hd : source.decode = .ok text) (hl : level.name = levelName)
    (hp : (Program.parse level (.ofText text none)).1 = .ok p) (h : ¬ p.Showable room)

/-! ## Agreement -/

/-- What parsing a source for display tells about it, once it is known how its analysis ends. -/
structure ParseResult.Tells (r : ParseResult) (outcome : Except Failure Analyzed) : Prop where
  failure : ∀ e, r.failure = some e ↔ outcome = .error e
  warnings : ∀ a, outcome = .ok a → r.warnings = a.warnings
  report : ∀ a, outcome = .ok a → r.report = some a.report

variable {outlining parsing : Room}

/-- Parsing a source for display comes to no result exactly if there is no room for its outline. -/
theorem parseSource_eq_error :
    (∃ shortage, parseSource outlining parsing source levelName = .error shortage) ↔
      Unshowable outlining source levelName := by
  -- what cannot be read has no outline to write
  have unread {e : Failure} (h : readInput source levelName = .error e) : ¬ Unshowable outlining source levelName := by
    rintro ⟨hd, named, -, -⟩
    rw [readInput_eq_ok.mpr ⟨hd, named⟩] at h
    cases h
  -- with the level and the text known, only the program is in question
  have read {level : Level} {text : String} (h : readInput source levelName = .ok (level, text)) :
      Unshowable outlining source levelName ↔
        ∃ p, (Program.parse level (.ofText text none)).1 = .ok p ∧ ¬ p.Showable outlining := by
    constructor
    · rintro ⟨hd, named, hp, shown⟩
      rw [readInput_eq_ok.mpr ⟨hd, named⟩] at h
      cases h
      exact ⟨_, hp, shown⟩
    · rintro ⟨p, hp, shown⟩
      obtain ⟨hd, named⟩ := readInput_eq_ok.mp h
      exact ⟨hd, named, hp, shown⟩
  unfold parseSource
  cases h : readInput source levelName with
  | error e => exact iff_of_false nofun (unread h)
  | ok input =>
    obtain ⟨level, text⟩ := input
    rw [read h]
    dsimp only
    rcases Program.parse level (.ofText text none) with ⟨e | p, guard⟩
    · exact iff_of_false nofun nofun
    · simp only [Except.ok.injEq, exists_eq_left', ← Program.outlineIn_eq_error]
      cases p.outlineIn outlining with
      | error shortage => exact iff_of_true ⟨shortage, rfl⟩ ⟨shortage, rfl⟩
      | ok outline =>
        refine iff_of_false ?_ nofun
        cases p.judge parsing level text <;> nofun

/-- Parsing a source for display fails exactly as its analysis does. Without a failure it tells the warnings
and the report of the analysis. -/
theorem parseSource_tells {parsed : ParseResult} (h : parseSource outlining parsing source levelName = .ok parsed) :
    parsed.Tells (analyzeSource parsing source levelName none).1 := by
  have failed {outline : Option String} {warnings : List String} {hits : List Hit} (e : Failure) :
      ParseResult.Tells ⟨outline, some e, warnings, none, hits⟩ (.error e) :=
    ⟨fun other => by rw [Option.some_inj, Except.error.injEq], nofun, nofun⟩
  -- both go down the same stages side by side; the outline stands between two of them and has been written
  unfold parseSource at h
  unfold analyzeSource
  cases hr : readInput source levelName with
  | error e =>
    rw [hr] at h
    cases h
    exact failed e
  | ok input =>
    obtain ⟨level, text⟩ := input
    rw [hr] at h
    dsimp only at h ⊢
    rcases hp : Program.parse level (.ofText text none) with ⟨e | p, guard⟩
    · rw [hp] at h
      cases h
      exact failed e
    · rw [hp] at h
      dsimp only at h ⊢
      cases ho : p.outlineIn outlining with
      | error shortage =>
        rw [ho] at h
        cases h
      | ok outline =>
        rw [ho] at h
        dsimp only at h
        cases hj : p.judge parsing level text with
        | error e =>
          rw [hj] at h
          cases h
          exact failed e
        | ok report =>
          rw [hj] at h
          cases h
          refine ⟨fun e => iff_of_false nofun nofun, ?_, ?_⟩
          · rintro a ⟨⟩
            rfl
          · rintro a ⟨⟩
            rfl

/-- The wording of what went wrong with a compilation. -/
def compileErrors : Except Failure Compiled → List String
  | .ok _ => []
  | .error e => [e.summary]

/-- Parsing a source for display comes to no result exactly if there is no room for the outline of its program.
Otherwise the failures of parsing, validating and compiling are those of the first stage that the source does
not pass. If the analyses do not run short of room, a source is parsed, validated and compiled with success alike,
whatever the options of the compilation; with a failure, parsing and compiling word it alike; with success they
tell the same warnings and the same report. -/
theorem ways_to_use_agree (outlining parsing validating compiling : Room) (source : SourceInput) (levelName : String)
    (options : CompileOptions) :
    let compiled := (compileSource compiling source levelName options).1
    ((∃ shortage, parseSource outlining parsing source levelName = .error shortage) ↔
        Unshowable outlining source levelName) ∧
      (validateSource validating source levelName = true ↔ ∀ e, ¬ FirstFailure validating source levelName e) ∧
      (∀ e, compiled = .error e ↔ FirstFailure compiling source levelName e) ∧
      ∀ parsed, parseSource outlining parsing source levelName = .ok parsed →
        (∀ e, parsed.failure = some e ↔ FirstFailure parsing source levelName e) ∧
          (Suffices source levelName parsing → Suffices source levelName validating →
            Suffices source levelName compiling →
              (validateSource validating source levelName = true ↔ parsed.success = true) ∧
                (parsed.success = true ↔ ∃ c, compiled = .ok c) ∧
                parsed.errors = compileErrors compiled ∧
                ∀ c, compiled = .ok c →
                  parsed.warnings = c.analyzed.warnings ∧ parsed.report = some c.analyzed.report) := by
  have failed (room : Room) (e : Failure) :
      (analyzeSource room source levelName none).1 = .error e ↔ FirstFailure room source levelName e :=
    analyzeSource_eq_error
  have compiles (e : Failure) : (compileSource compiling source levelName options).1 = .error e ↔
      FirstFailure compiling source levelName e := by
    rw [← failed, compileSource]
    rcases analyzeSource compiling source levelName none with ⟨cause | a, hits⟩
    · simp only [Except.map, Except.error.injEq]
    · exact iff_of_false nofun nofun
  have validates : validateSource validating source levelName = true ↔
      ∀ e, ¬ FirstFailure validating source levelName e := by
    simp only [← failed, validateSource]
    rcases analyzeSource validating source levelName none with ⟨cause | a, hits⟩
    · exact iff_of_false nofun fun none => none cause rfl
    · exact iff_of_true rfl nofun
  refine ⟨parseSource_eq_error, validates, compiles, fun parsed h => ?_⟩
  have told := parseSource_tells h
  have failure (e : Failure) : parsed.failure = some e ↔ FirstFailure parsing source levelName e := by
    rw [told.failure, failed]
  refine ⟨failure, fun here there_validating there_compiling => ?_⟩
  rw [validates]
  -- each way fails with a first failure in its own room, and where no room is short the room does not matter
  cases outcome : (analyzeSource parsing source levelName none).1 with
  | error e =>
    have first := (failed parsing e).mp outcome
    have fails : parsed.failure = some e := (failure e).mpr first
    have uncompiled := (compiles e).mpr (first.unchanged here there_compiling)
    rw [ParseResult.success, ParseResult.errors, fails, uncompiled]
    refine ⟨iff_of_false (fun none => none e (first.unchanged here there_validating)) nofun,
      iff_of_false nofun nofun, rfl, nofun⟩
  | ok a =>
    have passes : parsed.failure = none :=
      Option.eq_none_iff_forall_ne_some.mpr fun e he => by
        rw [(told.failure e).mp he] at outcome
        cases outcome
    have compiled : (compileSource compiling source levelName options).1 = .ok (.ofAnalyzed options a) := by
      rw [compileSource]
      dsimp only
      rw [analyzeSource_unchanged outcome there_compiling]
      rfl
    have valid (e : Failure) : ¬ FirstFailure validating source levelName e := by
      rw [← failed, analyzeSource_unchanged outcome there_validating]
      nofun
    rw [ParseResult.success, ParseResult.errors, passes, compiled]
    refine ⟨iff_of_true valid rfl, iff_of_true rfl ⟨_, rfl⟩, rfl, ?_⟩
    rintro c ⟨⟩
    exact ⟨told.warnings a outcome, told.report a outcome⟩

/-- A source that welcomes its reader. -/
def welcomeSource : SourceInput :=
  .text "app A \x7b start = H \x7d screen H \x7b state who = \"you\" ui \x7b label \"hello\" \x7d \x7d"

/-- The welcome is parsed for display with success, and tells the report that it is compiled with. -/
theorem ways_to_use_agree_welcomeSource : ∃ parsed c,
    parseSource .usual .usual welcomeSource "strict" = .ok parsed ∧ parsed.success = true ∧
      (compileSource .usual welcomeSource "strict" .default).1 = .ok c ∧
      parsed.report = some c.analyzed.report := by
  have shown : (parseSource .usual .usual welcomeSource "strict").isOk = true := by decide +kernel
  have valid : validateSource .usual welcomeSource "strict" = true := by decide +kernel
  obtain ⟨-, validates, -, agree⟩ :=
    ways_to_use_agree .usual .usual .usual .usual welcomeSource "strict" .default
  have enough : Suffices welcomeSource "strict" .usual := fun shortage => validates.mp valid (.short shortage)
  cases h : parseSource .usual .usual welcomeSource "strict" with
  | error shortage => rw [h] at shown; cases shown
  | ok parsed =>
    obtain ⟨validated, compiles, -, told⟩ := (agree parsed h).2 enough enough enough
    have success := validated.mp valid
    obtain ⟨c, hc⟩ := compiles.mp success
    exact ⟨parsed, c, rfl, success, hc, (told c hc).2⟩

/-- A source with a condition on a path of many names. -/
def longPathSource : SourceInput :=
  .text ("app A \x7b start = H \x7d screen H \x7b ui \x7b if a" ++ String.join (.replicate 31 ".a")
    ++ " == 1 \x7b \x7d \x7d \x7d")

/-- What the parsing of a source for display is short of, if it comes to no result. -/
def parseShortage? : Except Shortage ParseResult → Option Shortage
  | .ok _ => none
  | .error shortage => some shortage

/-- Where thirty places are left on the call stack, the source with the long path is refused when it is validated
and compiled, but parsing it for display comes to no result at all. -/
theorem not_ways_to_use_agree_longPath :
    let room : Room := fun _ => 30
    parseSource room room longPathSource "strict" = .error .stack ∧
      validateSource room longPathSource "strict" = false ∧
      compileErrors (compileSource room longPathSource "strict" .default).1 =
        ["Security error (resource_limit_exceeded): expression nesting depth exceeds limit: 11 > 10"] := by
  intro room
  have short : parseShortage? (parseSource room room longPathSource "strict") = some .stack := by decide +kernel
  refine ⟨?_, by decide +kernel, by decide +kernel⟩
  cases h : parseSource room room longPathSource "strict" with
  | ok parsed => rw [h] at short; cases short
  | error shortage => rw [h] at short; cases short; rfl

end Screenplay
