/-
Assignments and what is read after them. A literal that the guards accept is assigned, unless a listener
writes. A single name then has the value of the literal; a path with a point in it has the value that it had
before, as it is assigned by its whole text, and read by the names in it.
-/
import Screenplay.Proofs.Parse.Expressions
import Screenplay.Proofs.Parse.Paths
import Screenplay.Proofs.Run.Tasks
import Screenplay.Proofs.Store.Writes

namespace Screenplay

/-! ## Values after a write -/

namespace Store

theorem notify_values {guard : Guard} {change : Change} {s : Store} {heard : List Delivery}
    {listeners : List Listener} {made : Change}
    (h : (notify guard change s heard listeners).result = .ok made) :
    (notify guard change s heard listeners).store.values =
      if listeners.any (·.reaction = .clear) then [] else s.values := by
  induction listeners generalizing s heard with
  | nil => rfl
  | cons l later ih =>
    rw [notify] at h ⊢
    cases hr : l.reaction with
    | write name =>
      rw [hr] at h
      cases h
    | clear =>
      rw [hr] at h
      simp only [react] at h ⊢
      rw [ih h, List.any_cons, hr]
      simp [clear]
    | record | cancel | unsubscribe =>
      rw [hr] at h
      simp only [react] at h ⊢
      rw [ih h, List.any_cons, hr]
      rfl

/-- A write that nobody refuses puts the value in, and if a listener clears the store, no value is left. -/
theorem set_values {s : Store} {guard : Guard} {name : String} {value : Value} {made : Change}
    (h : (s.set guard name value).result = .ok made) :
    (s.set guard name value).store.values =
      if s.listeners.any (·.reaction = .clear) then [] else s.values.put name value := by
  unfold set at h ⊢
  rcases hc : guard.check (Check.state name value) with ⟨violation | ⟨⟩, after⟩
  · rw [hc] at h
    cases h
  · rw [hc] at h
    exact notify_values h

end Store

/-! ## Values of paths -/

namespace Expr

/-- The value of a path depends on the variable only that it starts with. -/
theorem evaluate_fields_congr {look other : String → Option Value} {root : String} (h : look root = other root)
    (fields : List String) :
    (fields.foldl field (var root)).evaluate look = (fields.foldl field (var root)).evaluate other := by
  induction fields using List.reverseRecOn with
  | nil => rw [List.foldl_nil, evaluate, evaluate, h]
  | append_singleton fields name ih =>
    rw [List.foldl_append, List.foldl_cons, List.foldl_nil, evaluate, evaluate, ih]

/-- Without a value of the variable that it starts with, a path stands for its own text. -/
theorem evaluate_fields_of_none {look : String → Option Value} {root : String} (h : look root = none)
    (fields : List String) :
    (fields.foldl field (var root)).evaluate look = .ok (.text (fields.foldl field (var root)).text) := by
  induction fields using List.reverseRecOn with
  | nil => rw [List.foldl_nil, evaluate, h]; rfl
  | append_singleton fields name ih =>
    rw [List.foldl_append, List.foldl_cons, List.foldl_nil, evaluate, ih]
    rfl

end Expr

/-- The value of a text that is read as an expression and evaluated; none if it is no expression, or one without a
value. -/
def Policy.valueOf? (policy : Policy) (look : String → Option Value) (text : String) : Option Value :=
  match policy.readExpr text with
  | .ok (e, _) => (e.evaluate look).toOption
  | .error _ => none

/-! ## Assignments -/

/-- A value that the guards of a run accept for a variable. -/
structure RunState.Accepts (s : RunState) (name : String) (value : Value) : Prop where
  text : ∀ text, value = .text text →
    ∀ c ∈ Check.string text s!"value of '{name}'", c.Passes s.engine.guard.policy.enforced
  state : ∀ c ∈ Check.state name value, c.Passes s.engine.writeGuard.policy.enforced

/-- What the assignment of a literal is short of: its value is told from the expression, and written out for the
trace when it stands in the store. -/
def RunState.shortage? (s : RunState) (value : Value) : Option Shortage :=
  ((Expr.literal value).valueShortage? s.store.get? (s.engine.around.room s.engine.contacts)).or
    (value.displayShortage? (s.engine.around.room (s.engine.contacts + 2)))

namespace Run

/-- A write that nobody refuses is made, and goes on if the value can be written out. -/
theorem write_run {s : RunState} {name : String} {value : Value} {made : Change}
    (h : (s.store.set s.engine.writeGuard name value).result = .ok made) :
    ∃ t, write name value s =
        (Move.required (value.displayShortage? (s.engine.around.room (s.engine.contacts + 1))), t) ∧
      t.store = (s.store.set s.engine.writeGuard name value).store := by
  have put : write name value s = (do
      express (value.displayShortage? ·)
      log .stateUpdated s!"{name} = {value.display}") (Move.effect s (.write name value)) := by
    rw [write, get_bind_run, set_bind_run, h]
    rfl
  have outside : (Move.effect s (.write name value)).engine.around = s.engine.around ∧
      (Move.effect s (.write name value)).engine.contacts = s.engine.contacts + 1 := by
    unfold Move.effect Engine.afterWrite
    cases s.engine.storeGuard <;> exact ⟨rfl, rfl⟩
  rw [put, bind_run, Move.express_run, outside.1, outside.2]
  cases value.displayShortage? (s.engine.around.room (s.engine.contacts + 1)) with
  | none => exact ⟨_, rfl, RunState.log_store _ _ _⟩
  | some shortage => exact ⟨_, rfl, rfl⟩

/-- Checks that pass leave no more behind than the guard's notes. -/
theorem check_run {s : RunState} {cs : List Check} (passes : ∀ c ∈ cs, c.Passes s.engine.guard.policy.enforced) :
    check cs s = (.ok (), { s with engine := { s.engine with guard := (s.engine.guard.check cs).2 } }) := by
  show settle (s.engine.guard.check cs) s = _
  rw [Move.settle_run, Guard.check_eq_ok.mpr passes]
  rfl

/-- What an assignment does before its write changes no more than the guard's notes, and turns to the surroundings
once. -/
theorem update_before_write {s : RunState} {name : String} {value : Value} (accepted : s.Accepts name value)
    (told : (Expr.literal value).valueShortage? s.store.get? (s.engine.around.room s.engine.contacts) = none)
    (written : String) :
    ∃ noted : RunState, update name (.literal value) written s = write name value noted ∧ noted.store = s.store ∧
      noted.engine.writeGuard.policy = s.engine.writeGuard.policy ∧ noted.engine.around = s.engine.around ∧
      noted.engine.contacts = s.engine.contacts + 1 := by
  cases value with
  | text text =>
    have asked : update name (.literal (.text text)) written s =
        (check (Check.string text s!"value of '{name}'") >>= fun _ => write name (.text text))
          { s with engine := s.engine.contact } := by
      rw [update, Task.look_bind_run, bind_run, Move.express_run, told]
      rfl
    have checked := check_run (s := { s with engine := s.engine.contact }) (accepted.text text rfl)
    let noted := (s.engine.guard.check (Check.string text s!"value of '{name}'")).2
    refine ⟨{ s with engine := { s.engine.contact with guard := noted } }, ?_, rfl, ?_, rfl, rfl⟩
    · rw [asked, bind_run, checked]
      rfl
    · unfold Engine.writeGuard
      show (s.engine.storeGuard.getD noted).policy = _
      cases s.engine.storeGuard with
      | some _ => rfl
      | none => exact Guard.check_policy _ _
  | null | bool | int | float | list | map =>
    refine ⟨{ s with engine := s.engine.contact }, ?_, rfl, rfl, rfl, rfl⟩
    rw [update, Task.look_bind_run, bind_run, Move.express_run, told]
    rfl

/-- A literal that the guards accept is assigned, unless a listener writes or something runs out. -/
theorem update_run {s : RunState} {name : String} {value : Value} (accepted : s.Accepts name value)
    (quiet : ∀ l ∈ s.store.listeners, ∀ other, l.reaction ≠ .write other) (written : String) :
    ∃ t, update name (.literal value) written s = (Move.required (s.shortage? value), t) ∧
      (s.shortage? value = none → t.store.values =
        if s.store.listeners.any (·.reaction = .clear) then [] else s.store.values.put name value) := by
  unfold RunState.shortage?
  cases told : (Expr.literal value).valueShortage? s.store.get? (s.engine.around.room s.engine.contacts) with
  | some shortage =>
    refine ⟨{ s with engine := s.engine.contact }, ?_, fun none => by cases none⟩
    rw [update, Task.look_bind_run, bind_run, Move.express_run, told]
    rfl
  | none =>
    obtain ⟨noted, before, store, policy, around, contacts⟩ := update_before_write accepted told written
    have made : ∃ c, (noted.store.set noted.engine.writeGuard name value).result = .ok c := by
      cases hr : (noted.store.set noted.engine.writeGuard name value).result with
      | ok c => exact ⟨c, rfl⟩
      | error e =>
        rcases Store.set_error hr with ⟨violation, refused, -⟩ | ⟨l, hl, other, writes, -⟩
        · rw [Guard.check_eq_ok.mpr (policy ▸ accepted.state)] at refused
          cases refused
        · exact absurd writes (quiet l (store ▸ hl) other)
    obtain ⟨c, hc⟩ := made
    obtain ⟨t, run, after⟩ := write_run hc
    rw [around, contacts] at run
    refine ⟨t, before.trans run, fun _ => ?_⟩
    rw [after, Store.set_values hc, store]

/-- What the text of a path that a program assigns to gives back after an assignment that goes on, as it does
unless something runs out. A single name has the value that has been assigned, unless it is a word of the language
or a listener clears the store; a path with a point in it has the value that it had before. -/
theorem valueOf_assigned {level : Level} {source : Source} {p : Program}
    (h : (Program.parse level source).1 = .ok p) {name written : String} {assigned : Expr}
    (ha : p.HasAction (.update name assigned written)) {s : RunState} {v : Value} (accepted : s.Accepts name v)
    (quiet : ∀ l ∈ s.store.listeners, ∀ other, l.reaction ≠ .write other) (depth : Nat) (text : String) :
    ∃ t, action depth (.update name (.literal v) text) s = (Move.required (s.shortage? v), t) ∧
      (s.shortage? v = none →
        (Policy.ofLevel level).valueOf? t.store.get? name =
          if name = "not" then none
          else if name = "true" ∨ name = "false" then some (.bool (name = "true"))
          else if s.store.listeners.any (·.reaction = .clear) then some (.text name)
          else if '.' ∈ name.toList then (Policy.ofLevel level).valueOf? s.store.get? name
          else some v) := by
  have path := Program.isPath_of_assigned h ha
  have clean := (Program.vetted_of_parse h).clean_of_name (.update ha)
  obtain ⟨negation, truth, named⟩ := Policy.readExpr_of_path path clean
  obtain ⟨t, run, values⟩ := update_run accepted quiet text
  refine ⟨t, by rw [action]; exact run, fun told => ?_⟩
  have values := values told
  -- words of the language are read as such, before any variable is looked up
  by_cases hn : name = "not"
  · obtain ⟨failure, read⟩ := negation hn
    rw [if_pos hn, Policy.valueOf?, read]
  rw [if_neg hn]
  by_cases ht : name = "true" ∨ name = "false"
  · obtain ⟨ending, -, read⟩ := truth ht
    rw [if_pos ht, Policy.valueOf?, read]
    rfl
  rw [if_neg ht]
  obtain ⟨ending, -, read⟩ := named (by simp [hn, not_or.mp ht])
  obtain ⟨root, fields, expr, single, dotted⟩ := Expr.ofPathText_root name
  rw [Policy.valueOf?, Policy.valueOf?, read]
  dsimp only
  split at values
  · next cleared =>
    -- a store that has been cleared knows no variable, so the path stands for its own text
    have unknown : t.store.get? root = none := by rw [Store.get?, values]; rfl
    rw [if_pos cleared, expr, Expr.evaluate_fields_of_none unknown, ← expr, Expr.text_ofPathText]
    rfl
  · next kept =>
    rw [if_neg kept]
    split
    · next hd =>
      -- the variable that is written has the whole path as its name, the one that is read only its beginning
      have same : t.store.get? root = s.store.get? root := by
        rw [Store.get?, values, Entries.get?_put_of_ne _ _ (dotted hd)]
        rfl
      rw [expr, Expr.evaluate_fields_congr same]
    · next hd =>
      obtain ⟨rfl, rfl⟩ := single hd
      rw [expr, List.foldl_nil, Expr.evaluate, Store.get?, values, Entries.get?_put_self]
      rfl

/-- A button that assigns to a path with a point in it, and to a single name. -/
def pathSource : Source :=
  .ofText "app A \x7b start = H \x7d\nscreen H \x7b ui \x7b button \"b\" \x7b\n a.b = 1\n x = a.b\n\x7d \x7d \x7d" none

/-- The name that a site assigns to. -/
def assigned? : Site → Option String
  | .action (.update name _ _) => some name
  | _ => none

theorem exists_hasAction_of_assigned? {p : Program} {name : String} {site : Site} (hs : p.Has site)
    (h : assigned? site = some name) : ∃ value written, p.HasAction (.update name value written) := by
  unfold assigned? at h
  split at h
  · next value written =>
    cases h
    exact ⟨value, written, Program.has_action.mp hs⟩
  · cases h

/-- What the button assigns to. -/
theorem parse_pathSource :
    ∃ p, (Program.parse .strict pathSource).1 = .ok p ∧
      (∃ value written, p.HasAction (.update "a.b" value written)) ∧
      ∃ value written, p.HasAction (.update "x" value written) := by
  have hc : (Program.parse .strict pathSource).1.toOption.any (fun p =>
      (p.screens.flatMap Screen.sites).any (assigned? · == some "a.b")
        && (p.screens.flatMap Screen.sites).any (assigned? · == some "x")) = true := by
    decide +kernel
  obtain ⟨p, h, told⟩ := Parse.exists_parsed hc
  simp only [Bool.and_eq_true, List.any_eq_true, beq_iff_eq, List.mem_flatMap] at told
  obtain ⟨⟨dotted, hd, path⟩, single, hs, name⟩ := told
  exact ⟨p, h, exists_hasAction_of_assigned? hd path, exists_hasAction_of_assigned? hs name⟩

/-- A run at its start, with a listener that records. -/
def blank : RunState := ⟨.ofOptions .default, (Store.empty 100).subscribe .record, 0, [], [], []⟩

theorem accepts_blank : blank.Accepts "x" (.int 1) ∧ blank.Accepts "a.b" (.int 1) := by
  have single : (blank.engine.writeGuard.check (Check.state "x" (.int 1))).1 = .ok () := by decide +kernel
  have dotted : (blank.engine.writeGuard.check (Check.state "a.b" (.int 1))).1 = .ok () := by decide +kernel
  exact ⟨⟨nofun, Guard.check_eq_ok.mp single⟩, nofun, Guard.check_eq_ok.mp dotted⟩

theorem quiet_blank : ∀ l ∈ blank.store.listeners, ∀ other, l.reaction ≠ .write other := by
  rintro l hl other
  cases List.mem_singleton.mp hl
  nofun

theorem told_blank : blank.shortage? (.int 1) = none := by decide +kernel

/-- The single name has the value that has been assigned. -/
theorem valueOf_assigned_blank :
    ∃ t, action 1 (.update "x" (.literal (.int 1)) "1") blank = (.ok (), t) ∧
      (Policy.ofLevel .strict).valueOf? t.store.get? "x" = some (.int 1) := by
  obtain ⟨p, h, -, value, written, ha⟩ := parse_pathSource
  obtain ⟨t, run, read⟩ := valueOf_assigned h ha accepts_blank.1 quiet_blank 1 "1"
  rw [told_blank] at run
  exact ⟨t, run, read told_blank⟩

/-- The path with a point in it still stands for its own text after the assignment. -/
theorem not_valueOf_assigned_blank :
    ∃ p value written, (Program.parse .strict pathSource).1 = .ok p ∧ p.HasAction (.update "a.b" value written) ∧
      blank.Accepts "a.b" (.int 1) ∧
      ∃ t, action 1 (.update "a.b" (.literal (.int 1)) "1") blank = (.ok (), t) ∧
        (Policy.ofLevel .strict).valueOf? t.store.get? "a.b" = some (.text "a.b") ∧
        (Policy.ofLevel .strict).valueOf? t.store.get? "a.b" ≠ some (.int 1) := by
  obtain ⟨p, h, ⟨value, written, ha⟩, -⟩ := parse_pathSource
  obtain ⟨t, run, values⟩ := update_run accepts_blank.2 quiet_blank "1"
  rw [told_blank] at run
  have values := values told_blank
  have read : (Policy.ofLevel .strict).valueOf? t.store.get? "a.b" = some (.text "a.b") := by
    have path : isPath "a.b".toList = true := by decide
    have clean : (Policy.ofLevel .strict).enforced.findBlocked "a.b" = none := by decide
    obtain ⟨ending, -, read⟩ := (Policy.readExpr_of_path path clean).2.2 (by decide)
    have unknown : t.store.get? "a" = none := by
      rw [Store.get?, values]
      rfl
    rw [Policy.valueOf?, read]
    exact congrArg Except.toOption (Expr.evaluate_fields_of_none unknown ["b"])
  exact ⟨p, value, written, h, ha, accepts_blank.2, t, run, read, by rw [read]; nofun⟩

end Run

end Screenplay
