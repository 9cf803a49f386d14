/-
Tokens tile their source text. Between two tokens, before the first one and after the last one there is nothing
but white space and comments, every token stands in the text where it says, and tokenizing fails at an opening
quote that no later quote closes, and nowhere else.
-/
import Screenplay.Program.Parser
import Screenplay.Proofs.Text.Positions

namespace Screenplay

open Text

/-! ## Gaps -/

namespace Text

/-- White space and comments that something follows: a comment runs to the end of its line. -/
inductive Gap (rest : List Char) : List Char → Prop where
  | nil : Gap rest []
  | blank {c : Char} {gap : List Char} (h : isBlank c = true) (later : Gap rest gap) : Gap rest (c :: gap)
  | comment {body gap : List Char} (line : '\n' ∉ body) (ends : ∀ c ∈ (gap ++ rest).head?, c = '\n')
    (later : Gap rest gap) : Gap rest ('#' :: body ++ gap)

/-- The characters of a text from one offset to another. -/
def between (text : List Char) (start stop : Nat) : List Char := (text.drop start).take (stop - start)

theorem between_append (before piece rest : List Char) :
    between (before ++ piece ++ rest) before.length (before ++ piece).length = piece := by
  rw [between, List.append_assoc, List.drop_left, List.length_append, Nat.add_sub_cancel_left, List.take_left]

/-- There is nothing but a gap from one offset of a text to another. -/
structure Gapped (text : List Char) (start stop : Nat) : Prop where
  le : start ≤ stop
  gap : Gap (text.drop stop) (between text start stop)

end Text

namespace Token

/-- What is skipped inside a comment is the rest of its line and a gap. -/
theorem splitGap_gap (cs : List Char) :
    Gap (splitGap false cs).2 (splitGap false cs).1 ∧
      ∃ body gap, (splitGap true cs).1 = body ++ gap ∧ '\n' ∉ body ∧
        (∀ c ∈ (gap ++ (splitGap true cs).2).head?, c = '\n') ∧ Gap (splitGap true cs).2 gap := by
  -- outside and inside of a comment at once: a mark leads into it, and a line break out of it
  induction cs with
  | nil => exact ⟨.nil, [], [], rfl, List.not_mem_nil, by simp [splitGap], .nil⟩
  | cons c cs ih =>
    obtain ⟨outside, body, gap, split, line, ends, inside⟩ := ih
    constructor
    · rw [splitGap]
      by_cases mark : c = '#'
      · rw [if_pos (by rw [mark]; rfl), mark]
        dsimp only
        rw [split, ← List.cons_append]
        exact .comment line ends inside
      · rw [if_neg (by simpa [inComment] using mark)]
        split
        · next blank => exact .blank blank outside
        · exact .nil
    · rw [splitGap]
      by_cases lineBreak : c = '\n'
      · rw [if_neg (by simpa [inComment] using lineBreak), if_pos (by rw [lineBreak]; decide)]
        exact ⟨[], c :: (splitGap false cs).1, rfl, List.not_mem_nil, by simp [lineBreak],
          .blank (by rw [lineBreak]; decide) outside⟩
      · rw [if_pos (by simpa [inComment] using lineBreak)]
        refine ⟨c :: body, gap, by rw [split]; rfl, ?_, ends, inside⟩
        simpa [Ne.symm lineBreak] using line

/-! ## String literals -/

/-- The number of backslashes that stand right before the end of some characters. -/
def backslashes (cs : List Char) : Nat := (cs.rtakeWhile (· = '\\')).length

theorem backslashes_cons_of_ne {c : Char} (h : c ≠ '\\') (cs : List Char) :
    backslashes (c :: cs) = backslashes cs := by
  unfold backslashes List.rtakeWhile
  rw [List.reverse_cons, List.takeWhile_append]
  split
  · next all =>
    rw [List.takeWhile_cons_of_neg (by simpa using h), List.append_nil, List.reverse_reverse, List.length_reverse,
      all, List.length_reverse]
  · rfl

theorem backslashes_cons_self (cs : List Char) :
    backslashes ('\\' :: cs) = backslashes cs + if backslashes cs = cs.length then 1 else 0 := by
  unfold backslashes List.rtakeWhile
  rw [List.reverse_cons, List.takeWhile_append]
  simp only [List.length_reverse]
  split
  · next all => simp [all]
  · rfl

theorem backslashes_le (cs : List Char) : backslashes cs ≤ cs.length := by
  unfold backslashes List.rtakeWhile
  rw [List.length_reverse]
  exact (List.takeWhile_prefix _).length_le.trans_eq List.length_reverse

/-- A backslash takes the character after it along: whether the one after is escaped depends on what follows. -/
theorem backslashes_pair (d : Char) (cs : List Char) :
    backslashes ('\\' :: d :: cs) % 2 = backslashes cs % 2 := by
  have shorter := backslashes_le cs
  by_cases h : d = '\\'
  · rw [h, backslashes_cons_self, backslashes_cons_self, List.length_cons]
    split
    · next all => rw [if_pos (by omega)]; omega
    · next some => rw [if_neg (by omega)]; rfl
  · rw [backslashes_cons_self, backslashes_cons_of_ne h, List.length_cons, if_neg (by omega)]
    rfl

/-- What follows an opening quote if no later quote of its kind closes it: each one is escaped. -/
def Unclosed (quote : Char) (cs : List Char) : Prop :=
  ∀ before after, cs = before ++ quote :: after → backslashes before % 2 = 1

theorem unclosed_cons {quote c : Char} (other : c ≠ quote) (plain : c ≠ '\\') {cs : List Char} :
    Unclosed quote (c :: cs) ↔ Unclosed quote cs := by
  constructor
  · rintro h before after rfl
    rw [← backslashes_cons_of_ne plain]
    exact h (c :: before) after rfl
  · rintro h before after split
    cases before with
    | nil => cases split; exact absurd rfl other
    | cons first before =>
      cases split
      rw [backslashes_cons_of_ne plain]
      exact h before after rfl

theorem unclosed_escape {quote : Char} (plain : quote ≠ '\\') (d : Char) {cs : List Char} :
    Unclosed quote ('\\' :: d :: cs) ↔ Unclosed quote cs := by
  constructor
  · rintro h before after rfl
    rw [← backslashes_pair d]
    exact h ('\\' :: d :: before) after rfl
  · rintro h before after split
    cases before with
    | nil => cases split; exact absurd rfl plain
    | cons first before =>
      cases before with
      | nil => cases split; rfl -- the quote is the escaped character itself
      | cons second before =>
        cases split
        rw [backslashes_pair]
        exact h before after rfl

/-- A string literal is never closed exactly if every later quote of its kind is escaped. -/
theorem stringTail?_eq_none {quote : Char} (plain : quote ≠ '\\') (cs : List Char) :
    stringTail? quote cs = none ↔ Unclosed quote cs := by
  have closed (cs : List Char) : ¬ Unclosed quote (quote :: cs) := fun h => absurd (h [] cs rfl) (by decide)
  fun_induction stringTail? quote cs with
  | case1 => simp [Unclosed]
  | case2 => exact iff_of_false (Option.some_ne_none _) (closed _)
  | case3 c other =>
    refine ⟨fun _ before after split => ?_, fun _ => rfl⟩
    rcases List.singleton_eq_append_iff.mp split with ⟨-, short⟩ | ⟨-, short⟩ <;> cases short
    exact absurd rfl other
  | case4 => exact iff_of_false (Option.some_ne_none _) (closed _)
  | case5 d cs _ ih => exact Option.map_eq_none_iff.trans (ih.trans (unclosed_escape plain d).symm)
  | case6 c d cs other single ih => exact Option.map_eq_none_iff.trans (ih.trans (unclosed_cons other single).symm)

/-! ## Lexemes -/

theorem stringTail?_kind {quote : Char} {cs : List Char} {l : Lexeme} (h : stringTail? quote cs = some l) :
    l.kind = .string := by
  fun_induction stringTail? quote cs generalizing l with
  | case1 => cases h
  | case2 => cases h; rfl
  | case3 => cases h
  | case4 => cases h; rfl
  | case5 _ _ _ ih =>
    obtain ⟨m, hm, rfl⟩ := Option.map_eq_some_iff.mp h
    exact (ih hm : m.kind = .string)
  | case6 _ _ _ _ _ ih =>
    obtain ⟨m, hm, rfl⟩ := Option.map_eq_some_iff.mp h
    exact (ih hm : m.kind = .string)

theorem symbol?_kind {cs : List Char} {l : Lexeme} (h : symbol? cs = some l) : l.kind = .symbol := by
  unfold symbol? at h
  split at h
  · cases h
  · split at h <;> cases h
    rfl
  · split at h
    · cases h
      rfl
    · split at h <;> cases h
      rfl

/-- No lexeme is the end of a text. -/
theorem lexeme?_kind {cs : List Char} {l : Lexeme} (h : lexeme? cs = some l) : l.kind ≠ .ending := by
  unfold lexeme? at h
  split at h
  · cases h
  · split at h
    · obtain ⟨m, hm, rfl⟩ := Option.map_eq_some_iff.mp h
      dsimp only
      rw [stringTail?_kind hm]
      decide
    · split at h
      · next hm =>
        cases h
        rw [symbol?_kind hm]
        decide
      · cases h
        exact TokenKind.noConfusion

/-- There is no lexeme at an opening quote that is never closed, and nowhere else. -/
theorem lexeme?_eq_none {c : Char} {cs : List Char} :
    lexeme? (c :: cs) = none ↔ isQuote c = true ∧ Unclosed c cs := by
  rw [lexeme?]
  split
  · next quote =>
    have plain : c ≠ '\\' := fun same => by rw [same] at quote; exact absurd quote (by decide)
    rw [Option.map_eq_none_iff, stringTail?_eq_none plain]
    exact (and_iff_right quote).symm
  · next other =>
    constructor
    · intro h
      split at h <;> cases h
    · exact fun h => absurd h.1 other

/-! ## Tilings -/

/-- A token that stands in a text where it says. -/
structure Stands (text : List Char) (t : Token) : Prop where
  kind : t.kind ≠ .ending
  nonempty : t.start < t.stop
  inside : t.stop ≤ text.length
  reads : t.text.toList = between text t.start t.stop
  position : t.position = .counted (text.take t.start)

/-- Where some tokens end that come after an offset. -/
def endOf (start : Nat) (tokens : List Token) : Nat := (tokens.getLast?.map (·.stop)).getD start

/-- Where some tokens start that come before an offset. -/
def startOf (stop : Nat) (tokens : List Token) : Nat := (tokens.head?.map (·.start)).getD stop

/-- Tokens that tile a text from one offset to another: they stand in it one after the other, and wherever they
are parted there is a gap. -/
structure Tiling (text : List Char) (start stop : Nat) (tokens : List Token) : Prop where
  stands : ∀ t ∈ tokens, t.Stands text
  after : ∀ t ∈ tokens, start ≤ t.start
  ordered : tokens.Pairwise (·.stop ≤ ·.start)
  gaps : ∀ before later, tokens = before ++ later →
    Gapped text (endOf start before) (startOf stop later)

namespace Tiling

variable {text : List Char} {start stop : Nat}

/-- No tokens tile a gap. -/
theorem nil (gapped : Gapped text start stop) : Tiling text start stop [] := by
  refine ⟨List.forall_mem_nil _, List.forall_mem_nil _, .nil, fun before later split => ?_⟩
  obtain ⟨rfl, rfl⟩ := List.nil_eq_append_iff.mp split
  exact gapped

/-- A token after a gap and the tokens that tile what follows it. -/
theorem cons {t : Token} {tokens : List Token} (gapped : Gapped text start t.start) (stands : t.Stands text)
    (later : Tiling text t.stop stop tokens) : Tiling text start stop (t :: tokens) := by
  refine ⟨List.forall_mem_cons.mpr ⟨stands, later.stands⟩, List.forall_mem_cons.mpr ⟨gapped.le, fun u hu => ?_⟩,
    List.pairwise_cons.mpr ⟨later.after, later.ordered⟩, fun before rest split => ?_⟩
  · have behind := later.after u hu
    have := gapped.le
    have := stands.nonempty
    omega
  · -- the gap is the one in front of the token, or one after it
    cases before with
    | nil =>
      cases split
      exact gapped
    | cons first before =>
      cases split
      have last : endOf start (t :: before) = endOf t.stop before := by
        rw [endOf, endOf, List.getLast?_cons]
        cases before.getLast? <;> rfl
      rw [last]
      exact later.gaps before rest rfl

end Tiling

/-! ## Scanning -/

/-- What scanning a text from an offset comes to: the tokens that tile it with the end of the text, or the place of
an opening quote that is never closed, after the tokens that tile the text before it. -/
inductive Scans (text : List Char) (start : Nat) : Except OpenString (List Token) → Prop where
  | done {tokens : List Token} (tiling : Tiling text start text.length tokens) :
    Scans text start (.ok (tokens ++ [endingAt text.length (.counted text)]))
  | opened {tokens : List Token} {stop : Nat} {quote : Char} {rest : List Char}
    (tiling : Tiling text start stop tokens) (follows : text.drop stop = quote :: rest)
    (opening : isQuote quote = true) (unclosed : Unclosed quote rest) :
    Scans text start (.error ⟨.counted (text.take stop), String.ofList ((quote :: rest).take 20)⟩)

/-- A token in front. -/
theorem Scans.cons {text : List Char} {start : Nat} {t : Token} {outcome : Except OpenString (List Token)}
    (gapped : Gapped text start t.start) (stands : t.Stands text) (later : Scans text t.stop outcome) :
    Scans text start (outcome.map (t :: ·)) := by
  cases later with
  | done tiling => exact .done (tiling.cons gapped stands)
  | opened tiling follows opening unclosed => exact .opened (tiling.cons gapped stands) follows opening unclosed

/-- Scanning goes on after a gap and a lexeme. -/
theorem scanFrom_eq (offset : Nat) (position : Position) (cs : List Char) :
    scanFrom offset position cs =
      let gap := (splitGap false cs).1
      match (splitGap false cs).2 with
      | [] => .ok [endingAt (offset + gap.length) (position.after gap)]
      | c :: rest =>
        match lexeme? (c :: rest) with
        | none => .error ⟨position.after gap, String.ofList ((c :: rest).take 20)⟩
        | some l => (scanFrom (offset + gap.length + l.raw.length) ((position.after gap).after l.raw) l.rest).map
            (ofLexeme l (offset + gap.length) (position.after gap) :: ·) := by
  rw [scanFrom]
  split
  · next ended =>
    rw [List.isEmpty_iff.mp ended]
  · next going =>
    cases ha : (splitGap false cs).2 with
    | nil => exact absurd (by rw [ha]; rfl) going
    | cons c rest =>
      split
      · next missing => simp only [missing]
      · next l found =>
        simp only [found]
        cases scanFrom (offset + (splitGap false cs).1.length + l.raw.length)
          ((position.after (splitGap false cs).1).after l.raw) l.rest <;> rfl

/-- A gap that is skipped and what follows it. -/
theorem gapped_of_splitGap (before : List Char) {cs gap after : List Char}
    (h : splitGap false cs = (gap, after)) :
    before ++ cs = before ++ gap ++ after ∧
      Gapped (before ++ gap ++ after) before.length (before ++ gap).length := by
  have whole := splitGap_append false cs
  have skipped := (splitGap_gap cs).1
  rw [h] at whole skipped
  refine ⟨by rw [← whole, List.append_assoc], ?_, ?_⟩
  · rw [List.length_append]
    exact Nat.le_add_right _ _
  · rw [between_append, List.drop_left]
    exact skipped

/-- A lexeme is a token that stands where it was found. -/
theorem stands_ofLexeme {before cs : List Char} {l : Lexeme} (h : lexeme? cs = some l) :
    (ofLexeme l before.length (.counted before)).Stands (before ++ cs) := by
  obtain ⟨rfl, nonempty⟩ := lexeme?_append h
  have piece := between_append before l.raw l.rest
  have longer := List.length_pos_iff.mpr nonempty
  rw [← List.append_assoc]
  refine ⟨lexeme?_kind h, Nat.lt_add_of_pos_right longer, ?_, ?_, ?_⟩
  · simp [ofLexeme]
  · rw [List.length_append] at piece
    rw [ofLexeme, String.toList_ofList]
    exact piece.symm
  · rw [List.append_assoc, ofLexeme]
    dsimp only
    rw [List.take_left]

/-- Scanning what is left of a text, by induction on its length. -/
theorem scans_scanFrom (before cs : List Char) :
    Scans (before ++ cs) before.length (scanFrom before.length (.counted before) cs) := by
  induction hn : cs.length using Nat.strongRecOn generalizing before cs with
  | ind n ih =>
    -- the text so far is known by its length, so offset and position stay those of counting
    rw [scanFrom_eq]
    rcases hs : splitGap false cs with ⟨gap, after⟩
    obtain ⟨whole, gapped⟩ := gapped_of_splitGap before hs
    have place : (Position.counted before).after gap = .counted (before ++ gap) := (Position.counted_append ..).symm
    have offset : before.length + gap.length = (before ++ gap).length := (List.length_append ..).symm
    dsimp only
    rw [place, offset, whole]
    cases after with
    | nil =>
      rw [List.append_nil] at gapped ⊢
      exact .done (.nil gapped)
    | cons c rest =>
      dsimp only
      cases hl : lexeme? (c :: rest) with
      | none =>
        obtain ⟨opening, unclosed⟩ := lexeme?_eq_none.mp hl
        have opened := Scans.opened (.nil gapped) (List.drop_left ..) opening unclosed
        rwa [List.take_left] at opened
      | some l =>
        -- a lexeme is not empty, so the induction goes on with what is left behind it
        have shorter : l.rest.length < n := hn ▸ rest_shorter (by rw [hs]; exact hl)
        have later := ih _ shorter (before ++ gap ++ l.raw) l.rest rfl
        have further : (before ++ gap ++ l.raw).length = (before ++ gap).length + l.raw.length := List.length_append
        rw [List.append_assoc (before ++ gap), (lexeme?_append hl).1, Position.counted_append, further] at later
        exact .cons gapped (stands_ofLexeme hl) later

/-! ## Values -/

theorem stringTail?_value {quote : Char} {cs : List Char} {l : Lexeme} (h : stringTail? quote cs = some l) :
    l.value.length < l.raw.length := by
  fun_induction stringTail? quote cs generalizing l with
  | case1 => cases h
  | case2 => cases h; exact Nat.one_pos
  | case3 => cases h
  | case4 => cases h; exact Nat.one_pos
  | case5 _ _ _ ih =>
    obtain ⟨m, hm, rfl⟩ := Option.map_eq_some_iff.mp h
    have := ih hm
    simp only [Lexeme.push, List.length_append, List.length_cons, List.length_nil]
    omega
  | case6 _ _ _ _ _ ih =>
    obtain ⟨m, hm, rfl⟩ := Option.map_eq_some_iff.mp h
    have := ih hm
    simp only [Lexeme.push, List.length_append, List.length_cons, List.length_nil]
    omega

theorem symbol?_value {cs : List Char} {l : Lexeme} (h : symbol? cs = some l) : l.value = l.raw := by
  unfold symbol? at h
  split at h
  · cases h
  · split at h <;> cases h
    rfl
  · split at h
    · cases h
      rfl
    · split at h <;> cases h
      rfl

/-- The value of a lexeme is no longer than the lexeme. -/
theorem lexeme?_value {cs : List Char} {l : Lexeme} (h : lexeme? cs = some l) :
    l.value.length ≤ l.raw.length := by
  unfold lexeme? at h
  split at h
  · cases h
  · split at h
    · obtain ⟨m, hm, rfl⟩ := Option.map_eq_some_iff.mp h
      exact (stringTail?_value hm).le.trans (Nat.le_succ _)
    · split at h
      · next hm =>
        cases h
        rw [symbol?_value hm]
      · cases h
        exact le_rfl

/-- The value of a lexeme is made of its characters, and of the line breaks and tabs that are written with a
backslash. -/
theorem stringTail?_value_mem {quote : Char} {cs : List Char} {l : Lexeme} (h : stringTail? quote cs = some l) :
    ∀ c ∈ l.value, c ∈ l.raw ∨ c = '\n' ∨ c = '\t' := by
  have escaped (d : Char) : unescape d = d ∨ unescape d = '\n' ∨ unescape d = '\t' := by
    unfold unescape
    split
    · exact .inr (.inl rfl)
    · exact .inr (.inr rfl)
    · exact .inl rfl
  fun_induction stringTail? quote cs generalizing l with
  | case1 => cases h
  | case2 => cases h; exact List.forall_mem_nil _
  | case3 => cases h
  | case4 => cases h; exact List.forall_mem_nil _
  | case5 d _ _ ih =>
    obtain ⟨m, hm, rfl⟩ := Option.map_eq_some_iff.mp h
    intro c hc
    rcases List.mem_cons.mp hc with rfl | hc
    · exact (escaped d).imp_left fun same => by rw [same]; simp [Lexeme.push]
    · exact (ih hm c hc).imp_left fun mem => by simp [Lexeme.push, mem]
  | case6 d _ _ _ _ ih =>
    obtain ⟨m, hm, rfl⟩ := Option.map_eq_some_iff.mp h
    intro c hc
    rcases List.mem_cons.mp hc with rfl | hc
    · exact .inl (by simp [Lexeme.push])
    · exact (ih hm c hc).imp_left fun mem => by simp [Lexeme.push, mem]

theorem lexeme?_value_mem {cs : List Char} {l : Lexeme} (h : lexeme? cs = some l) :
    ∀ c ∈ l.value, c ∈ l.raw ∨ c = '\n' ∨ c = '\t' := by
  unfold lexeme? at h
  split at h
  · cases h
  · split at h
    · obtain ⟨m, hm, rfl⟩ := Option.map_eq_some_iff.mp h
      exact fun c hc => (stringTail?_value_mem hm c hc).imp_left (List.mem_cons_of_mem _)
    · split at h
      · next hm =>
        cases h
        rw [symbol?_value hm]
        exact fun c hc => .inl hc
      · cases h
        exact fun c hc => .inl hc

/-! ## Where tokens come from -/

/-- Every token of a text is the end of the text, or the lexeme of a place in it. -/
theorem lexeme_of_scanFrom (offset : Nat) (position : Position) (cs : List Char) {tokens : List Token}
    (h : scanFrom offset position cs = .ok tokens) {t : Token} (ht : t ∈ tokens) :
    (∃ offset position, t = endingAt offset position) ∨
      ∃ after l offset position, after <:+ cs ∧ lexeme? after = some l ∧ t = ofLexeme l offset position := by
  induction hn : cs.length using Nat.strongRecOn generalizing offset position cs tokens with
  | ind n ih =>
    have follows : (splitGap false cs).2 <:+ cs := ⟨_, splitGap_append false cs⟩
    rw [scanFrom_eq] at h
    cases ha : (splitGap false cs).2 with
    | nil =>
      rw [ha] at h
      cases h
      exact .inl ⟨_, _, List.mem_singleton.mp ht⟩
    | cons c rest =>
      cases hl : lexeme? (c :: rest) with
      | none =>
        rw [ha] at h
        simp only [hl] at h
        cases h
      | some l =>
        rw [ha] at h follows
        simp only [hl] at h
        -- the tokens behind the first one are scanned from its rest, which is shorter and ends the text
        generalize hs : scanFrom _ _ l.rest = outcome at h
        cases outcome with
        | error e => cases h
        | ok later =>
          cases h
          rcases List.mem_cons.mp ht with rfl | ht
          · exact .inr ⟨c :: rest, l, _, _, follows, hl, rfl⟩
          · have shorter : l.rest.length < n := hn ▸ rest_shorter (by rw [ha]; exact hl)
            have left : l.rest <:+ c :: rest := ⟨l.raw, (lexeme?_append hl).1⟩
            refine (ih _ shorter _ _ _ hs ht rfl).imp_right ?_
            rintro ⟨after, m, offset, position, inside, hm, same⟩
            exact ⟨after, m, offset, position, inside.trans (left.trans follows), hm, same⟩

/-- Every token of a text is no longer than the text, and its value no longer than the token. -/
theorem length_value_le (offset : Nat) (position : Position) (cs : List Char) {tokens : List Token}
    (h : scanFrom offset position cs = .ok tokens) {t : Token} (ht : t ∈ tokens) :
    t.value.toList.length ≤ t.text.toList.length ∧ t.text.toList.length ≤ cs.length := by
  obtain ⟨_, _, rfl⟩ | ⟨after, l, _, _, inside, hl, rfl⟩ := lexeme_of_scanFrom offset position cs h ht
  · exact ⟨le_rfl, Nat.zero_le _⟩
  · have read := congrArg List.length (lexeme?_append hl).1
    have short := inside.length_le
    have value := lexeme?_value hl
    rw [List.length_append] at read
    rw [ofLexeme, String.toList_ofList, String.toList_ofList]
    omega

/-- The value of a token is made of the characters of the text, of line breaks and of tabs. -/
theorem value_mem_of_scan {text : List Char} {tokens : List Token} (h : scan text = .ok tokens) {t : Token}
    (ht : t ∈ tokens) : ∀ c ∈ t.value.toList, c ∈ text ∨ c = '\n' ∨ c = '\t' := by
  obtain ⟨_, _, rfl⟩ | ⟨after, l, _, _, inside, hl, rfl⟩ := lexeme_of_scanFrom 0 .first text h ht
  · exact List.forall_mem_nil _
  · intro c hc
    rw [ofLexeme, String.toList_ofList] at hc
    refine (lexeme?_value_mem hl c hc).imp_left fun mem => inside.subset ?_
    rw [← (lexeme?_append hl).1]
    exact List.mem_append_left _ mem

end Token

/-! ## Source texts -/

theorem Source.tokens_eq_ok {source : Source} {tokens : List Token} :
    source.tokens = .ok tokens ↔ Token.scan source.lines.text = .ok tokens := by
  unfold Source.tokens
  split
  · next heq => rw [heq, Except.ok.injEq, Except.ok.injEq]
  · next heq => rw [heq]; exact iff_of_false (by rintro ⟨⟩) (by rintro ⟨⟩)

/-- Tokens tile their source text. If a text is tokenized, the last token is the end of the text, and the ones before
it are none: they tile the whole text, with nothing but white space and comments in between. If it is not, that is
for a string literal that is never closed: the error is located at an opening quote, which follows the tokens that
tile the text before it, and every later quote of its kind is escaped. -/
theorem Source.tokens_tile (source : Source) :
    (∀ tokens, source.tokens = .ok tokens →
      ∃ earlier, tokens = earlier ++ [Token.endingAt source.lines.text.length (.counted source.lines.text)] ∧
        Token.Tiling source.lines.text 0 source.lines.text.length earlier) ∧
    ∀ failure, source.tokens = .error failure →
      ∃ error earlier offset quote rest, failure = .parse error ∧ error.cause = .unterminatedString ∧
        Token.Tiling source.lines.text 0 offset earlier ∧
        source.lines.text.drop offset = quote :: rest ∧ Token.isQuote quote = true ∧ Token.Unclosed quote rest ∧
        error.location.line = (Position.counted (source.lines.text.take offset)).line ∧
        error.location.column = (Position.counted (source.lines.text.take offset)).column := by
  have scans : Token.Scans source.lines.text 0 (Token.scan source.lines.text) :=
    Token.scans_scanFrom [] source.lines.text
  unfold Source.tokens
  generalize Token.scan source.lines.text = outcome at scans ⊢
  cases scans with
  | done tiling =>
    refine ⟨fun tokens h => ?_, fun failure h => ?_⟩ <;> cases h
    exact ⟨_, rfl, tiling⟩
  | opened tiling follows opening unclosed =>
    refine ⟨fun tokens h => ?_, fun failure h => ?_⟩ <;> cases h
    exact ⟨_, _, _, _, _, rfl, rfl, tiling, follows, opening, unclosed, rfl, rfl⟩

/-- A text with a comment mark in a string literal, an arrow right after it and a comment at the end. -/
def greetingSource : Source := .ofText "say \"hi # there\"->x # bye" none

/-- A text with an escaped quote in a string literal that ends with a backslash. -/
def danglingSource : Source := .ofText "say 'it\\'s\\" none

/-- The tokens of the first text tile it, and the error in the second text is located at the opening quote. -/
theorem tokens_tile_greetingSource :
    (∃ tokens earlier, greetingSource.tokens = .ok tokens ∧
      tokens.map (·.text) = ["say", "\"hi # there\"", "->", "x", ""] ∧
      Token.Tiling greetingSource.lines.text 0 greetingSource.lines.text.length earlier ∧
      tokens = earlier ++ [Token.endingAt greetingSource.lines.text.length (.counted greetingSource.lines.text)]) ∧
    ∃ error offset quote rest, danglingSource.tokens = .error (.parse error) ∧
      error.cause = .unterminatedString ∧ error.location.column = 5 ∧
      danglingSource.lines.text.drop offset = quote :: rest ∧ Token.Unclosed quote rest := by
  constructor
  · have told : greetingSource.tokens.toOption.any
        (·.map (·.text) == ["say", "\"hi # there\"", "->", "x", ""]) = true := by
      decide +kernel
    cases h : greetingSource.tokens with
    | error failure => rw [h] at told; cases told
    | ok tokens =>
      rw [h, Except.toOption, Option.any_some, beq_iff_eq] at told
      obtain ⟨earlier, ending, tiling⟩ := greetingSource.tokens_tile.1 tokens h
      exact ⟨tokens, earlier, rfl, told, tiling, ending⟩
  · have told : danglingSource.tokens =
        .error (.parse ⟨.unterminatedString, some "'it\\'s\\", ⟨none, 1, 5, some "say 'it\\'s\\"⟩⟩) := by
      decide +kernel
    obtain ⟨_, _, offset, quote, rest, ⟨⟩, cause, -, follows, -, unclosed, -⟩ := danglingSource.tokens_tile.2 _ told
    exact ⟨_, offset, quote, rest, told, cause, rfl, follows, unclosed⟩

end Screenplay
