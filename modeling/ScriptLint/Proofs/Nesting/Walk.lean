import ScriptLint.Proofs.Lexing.Place

/-! # Walks through a group

The tokens of a group as a reader consumes them behind its opening bracket: a slash may be read
again as a regular expression, a brace as the rest of a template, and brackets and templates close
in the order in which they open. The search for the end of the group goes the same way, one token
after the other, as long as it guesses right for every slash.
-/

namespace ScriptLint.Reading

/-! ## Single tokens -/

/-- What a token does to the groups that are open. -/
inductive Turn where
  | flat
  | opens
  | closes
  /-- A template begins, with a substitution in it. -/
  | head
  /-- The input ends. -/
  | ends
deriving DecidableEq

/-- What a punctuator does. -/
def Turn.ofSpelling (p : String) : Turn :=
  if ["(", "[", "\x7b"].contains p then .opens
  else if [")", "]", "\x7d"].contains p then .closes
  else .flat

theorem Turn.ofSpelling_cases (p : String) :
    ["(", "[", "\x7b"].contains p ∧ ofSpelling p = .opens ∨
      ¬ ["(", "[", "\x7b"].contains p ∧ [")", "]", "\x7d"].contains p ∧ ofSpelling p = .closes ∨
      ¬ ["(", "[", "\x7b"].contains p ∧ ¬ [")", "]", "\x7d"].contains p ∧ ofSpelling p = .flat := by
  unfold ofSpelling
  split
  next hopens => exact .inl ⟨hopens, rfl⟩
  next hopens =>
    split
    next hcloses => exact .inr (.inl ⟨hopens, hcloses, rfl⟩)
    next hcloses => exact .inr (.inr ⟨hopens, hcloses, rfl⟩)

end Reading

namespace Token

open Reading (Turn)

/-- What the token does, unless it is the rest of a template. -/
def turn (t : Token) : Turn :=
  match t.lexeme with
  | .endOfInput => .ends
  | .template .head _ => .head
  | .punctuator => .ofSpelling t.raw
  | _ => .flat

variable {t : Token}

theorem isPunctuator_iff {p : String} :
    t.isPunctuator p = true ↔ t.lexeme = .punctuator ∧ t.raw = p := by
  unfold isPunctuator
  split
  next hlexeme => simp [hlexeme]
  next hlexeme => exact ⟨nofun, fun h => absurd h.1 hlexeme⟩

theorem turn_cases (t : Token) :
    t.lexeme = .endOfInput ∧ t.turn = .ends ∨
      (∃ text?, t.lexeme = .template .head text?) ∧ t.turn = .head ∨
      t.lexeme = .punctuator ∧ t.turn = .ofSpelling t.raw ∨
      (t.lexeme ≠ .endOfInput ∧ (∀ text?, t.lexeme ≠ .template .head text?) ∧
        t.lexeme ≠ .punctuator) ∧ t.turn = .flat := by
  unfold turn
  split
  next hlexeme => exact .inl ⟨hlexeme, rfl⟩
  next text? hlexeme => exact .inr (.inl ⟨⟨text?, hlexeme⟩, rfl⟩)
  next hlexeme => exact .inr (.inr (.inl ⟨hlexeme, rfl⟩))
  next hend hhead hpunctuator => exact .inr (.inr (.inr ⟨⟨hend, hhead, hpunctuator⟩, rfl⟩))

theorem turn_of_isPunctuator {p : String} (h : t.isPunctuator p) : t.turn = .ofSpelling p := by
  obtain ⟨hlexeme, rfl⟩ := isPunctuator_iff.mp h
  rw [turn, hlexeme]

theorem turn_of_isKeyword {word : String} (h : t.isKeyword word) : t.turn = .flat := by
  unfold isKeyword at h
  unfold turn
  split at h
  next hlexeme => rw [hlexeme]
  · cases h

theorem turn_of_isPropertyName (h : t.isPropertyName) : t.turn = .flat := by
  unfold isPropertyName at h
  unfold turn
  split at h
  next hlexeme => rw [hlexeme]
  next hlexeme => rw [hlexeme]
  · cases h

theorem isIdentifier_of_isName {name : String} (h : t.isName name) : t.isIdentifier := by
  unfold isName at h
  unfold isIdentifier
  split at h
  next => rfl
  · cases h

/-- What is read again as the rest of a template is a piece of one, with or without another
substitution behind it. -/
theorem rescanTemplate_lexeme (t : Token) : ∃ text?,
    t.rescanTemplate.lexeme = .template .middle text? ∨
      t.rescanTemplate.lexeme = .template .tail text? := by
  unfold rescanTemplate scanTemplate
  dsimp only [between]
  split
  next hopening _ => cases hopening
  next hopening _ => cases hopening
  · exact ⟨_, .inl rfl⟩
  · exact ⟨_, .inr rfl⟩

theorem turn_of_isName {name : String} (h : t.isName name) : t.turn = .flat :=
  turn_of_isPropertyName (isPropertyName_of_isIdentifier (isIdentifier_of_isName h))

/-- Only the head of a template begins one with a substitution in it. -/
theorem turn_eq_head_iff : t.turn = .head ↔ ∃ text?, t.lexeme = .template .head text? := by
  unfold turn
  split
  next hlexeme => simp [hlexeme]
  next text? hlexeme => simp [hlexeme]
  next hlexeme =>
    unfold Turn.ofSpelling
    split
    · simp [hlexeme]
    · split <;> simp [hlexeme]
  next hhead _ => simpa using fun text? hlexeme => hhead text? hlexeme

/-! ### Keywords -/

/-- A keyword is not spelled like a bracket. -/
def Legible (t : Token) : Prop := ∀ word, t.lexeme = .keyword word → Turn.ofSpelling t.raw = .flat

theorem Legible.turn_eq (h : t.Legible) (hlexeme : t.lexeme = .punctuator ∨
    ∃ word, t.lexeme = .keyword word) : t.turn = .ofSpelling t.raw := by
  rcases hlexeme with hlexeme | ⟨word, hlexeme⟩
  · rw [turn, hlexeme]
  · rw [turn, hlexeme, h word hlexeme]

theorem rescanRegexp_legible (t : Token) : t.rescanRegexp.Legible := nofun

/-- No bracket begins a name. -/
theorem ofSpelling_of_start {ch : Char} (hch : ch = '\\' ∨ Character.isIdStart ch)
    (cs : List Char) : Turn.ofSpelling (String.ofList (ch :: cs)) = .flat := by
  have hno {p : Char} (hp : ¬(p = '\\' ∨ Character.isIdStart p)) :
      String.ofList (ch :: cs) ≠ String.ofList [p] := by
    intro h
    obtain ⟨rfl, -⟩ := List.cons.inj (String.ofList_injective h)
    exact hp hch
  have hopens : String.ofList (ch :: cs) ∉ ["(", "[", "\x7b"] := by
    have hround := hno (p := '(') (by decide)
    have hsquare := hno (p := '[') (by decide)
    have hcurly := hno (p := '\x7b') (by decide)
    simp only [List.mem_cons, List.not_mem_nil, or_false, not_or]
    exact ⟨hround, hsquare, hcurly⟩
  have hcloses : String.ofList (ch :: cs) ∉ [")", "]", "\x7d"] := by
    have hround := hno (p := ')') (by decide)
    have hsquare := hno (p := ']') (by decide)
    have hcurly := hno (p := '\x7d') (by decide)
    simp only [List.mem_cons, List.not_mem_nil, or_false, not_or]
    exact ⟨hround, hsquare, hcurly⟩
  unfold Turn.ofSpelling
  rw [if_neg (by simpa using hopens), if_neg (by simpa using hcloses)]

theorem scanName_legible {c : Cursor} {ch : Char} (hpeek : c.peek? = some ch)
    (hch : ch = '\\' ∨ Character.isIdStart ch) : (scanName c).Legible := by
  intro word _
  obtain ⟨hstart, ⟨x, cs, hcovers⟩, -⟩ := scanName_begins hpeek hch
  obtain rfl : x = ch := by
    have hrest := hcovers.reads.rest_eq
    rw [hstart] at hrest
    simpa [Cursor.peek?, hrest] using hpeek
  rw [hcovers.raw_eq]
  exact ofSpelling_of_start hch cs

theorem scan_legible (c : Cursor) : (scan c).Legible := by
  unfold scan
  split
  · exact nofun
  next ch hpeek =>
    split
    · exact nofun
    split
    · exact nofun
    split
    · intro word hword
      rcases Numeral.lexeme_glue_read c with ⟨value, hvalue⟩ | ⟨value, hvalue⟩
      · cases hvalue.symm.trans hword
      · cases hvalue.symm.trans hword
    split
    · exact nofun
    split
    next hch => exact scanName_legible hpeek hch
    · exact nofun

theorem next_legible (c : Cursor) : (Token.next c).Legible := scan_legible _

end Token

namespace Reading

/-- How the open groups change with what a token does. A bracket closes only what a bracket
opened. -/
class inductive Turn.Leads : Turn → List Closer → outParam (List Closer) → Prop
  | flat (g : List Closer) : Leads .flat g g
  | opens (g : List Closer) : Leads .opens g (.bracket :: g)
  | closes (g : List Closer) : Leads .closes (.bracket :: g) g
  | head (g : List Closer) : Leads .head g (.backtick :: g)

attribute [instance] Turn.Leads.flat Turn.Leads.opens Turn.Leads.closes Turn.Leads.head

/-- Whether the search for the end of a group reads the token as it was read, if it comes after
the first one: a slash as the beginning of a regular expression exactly where one may follow. -/
def guessedRight (before t : Token) : Bool :=
  match t.lexeme with
  | .regexp _ _ => regexpMayFollow before
  | _ => !(isSlash t && regexpMayFollow before)

/-! ## Walks -/

/-- The tokens, the last one first, are what a reader consumed behind the token `start`, the next
one is `next`, and of the groups that were opened on the way those given are still open. -/
inductive Walk (start : Token) : List Token → Token → List Closer → Prop
  | start : Walk start [] (Token.next start.stop) []
  | regexp {ts : List Token} {t : Token} {g : List Closer} :
      Walk start ts t g → isSlash t → Walk start ts t.rescanRegexp g
  | take {ts : List Token} {t : Token} {g g' : List Closer} :
      Walk start ts t g → t.turn.Leads g g' → Walk start (t :: ts) (Token.next t.stop) g'
  | piece {ts : List Token} {t : Token} {g : List Closer} :
      Walk start ts t (.backtick :: g) → t.isPunctuator "\x7d" →
      Walk start (t.rescanTemplate :: ts) (Token.next t.rescanTemplate.stop)
        (if t.rescanTemplate.lexeme matches .template .tail _ then g else .backtick :: g)

/-- What comes next at the end of a walk is the token after the last one, or that token read again
as a regular expression. -/
theorem Walk.next_eq {start next : Token} {ts : List Token} {g : List Closer}
    (hwalk : Walk start ts next g) : next = Token.next (ts.headD start).stop ∨
      isSlash (Token.next (ts.headD start).stop) ∧
        next = (Token.next (ts.headD start).stop).rescanRegexp := by
  induction hwalk with
  | start | take | piece => exact .inl rfl
  | @regexp ts t g _ hslash ih =>
      rcases ih with rfl | ⟨-, rfl⟩
      · exact .inr ⟨hslash, rfl⟩
      · -- A regular expression is no slash any more.
        cases hslash

theorem Walk.legible {start next : Token} {ts : List Token} {g : List Closer}
    (hwalk : Walk start ts next g) : next.Legible := by
  rcases hwalk.next_eq with rfl | ⟨-, rfl⟩
  · exact Token.next_legible _
  · exact Token.rescanRegexp_legible _

/-- The search for the end of a group reads all tokens, the last one first, as they were read. -/
def AllGuessedRight (start : Token) : List Token → Prop
  | [] => True
  | t :: ts => guessedRight (ts.headD start) t ∧ AllGuessedRight start ts

instance (start : Token) : DecidablePred (AllGuessedRight start)
  | [] => inferInstanceAs (Decidable True)
  | _ :: ts =>
    have := instDecidablePredListTokenAllGuessedRight start ts
    inferInstanceAs (Decidable (_ ∧ _))

namespace GroupScan

/-- The search behind the token `before`, inside the group and the open ones in it. -/
def behind (before : Token) (g : List Closer) : GroupScan :=
  { groups := g ++ [.bracket], regexpAllowed := regexpMayFollow before, stop := before.stop }

/-- Where the guess is right, the search takes the token as it was read. -/
theorem taken_behind {before t : Token} {g : List Closer} (hright : guessedRight before t)
    (ht : t = Token.next before.stop ∨
      isSlash (Token.next before.stop) ∧ t = (Token.next before.stop).rescanRegexp) :
    (behind before g).taken = t := by
  unfold taken behind
  dsimp only
  rcases ht with rfl | ⟨hslash, rfl⟩
  · rw [if_neg]
    rintro hboth
    obtain ⟨hallowed, hslash⟩ := Bool.and_eq_true_iff.mp hboth
    unfold guessedRight at hright
    split at hright
    next hlexeme =>
      have : isSlash (Token.next before.stop) = false := by
        simp [isSlash, Token.isPunctuator, hlexeme]
      simp [this] at hslash
    · simp [hslash, hallowed] at hright
  · have hallowed : regexpMayFollow before = true := hright
    rw [hallowed, hslash]
    rfl

section Step

variable {s : GroupScan} {t : Token}

theorem step_of_head (htaken : s.taken = t) {text? : Option String}
    (hlexeme : t.lexeme = .template .head text?) :
    s.step = .inl ⟨.backtick :: s.groups, regexpMayFollow t, t.stop⟩ := by
  unfold step
  dsimp only
  rw [← taken_eq, htaken]
  split
  next h => cases h.symm.trans hlexeme
  next => rfl
  next h => cases h.symm.trans hlexeme
  next h _ => exact absurd hlexeme (h _)

theorem step_of_flat (htaken : s.taken = t) (hend : t.lexeme ≠ .endOfInput)
    (hhead : ∀ text?, t.lexeme ≠ .template .head text?) (hpunctuator : t.lexeme ≠ .punctuator) :
    s.step = .inl ⟨s.groups, regexpMayFollow t, t.stop⟩ := by
  unfold step
  dsimp only
  rw [← taken_eq, htaken]
  split
  next hlexeme => exact absurd hlexeme hend
  next hlexeme => exact absurd hlexeme (hhead _)
  next hlexeme => exact absurd hlexeme hpunctuator
  · rfl

theorem step_of_punctuator (htaken : s.taken = t) (hlexeme : t.lexeme = .punctuator) :
    s.step =
      if ["(", "[", "\x7b"].contains t.raw then
        .inl ⟨.bracket :: s.groups, regexpMayFollow t, t.stop⟩
      else if t.raw == "\x7d" && s.groups.head? == some .backtick then
        .inl ⟨if t.rescanTemplate.lexeme matches .template .tail _ then s.groups.tail else s.groups,
          false, t.rescanTemplate.stop⟩
      else if [")", "]", "\x7d"].contains t.raw then
        match s.groups.tail with
        | [] => .inr (Token.next t.stop)
        | groups => .inl ⟨groups, regexpMayFollow t, t.stop⟩
      else .inl ⟨s.groups, regexpMayFollow t, t.stop⟩ := by
  unfold step
  dsimp only
  rw [← taken_eq, htaken]
  split
  next h => cases h.symm.trans hlexeme
  next h => cases h.symm.trans hlexeme
  next => rfl
  next h => exact absurd hlexeme h

end Step

variable {before t : Token} {g g' : List Closer}

/-- The search opens and closes groups as the walk does. -/
theorem step_behind (htaken : (behind before g).taken = t) (hturn : t.turn.Leads g g') :
    (behind before g).step = .inl (behind t g') := by
  rcases t.turn_cases with ⟨-, hends⟩ | ⟨⟨text?, hlexeme⟩, hhead⟩ | ⟨hlexeme, hspelling⟩ |
    ⟨⟨hend, hhead, hpunctuator⟩, hflat⟩
  · rw [hends] at hturn
    cases hturn
  · rw [hhead] at hturn
    cases hturn
    exact step_of_head htaken hlexeme
  · rw [hspelling] at hturn
    rw [step_of_punctuator htaken hlexeme]
    rcases Turn.ofSpelling_cases t.raw with ⟨hopens, h⟩ | ⟨hopens, hcloses, h⟩ | ⟨hopens, hcloses, h⟩
    all_goals
      rw [h] at hturn
      cases hturn
    · rw [if_pos hopens]
      rfl
    · -- What is open innermost was opened by a bracket, so no template goes on here.
      rw [if_neg hopens, if_neg (by simp [behind]), if_pos hcloses]
      cases hgroups : g' ++ [Closer.bracket] with
      | nil => simp at hgroups
      | cons closer groups => simp [behind, hgroups]
    · have hbrace : ¬ (t.raw == "\x7d") = true := fun h => hcloses (by simp [beq_iff_eq.mp h])
      rw [if_neg hopens, if_neg (by simp [hbrace]), if_neg hcloses]
      rfl
  · rw [hflat] at hturn
    cases hturn
    exact step_of_flat htaken hend hhead hpunctuator

/-- A brace where the innermost open group is a template leads on to the next piece of it. -/
theorem step_behind_piece (htaken : (behind before (.backtick :: g)).taken = t)
    (hbrace : t.isPunctuator "\x7d") :
    (behind before (.backtick :: g)).step = .inl (behind t.rescanTemplate
      (if t.rescanTemplate.lexeme matches .template .tail _ then g else .backtick :: g)) := by
  obtain ⟨hlexeme, hraw⟩ := Token.isPunctuator_iff.mp hbrace
  rw [step_of_punctuator htaken hlexeme, hraw]
  obtain ⟨text?, hpiece | hpiece⟩ := t.rescanTemplate_lexeme <;>
    simp [behind, regexpMayFollow, hpiece]

/-- The bracket that closes the whole group ends the search with the token after it. -/
theorem step_behind_last (htaken : (behind before []).taken = t) (hturn : t.turn = .closes) :
    (behind before []).step = .inr (Token.next t.stop) := by
  rcases t.turn_cases with ⟨-, h⟩ | ⟨-, h⟩ | ⟨hlexeme, h⟩ | ⟨-, h⟩
  · cases h.symm.trans hturn
  · cases h.symm.trans hturn
  · rw [step_of_punctuator htaken hlexeme]
    have hcloses := h.symm.trans hturn
    rcases Turn.ofSpelling_cases t.raw with ⟨-, h⟩ | ⟨hopens, hcloses, -⟩ | ⟨-, -, h⟩
    · cases h.symm.trans hcloses
    · rw [if_neg hopens, if_neg (by simp [behind]), if_pos hcloses]
      rfl
    · cases h.symm.trans hcloses
  · cases h.symm.trans hturn

/-! ## Following a walk -/

variable {start next : Token} {ts : List Token}

/-- The search goes along a walk if it guesses right for every token of it. -/
theorem run_behind (hwalk : Walk start ts next g) (hright : AllGuessedRight start ts) (fuel : Nat) :
    (behind start []).run (ts.length + fuel) = (behind (ts.headD start) g).run fuel := by
  induction hwalk generalizing fuel with
  | start => rw [List.length_nil, Nat.zero_add, List.headD_nil]
  | regexp _ _ ih => exact ih hright fuel
  | @take ts t g g' hwalk hturn ih =>
      have hstep := step_behind (taken_behind hright.1 hwalk.next_eq) hturn
      rw [List.length_cons, Nat.add_assoc, ih hright.2, Nat.add_comm 1, run, hstep]
      rfl
  | @piece ts t g hwalk hbrace ih =>
      have hslash : isSlash t = false := by
        obtain ⟨hlexeme, hraw⟩ := Token.isPunctuator_iff.mp hbrace
        simp [isSlash, Token.isPunctuator, hlexeme, hraw]
      have hguess : guessedRight (ts.headD start) t := by
        obtain ⟨hlexeme, -⟩ := Token.isPunctuator_iff.mp hbrace
        simp [guessedRight, hlexeme, hslash]
      have hstep := step_behind_piece (g := g) (taken_behind hguess hwalk.next_eq) hbrace
      rw [List.length_cons, Nat.add_assoc, ih hright.2, Nat.add_comm 1, run, hstep]
      rfl

/-- Where the walk comes to the bracket that closes the whole group, the search finds the token
after it. -/
theorem run_behind_last (hwalk : Walk start ts next []) (hturn : next.turn = .closes)
    (hright : AllGuessedRight start (next :: ts)) :
    (behind start []).run (ts.length + 1) = some (Token.next next.stop) := by
  have hstep := step_behind_last (taken_behind hright.1 hwalk.next_eq) hturn
  rw [run_behind hwalk hright.2, run, hstep]

/-- A search that has ended finds the same in more steps. -/
theorem run_add {s : GroupScan} {fuel : Nat} (hrun : s.run fuel = some t) (more : Nat) :
    s.run (fuel + more) = some t := by
  induction fuel generalizing s with
  | zero => cases hrun
  | succ fuel ih =>
      rw [Nat.add_right_comm]
      unfold run at hrun ⊢
      split
      next hstep =>
        rw [hstep] at hrun
        exact ih hrun
      next hstep =>
        rw [hstep] at hrun
        exact hrun

/-- However many steps two searches may take, they find the same. -/
theorem run_unique {s : GroupScan} {fuel fuel' : Nat} {t' : Token} (hrun : s.run fuel = some t)
    (hrun' : s.run fuel' = some t') : t = t' := by
  have hmore := run_add hrun fuel'
  rw [Nat.add_comm, run_add hrun' fuel] at hmore
  exact (Option.some.inj hmore).symm

end GroupScan

end ScriptLint.Reading
