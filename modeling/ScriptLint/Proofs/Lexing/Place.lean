import ScriptLint.Proofs.Lexing.Run

/-! # Places in a source

How much of a source of known length is left at a cursor or a token. Every token but the last takes
some of what is left, and so does every step of looking past a group, wherever it is taken. Reading
a token again does not move it.
-/

namespace ScriptLint

open Cursor (Reads Reaches)

theorem byteLength_append (cs ds : List Char) :
    byteLength (cs ++ ds) = byteLength cs + byteLength ds := by
  induction cs with
  | nil => simp
  | cons c cs ih => simp [ih, Nat.add_assoc]

namespace Cursor

/-- The cursor lies in a source of `size` bytes. -/
def Within (size : Nat) (c : Cursor) : Prop := c.position.offset + byteLength c.rest = size

theorem ofSource_within (source : String) : (ofSource source).Within source.utf8ByteSize := by
  have hsize : byteLength source.toList = source.utf8ByteSize := by
    rw [← utf8ByteSize_ofList, String.ofList_toList]
  simpa [Within, ofSource, Position.start] using hsize

theorem Within.offset_le {size : Nat} {c : Cursor} (hc : c.Within size) :
    c.position.offset ≤ size := by
  unfold Within at hc
  omega

theorem Within.of_reads {size : Nat} {c d : Cursor} {cs : List Char} (hc : c.Within size)
    (hcd : c.Reads cs d) : d.Within size := by
  unfold Within at hc ⊢
  rw [hcd.offset_eq]
  rw [hcd.rest_eq, byteLength_append] at hc
  omega

end Cursor

namespace Token

theorem lexeme_of_isEnd {t : Token} (hend : t.isEnd) : t.lexeme = .endOfInput := by
  unfold isEnd at hend
  split at hend
  · assumption
  · cases hend

theorem isPropertyName_of_isIdentifier {t : Token} (h : t.isIdentifier) : t.isPropertyName := by
  unfold isIdentifier at h
  unfold isPropertyName
  split at h
  next hlexeme => simp [hlexeme]
  · cases h

/-- The token lies in a source of `size` bytes, where it was found behind some cursor. -/
structure Within (size : Nat) (t : Token) : Prop where
  follows : ∃ c, t.Follows c
  start : t.start.Within size

namespace Within

variable {size : Nat} {t : Token}

theorem next {c : Cursor} (hc : c.Within size) : (Token.next c).Within size := by
  obtain ⟨gap, hreads, -⟩ := (next_follows c).gap
  exact ⟨⟨c, next_follows c⟩, hc.of_reads hreads⟩

theorem stop (ht : t.Within size) : t.stop.Within size := by
  obtain ⟨c, hfollows⟩ := ht.follows
  obtain ⟨cs, hcovers, -⟩ := hfollows.text
  exact ht.start.of_reads hcovers.reads

theorem offset_lt_stop (ht : t.Within size) (hend : t.isEnd = false) :
    t.position.offset < t.stop.position.offset := by
  obtain ⟨c, hfollows⟩ := ht.follows
  obtain ⟨cs, hcovers, hne⟩ := hfollows.text
  have hbytes := byteLength_pos (hne hend)
  have hoffset := hcovers.reads.offset_eq
  unfold position
  omega

theorem offset_le_stop (ht : t.Within size) : t.position.offset ≤ t.stop.position.offset := by
  obtain ⟨c, hfollows⟩ := ht.follows
  exact hfollows.reaches_stop.offset_le

/-- The end of the input lies at the end of the source, and nothing else does. -/
theorem isEnd_iff (ht : t.Within size) : t.isEnd = true ↔ t.position.offset = size := by
  obtain ⟨c, hfollows⟩ := ht.follows
  have hplace : t.start.position.offset + byteLength t.start.rest = size := ht.start
  unfold position
  constructor
  · intro hend
    rw [hfollows.atEnd hend, byteLength_nil] at hplace
    omega
  · intro hsize
    by_contra hend
    obtain ⟨cs, hcovers, hne⟩ := hfollows.text
    have hbytes := byteLength_pos (hne (by simpa using hend))
    rw [hcovers.reads.rest_eq, byteLength_append] at hplace
    omega

/-- Reading a token again from its first character leaves it where it is. -/
theorem of_begins (ht : t.Within size) (hend : t.isEnd = false) {t' : Token}
    (ht' : t'.Begins t.start) (hflags : t'.flags.newlineBefore = t.flags.newlineBefore) :
    t'.Within size := by
  obtain ⟨c, hfollows⟩ := ht.follows
  refine ⟨⟨c, hfollows.of_begins hend ht' hflags⟩, ?_⟩
  rw [ht'.start_eq]
  exact ht.start

theorem rescanRegexp (ht : t.Within size) (hslash : Reading.isSlash t) :
    t.rescanRegexp.Within size := by
  have hend := isEnd_eq_false_of_isSlash hslash
  obtain ⟨c, hfollows⟩ := ht.follows
  obtain ⟨ch, hch⟩ := hfollows.exists_peek hend
  exact ht.of_begins hend (rescanRegexp_begins hch) rfl

theorem rescanTemplate_begins_of_brace (ht : t.Within size) (hbrace : t.isPunctuator "\x7d") :
    t.rescanTemplate.Begins t.start := by
  obtain ⟨c, hfollows⟩ := ht.follows
  obtain ⟨ch, hch⟩ := hfollows.exists_peek (isEnd_eq_false_of_isPunctuator hbrace)
  exact rescanTemplate_begins hch

theorem rescanTemplate (ht : t.Within size) (hbrace : t.isPunctuator "\x7d") :
    t.rescanTemplate.Within size :=
  have hend := isEnd_eq_false_of_isPunctuator hbrace
  ht.of_begins hend (ht.rescanTemplate_begins_of_brace hbrace) rfl

end Within

theorem offset_le_next (c : Cursor) : c.position.offset ≤ (Token.next c).position.offset :=
  (next_follows c).reaches_start.offset_le

end Token

namespace Reading.GroupScan

variable {size : Nat} {s s' : GroupScan}

/-- The token that a step takes: the next one, with a slash read as the grammar suggests. -/
def taken (s : GroupScan) : Token :=
  let t := Token.next s.stop
  if s.regexpAllowed && isSlash t then t.rescanRegexp else t

theorem taken_eq (s : GroupScan) :
    s.taken = if s.regexpAllowed && isSlash (Token.next s.stop) then
      (Token.next s.stop).rescanRegexp else Token.next s.stop := rfl

theorem taken_within (hs : s.stop.Within size) : s.taken.Within size := by
  have hnext := Token.Within.next hs
  unfold taken
  dsimp only
  split
  next hslash => exact hnext.rescanRegexp (Bool.and_eq_true_iff.mp hslash).2
  next => exact hnext

theorem offset_le_taken (s : GroupScan) :
    s.stop.position.offset ≤ s.taken.position.offset := by
  have hnext := Token.offset_le_next s.stop
  unfold taken
  dsimp only
  split
  · exact hnext
  · exact hnext

/-- A step takes a token that is not the end, or reads a brace again as the rest of a template. -/
theorem step_stop (hstep : s.step = .inl s') :
    (s.taken.isEnd = false ∧ s'.stop = s.taken.stop) ∨
      (s.taken.isPunctuator "\x7d" = true ∧ s'.stop = s.taken.rescanTemplate.stop) := by
  unfold step at hstep
  dsimp only at hstep
  rw [← taken_eq] at hstep
  generalize s.taken = t at hstep ⊢
  cases hend : t.isEnd with
  | true =>
      rw [Token.lexeme_of_isEnd hend] at hstep
      cases hstep
  | false =>
      split at hstep
      · cases hstep
      · cases hstep
        exact .inl ⟨rfl, rfl⟩
      next hlexeme =>
        split at hstep
        · cases hstep
          exact .inl ⟨rfl, rfl⟩
        · split at hstep
          next hbrace =>
            cases hstep
            refine .inr ⟨?_, rfl⟩
            unfold Token.isPunctuator
            rw [hlexeme]
            exact (Bool.and_eq_true_iff.mp hbrace).1
          next =>
            split at hstep
            · split at hstep <;> cases hstep
              exact .inl ⟨rfl, rfl⟩
            · cases hstep
              exact .inl ⟨rfl, rfl⟩
      · cases hstep
        exact .inl ⟨rfl, rfl⟩

/-- Every step but the last takes something of the source. -/
theorem step_advances (hs : s.stop.Within size) (hstep : s.step = .inl s') :
    s'.stop.Within size ∧ s.stop.position.offset < s'.stop.position.offset := by
  have ht := taken_within hs
  have hle := s.offset_le_taken
  rcases step_stop hstep with ⟨hend, hstop⟩ | ⟨hbrace, hstop⟩
  · rw [hstop]
    exact ⟨ht.stop, Nat.lt_of_le_of_lt hle (ht.offset_lt_stop hend)⟩
  · have hpiece := ht.rescanTemplate hbrace
    have hbegins := ht.rescanTemplate_begins_of_brace hbrace
    have hlt := hpiece.offset_lt_stop hbegins.isEnd_eq
    rw [Token.position, hbegins.start_eq] at hlt
    rw [hstop]
    exact ⟨hpiece.stop, Nat.lt_of_le_of_lt hle hlt⟩

theorem run_isSome {fuel : Nat} (hs : s.stop.Within size)
    (hfuel : size - s.stop.position.offset < fuel) : (s.run fuel).isSome := by
  induction fuel generalizing s with
  | zero => omega
  | succ fuel ih =>
      unfold run
      cases hstep : s.step with
      | inr t => rfl
      | inl s' =>
          obtain ⟨hs', hlt⟩ := step_advances hs hstep
          have hle := hs'.offset_le
          exact ih hs' (by omega)

end Reading.GroupScan

end ScriptLint

/-! ## Tokens that are spelled out

What the lexer makes of a text whose beginning is known, whatever follows it; and that it spells no
token with a character which the text does not have, wherever the parser has it look.
-/

namespace ScriptLint

open Cursor (Reads Reaches)

/-- Nothing is skipped in front of a character that separates no tokens and begins no comment. -/
theorem Trivia.before_eq {c : Cursor} {ch : Char} {rest : List Char} (hrest : c.rest = ch :: rest)
    (hslash : ch ≠ '/') (hhash : ch ≠ '#') (hline : Character.isLineTerminator ch = false)
    (hspace : Character.isSpace ch = false) : before c = { stop := c } := by
  have hhashbang : afterHashbang c = c := by
    unfold afterHashbang
    split
    next _ heq =>
      rw [hrest] at heq
      exact absurd (List.cons.inj heq).1 hhash
    · rfl
  have hstep : step? { stop := c } = none := by
    have hnbsp : ch ≠ '\u00a0' := by
      rintro rfl
      cases hspace
    unfold step?
    dsimp only
    split
    · rfl
    next heq => exact absurd (List.cons.inj (hrest.symm.trans heq)).1 hslash
    next heq => exact absurd (List.cons.inj (hrest.symm.trans heq)).1 hslash
    next heq =>
      obtain ⟨rfl, rfl⟩ := List.cons.inj (hrest.symm.trans heq)
      rw [hline, hspace, if_neg hnbsp]
      rfl
  rw [before, hhashbang, skip]
  split
  · rfl
  next heq =>
    rw [hstep] at heq
    cases heq

namespace Token

/-- The token behind a cursor stands there at once, is spelled by `text` with `rest` left after it,
and comes with nothing to report. -/
structure Plain (c : Cursor) (lexeme : Lexeme) (text rest : List Char) : Prop where
  lexeme_eq : (next c).lexeme = lexeme
  raw_eq : (next c).raw = String.ofList text
  rest_eq : (next c).stop.rest = rest
  issues_eq : (next c).issues = []
  directives_eq : (next c).directives = []

theorem Plain.of_scan {c stop : Cursor} {lexeme : Lexeme} {text : List Char} {flags : TokenFlags}
    (hbefore : Trivia.before c = { stop := c }) (hscan : scan c = between lexeme c stop flags [])
    (hreads : c.Reads text stop) : Plain c lexeme text stop.rest := by
  constructor <;> simp only [next, hbefore, hscan, between]
  · exact congrArg String.ofList hreads.charsTo_eq
  · rfl

/-- The delimiters of one character that no other character can extend. -/
def soloDelimiters : List Char := ['(', '[', '\x7b', ':']

theorem solo_cases {ch : Char} (hch : ch ∈ soloDelimiters) :
    ch = '(' ∨ ch = '[' ∨ ch = '\x7b' ∨ ch = ':' := by
  simpa [soloDelimiters] using hch

theorem punctuatorLength_of_solo {ch : Char} (hch : ch ∈ soloDelimiters) (rest : List Char) :
    punctuatorLength (ch :: rest) = 1 := by
  have hnone : longPunctuators.find? (punctuatorFits · (ch :: rest)) = none := by
    refine List.find?_eq_none.mpr fun spelling hmem hfits => ?_
    have hsolo : ∀ spelling ∈ longPunctuators, spelling.head?.all (· != ch) ∧ spelling ≠ [] := by
      rcases solo_cases hch with rfl | rfl | rfl | rfl <;> decide
    obtain ⟨hhead, hne⟩ := hsolo spelling hmem
    obtain ⟨x, xs, rfl⟩ := List.exists_cons_of_ne_nil hne
    simp_all [punctuatorFits]
  rw [punctuatorLength, hnone]
  rfl

theorem plain_delimiter {c : Cursor} {ch : Char} {rest : List Char} (hch : ch ∈ soloDelimiters)
    (hrest : c.rest = ch :: rest) : Plain c .punctuator [ch] rest := by
  have hbefore : Trivia.before c = { stop := c } := by
    obtain ⟨hslash, hhash, hline, hspace⟩ : ch ≠ '/' ∧ ch ≠ '#' ∧
        Character.isLineTerminator ch = false ∧ Character.isSpace ch = false := by
      rcases solo_cases hch with rfl | rfl | rfl | rfl <;> decide
    exact Trivia.before_eq hrest hslash hhash hline hspace
  have hscan : scan c = between .punctuator c c.advance {} [] := by
    obtain ⟨h₁, h₂, h₃, h₄, h₅, h₆, h₇, h₈⟩ : ch ≠ '"' ∧ ch ≠ '\x27' ∧
        ch ≠ TemplateScan.backtick ∧ ch.isDigit = false ∧ ch ≠ '.' ∧ ch ≠ '#' ∧ ch ≠ '\\' ∧
        Character.isIdStart ch = false := by
      rcases solo_cases hch with rfl | rfl | rfl | rfl <;> decide
    have hpeek : c.peek? = some ch := by simp [Cursor.peek?, hrest]
    have hscan : scanPunctuator c = between .punctuator c c.advance {} [] := by
      rw [scanPunctuator, hrest, punctuatorLength_of_solo hch]
      rfl
    simp [scan, hpeek, h₁, h₂, h₃, h₄, h₅, h₆, h₇, h₈, hscan]
  exact Cursor.rest_advance hrest ▸ .of_scan hbefore hscan (Cursor.reads_advance_cons hrest)

/-- A name of one letter in front of a colon. -/
theorem plain_key {c : Cursor} {rest : List Char} (hrest : c.rest = 'a' :: ':' :: rest) :
    Plain c (.identifier "a") ['a'] (':' :: rest) := by
  have hadvance := Cursor.rest_advance hrest
  have hscan : scan c = between (.identifier "a") c c.advance {} [] := by
    have hpeek : c.peek? = some 'a' := by simp [Cursor.peek?, hrest]
    have hpeek' : c.advance.peek? = some ':' := by simp [Cursor.peek?, hadvance]
    have hfinish : NameScan.finish { stop := c } = { reversed := ['a'], stop := c.advance } := by
      rw [NameScan.finish]
      split
      next hnone => rw [hpeek] at hnone; cases hnone
      next x hx =>
        obtain rfl := Option.some.inj (hpeek.symm.trans hx)
        have hfirst : NameScan.admits { stop := c } 'a' = true :=
          (by decide : Character.isIdPart true 'a' = true)
        rw [if_neg (by decide), if_pos hfirst, NameScan.finish]
        split
        · rfl
        next x hx =>
          obtain rfl := Option.some.inj (hpeek'.symm.trans hx)
          have hcolon : ¬ NameScan.admits { reversed := ['a'], stop := c.advance } ':' = true :=
            (by decide : ¬ Character.isIdPart false ':' = true)
          rw [if_neg (by decide), if_neg hcolon]
    have hname : scanName c = between (.identifier "a") c c.advance {} [] := by
      rw [scanName, hfinish]
      rfl
    have hbacktick : 'a' ≠ TemplateScan.backtick := by decide
    have hstart : Character.isIdStart 'a' = true := by decide
    simp [scan, hpeek, hbacktick, hstart, hname]
  have hbefore : Trivia.before c = { stop := c } :=
    Trivia.before_eq hrest (by decide) (by decide) (by decide) (by decide)
  exact hadvance ▸ .of_scan hbefore hscan (Cursor.reads_advance_cons hrest)

/-- The beginning of a template that begins with a substitution. -/
theorem plain_templateHead {c : Cursor} {rest : List Char}
    (hrest : c.rest = TemplateScan.backtick :: '$' :: '\x7b' :: rest) :
    Plain c (.template .head (some "")) [TemplateScan.backtick, '$', '\x7b'] rest := by
  have hadvance := Cursor.rest_advance hrest
  have hadvance₂ := Cursor.rest_advance hadvance
  have hadvance₃ := Cursor.rest_advance hadvance₂
  have hscan : scan c =
      between (.template .head (some "")) c c.advance.advance.advance {} [] := by
    have hpeek : c.peek? = some TemplateScan.backtick := by simp [Cursor.peek?, hrest]
    have hpeek' : c.advance.peek? = some '$' := by simp [Cursor.peek?, hadvance]
    have hsecond : c.advance.peekSecond? = some '\x7b' := by simp [Cursor.peekSecond?, hadvance]
    have hfinish : TemplateScan.finish c.position { stop := c.advance } =
        { stop := c.advance.advance.advance, substitution := true } := by
      rw [TemplateScan.finish]
      split
      next hnone => rw [hpeek'] at hnone; cases hnone
      next x hx =>
        obtain rfl := Option.some.inj (hpeek'.symm.trans hx)
        rw [if_neg (by decide), if_pos ⟨rfl, hsecond⟩]
    have htemplate : scanTemplate true c =
        between (.template .head (some "")) c c.advance.advance.advance {} [] := by
      simp only [scanTemplate, hfinish]
      rfl
    have hquotes : ¬ (TemplateScan.backtick = '"' ∨ TemplateScan.backtick = '\x27') := by decide
    simp only [scan, hpeek]
    rw [if_neg hquotes, if_pos trivial, htemplate]
  have hbefore : Trivia.before c = { stop := c } :=
    Trivia.before_eq hrest (by decide) (by decide) (by decide) (by decide)
  have hreads : c.Reads [TemplateScan.backtick, '$', '\x7b'] c.advance.advance.advance :=
    (Trivia.reads_two hrest).append (Cursor.reads_advance_cons hadvance₂)
  exact hadvance₃ ▸ .of_scan hbefore hscan hreads

/-! ## Characters that do not occur -/

/-- The token at a cursor is spelled by characters of the text that is left there. -/
theorem Follows.not_mem {t : Token} {c : Cursor} (ht : t.Follows c) {x : Char}
    (hx : x ∉ c.rest) : x ∉ t.raw.toList ∧ x ∉ t.stop.rest := by
  obtain ⟨gap, hgap, -⟩ := ht.gap
  obtain ⟨cs, hcovers, -⟩ := ht.text
  have hrest : c.rest = gap ++ (cs ++ t.stop.rest) := by
    rw [← hcovers.reads.rest_eq]
    exact hgap.rest_eq
  rw [hrest, List.mem_append, List.mem_append, not_or, not_or] at hx
  rw [hcovers.raw_eq, String.toList_ofList]
  exact hx.2

end Token

namespace Reading.GroupScan

variable {s s' : GroupScan}

theorem taken_follows (s : GroupScan) : s.taken.Follows s.stop := by
  have hnext := Token.next_follows s.stop
  unfold taken
  dsimp only
  split
  next hslash =>
    have hend := Token.isEnd_eq_false_of_isSlash (Bool.and_eq_true_iff.mp hslash).2
    obtain ⟨ch, hch⟩ := hnext.exists_peek hend
    exact hnext.of_begins hend (Token.rescanRegexp_begins hch) rfl
  next => exact hnext

/-- The search ends with the end of the input or with the token after the last bracket. -/
theorem step_end {t : Token} (hstep : s.step = .inr t) :
    t = s.taken ∨ t = Token.next s.taken.stop := by
  unfold step at hstep
  dsimp only at hstep
  rw [show (if s.regexpAllowed && isSlash (Token.next s.stop) then
      (Token.next s.stop).rescanRegexp else Token.next s.stop) = s.taken from rfl] at hstep
  split at hstep
  · exact .inl (Sum.inr.inj hstep).symm
  · cases hstep
  · split at hstep
    · cases hstep
    · split at hstep
      · cases hstep
      · split at hstep
        · split at hstep
          · exact .inr (Sum.inr.inj hstep).symm
          · cases hstep
        · cases hstep
  · cases hstep

/-- What the search for the end of a group finds is spelled by characters that are left. -/
theorem run_not_mem {fuel : Nat} {t : Token} {x : Char} (hx : x ∉ s.stop.rest)
    (hrun : s.run fuel = some t) : x ∉ t.raw.toList := by
  induction fuel generalizing s with
  | zero => cases hrun
  | succ fuel ih =>
      have htaken := s.taken_follows.not_mem hx
      unfold run at hrun
      cases hstep : s.step with
      | inr t' =>
          rw [hstep] at hrun
          cases hrun
          rcases step_end hstep with rfl | rfl
          · exact htaken.1
          · exact ((Token.next_follows _).not_mem htaken.2).1
      | inl s' =>
          rw [hstep] at hrun
          refine ih ?_ hrun
          rcases step_stop hstep with ⟨-, hstop⟩ | ⟨hbrace, hstop⟩
          · exact hstop ▸ htaken.2
          · have hend := Token.isEnd_eq_false_of_isPunctuator hbrace
            obtain ⟨ch, hch⟩ := s.taken_follows.exists_peek hend
            have hpiece := s.taken_follows.of_begins hend (Token.rescanTemplate_begins hch) rfl
            exact hstop ▸ (hpiece.not_mem hx).2

end Reading.GroupScan

end ScriptLint
