import ScriptLint.Proofs.Core.Word
import ScriptLint.Proofs.Lexing.Place

/-! # Words in front of a cursor

Which token a word is, and how a cursor passes from one word to the next one. A piece of a template
that comes after a substitution is first read as the brace with which it begins; only once it is
read again does it take the whole word.
-/

namespace ScriptLint.Core

open Character (isIdStart isIdContinue)
open Cursor (Reads)
open Trivia (isSolid)

/-! ## The token of a word -/

/-- What a keyword or another fixed spelling stands for. -/
def fixedLexeme (text : String) : Lexeme := if isKeyword text then .keyword text else .punctuator

/-- What is spelled like a name. -/
def isNameLike (w : List Char) : Bool := w.head?.any isIdStart && w.tail.all isIdContinue

theorem spells_nameLike {text : String} (h : isNameLike text.toList) :
    Spells text.toList (nameLexeme text) := by
  obtain ⟨hfirst, hrest⟩ := Bool.and_eq_true_iff.mp h
  rcases htext : text.toList with - | ⟨ch, cs⟩
  · rw [htext] at hfirst
    cases hfirst
  · rw [htext] at hfirst hrest
    have hcs : ∀ x ∈ cs, isIdContinue x := List.all_eq_true.mp hrest
    have hspelled := spells_name (by simpa using hfirst) hcs
    rwa [← htext, String.ofList_toList, htext] at hspelled

/-- Whether a fixed spelling is that of a keyword or of a mark. -/
def isFixed (text : String) : Bool :=
  if isKeyword text then isNameLike text.toList else isMark text.toList

theorem spells_fixed {text : String} (h : isFixed text) :
    Spells text.toList (fixedLexeme text) := by
  unfold isFixed at h
  unfold fixedLexeme
  split at h
  next hkeyword =>
    have hspelled := spells_nameLike h
    rw [nameLexeme, if_pos hkeyword] at hspelled
    rwa [if_pos hkeyword]
  next hkeyword =>
    rw [if_neg hkeyword]
    exact spells_mark h

namespace Word

/-- What the token of a word stands for. -/
def lexeme : Word → Lexeme
  | mark m => fixedLexeme m.text
  | unary operator => fixedLexeme operator.text
  | binary operator => fixedLexeme operator.text
  | name x => .identifier x.text
  | number n => .number (numberValue n.text.toList)
  | string _ t => .string t.text
  | opening t more => .template (piecePart true more) (some t.text)
  | continuing _ _ => .punctuator

/-- How the token of a word is spelled. -/
def raw : Word → String
  | continuing _ _ => "\x7d"
  | w => w.text

/-- Whether the token of the word takes it as a whole. -/
def isWhole : Word → Bool
  | continuing _ _ => false
  | _ => true

end Word

theorem Name.not_mem_contextualWords (x : Name) : x.text ∉ contextualWords := by
  simpa using (Bool.or_eq_false_iff.mp x.free).2

theorem Letters.isAlpha (t : Letters) : ∀ ch ∈ t.text.toList, ch.isAlpha :=
  List.all_eq_true.mp t.letters

theorem Digits.isNumber (n : Digits) : IsNumber n.text.toList where
  ne_nil hnil := by
    have hempty : n.text = "" := String.toList_eq_nil_iff.mp hnil
    rcases n.leading with hzero | hhead
    · exact absurd (hempty.symm.trans hzero) (by decide)
    · rw [hnil] at hhead
      cases hhead
  digits := List.all_eq_true.mp n.digits
  leading := by
    rcases n.leading with hzero | hhead
    · exact .inl (congrArg String.toList hzero)
    · refine .inr fun heq => ?_
      rw [heq] at hhead
      cases hhead

theorem Mark.isFixed_text (m : Mark) : isFixed m.text := by cases m <;> rfl

theorem isFixed_of_operator {text : String} (h : text ∈ unaryOperators ++ binaryOperators) :
    isFixed text :=
  have hall : ∀ text ∈ unaryOperators ++ binaryOperators, isFixed text := by decide
  hall text h

theorem toList_pieceEnd (more : Bool) : (pieceEnd more).toList = pieceCloser more := by
  cases more <;> decide

/-- A word that its token takes as a whole. -/
theorem Word.spells {w : Word} (hwhole : w.isWhole) : Spells w.text.toList w.lexeme := by
  cases w with
  | mark m => exact spells_fixed m.isFixed_text
  | unary operator => exact spells_fixed (isFixed_of_operator (List.mem_append_left _ operator.mem))
  | binary operator =>
      exact spells_fixed (isFixed_of_operator (List.mem_append_right _ operator.mem))
  | name x =>
      have hfree : isKeyword x.text = false := (Bool.or_eq_false_iff.mp x.free).1
      have hspelled := spells_nameLike (Bool.and_eq_true_iff.mpr ⟨x.first, x.rest⟩)
      rwa [nameLexeme, hfree] at hspelled
  | number n => exact spells_number n.isNumber
  | string q t =>
      have hquote : q.char = '"' ∨ q.char = '\x27' := by cases q <;> simp [Quote.char]
      have hspelled := spells_string hquote t.isAlpha
      rw [String.ofList_toList] at hspelled
      simpa [text, lexeme] using hspelled
  | opening t more =>
      have hspelled := spells_opening more t.isAlpha
      rw [String.ofList_toList, ← toList_pieceEnd] at hspelled
      simpa [text, lexeme, TemplateScan.backtick] using hspelled
  | continuing t more => cases hwhole

/-- The token is that of the word, and there is nothing to report about it. -/
structure Word.Begins (w : Word) (t : Token) : Prop where
  lexeme_eq : t.lexeme = w.lexeme
  raw_eq : t.raw = w.raw
  flags_eq : t.flags = {}
  issues_eq : t.issues = []
  directives_eq : t.directives = []

namespace Word

/-- A token of the word, wherever that stands. -/
def token (w : Word) : Token :=
  { lexeme := w.lexeme, raw := w.raw, start := default, stop := default }

namespace Begins

variable {w : Word} {t : Token}

theorem isPunctuator_eq (h : w.Begins t) (p : String) :
    t.isPunctuator p = w.token.isPunctuator p := by
  rw [Token.isPunctuator, Token.isPunctuator, h.lexeme_eq, h.raw_eq]
  rfl

theorem isKeyword_eq (h : w.Begins t) (word : String) :
    t.isKeyword word = w.token.isKeyword word := by
  rw [Token.isKeyword, Token.isKeyword, h.lexeme_eq, h.raw_eq]
  rfl

theorem isName_eq (h : w.Begins t) (name : String) : t.isName name = w.token.isName name := by
  rw [Token.isName, Token.isName, h.lexeme_eq]
  rfl

theorem isIdentifier_eq (h : w.Begins t) : t.isIdentifier = w.token.isIdentifier := by
  rw [Token.isIdentifier, Token.isIdentifier, h.lexeme_eq]
  rfl

theorem isPropertyName_eq (h : w.Begins t) : t.isPropertyName = w.token.isPropertyName := by
  rw [Token.isPropertyName, Token.isPropertyName, h.lexeme_eq]
  rfl

theorem ofToken_eq (h : w.Begins t) : Symbol.ofToken t = Symbol.ofToken w.token := by
  rw [Symbol.ofToken, Symbol.ofToken, h.lexeme_eq, h.raw_eq]
  rfl

end Begins

end Word

/-! ## Texts of words -/

/-- Words with a space before each of them. -/
def spaced (ws : List Word) : List Char := ws.flatMap fun w => ' ' :: w.text.toList

/-- Words with a space between any two of them. -/
def joined (ws : List Word) : List Char := (spaced ws).tail

variable {w : Word} {ws : List Word}

theorem joined_cons (w : Word) (ws : List Word) : joined (w :: ws) = w.text.toList ++ spaced ws :=
  rfl

theorem spaced_cons (w : Word) (ws : List Word) : spaced (w :: ws) = ' ' :: joined (w :: ws) := rfl

theorem endsWord_spaced (ws : List Word) : EndsWord (spaced ws) := by
  cases ws with
  | nil => exact nofun
  | cons w ws =>
      rw [spaced_cons]
      rintro ch ⟨⟩
      rfl

/-- Fewer words leave a shorter text. -/
theorem byteLength_joined_lt (w : Word) (words rest : List Word) :
    byteLength (joined rest) < byteLength (joined (w :: words ++ rest)) := by
  have htext : w.text.toList ≠ [] := by
    by_cases hwhole : w.isWhole
    · exact (w.spells hwhole).ne_nil
    · cases w with
      | continuing t more => simp [Word.text]
      | _ => exact absurd rfl hwhole
  have hrest : byteLength (joined rest) ≤ byteLength (spaced rest) := by
    cases rest with
    | nil => exact le_rfl
    | cons next rest =>
        rw [spaced_cons, byteLength_cons]
        omega
  have hpos := byteLength_pos htext
  rw [List.cons_append, joined_cons, byteLength_append]
  simp only [spaced, List.flatMap_append, byteLength_append] at hrest ⊢
  omega

theorem joined_eq_intercalate (ws : List Word) :
    joined ws = [' '].intercalate (ws.map fun w => w.text.toList) := by
  induction ws with
  | nil => rfl
  | cons w ws ih =>
      cases ws with
      | nil => simp [joined_cons, spaced]
      | cons next ws =>
          rw [joined_cons, spaced_cons, ih]
          simp [List.intercalate_cons_cons]

theorem toList_write (program : List Stmt) :
    (write program).toList = joined (bodyWords program) := by
  simp [write, String.toList_intercalate, joined_eq_intercalate, Function.comp_def]

/-! ## Words at a cursor -/

variable {c d : Cursor}

theorem Word.text_continuing (t : Letters) (more : Bool) :
    (continuing t more).text.toList = '\x7d' :: (t.text.toList ++ pieceCloser more) := by
  simp [text, ← toList_pieceEnd]

theorem isSolid_joined (w : Word) (ws : List Word) : isSolid (joined (w :: ws)) := by
  rw [joined_cons]
  by_cases hwhole : w.isWhole
  · have hspells := w.spells hwhole
    exact isSolid_append hspells.solid hspells.ne_nil (endsWord_spaced ws)
  · cases w with
    | continuing t more =>
        rw [Word.text_continuing]
        exact Trivia.isSolid_cons (by decide) (by decide) _
    | _ => exact absurd rfl hwhole

theorem next_of_solid (hsolid : isSolid c.rest) :
    Token.next c = { Token.scan c with
      flags := { (Token.scan c).flags with newlineBefore := false }, directives := [] } := by
  rw [Token.next, Trivia.before_of_solid hsolid]
  rfl

/-- A word that its token takes as a whole. -/
theorem next_whole (hwhole : w.isWhole) (hc : c.rest = joined (w :: ws)) :
    ∃ stop, Token.next c = Token.between w.lexeme c stop {} [] ∧ c.Reads w.text.toList stop ∧
      stop.rest = spaced ws := by
  obtain ⟨stop, hscan, hreads⟩ := (w.spells hwhole).scan c (spaced ws) hc (endsWord_spaced ws)
  refine ⟨stop, ?_, hreads, List.append_cancel_left (hreads.rest_eq.symm.trans hc)⟩
  rw [next_of_solid (hc ▸ isSolid_joined w ws), hscan]
  rfl

/-- A piece of a template behind a substitution begins with a brace, and as a piece it ends with
itself. -/
theorem next_continuing {t : Letters} {more : Bool}
    (hc : c.rest = joined (.continuing t more :: ws)) :
    ∃ brace stop, Token.next c = Token.between .punctuator c brace {} [] ∧ c.Reads ['\x7d'] brace ∧
      (Token.next c).rescanTemplate =
        Token.between (.template (piecePart false more) (some t.text)) c stop {} [] ∧
      c.Reads (Word.continuing t more).text.toList stop ∧ stop.rest = spaced ws := by
  have hopen : c.rest = '\x7d' :: (t.text.toList ++ pieceCloser more ++ spaced ws) := by
    rw [hc, joined_cons, Word.text_continuing]
    rfl
  have hscan : Token.scan c = Token.between .punctuator c c.advance {} [] := by
    have hpeek : c.peek? = some '\x7d' := by simp [Cursor.peek?, hopen]
    have hlength : Token.punctuatorLength c.rest = 1 := by
      have hnone : Token.longPunctuators.find? (Token.punctuatorFits · c.rest) = none := by
        have hheads : ∀ p ∈ Token.longPunctuators, p.head? ≠ some '\x7d' ∧ p ≠ [] := by decide
        refine List.find?_eq_none.mpr fun p hp hfits => ?_
        obtain ⟨hhead, hne⟩ := hheads p hp
        obtain ⟨x, xs, rfl⟩ := List.exists_cons_of_ne_nil hne
        have hfirst := (Bool.and_eq_true_iff.mp hfits).1
        rw [hopen, List.isPrefixOf, Bool.and_eq_true_iff, beq_iff_eq] at hfirst
        exact hhead (congrArg some hfirst.1)
      rw [Token.punctuatorLength, hnone]
      rfl
    rw [Token.scan, hpeek]
    refine (if_neg (by decide)).trans ((if_neg (by decide)).trans ((if_neg ?_).trans
      ((if_neg ?_).trans ((if_neg (by decide)).trans ?_))))
    · rintro (h | ⟨h, -⟩) <;> revert h <;> decide
    · rintro ⟨h, -⟩
      revert h
      decide
    · rw [Token.scanPunctuator, hlength]
      rfl
  have hnext : Token.next c = Token.between .punctuator c c.advance {} [] := by
    rw [next_of_solid (hc ▸ isSolid_joined _ ws), hscan]
    rfl
  obtain ⟨stop, hpiece, hreads⟩ := scanTemplate_eq false more t.isAlpha hopen
  rw [← Word.text_continuing] at hreads
  refine ⟨c.advance, stop, hnext, Cursor.reads_advance_cons hopen, ?_, hreads,
    List.append_cancel_left (hreads.rest_eq.symm.trans hc)⟩
  rw [String.ofList_toList] at hpiece
  rw [hnext, Token.rescanTemplate]
  dsimp only [Token.between]
  rw [hpiece]
  rfl

theorem start_next_of_joined (hc : c.rest = joined (w :: ws)) : (Token.next c).start = c := by
  by_cases hwhole : w.isWhole
  · obtain ⟨stop, hnext, -⟩ := next_whole hwhole hc
    rw [hnext]
    rfl
  · cases w with
    | continuing t more =>
        obtain ⟨brace, stop, hnext, -⟩ := next_continuing hc
        rw [hnext]
        rfl
    | _ => exact absurd rfl hwhole

/-- The token in front of words is that of the first of them. -/
theorem next_begins (hc : c.rest = joined (w :: ws)) : w.Begins (Token.next c) := by
  by_cases hwhole : w.isWhole
  · obtain ⟨stop, hnext, hreads, -⟩ := next_whole hwhole hc
    rw [hnext]
    refine ⟨rfl, ?_, rfl, rfl, rfl⟩
    have hraw : w.raw = w.text := by
      cases w <;> first | rfl | cases hwhole
    rw [hraw]
    exact (congrArg String.ofList hreads.charsTo_eq).trans String.ofList_toList
  · cases w with
    | continuing t more =>
        obtain ⟨brace, stop, hnext, hreads, -⟩ := next_continuing hc
        rw [hnext]
        exact ⟨rfl, congrArg String.ofList hreads.charsTo_eq, rfl, rfl, rfl⟩
    | _ => exact absurd rfl hwhole

/-- The words come next behind a cursor that stands in front of a space before them. -/
theorem exists_joined_of_spaced (hc : c.rest = spaced ws) :
    ∃ d, d.rest = joined ws ∧ c.Reaches d ∧ Token.next c = Token.next d := by
  cases ws with
  | nil => exact ⟨c, hc, .refl c, rfl⟩
  | cons w ws =>
      have hrest : c.advance.rest = joined (w :: ws) := Cursor.rest_advance hc
      have hsolid : isSolid (joined (w :: ws)) := isSolid_joined w ws
      refine ⟨c.advance, hrest, c.reaches_advance, ?_⟩
      rw [Token.next, Token.next, Trivia.before_of_space hc hsolid,
        Trivia.before_of_solid (hrest ▸ hsolid)]

end ScriptLint.Core
