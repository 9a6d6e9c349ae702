import Mathlib.Data.List.TakeWhile
import ScriptLint.Proofs.Lexing.Extent
import ScriptLint.Proofs.Lexing.Gap

/-! # Runs of the lexer and the comments on their way

The token lists that a parser can be given for a source, and the comments that it comes across with
them.
-/

/-! ## Runs of the lexer

The tokens of a source as a parser asks for them: one after the other, where the last slash may be
read again as a regular expression and the last closing brace as the rest of a template. However the
parser decides, nothing of the source is lost and nothing is read twice: the tokens stand in order,
are spelled by the bytes they cover, and leave only gaps between them.
-/

namespace ScriptLint

/-- The source holds the text in the span. -/
def Span.Holds (span : Span) (source text : String) : Prop :=
  ∃ before after : String, source = before ++ text ++ after ∧
    before.utf8ByteSize = span.start ∧ (before ++ text).utf8ByteSize = span.stop

namespace Token

open Character (isLineTerminator)
open Cursor (Reads Reaches)

/-- The cursor from which the token after the given ones is read. -/
def frontier (source : String) (tokens : List Token) : Cursor :=
  (tokens.getLast?.map (·.stop)).getD (.ofSource source)

/-- The token lists that a parser can be given for a source. -/
inductive Run (source : String) : List Token → Prop
  | start : Run source []
  | next {tokens : List Token} :
      Run source tokens → Run source (tokens ++ [Token.next (frontier source tokens)])
  | regexp {tokens : List Token} {t : Token} :
      Run source (tokens ++ [t]) → Reading.isSlash t → Run source (tokens ++ [t.rescanRegexp])
  | template {tokens : List Token} {t : Token} :
      Run source (tokens ++ [t]) → t.isPunctuator "\x7d" → Run source (tokens ++ [t.rescanTemplate])

/-- The offset at which the gap after the given tokens begins. -/
def endOffset (tokens : List Token) : Nat := (tokens.getLast?.map (·.span.stop)).getD 0

/-- Whether the token carries the problem of a comment that is never closed. -/
def HasUnclosedComment (t : Token) : Prop := ∃ issue ∈ t.issues, issue.code = "E017" ∧ issue.fatal

/-- The gap in front of a token; `atStart` tells whether the source begins with it. -/
def HasGap (t : Token) (atStart : Prop) (gap : List Char) : Prop :=
  Gap atStart (t.isEnd = true) (t.isEnd = true ∧ t.HasUnclosedComment) gap ∧
    (t.flags.newlineBefore = true ↔ ∃ c ∈ gap, isLineTerminator c)

/-- Tokens that account for all of a source up to the last one. -/
structure Lossless (source : String) (tokens : List Token) : Prop where
  ordered : tokens.Pairwise fun a b => a.span.stop ≤ b.span.start
  spelled : ∀ t ∈ tokens, t.span.Holds source t.raw
  nonempty : ∀ t ∈ tokens, t.isEnd = false → t.span.start < t.span.stop
  atEnd : ∀ t ∈ tokens, t.isEnd = true → t.span = ⟨source.utf8ByteSize, source.utf8ByteSize⟩
  reached : source.utf8ByteSize < tokens.length →
    ∃ t ∈ tokens.take (source.utf8ByteSize + 1), t.isEnd = true
  gaps : ∀ before t after, tokens = before ++ t :: after → ∃ gap : String,
    Span.Holds ⟨endOffset before, t.span.start⟩ source gap ∧
      t.HasGap (endOffset before = 0) gap.toList

/-! ## One token -/

/-- The token may come next at a cursor: a gap leads to it, and it takes text unless the source ends
there. -/
structure Follows (t : Token) (c : Cursor) : Prop where
  gap : ∃ gap, c.Reads gap t.start ∧ t.HasGap (c.position.offset = 0) gap
  text : ∃ cs, t.Covers cs ∧ (t.isEnd = false → cs ≠ [])
  atEnd : t.isEnd = true → t.start.rest = []

theorem next_follows (c : Cursor) : (Token.next c).Follows c := by
  obtain ⟨gap, hreads, hgap, hnewline⟩ := Trivia.reads_before c
  have hline : (Token.next c).flags.newlineBefore = true ↔ ∃ x ∈ gap, isLineTerminator x := by
    change (Trivia.before c).newline = true ↔ _
    rw [hnewline, List.any_eq_true]
  -- Either the source ends after the gap, or a character is there for the token to take.
  cases hrest : (Trivia.before c).stop.rest with
  | nil =>
      have hscan := scan_of_rest_eq_nil hrest
      have hstart : (Token.next c).start = (Trivia.before c).stop := by
        change (scan (Trivia.before c).stop).start = _
        rw [hscan]
        rfl
      have hend : (Token.next c).isEnd = true := by
        change (scan (Trivia.before c).stop).isEnd = true
        rw [hscan]
        rfl
      refine ⟨⟨gap, by rwa [hstart], ?_, hline⟩, ⟨[], ?_, by simp [hend]⟩, ?_⟩
      · refine hgap.imp (fun _ => hend) fun hcut => ?_
        obtain ⟨-, issue, hmem, hissue⟩ := hcut
        exact ⟨hend, issue, List.mem_append_left _ hmem, hissue⟩
      · have hcovers : (scan (Trivia.before c).stop).Covers [] := by
          rw [hscan]
          exact ⟨.nil _, congrArg String.ofList (Reads.nil _).charsTo_eq⟩
        exact ⟨hcovers.reads, hcovers.raw_eq⟩
      · intro _
        rw [hstart, hrest]
  | cons ch rest =>
      have hpeek : (Trivia.before c).stop.peek? = some ch := by simp [Cursor.peek?, hrest]
      obtain ⟨hstart, ⟨x, cs, hcovers⟩, hend⟩ := scan_begins hpeek
      change (Token.next c).start = _ at hstart
      change (Token.next c).isEnd = false at hend
      refine ⟨⟨gap, by rwa [hstart], ?_, hline⟩, ⟨x :: cs, ?_, by simp⟩, by simp [hend]⟩
      · have hne : (Trivia.before c).stop.rest ≠ [] := by simp [hrest]
        exact hgap.imp (fun hnil => absurd hnil hne) fun hcut => absurd hcut.1 hne
      · exact ⟨hcovers.reads, hcovers.raw_eq⟩

/-- A token that is read again from its first character follows what the token followed. -/
theorem Follows.of_begins {t t' : Token} {c : Cursor} (ht : t.Follows c) (hend : t.isEnd = false)
    (ht' : t'.Begins t.start) (hflags : t'.flags.newlineBefore = t.flags.newlineBefore) :
    t'.Follows c := by
  obtain ⟨hstart, ⟨x, cs, hcovers⟩, hend'⟩ := ht'
  obtain ⟨gap, hreads, hgap, hline⟩ := ht.gap
  refine ⟨⟨gap, by rwa [hstart], ?_, by rwa [hflags]⟩, ⟨x :: cs, hcovers, by simp⟩, by simp [hend']⟩
  exact hgap.imp (by simp [hend]) (by simp [hend])

/-- There is a character at the start of a token that is not the end. -/
theorem Follows.exists_peek {t : Token} {c : Cursor} (ht : t.Follows c) (hend : t.isEnd = false) :
    ∃ ch, t.start.peek? = some ch := by
  obtain ⟨cs, hcovers, hne⟩ := ht.text
  obtain ⟨ch, rest, rfl⟩ := List.exists_cons_of_ne_nil (hne hend)
  exact ⟨ch, by simp [Cursor.peek?, hcovers.reads.rest_eq]⟩

theorem isEnd_eq_false_of_isPunctuator {t : Token} {p : String} (ht : t.isPunctuator p) :
    t.isEnd = false := by
  unfold isPunctuator at ht
  unfold isEnd
  split at ht
  next hlexeme => rw [hlexeme]
  · cases ht

theorem isEnd_eq_false_of_isSlash {t : Token} (ht : Reading.isSlash t) : t.isEnd = false := by
  rcases Bool.or_eq_true_iff.mp ht with hslash | hassign
  · exact isEnd_eq_false_of_isPunctuator hslash
  · exact isEnd_eq_false_of_isPunctuator hassign

/-! ## All tokens -/

/-- The tokens follow one another from one cursor to the other. -/
inductive Tiled : Cursor → List Token → Cursor → Prop
  | nil (c : Cursor) : Tiled c [] c
  | cons {c d : Cursor} {t : Token} {tokens : List Token} :
      t.Follows c → Tiled t.stop tokens d → Tiled c (t :: tokens) d

theorem Follows.reaches_start {t : Token} {c : Cursor} (ht : t.Follows c) : c.Reaches t.start := by
  obtain ⟨gap, hreads, _⟩ := ht.gap
  exact hreads.reaches

theorem Follows.reaches_stop {t : Token} {c : Cursor} (ht : t.Follows c) :
    t.start.Reaches t.stop := by
  obtain ⟨cs, hcovers, _⟩ := ht.text
  exact hcovers.reads.reaches

namespace Tiled

variable {c d e : Cursor} {t : Token} {tokens before after : List Token}

theorem append (hfirst : Tiled c before d) (hsecond : Tiled d after e) :
    Tiled c (before ++ after) e := by
  induction hfirst with
  | nil => exact hsecond
  | cons ht _ ih => exact .cons ht (ih hsecond)

theorem exists_of_append (htiled : Tiled c (before ++ after) e) :
    ∃ d, Tiled c before d ∧ Tiled d after e := by
  induction before generalizing c with
  | nil => exact ⟨c, .nil c, htiled⟩
  | cons t before ih =>
      cases htiled with
      | cons ht hrest =>
          obtain ⟨d, hbefore, hafter⟩ := ih hrest
          exact ⟨d, .cons ht hbefore, hafter⟩

theorem reaches (htiled : Tiled c tokens d) : c.Reaches d := by
  induction htiled with
  | nil c => exact .refl c
  | cons ht _ ih => exact (ht.reaches_start.trans ht.reaches_stop).trans ih

/-- Where tokens end is where the last of them stops. -/
theorem eq_stop_getLast (htiled : Tiled c tokens d) :
    d = (tokens.getLast?.map (·.stop)).getD c := by
  induction htiled with
  | nil => rfl
  | @cons c d t tokens _ _ ih =>
      rw [ih, List.getLast?_cons]
      cases tokens.getLast? <;> rfl

theorem start_le (htiled : Tiled c tokens d) (ht : t ∈ tokens) :
    c.position.offset ≤ t.span.start := by
  obtain ⟨before, after, rfl⟩ := List.append_of_mem ht
  obtain ⟨m, hbefore, hrest⟩ := htiled.exists_of_append
  cases hrest with
  | cons hfollows _ => exact (hbefore.reaches.trans hfollows.reaches_start).offset_le

theorem pairwise (htiled : Tiled c tokens d) :
    tokens.Pairwise fun a b => a.span.stop ≤ b.span.start := by
  induction htiled with
  | nil => exact .nil
  | cons _ hrest ih => exact .cons (fun b hb => hrest.start_le hb) ih

theorem exists_follows (htiled : Tiled c tokens d) (ht : t ∈ tokens) :
    ∃ m, c.Reaches m ∧ t.Follows m := by
  obtain ⟨before, after, rfl⟩ := List.append_of_mem ht
  obtain ⟨m, hbefore, hrest⟩ := htiled.exists_of_append
  cases hrest with
  | cons hfollows _ => exact ⟨m, hbefore.reaches, hfollows⟩

/-- As long as the end is not reached, every token takes a byte at least. -/
theorem length_le (htiled : Tiled c tokens d) (hend : ∀ t ∈ tokens, t.isEnd = false) :
    c.position.offset + tokens.length ≤ d.position.offset := by
  induction htiled with
  | nil => simp
  | @cons c d t tokens ht hrest ih =>
      have htail := ih fun t ht => hend t (List.mem_cons_of_mem _ ht)
      have hgap := ht.reaches_start.offset_le
      obtain ⟨cs, hcovers, hne⟩ := ht.text
      have hbytes := byteLength_pos (hne (hend t List.mem_cons_self))
      have htext := hcovers.reads.offset_eq
      simp only [List.length_cons]
      omega

end Tiled

theorem Run.tiled {source : String} {tokens : List Token} (hrun : Run source tokens) :
    Tiled (.ofSource source) tokens (frontier source tokens) := by
  -- The frontier is where the last token stops, so any end of the tiles is the frontier.
  suffices h : ∃ d, Tiled (.ofSource source) tokens d by
    obtain ⟨d, hd⟩ := h
    have hlast := hd.eq_stop_getLast
    rwa [hlast] at hd
  induction hrun with
  | start => exact ⟨_, .nil _⟩
  | next _ ih =>
      obtain ⟨d, hd⟩ := ih
      refine ⟨_, hd.append (.cons ?_ (.nil _))⟩
      rw [hd.eq_stop_getLast]
      exact next_follows _
  | @regexp tokens t _ hslash ih =>
      -- The token read again takes the place of the last one, after the same gap.
      obtain ⟨d, hd⟩ := ih
      obtain ⟨m, hbefore, hlast⟩ := hd.exists_of_append
      cases hlast with
      | cons hfollows _ =>
          have hend := isEnd_eq_false_of_isSlash hslash
          obtain ⟨ch, hch⟩ := hfollows.exists_peek hend
          exact ⟨_, hbefore.append
            (.cons (hfollows.of_begins hend (rescanRegexp_begins hch) rfl) (.nil _))⟩
  | @template tokens t _ hbrace ih =>
      obtain ⟨d, hd⟩ := ih
      obtain ⟨m, hbefore, hlast⟩ := hd.exists_of_append
      cases hlast with
      | cons hfollows _ =>
          have hend := isEnd_eq_false_of_isPunctuator hbrace
          obtain ⟨ch, hch⟩ := hfollows.exists_peek hend
          exact ⟨_, hbefore.append
            (.cons (hfollows.of_begins hend (rescanTemplate_begins hch) rfl) (.nil _))⟩

/-! ## The source -/

theorem holds_of_reads {source : String} {c d : Cursor} {pre cs : List Char}
    (hpre : (Cursor.ofSource source).Reads pre c) (hcs : c.Reads cs d) :
    Span.Holds ⟨c.position.offset, d.position.offset⟩ source (String.ofList cs) := by
  have hstart : c.position.offset = byteLength pre := by
    simpa [Cursor.ofSource, Position.start] using hpre.offset_eq
  have hstop : d.position.offset = byteLength (pre ++ cs) := by
    simpa [Cursor.ofSource, Position.start] using (hpre.append hcs).offset_eq
  refine ⟨String.ofList pre, String.ofList d.rest, ?_, ?_, ?_⟩
  · apply String.toList_injective
    simpa [Cursor.ofSource] using (hpre.append hcs).rest_eq
  · rw [utf8ByteSize_ofList, hstart]
  · rw [← String.ofList_append, utf8ByteSize_ofList, hstop]

theorem offset_eq_of_rest_eq_nil {source : String} {c : Cursor}
    (hc : (Cursor.ofSource source).Reaches c) (hrest : c.rest = []) :
    c.position.offset = source.utf8ByteSize := by
  obtain ⟨pre, hpre⟩ := hc
  have hsource : source.toList = pre := by simpa [Cursor.ofSource, hrest] using hpre.rest_eq
  rw [hpre.offset_eq, ← hsource, ← utf8ByteSize_ofList, String.ofList_toList]
  simp [Cursor.ofSource, Position.start]

theorem offset_le_utf8ByteSize {source : String} {c : Cursor}
    (hc : (Cursor.ofSource source).Reaches c) : c.position.offset ≤ source.utf8ByteSize := by
  have hall : c.Reaches (c.skipWhile fun _ => true) := Cursor.reaches_skipWhile _ c
  have hend := offset_eq_of_rest_eq_nil (hc.trans hall) 
    (by rw [Cursor.rest_skipWhile, List.dropWhile_eq_nil_iff]; simp)
  exact hend ▸ hall.offset_le

/-- Lexing loses nothing, however it is driven. -/
theorem lossless_of_run {source : String} {tokens : List Token} (hrun : Run source tokens) :
    Lossless source tokens := by
  have htiled := hrun.tiled
  refine ⟨htiled.pairwise, ?_, ?_, ?_, ?_, ?_⟩
  · intro t ht
    obtain ⟨m, hm, hfollows⟩ := htiled.exists_follows ht
    obtain ⟨pre, hpre⟩ := hm.trans hfollows.reaches_start
    obtain ⟨cs, hcovers, _⟩ := hfollows.text
    rw [hcovers.raw_eq]
    exact holds_of_reads hpre hcovers.reads
  · intro t ht hend
    obtain ⟨m, _, hfollows⟩ := htiled.exists_follows ht
    obtain ⟨cs, hcovers, hne⟩ := hfollows.text
    have hbytes := byteLength_pos (hne hend)
    have htext := hcovers.reads.offset_eq
    change t.start.position.offset < t.stop.position.offset
    omega
  · intro t ht hend
    obtain ⟨m, hm, hfollows⟩ := htiled.exists_follows ht
    have hreach := hm.trans hfollows.reaches_start
    have hstart := offset_eq_of_rest_eq_nil hreach (hfollows.atEnd hend)
    have hstop := offset_le_utf8ByteSize (hreach.trans hfollows.reaches_stop)
    have hle := hfollows.reaches_stop.offset_le
    have hsame : t.stop.position.offset = source.utf8ByteSize := by omega
    exact congrArg₂ Span.mk hstart hsame
  · intro hlength
    rw [← List.take_append_drop (source.utf8ByteSize + 1) tokens] at htiled
    obtain ⟨m, hfirst, _⟩ := htiled.exists_of_append
    -- Without the end among them, these tokens would take more bytes than there are.
    by_contra hnone
    have hend : ∀ t ∈ tokens.take (source.utf8ByteSize + 1), t.isEnd = false := by
      simpa using hnone
    have hcount := hfirst.length_le hend
    have hbound := offset_le_utf8ByteSize hfirst.reaches
    rw [List.length_take, Nat.min_eq_left hlength] at hcount
    omega
  · rintro before t after rfl
    obtain ⟨m, hbefore, hrest⟩ := htiled.exists_of_append
    cases hrest with
    | cons hfollows _ =>
        obtain ⟨gap, hreads, hgap⟩ := hfollows.gap
        obtain ⟨pre, hpre⟩ := hbefore.reaches
        have hoffset : endOffset before = m.position.offset := by
          rw [hbefore.eq_stop_getLast, endOffset]
          cases before.getLast? <;> rfl
        refine ⟨String.ofList gap, ?_, ?_⟩
        · rw [hoffset]
          exact holds_of_reads hpre hreads
        · rw [hoffset, String.toList_ofList]
          exact hgap

/-- A slash and a brace that are both read again, in `/=/` and in a template around `b`. -/
theorem lossless_of_rescans : ∃ tokens, Run "/=/ `a$\x7bb\x7d`" tokens ∧
    tokens.map (·.raw) = ["/=/", "`a$\x7b", "b", "\x7d`", ""] ∧
    Lossless "/=/ `a$\x7bb\x7d`" tokens := by
  have hslash : Run "/=/ `a$\x7bb\x7d`" ([] ++ [Token.next (frontier "/=/ `a$\x7bb\x7d`" [])]) :=
    .next .start
  have hbrace := (Run.regexp hslash (by decide +kernel)).next.next.next
  have hrun := (Run.template hbrace (by decide +kernel)).next
  exact ⟨_, hrun, by decide +kernel, lossless_of_run hrun⟩

end Token

end ScriptLint

/-! ## Option comments

The comments that a parser comes across are those in front of the tokens that it is given. Which
tokens these are depends on how it drives the lexer, so an option counts as set by a source if some
way of driving comes across it.
-/

namespace ScriptLint

/-- What the comment says about options, each with the value it is given. -/
def Directive.options (d : Directive) : List (String × Option String) :=
  match d.kind with
  | .jshint | .jslint => d.items
  | .global | .exported | .fallsThrough => []

namespace Trivia

/-- Every comment begins with a slash. -/
theorem directives_of_step? {t t' : Trivia} (hslash : '/' ∉ t.stop.rest)
    (hstep : t.step? = some t') : t'.directives = t.directives ∧ '/' ∉ t'.stop.rest := by
  have hadvance : '/' ∉ t.stop.advance.rest := by
    obtain ⟨cs, hreads⟩ := Cursor.reaches_advance t.stop
    rw [hreads.rest_eq] at hslash
    exact fun hmem => hslash (List.mem_append_right _ hmem)
  unfold step? at hstep
  split at hstep
  · cases hstep
  next hrest => simp [hrest] at hslash
  next hrest => simp [hrest] at hslash
  next =>
    split at hstep
    · cases hstep
      exact ⟨rfl, hadvance⟩
    · split at hstep
      · cases hstep
        exact ⟨rfl, hadvance⟩
      · split at hstep <;> cases hstep
        exact ⟨rfl, hadvance⟩

theorem directives_skip {t : Trivia} (hslash : '/' ∉ t.stop.rest) :
    t.skip.directives = t.directives := by
  fun_induction skip t with
  | case1 => rfl
  | case2 t t' hstep ih =>
      obtain ⟨hsame, hrest⟩ := directives_of_step? hslash hstep
      rw [ih hrest, hsame]

end Trivia

namespace Token

/-! ## Ways to go on -/

/-- The second token can be given to a parser after the first, or in its place. -/
inductive LeadsTo (t : Token) : Token → Prop
  | refl : LeadsTo t t
  | next {t' : Token} : LeadsTo t t' → LeadsTo t (Token.next t'.stop)
  | regexp {t' : Token} : LeadsTo t t' → Reading.isSlash t' → LeadsTo t t'.rescanRegexp
  | template {t' : Token} : LeadsTo t t' → t'.isPunctuator "\x7d" → LeadsTo t t'.rescanTemplate

theorem LeadsTo.trans {t t' t'' : Token} (hfirst : t.LeadsTo t') (hsecond : t'.LeadsTo t'') :
    t.LeadsTo t'' := by
  induction hsecond with
  | refl => exact hfirst
  | next _ ih => exact .next ih
  | regexp _ hslash ih => exact .regexp ih hslash
  | template _ hbrace ih => exact .template ih hbrace

/-- What the first token of a source leads to can be given to a parser. -/
theorem LeadsTo.exists_run {source : String} {t : Token}
    (hleads : (Token.next (.ofSource source)).LeadsTo t) :
    ∃ tokens, Run source (tokens ++ [t]) := by
  induction hleads with
  | refl => exact ⟨[], .next .start⟩
  | @next t' _ ih =>
      obtain ⟨tokens, hrun⟩ := ih
      have hfrontier : frontier source (tokens ++ [t']) = t'.stop := by simp [frontier]
      exact ⟨tokens ++ [t'], hfrontier ▸ hrun.next⟩
  | regexp _ hslash ih =>
      obtain ⟨tokens, hrun⟩ := ih
      exact ⟨tokens, hrun.regexp hslash⟩
  | template _ hbrace ih =>
      obtain ⟨tokens, hrun⟩ := ih
      exact ⟨tokens, hrun.template hbrace⟩

/-- A keyword among the tokens is spelled out in the source. -/
theorem LeadsTo.isInfix_of_isKeyword {source : String} {t : Token}
    (hleads : (Token.next (.ofSource source)).LeadsTo t) {word : String}
    (hword : t.isKeyword word) : word.toList <:+: source.toList := by
  obtain ⟨tokens, hrun⟩ := hleads.exists_run
  obtain ⟨c, ⟨before, hbefore⟩, hfollows⟩ := hrun.tiled.exists_follows (List.mem_append_right _
    List.mem_cons_self)
  obtain ⟨gap, hgap, -⟩ := hfollows.gap
  obtain ⟨cs, hcovers, -⟩ := hfollows.text
  have hspelled : word.toList = cs := by
    unfold isKeyword at hword
    split at hword
    · rw [← eq_of_beq hword, hcovers.raw_eq, String.toList_ofList]
    · cases hword
  have hsource : source.toList = before ++ gap ++ (cs ++ t.stop.rest) := by
    rw [← hcovers.reads.rest_eq]
    exact (hbefore.append hgap).rest_eq
  exact ⟨before ++ gap, t.stop.rest, by rw [hsource, hspelled, List.append_assoc]⟩

/-! ## Options -/

/-- A comment in front of the token, or of one that it leads to, sets an option. -/
def Announces (t : Token) (item : String × Option String) : Prop :=
  ∃ t', t.LeadsTo t' ∧ ∃ d ∈ t'.directives, item ∈ d.options

theorem Announces.of_leadsTo {t t' : Token} {item : String × Option String}
    (hitem : t'.Announces item) (hleads : t.LeadsTo t') : t.Announces item := by
  obtain ⟨t'', hleads', hmem⟩ := hitem
  exact ⟨t'', hleads.trans hleads', hmem⟩

/-- A comment of the source sets an option: a parser can come across it. -/
def SetsOption (source : String) (item : String × Option String) : Prop :=
  ∃ tokens, Run source tokens ∧ ∃ t ∈ tokens, ∃ d ∈ t.directives, item ∈ d.options

theorem Announces.setsOption {source : String} {item : String × Option String}
    (hitem : (Token.next (.ofSource source)).Announces item) : SetsOption source item := by
  obtain ⟨t, hleads, hmem⟩ := hitem
  obtain ⟨tokens, hrun⟩ := hleads.exists_run
  exact ⟨tokens ++ [t], hrun, t, List.mem_append_right _ List.mem_cons_self, hmem⟩

theorem directives_next {c : Cursor} (hslash : '/' ∉ c.rest) : (Token.next c).directives = [] := by
  obtain ⟨cs, hreads⟩ : c.Reaches (Trivia.afterHashbang c) := by
    unfold Trivia.afterHashbang Trivia.lineEnd
    split
    · exact Cursor.reaches_skipWhile _ c
    · exact .refl c
  refine Trivia.directives_skip (t := { stop := Trivia.afterHashbang c }) fun hmem => hslash ?_
  rw [hreads.rest_eq]
  exact List.mem_append_right _ hmem

/-- A source without a slash has no comments. -/
theorem Run.directives_eq_nil {source : String} {tokens : List Token} (hrun : Run source tokens)
    (hslash : '/' ∉ source.toList) {t : Token} (ht : t ∈ tokens) : t.directives = [] := by
  induction hrun generalizing t with
  | start => cases ht
  | @next tokens hrun ih =>
      rcases List.mem_append.mp ht with ht | ht
      · exact ih ht
      · obtain ⟨cs, hreads⟩ := hrun.tiled.reaches
        have hsource : source.toList = cs ++ (frontier source tokens).rest := hreads.rest_eq
        rw [List.mem_singleton.mp ht]
        refine directives_next fun hmem => hslash ?_
        rw [hsource]
        exact List.mem_append_right _ hmem
  | @regexp tokens t' _ _ ih | @template tokens t' _ _ ih =>
      rcases List.mem_append.mp ht with ht | ht
      · exact ih (List.mem_append_left _ ht)
      · rw [List.mem_singleton.mp ht]
        -- Reading a token again leaves the comments in front of it as they are.
        exact ih (t := t') (List.mem_append_right _ List.mem_cons_self)

theorem not_setsOption_of_no_slash {source : String} (hslash : '/' ∉ source.toList)
    (item : String × Option String) : ¬ SetsOption source item := by
  rintro ⟨tokens, hrun, t, ht, d, hd, -⟩
  rw [hrun.directives_eq_nil hslash ht] at hd
  cases hd

end Token

end ScriptLint
