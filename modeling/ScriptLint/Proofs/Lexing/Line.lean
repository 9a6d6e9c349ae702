import ScriptLint.Proofs.Lexing.Issue
import ScriptLint.Proofs.Lexing.Number
import ScriptLint.Proofs.Material.Basic

/-! # Tokens and lines

Only strings and pieces of templates may hold the end of a line, in their spelling or in their
value. All other tokens lie within one line, and so does all that comes with a token: the words of
comments and the arguments of problems. What is shown in front of another text, be it a word of the
analysis, a name or the argument of a problem, has no place that the other one could be put in.
-/

namespace ScriptLint

open Character (isDigitOf isIdContinue isIdPart isIdStart)

namespace Cursor

/-- One cursor comes from the other by reading on within a line. -/
def InLine (c d : Cursor) : Prop := ∃ cs, c.Reads cs d ∧ '\n' ∉ cs

namespace InLine

variable {c d e : Cursor}

theorem refl (c : Cursor) : c.InLine c := ⟨[], .nil c, List.not_mem_nil⟩

theorem trans (hcd : c.InLine d) (hde : d.InLine e) : c.InLine e := by
  obtain ⟨cs, hcs, hline⟩ := hcd
  obtain ⟨ds, hds, hline'⟩ := hde
  exact ⟨cs ++ ds, hcs.append hds, by simp [hline, hline']⟩

theorem advance {ch : Char} (hch : c.peek? = some ch) (hne : ch ≠ '\n') : c.InLine c.advance :=
  ⟨[ch], reads_advance hch, by simpa using hne.symm⟩

theorem accept? {expected : Char} (hd : c.accept? expected = some d) (hne : expected ≠ '\n') :
    c.InLine d := by
  unfold Cursor.accept? at hd
  split at hd
  next hch =>
    cases hd
    exact .advance hch hne
  next => cases hd

theorem skip (expected : Char) (hne : expected ≠ '\n') : c.InLine (c.skip expected) := by
  unfold Cursor.skip
  cases hd : c.accept? expected with
  | none => exact .refl c
  | some d => exact .accept? hd hne

theorem skipWhile (p : Char → Bool) (hp : p '\n' = false) : c.InLine (c.skipWhile p) := by
  refine ⟨_, reads_skipWhile p c, fun hmem => ?_⟩
  have hholds := List.all_eq_true.mp List.all_takeWhile _ hmem
  rw [hp] at hholds
  cases hholds

/-- The text between two cursors in a line. -/
theorem not_mem_textTo (hcd : c.InLine d) : '\n' ∉ (c.textTo d).toList := by
  obtain ⟨cs, hcs, hline⟩ := hcd
  rwa [textTo, hcs.charsTo_eq, String.toList_ofList]

/-! ### Escapes -/

theorem digitsUpTo (radix count value : Nat) (c : Cursor) :
    c.InLine (Cursor.digitsUpTo radix count value c).2.2 := by
  induction count generalizing value c with
  | zero => exact .refl c
  | succ count ih =>
      unfold Cursor.digitsUpTo
      split
      next => exact .refl c
      next digit hdigit =>
        obtain ⟨ch, hch, hvalue⟩ := Option.bind_eq_some_iff.mp hdigit
        have hne : ch ≠ '\n' := by
          rintro rfl
          cases hvalue
        exact (InLine.advance hch hne).trans (ih _ _)

theorem unicodeEscape (c : Cursor) : c.InLine c.unicodeEscape.2 := by
  unfold Cursor.unicodeEscape
  split
  next => exact .digitsUpTo 16 4 0 c
  next d hd =>
    have hdigits : c.InLine (d.skipWhile (isDigitOf 16)) :=
      (InLine.accept? hd (by decide)).trans (.skipWhile _ (by rfl))
    dsimp only
    split
    · exact hdigits
    · split
      next => exact hdigits
      next hclose => exact hdigits.trans (.accept? hclose (by decide))

end InLine

end Cursor

open Cursor (InLine)

/-! ## Names -/

namespace NameScan

variable {outside : Char}

/-- A character that no name has comes into none. -/
theorem admits_ne {s : NameScan} {ch : Char} (houtside : ∀ first, isIdPart first outside = false)
    (hadmits : s.admits ch) : ch ≠ outside := by
  rintro rfl
  rw [admits, houtside] at hadmits
  cases hadmits

theorem isIdPart_newline : ∀ first, isIdPart first '\n' = false := by decide

theorem isIdPart_brace : ∀ first, isIdPart first '\x7b' = false := by decide

theorem inLine_escape {s : NameScan} (hslash : s.stop.peek? = some '\\') :
    s.stop.InLine s.escape.stop := by
  refine (InLine.advance hslash (by decide)).trans ?_
  unfold escape
  dsimp only
  cases hu : s.stop.advance.accept? 'u' with
  | none =>
      dsimp only
      split <;> exact .refl _
  | some c =>
      dsimp only
      split <;> exact (InLine.accept? hu (by decide)).trans (.unicodeEscape c)

theorem inLine_finish (s : NameScan) : s.stop.InLine s.finish.stop := by
  fun_induction finish s with
  | case1 => exact .refl _
  | case2 s hslash ih => exact (inLine_escape hslash).trans ih
  | case3 s ch hch hne hadmits ih =>
      exact (InLine.advance hch (admits_ne isIdPart_newline hadmits)).trans ih
  | case4 => exact .refl _

variable (houtside : ∀ first, isIdPart first outside = false)
include houtside

theorem not_mem_escape {s : NameScan} (hs : outside ∉ s.reversed) :
    outside ∉ s.escape.reversed := by
  unfold escape
  dsimp only
  split
  next ch hch =>
    have hne := admits_ne houtside (Option.filter_eq_some_iff.mp hch).2
    simpa [hs] using hne.symm
  next => exact hs

theorem not_mem_finish {s : NameScan} (hs : outside ∉ s.reversed) :
    outside ∉ s.finish.reversed := by
  fun_induction finish s with
  | case1 => exact hs
  | case2 s _ ih => exact ih (not_mem_escape houtside hs)
  | case3 s ch _ _ hadmits ih => exact ih (by simpa [hs] using (admits_ne houtside hadmits).symm)
  | case4 => exact hs

theorem not_mem_name {s : NameScan} (hs : outside ∉ s.reversed) :
    outside ∉ s.finish.name.toList := by
  simpa [name] using not_mem_finish houtside hs

end NameScan

/-! ## Regular expressions -/

namespace PatternScan

theorem ne_of_not_isLineTerminator {ch : Char} (hline : ¬ Character.isLineTerminator ch) :
    ch ≠ '\n' := by
  rintro rfl
  exact hline (by decide)

theorem inLine_escape {s : PatternScan} (hslash : s.stop.peek? = some '\\') :
    s.stop.InLine s.escape.stop := by
  refine (InLine.advance hslash (by decide)).trans ?_
  unfold escape take
  dsimp only
  split
  next ch hch =>
    split
    next => exact .refl _
    next hline => exact .advance hch (ne_of_not_isLineTerminator hline)
  next => exact .refl _

theorem inLine_finish (s : PatternScan) : s.stop.InLine s.finish.stop := by
  fun_induction finish s with
  | case1 => exact .refl _
  | case2 => exact .refl _
  | case3 s hslash _ ih => exact (inLine_escape hslash).trans ih
  | case4 s ch hch hline => exact .advance hch (ne_of_not_isLineTerminator hline)
  | case5 s ch hch hline _ _ _ ih =>
      exact (InLine.advance hch (ne_of_not_isLineTerminator hline)).trans ih

end PatternScan

/-! ## Numbers -/

theorem DigitRun.inLine_read (radix : Nat) (c : Cursor) : c.InLine (read radix c).stop :=
  .skipWhile _ (by simp [isDigitOf, Character.digitValue?])

namespace DecimalTail

theorem inLine_readExponent {c : Cursor} {ch : Char} (hch : c.peek? = some ch) (hne : ch ≠ '\n') :
    c.InLine (readExponent c).2.stop := by
  refine (InLine.advance hch hne).trans ?_
  unfold readExponent
  dsimp only
  split
  next hsign => exact (InLine.advance hsign (by decide)).trans (DigitRun.inLine_read 10 _)
  next hsign => exact (InLine.advance hsign (by decide)).trans (DigitRun.inLine_read 10 _)
  next => exact DigitRun.inLine_read 10 _

theorem inLine_read (c : Cursor) : c.InLine (read c).stop := by
  have hfraction : c.InLine (((c.accept? '.').map (DigitRun.read 10)).elim c (·.stop)) := by
    cases hpoint : c.accept? '.' with
    | none => exact .refl c
    | some d => exact (InLine.accept? hpoint (by decide)).trans (DigitRun.inLine_read 10 d)
  refine hfraction.trans ?_
  change InLine _ ((if _ then some (readExponent _) else none).elim _ (·.2.stop))
  split
  next hexponent =>
    obtain ⟨ch, hch, hletter⟩ := (Option.any_eq_true _ _).mp hexponent
    refine inLine_readExponent hch ?_
    rintro rfl
    cases hletter
  next => exact .refl _

end DecimalTail

namespace Numeral

theorem inLine_readRadix {c : Cursor} {letter : Char} {radix : Nat} {rest : List Char}
    (hletter : (letter, radix) ∈ radixLetters) (hc : c.rest = '0' :: letter :: rest) :
    c.InLine (readRadix radix c).stop := by
  have hne : '\n' ∉ ['0', letter] := by
    have hletters : ∀ entry ∈ radixLetters, '\n' ∉ ['0', entry.1] := by decide
    exact hletters _ hletter
  have hmark : c.InLine c.advance.advance := ⟨_, reads_letter hc, hne⟩
  exact (hmark.trans (DigitRun.inLine_read radix _)).trans (.skip 'n' (by decide))

theorem inLine_readZero (c : Cursor) : c.InLine (readZero c).stop := by
  have hwhole : c.InLine (c.skipWhile fun ch => ch = '_' || ch.isDigit) := .skipWhile _ (by decide)
  unfold readZero
  dsimp only
  split
  · exact hwhole
  · exact hwhole.trans (DecimalTail.inLine_read _)

theorem inLine_tail (c : Cursor) : c.InLine (DecimalTail.read (DigitRun.read 10 c).stop).stop :=
  (DigitRun.inLine_read 10 c).trans (DecimalTail.inLine_read _)

theorem inLine_readDecimal (c : Cursor) : c.InLine (readDecimal c).stop := by
  unfold readDecimal
  dsimp only
  split
  next stop hstop =>
    split at hstop
    · cases hstop
    · exact (inLine_tail c).trans (.accept? hstop (by decide))
  next => exact inLine_tail c

theorem inLine_read (c : Cursor) : c.InLine (read c).stop := by
  unfold read
  split
  next radix hradix =>
    obtain ⟨letter, rest, hletter, hc⟩ := exists_letter hradix
    exact inLine_readRadix hletter hc
  next =>
    split
    · exact inLine_readZero c
    · exact inLine_readDecimal c

theorem inLine_glue (n : Numeral) : n.stop.InLine n.glue.stop := by
  unfold glue
  split
  · exact .skipWhile _ (by decide)
  · exact .refl _

end Numeral

/-! ## Punctuators -/

namespace Token

theorem inLine_skipChars {cs rest : List Char} {c : Cursor} (hc : c.rest = cs ++ rest)
    (hline : '\n' ∉ cs) : c.InLine (skipChars cs.length c) := by
  induction cs generalizing c with
  | nil => exact .refl c
  | cons ch cs ih =>
      have hch : c.peek? = some ch := by simp [Cursor.peek?, hc]
      have hne : ch ≠ '\n' := fun heq => hline (heq ▸ List.mem_cons_self)
      exact (InLine.advance hch hne).trans
        (ih (Cursor.rest_advance hc) fun hmem => hline (List.mem_cons_of_mem ch hmem))

theorem inLine_punctuator {c : Cursor} {ch : Char} (hch : c.peek? = some ch) (hne : ch ≠ '\n') :
    c.InLine (skipChars (punctuatorLength c.rest) c) := by
  unfold punctuatorLength
  cases hfound : longPunctuators.find? (punctuatorFits · c.rest) with
  | none => exact .advance hch hne
  | some spelling =>
      have hlines : ∀ spelling ∈ longPunctuators, '\n' ∉ spelling := by decide
      have hfits := List.find?_some hfound
      obtain ⟨rest, hrest⟩ := List.isPrefixOf_iff_prefix.mp (Bool.and_eq_true_iff.mp hfits).1
      exact inLine_skipChars hrest.symm (hlines spelling (List.mem_of_find?_eq_some hfound))

/-! ## Tokens -/

/-- A string or a piece of a template. -/
def holdsText (t : Token) : Bool :=
  match t.lexeme with
  | .string _ | .template _ _ => true
  | _ => false

/-- The token lies within one line, and so does what it shows. -/
structure InLine (t : Token) : Prop where
  raw : '\n' ∉ t.raw.toList
  display : '\n' ∉ t.display.toList
  name : '\n' ∉ t.name.toList

theorem between_inLine {lexeme : Lexeme} {start stop : Cursor} (flags : TokenFlags)
    (issues : List LexicalIssue) (hstop : start.InLine stop)
    (hdisplay : '\n' ∉ (between lexeme start stop flags issues).display.toList)
    (hname : '\n' ∉ (between lexeme start stop flags issues).name.toList) :
    (between lexeme start stop flags issues).InLine :=
  ⟨hstop.not_mem_textTo, hdisplay, hname⟩

/-- A token that is shown as it is spelled. -/
theorem between_inLine_of_raw {lexeme : Lexeme} {start stop : Cursor} (flags : TokenFlags)
    (issues : List LexicalIssue) (hstop : start.InLine stop)
    (hdisplay : (between lexeme start stop flags issues).display = start.textTo stop)
    (hname : (between lexeme start stop flags issues).name = start.textTo stop) :
    (between lexeme start stop flags issues).InLine :=
  between_inLine flags issues hstop (hdisplay ▸ hstop.not_mem_textTo) (hname ▸ hstop.not_mem_textTo)

theorem scanNumber_inLine (c : Cursor) : (scanNumber c).InLine := by
  have hstop : c.InLine (Numeral.read c).glue.stop :=
    (Numeral.inLine_read c).trans (Numeral.inLine_glue _)
  unfold scanNumber
  dsimp only
  rcases Numeral.lexeme_glue_read c with ⟨value, hvalue⟩ | ⟨value, hvalue⟩ <;> rw [hvalue] <;>
    exact between_inLine_of_raw _ _ hstop rfl rfl

theorem scanPrivateName_inLine {c : Cursor} (hhash : c.peek? = some '#') :
    (scanPrivateName c).InLine := by
  have hstop : c.InLine (NameScan.finish { stop := c.advance }).stop :=
    (InLine.advance hhash (by decide)).trans (NameScan.inLine_finish { stop := c.advance })
  exact between_inLine _ _ hstop hstop.not_mem_textTo
    (NameScan.not_mem_name NameScan.isIdPart_newline List.not_mem_nil)

theorem scanName_inLine (c : Cursor) : (scanName c).InLine := by
  have hstop : c.InLine (NameScan.finish { stop := c }).stop :=
    NameScan.inLine_finish { stop := c }
  have hname : '\n' ∉ (NameScan.finish { stop := c }).name.toList :=
    NameScan.not_mem_name NameScan.isIdPart_newline List.not_mem_nil
  unfold scanName NameScan.lexeme
  dsimp only
  split
  · exact between_inLine _ _ hstop hstop.not_mem_textTo (by simp [name, between])
  · split <;> exact between_inLine _ _ hstop hname hname

theorem scanPunctuator_inLine {c : Cursor} {ch : Char} (hch : c.peek? = some ch)
    (hne : ch ≠ '\n') : (scanPunctuator c).InLine :=
  between_inLine_of_raw _ _ (inLine_punctuator hch hne) rfl rfl

/-- A token that begins with no line end lies within its line, unless it holds text. -/
theorem scan_inLine {c : Cursor} (hline : c.peek? ≠ some '\n') :
    (scan c).InLine ∨ (scan c).holdsText := by
  unfold scan
  split
  next =>
    have hend : '\n' ∉ "(end)".toList := by decide
    exact .inl (between_inLine _ _ (.refl c) hend (InLine.refl c).not_mem_textTo)
  next ch hch =>
    have hne : ch ≠ '\n' := fun heq => hline (heq ▸ hch)
    split
    · exact .inr rfl
    · split
      · exact .inr rfl
      · split
        · exact .inl (scanNumber_inLine c)
        · split
          next hhash => exact .inl (scanPrivateName_inLine (hhash.1 ▸ hch))
          next =>
            split
            · exact .inl (scanName_inLine c)
            · exact .inl (scanPunctuator_inLine hch hne)

theorem rescanRegexp_inLine {t : Token} (hslash : t.start.peek? = some '/') :
    t.rescanRegexp.InLine := by
  have hpattern := PatternScan.inLine_finish { stop := t.start.advance }
  have hstop : t.start.InLine t.rescanRegexp.stop := by
    refine ((InLine.advance hslash (by decide)).trans hpattern).trans ?_
    change Cursor.InLine _ (if _ then _ else _)
    split
    · exact .skipWhile _ (by decide)
    · exact .refl _
  exact ⟨hstop.not_mem_textTo, hstop.not_mem_textTo, hstop.not_mem_textTo⟩

/-- What is read next begins with no line end. -/
theorem next_inLine (c : Cursor) : (next c).InLine ∨ (next c).holdsText := by
  have hline : (Trivia.before c).stop.peek? ≠ some '\n' := fun hline => by
    have hnot := Trivia.not_isLineTerminator_of_step?_eq_none (Trivia.step?_skip _) hline
    cases hnot
  rcases scan_inLine hline with h | h
  · exact .inl ⟨h.raw, h.display, h.name⟩
  · exact .inr h

/-- A slash stands where a token that begins with one does. -/
theorem peek?_of_isSlash {t : Token} {c : Cursor} (ht : t.Follows c) (hslash : Reading.isSlash t) :
    t.start.peek? = some '/' := by
  obtain ⟨cs, hcovers, -⟩ := ht.text
  have hraw : t.raw = "/" ∨ t.raw = "/=" := by
    unfold Reading.isSlash isPunctuator at hslash
    split at hslash
    · simpa using hslash
    · cases hslash
  have hcs : cs = ['/'] ∨ cs = ['/', '='] := by
    rw [hcovers.raw_eq] at hraw
    exact hraw.imp (fun h => by simpa using congrArg String.toList h)
      (fun h => by simpa using congrArg String.toList h)
  rw [Cursor.peek?, hcovers.reads.rest_eq]
  rcases hcs with rfl | rfl <;> rfl

end Token

/-! ## Words -/

/-- A text within one line that has no place for a second argument. -/
structure IsPlain (text : String) : Prop where
  line : '\n' ∉ text.toList
  placeless : ¬ Message.Places 'b' text.toList

theorem isPlain_of_mem_ownWords : ∀ word ∈ ownWords, IsPlain word := by
  simp only [ownWords, List.forall_mem_cons]
  repeat' apply And.intro
  all_goals
    first
    | (constructor <;> rw [String.toList_ofList] <;> decide +kernel)
    | exact List.forall_mem_nil _

theorem isPlain_of_mem_featureNames : ∀ name ∈ featureNames, IsPlain name := by
  simp only [featureNames, List.forall_mem_cons]
  repeat' apply And.intro
  all_goals
    first
    | (constructor <;> rw [String.toList_ofList] <;> decide +kernel)
    | exact List.forall_mem_nil _

/-! ## Problems -/

namespace LexicalIssue

/-- The problem has arguments such as its code takes, each of them lies within a line, and the first
of two has no place for the second. -/
structure InLine (issue : LexicalIssue) : Prop where
  takes : Message.Takes issue.code issue.arguments
  arguments : ∀ a ∈ issue.arguments, '\n' ∉ a.toList
  leads : ∀ a b, issue.arguments = [a, b] → IsPlain a

/-- All problems of a list lie within lines. -/
def AllInLine (issues : List LexicalIssue) : Prop := ∀ issue ∈ issues, issue.InLine

variable {issues issues' : List LexicalIssue}

theorem allInLine_bare {code : String} (hcode : code ∈ Message.bareCodes) (position : Position)
    (fatal : Bool) (since? : Option Edition) (regular : Halt.IsRegular code) :
    AllInLine [{ code, position, fatal, since?, regular }] :=
  List.forall_mem_singleton.mpr ⟨.bare hcode, nofun, nofun⟩

theorem allInLine_naming {code text : String} (hcode : code ∈ Message.namingCodes)
    (hline : '\n' ∉ text.toList) (position : Position) (fatal : Bool) (since? : Option Edition)
    (regular : Halt.IsRegular code) :
    AllInLine [{ code, position, arguments := [text], fatal, since?, regular }] :=
  List.forall_mem_singleton.mpr
    ⟨.naming hcode, List.forall_mem_singleton.mpr hline, by rintro _ _ ⟨⟩⟩

theorem allInLine_gated {feature : String} (hfeature : feature ∈ featureNames) (since : Edition)
    (position : Position) : AllInLine [gated feature since position] := by
  have hplain := isPlain_of_mem_featureNames feature hfeature
  have hedition : '\n' ∉ (toString since.number).toList :=
    (isPlain_of_mem_ownWords _ (by cases since <;> decide)).line
  refine List.forall_mem_singleton.mpr ⟨(.pairing (by decide) : Message.Takes "W119" _), ?_, ?_⟩
  · exact List.forall_mem_cons.mpr ⟨hplain.line, List.forall_mem_singleton.mpr hedition⟩
  · rintro _ _ ⟨⟩
    exact hplain

theorem AllInLine.nil : AllInLine [] := fun _ hmem => absurd hmem List.not_mem_nil

theorem AllInLine.ite {p : Prop} [Decidable p] (h : AllInLine issues) :
    AllInLine (if p then issues else []) := by
  split
  · exact h
  · exact .nil

theorem AllInLine.append (h : AllInLine issues) (h' : AllInLine issues') :
    AllInLine (issues ++ issues') :=
  List.forall_mem_append.mpr ⟨h, h'⟩

end LexicalIssue

open LexicalIssue (AllInLine allInLine_bare allInLine_gated allInLine_naming)

theorem NameScan.allInLine_issues_escape {s : NameScan} (hs : AllInLine s.issues) :
    AllInLine s.escape.issues := by
  unfold escape
  dsimp only
  split
  · exact hs
  · exact hs.append (allInLine_naming (by decide) (by decide) _ _ _ _)

theorem NameScan.allInLine_issues_finish {s : NameScan} (hs : AllInLine s.issues) :
    AllInLine s.finish.issues := by
  fun_induction finish s with
  | case1 => exact hs
  | case2 s _ ih => exact ih (allInLine_issues_escape hs)
  | case3 s _ _ _ _ ih => exact ih hs
  | case4 => exact hs

theorem Escape.allInLine_issues (e : Escape) (position : Position) :
    AllInLine (e.issues position) :=
  .ite (allInLine_gated (by decide) _ _)

theorem StringScan.allInLine_issues_escape {s : StringScan} (hs : AllInLine s.issues) :
    AllInLine s.escape.issues := by
  unfold escape
  dsimp only
  split
  · exact hs
  · split
    · exact hs.append (allInLine_bare (by decide) _ _ _ _)
    · have hread := hs.append ((Escape.read false s.stop.advance).allInLine_issues s.stop.position)
      split
      · exact hread
      · exact hread.append (allInLine_bare (by decide) _ _ _ _)

theorem StringScan.allInLine_issues_finish (quote : Char) (start : Position) {s : StringScan}
    (hs : AllInLine s.issues) :
    AllInLine (s.finish quote start).issues := by
  fun_induction finish quote start s with
  | case1 => exact hs.append (allInLine_bare (by decide) _ _ _ _)
  | case2 => exact hs.append (allInLine_bare (by decide) _ _ _ _)
  | case3 => exact hs
  | case4 s _ _ _ ih => exact ih (allInLine_issues_escape hs)
  | case5 s _ _ _ _ _ ih => exact ih hs

theorem TemplateScan.allInLine_issues_escape {s : TemplateScan}
    (hs : AllInLine s.issues) : AllInLine s.escape.issues := by
  unfold escape
  dsimp only
  split
  · exact hs
  · split
    · exact hs
    · exact hs.append (Escape.allInLine_issues _ _)

theorem TemplateScan.allInLine_issues_finish (start : Position) {s : TemplateScan}
    (hs : AllInLine s.issues) : AllInLine (s.finish start).issues := by
  fun_induction finish start s with
  | case1 => exact hs.append (allInLine_bare (by decide) _ _ _ _)
  | case2 => exact hs
  | case3 => exact hs
  | case4 s _ _ _ ih => exact ih (allInLine_issues_escape hs)
  | case5 s _ _ _ _ _ ih => exact ih hs

theorem Numeral.allInLine_issues_read (c : Cursor) : AllInLine (read c).issues := by
  unfold read
  split
  next radix _ =>
    change AllInLine (radixIssues radix c.position)
    unfold radixIssues
    split
    · exact allInLine_gated (by decide) _ _
    · exact .ite (allInLine_gated (by decide) _ _)
  next =>
    split
    · rw [(readZero_plain c).2]
      exact .nil
    · have htext := (inLine_tail c).not_mem_textTo
      unfold readDecimal
      dsimp only
      split
      · exact .ite (allInLine_naming (by decide) htext _ _ _ _)
      · exact AllInLine.append
          (.ite (allInLine_naming (by decide) htext _ _ _ _))
          (.ite (allInLine_naming (by decide) htext _ _ _ _))

theorem Trivia.allInLine_issues_step? {t t' : Trivia} (hstep : t.step? = some t')
    (ht : AllInLine t.issues) : AllInLine t'.issues := by
  unfold step? at hstep
  split at hstep
  · cases hstep
  · cases hstep
    exact ht
  · cases hstep
    unfold skipBlockComment
    dsimp only
    split
    · exact ht.append (allInLine_bare (by decide) _ _ _ _)
    · exact ht
  · split at hstep
    · cases hstep
      exact ht
    · split at hstep
      · cases hstep
        exact ht.append (allInLine_bare (by decide) _ _ _ _)
      · split at hstep <;> cases hstep
        exact ht

theorem Trivia.allInLine_issues_skip {t : Trivia} (ht : AllInLine t.issues) :
    AllInLine t.skip.issues := by
  fun_induction skip t with
  | case1 => exact ht
  | case2 t t' hstep ih => exact ih (allInLine_issues_step? hstep ht)

namespace Token

theorem allInLine_issues_scan (c : Cursor) : AllInLine (scan c).issues := by
  have hnone : AllInLine ([] : List LexicalIssue) := .nil
  unfold scan
  split
  · exact .nil
  · split
    · exact StringScan.allInLine_issues_finish _ _ hnone
    · split
      · exact TemplateScan.allInLine_issues_finish _ hnone
      · split
        · have hread : AllInLine (Numeral.read c).glue.issues := by
            rw [Numeral.issues_glue]
            exact Numeral.allInLine_issues_read c
          have htext : '\n' ∉ (c.textTo (Numeral.read c).glue.stop).toList :=
            ((Numeral.inLine_read c).trans (Numeral.inLine_glue _)).not_mem_textTo
          refine .append (.append (.append hread ?_) ?_) (.ite ?_)
          · exact .ite (allInLine_gated (by decide) _ _)
          · exact .ite (allInLine_gated (by decide) _ _)
          · exact allInLine_naming (by decide) htext _ _ _ _
        · split
          · exact NameScan.allInLine_issues_finish hnone
          · split
            · exact NameScan.allInLine_issues_finish hnone
            · exact .nil

theorem allInLine_issues_next (c : Cursor) : AllInLine (next c).issues := by
  have hnone : AllInLine ({ stop := Trivia.afterHashbang c } : Trivia).issues := .nil
  exact (Trivia.allInLine_issues_skip hnone).append (allInLine_issues_scan _)

theorem allInLine_issues_rescanRegexp (t : Token) :
    AllInLine t.rescanRegexp.issues := by
  change AllInLine (if _ then _ else _)
  split
  · exact allInLine_bare (by decide) _ _ _ _
  · split
    · exact .nil
    · exact allInLine_bare (by decide) _ _ _ _

theorem allInLine_issues_rescanTemplate (t : Token) :
    AllInLine t.rescanTemplate.issues :=
  TemplateScan.allInLine_issues_finish _ .nil

end Token

/-! ## Comments -/

namespace Directive

theorem not_mem_splitItems {word : List Char} (hword : '\n' ∉ word) (text : List Char) :
    ∀ item ∈ splitItems word text, '\n' ∉ item := by
  induction text generalizing word with
  | nil =>
      unfold splitItems
      split
      · exact nofun
      · simpa using hword
  | cons c rest ih =>
      unfold splitItems
      split
      · split
        · exact ih List.not_mem_nil
        · exact List.forall_mem_cons.mpr ⟨by simpa using hword, ih List.not_mem_nil⟩
      next hseparator =>
        have hne : c ≠ '\n' := by
          rintro rfl
          exact hseparator (by decide)
        exact ih (by simpa [hword] using hne.symm)

/-- Neither a name nor its value holds a line end, since these separate items. -/
theorem not_mem_items (d : Directive) : ∀ item ∈ d.items,
    '\n' ∉ item.1.toList ∧ ∀ value ∈ item.2, '\n' ∉ value.toList := by
  intro item hitem
  obtain ⟨word, hword, rfl⟩ := List.mem_map.mp hitem
  have hline := not_mem_splitItems List.not_mem_nil _ word hword
  unfold splitItem
  split
  next => simpa using hline
  next value hrest =>
    have hvalue : value ⊆ word := fun c hc =>
      (List.dropWhile_subset _) (hrest ▸ List.mem_cons_of_mem _ hc)
    refine ⟨?_, ?_⟩
    · rw [String.toList_ofList]
      exact fun hmem => hline (List.takeWhile_subset _ hmem)
    · rintro _ ⟨⟩
      rw [String.toList_ofList]
      exact fun hmem => hline (hvalue hmem)

end Directive

/-! ## Tokens of a source -/

namespace Token

variable {source : String} {t : Token}

theorem LeadsTo.inLine_or_holdsText (ht : (Token.next (.ofSource source)).LeadsTo t) :
    t.InLine ∨ t.holdsText := by
  induction ht with
  | refl => exact next_inLine _
  | next => exact next_inLine _
  | @regexp t' ht hslash =>
      obtain ⟨tokens, hrun⟩ := LeadsTo.exists_run ht
      obtain ⟨c, -, hfollows⟩ := hrun.tiled.exists_follows (List.mem_append_right _
        List.mem_cons_self)
      exact .inl (rescanRegexp_inLine (peek?_of_isSlash hfollows hslash))
  | template => exact .inr rfl

theorem LeadsTo.allInLine_issues (ht : (Token.next (.ofSource source)).LeadsTo t) :
    AllInLine t.issues := by
  cases ht with
  | refl => exact allInLine_issues_next _
  | next => exact allInLine_issues_next _
  | regexp => exact allInLine_issues_rescanRegexp _
  | template => exact allInLine_issues_rescanTemplate _

/-- The token is no name, or it has a name that no brace comes into. -/
def HasCleanName (t : Token) : Prop := t.isPropertyName → '\x7b' ∉ t.name.toList

theorem scanNumber_hasCleanName (c : Cursor) : (scanNumber c).HasCleanName := by
  unfold scanNumber
  dsimp only
  rcases Numeral.lexeme_glue_read c with ⟨value, hvalue⟩ | ⟨value, hvalue⟩ <;> rw [hvalue] <;>
    exact nofun

theorem scanName_hasCleanName (c : Cursor) : (scanName c).HasCleanName := by
  have hname : '\x7b' ∉ (NameScan.finish { stop := c }).name.toList :=
    NameScan.not_mem_name NameScan.isIdPart_brace List.not_mem_nil
  unfold scanName NameScan.lexeme
  dsimp only
  split
  · exact nofun
  · split <;> exact fun _ => hname

theorem scan_hasCleanName (c : Cursor) : (scan c).HasCleanName := by
  unfold scan
  split
  next => exact nofun
  next ch _ =>
    split
    · exact nofun
    · split
      · exact nofun
      · split
        · exact scanNumber_hasCleanName c
        · split
          · exact nofun
          · split
            · exact scanName_hasCleanName c
            · exact nofun

theorem LeadsTo.hasCleanName (ht : (Token.next (.ofSource source)).LeadsTo t) :
    t.HasCleanName := by
  cases ht with
  | refl => exact scan_hasCleanName _
  | next => exact scan_hasCleanName _
  | regexp => exact nofun
  | template => exact nofun

theorem name_of_holdsText (ht : t.holdsText) : t.name = t.raw := by
  unfold holdsText at ht
  split at ht
  next hlexeme => simp only [name, hlexeme]
  next hlexeme => simp only [name, hlexeme]
  next => cases ht

end Token

end ScriptLint
