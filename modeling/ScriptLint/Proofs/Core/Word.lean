import Mathlib.Data.List.Find
import ScriptLint.Proofs.Core.Syntax
import ScriptLint.Proofs.Lexing.Space

/-! # Words as tokens

A word is spelled the same wherever it stands, but what is read there depends on what follows. With
a space or the end of the text behind it, each kind of word is one token, and there is nothing to
report about it.
-/

namespace ScriptLint

open Character (isLineTerminator isSpace isIdStart isIdContinue isDigitOf digitValue?)
open Cursor (Reads)

/-! ## Between words -/

namespace Trivia

/-- Whether a text that begins like this begins with a token, which nothing can be skipped of. -/
def isSolid (text : List Char) : Bool :=
  (text.head?.all fun ch => ch ≠ '#' && !isLineTerminator ch && !isSpace ch) &&
    (text.head? ≠ some '/' || text[1]?.all fun ch => ch ≠ '/' && ch ≠ '*')

theorem isSolid_cons {ch : Char} (hsolid : isSolid [ch]) (hslash : ch ≠ '/') (cs : List Char) :
    isSolid (ch :: cs) := by
  simp_all [isSolid]

theorem step?_eq_none {c : Cursor} (hsolid : isSolid c.rest) : step? { stop := c } = none := by
  unfold isSolid at hsolid
  unfold step?
  split
  · rfl
  next heq => simp [show c.rest = _ from heq] at hsolid
  next heq => simp [show c.rest = _ from heq] at hsolid
  next ch rest _ _ heq =>
    have hrest : c.rest = ch :: rest := heq
    obtain ⟨⟨-, hline⟩, hspace⟩ :
        (ch ≠ '#' ∧ isLineTerminator ch = false) ∧ isSpace ch = false := by
      simpa [hrest] using (Bool.and_eq_true_iff.mp hsolid).1
    have hnbsp : ch ≠ '\u00a0' := by
      rintro rfl
      cases hspace
    rw [hline, hspace, if_neg hnbsp]
    rfl

theorem skip_of_solid {t : Trivia} (hstep : t.step? = none) : t.skip = t := by
  rw [skip]
  split
  · rfl
  next heq => cases hstep.symm.trans heq

theorem afterHashbang_of_head {c : Cursor} (hhash : c.rest.head? ≠ some '#') :
    afterHashbang c = c := by
  unfold afterHashbang
  split
  next heq => simp [heq] at hhash
  · rfl

/-- In front of a token nothing is skipped. -/
theorem before_of_solid {c : Cursor} (hsolid : isSolid c.rest) : before c = { stop := c } := by
  have hhash : c.rest.head? ≠ some '#' := by
    intro heq
    simp [isSolid, heq] at hsolid
  rw [before, afterHashbang_of_head hhash, skip_of_solid (step?_eq_none hsolid)]

/-- In front of a space and a token the space is skipped. -/
theorem before_of_space {c : Cursor} {rest : List Char} (hrest : c.rest = ' ' :: rest)
    (hsolid : isSolid rest) : before c = { stop := c.advance } := by
  have hhash : c.rest.head? ≠ some '#' := by simp [hrest]
  have hstep : step? { stop := c } = some { stop := c.advance } := by
    unfold step?
    split
    next heq => cases hrest.symm.trans heq
    next heq => cases hrest.symm.trans heq
    next heq => cases hrest.symm.trans heq
    next heq =>
      obtain ⟨rfl, -⟩ := List.cons.inj (hrest.symm.trans heq)
      rfl
  have hnone : step? { stop := c.advance } = none :=
    step?_eq_none (by rwa [Cursor.rest_advance hrest])
  rw [before, afterHashbang_of_head hhash, skip]
  split
  next heq => cases hstep.symm.trans heq
  next heq =>
    cases hstep.symm.trans heq
    exact skip_of_solid hnone

end Trivia

namespace Core

open Trivia (isSolid)

/-- Nothing or a space comes first, so a word in front of this text ends there. -/
def EndsWord (rest : List Char) : Prop := ∀ ch ∈ rest.head?, ch = ' '

theorem EndsWord.head? {rest : List Char} (h : EndsWord rest) :
    rest.head? = none ∨ rest.head? = some ' ' := by
  cases rest with
  | nil => exact .inl rfl
  | cons ch rest => exact .inr (congrArg some (h ch rfl))

theorem isSolid_append {w rest : List Char} (hsolid : isSolid w) (hne : w ≠ [])
    (hrest : EndsWord rest) : isSolid (w ++ rest) := by
  obtain ⟨ch, cs, rfl⟩ := List.exists_cons_of_ne_nil hne
  cases cs with
  | cons next cs => simpa [isSolid] using hsolid
  | nil =>
      rcases hrest.head? with hhead | hhead <;> cases rest <;>
        simp_all [isSolid]

/-- Wherever the word stands with the end of a word behind it, it is one token, and there is nothing
to report about that. -/
structure Spells (w : List Char) (lexeme : Lexeme) : Prop where
  ne_nil : w ≠ []
  solid : isSolid w
  scan (c : Cursor) (rest : List Char) : c.rest = w ++ rest → EndsWord rest →
    ∃ stop, Token.scan c = Token.between lexeme c stop {} [] ∧ c.Reads w stop

theorem EndsWord.peek? {c : Cursor} (h : EndsWord c.rest) :
    c.peek? = none ∨ c.peek? = some ' ' := h.head?

/-! ## Names and keywords -/

/-- The code points of white space. -/
def spaceCodes : List Nat :=
  List.range' 0x2000 11 ++
    [0x9, 0xb, 0xc, 0x20, 0xa0, 0x1680, 0x202f, 0x205f, 0x3000, 0xfeff]

/-- A character that begins a name is no white space. -/
theorem isSpace_of_isIdStart {ch : Char} (hstart : isIdStart ch) : isSpace ch = false := by
  have hspaces : ∀ n ∈ spaceCodes, isIdStart (Char.ofNat n) = false := by decide +kernel
  by_contra hspace
  have hmem : ch.toNat ∈ spaceCodes := by
    simp only [isSpace, Character.inRanges, Bool.not_eq_false, Bool.or_eq_true, decide_eq_true_eq,
      List.any_cons, List.any_nil, Bool.and_eq_true, Bool.or_false] at hspace
    simp only [spaceCodes, List.mem_append, List.mem_range'_1, List.mem_cons, List.not_mem_nil,
      or_false]
    rcases hspace with (((((rfl | rfl) | rfl) | rfl) | rfl) | rfl) | hspace
    all_goals first | decide | omega
  have hno := hspaces _ hmem
  rw [Char.ofNat_toNat, hstart] at hno
  cases hno

theorem isLineTerminator_of_isIdStart {ch : Char} (hstart : isIdStart ch) :
    isLineTerminator ch = false := by
  by_contra hline
  simp only [isLineTerminator, Bool.not_eq_false, Bool.or_eq_true, decide_eq_true_eq] at hline
  rcases hline with ((rfl | rfl) | rfl) | rfl <;> revert hstart <;> decide +kernel

/-- What holds of the ten digits holds of every digit. -/
theorem of_isDigit {p : Char → Prop} (hp : ∀ n ∈ List.range' 48 10, p (Char.ofNat n)) {ch : Char}
    (hdigit : ch.isDigit) : p ch := by
  have hmem : ch.toNat ∈ List.range' 48 10 := by
    simp only [Char.isDigit, Bool.and_eq_true, decide_eq_true_eq, UInt32.le_iff_toNat_le] at hdigit
    obtain ⟨hlow, hhigh⟩ := hdigit
    change 48 ≤ ch.toNat at hlow
    change ch.toNat ≤ 57 at hhigh
    simp only [List.mem_range'_1]
    omega
  have hcode := hp _ hmem
  rwa [Char.ofNat_toNat] at hcode

theorem isDigit_of_isIdStart {ch : Char} (hstart : isIdStart ch) : ch.isDigit = false := by
  by_contra hdigit
  have hno := of_isDigit (p := (isIdStart · = false)) (by decide) (by simpa using hdigit)
  exact absurd hstart (by simp [hno])

/-- A character that begins a name begins nothing else. -/
theorem not_mem_of_isIdStart {ch : Char} (hstart : isIdStart ch) :
    ch ∉ ['"', '\x27', TemplateScan.backtick, '.', '#', '\\', '/'] := by
  intro hmem
  simp only [List.mem_cons, List.not_mem_nil, or_false] at hmem
  rcases hmem with rfl | rfl | rfl | rfl | rfl | rfl | rfl <;> revert hstart <;> decide

/-- The characters of a name are read up to its end. -/
theorem finish_of_continue {cs rest : List Char} (hcs : ∀ ch ∈ cs, isIdContinue ch)
    (hrest : EndsWord rest) {s : NameScan} (hstop : s.stop.rest = cs ++ rest)
    (hs : s.reversed ≠ []) :
    ∃ stop, s.finish = { s with reversed := cs.reverse ++ s.reversed, stop } ∧
      s.stop.Reads cs stop := by
  have hfirst : s.reversed.isEmpty = false := by simpa using hs
  induction cs generalizing s with
  | nil =>
      refine ⟨s.stop, ?_, .nil _⟩
      have hspace : s.admits ' ' = false := by
        rw [NameScan.admits, hfirst]
        decide
      rw [NameScan.finish]
      split
      · rfl
      next ch heq =>
        obtain rfl : ch = ' ' := by
          rcases EndsWord.peek? (c := s.stop) (by rwa [hstop]) with hpeek | hpeek
          · cases heq.symm.trans hpeek
          · exact Option.some.inj (heq.symm.trans hpeek)
        rw [if_neg (by decide), if_neg (by simp [hspace])]
        rfl
  | cons ch cs ih =>
      have hpeek : s.stop.peek? = some ch := by simp [Cursor.peek?, hstop]
      have hcontinue := hcs ch List.mem_cons_self
      have hslash : ch ≠ '\\' := by
        rintro rfl
        revert hcontinue
        decide
      let s' : NameScan := { s with reversed := ch :: s.reversed, stop := s.stop.advance }
      have hfinish : s.finish = s'.finish := by
        rw [NameScan.finish]
        split
        next heq => cases heq.symm.trans hpeek
        next x heq =>
          obtain rfl := Option.some.inj (heq.symm.trans hpeek)
          have hadmits : s.admits x = true := by rwa [NameScan.admits, hfirst]
          rw [if_neg hslash, if_pos hadmits]
      obtain ⟨stop, hstops, hreads⟩ := ih (fun x hx => hcs x (List.mem_cons_of_mem _ hx))
        (s := s') (Cursor.rest_advance hstop) (by simp [s']) rfl
      refine ⟨stop, ?_, (Cursor.reads_advance_cons hstop).append hreads⟩
      rw [hfinish, hstops]
      simp [s']

/-- What a name stands for. -/
def nameLexeme (name : String) : Lexeme :=
  if isKeyword name then .keyword name else .identifier name

theorem finish_name {ch : Char} {cs rest : List Char} (hstart : isIdStart ch)
    (hcs : ∀ x ∈ cs, isIdContinue x) (hrest : EndsWord rest) {c : Cursor}
    (hc : c.rest = ch :: cs ++ rest) :
    ∃ stop, NameScan.finish { stop := c } = { reversed := (ch :: cs).reverse, stop } ∧
      c.Reads (ch :: cs) stop := by
  have hpeek : c.peek? = some ch := by simp [Cursor.peek?, hc]
  have hslash : ch ≠ '\\' := fun h => not_mem_of_isIdStart hstart (by simp [h])
  obtain ⟨stop, hstop, hreads⟩ := finish_of_continue (s := { reversed := [ch], stop := c.advance })
    hcs hrest (Cursor.rest_advance hc) (by simp)
  refine ⟨stop, ?_, (Cursor.reads_advance_cons hc).append hreads⟩
  rw [NameScan.finish]
  split
  next heq => cases heq.symm.trans hpeek
  next x heq =>
    obtain rfl := Option.some.inj (heq.symm.trans hpeek)
    have hadmits : NameScan.admits { stop := c } x = true := hstart
    rw [if_neg hslash, if_pos hadmits, hstop]
    simp

/-- A name or a keyword. -/
theorem spells_name {ch : Char} {cs : List Char} (hstart : isIdStart ch)
    (hcs : ∀ x ∈ cs, isIdContinue x) :
    Spells (ch :: cs) (nameLexeme (String.ofList (ch :: cs))) where
  ne_nil := List.cons_ne_nil ch cs
  solid := by
    have hmarks := not_mem_of_isIdStart hstart
    have hspace := isSpace_of_isIdStart hstart
    have hline := isLineTerminator_of_isIdStart hstart
    simp only [List.mem_cons, List.not_mem_nil, or_false, not_or] at hmarks
    simp [isSolid, hmarks, hspace, hline]
  scan c rest hc hrest := by
    obtain ⟨stop, hfinish, hreads⟩ := finish_name hstart hcs hrest hc
    refine ⟨stop, ?_, hreads⟩
    have hpeek : c.peek? = some ch := by simp [Cursor.peek?, hc]
    have hmarks := not_mem_of_isIdStart hstart
    simp only [List.mem_cons, List.not_mem_nil, or_false, not_or] at hmarks
    have hscan : Token.scan c = Token.scanName c := by
      simp [Token.scan, hpeek, hmarks, hstart, isDigit_of_isIdStart hstart]
    rw [hscan, Token.scanName, hfinish]
    simp [NameScan.lexeme, NameScan.name, nameLexeme]

/-! ## Marks -/

/-- Whether a word is an operator or a delimiter, and no longer one begins with it. -/
def isMark (w : List Char) : Bool :=
  (w.head?.any fun ch => !isIdStart ch && !ch.isDigit &&
      !(['"', '\x27', TemplateScan.backtick, '#', '\\'].contains ch)) &&
    (w.head? ≠ some '.' || w == ['.']) && isSolid w && !(['?', '.'].isPrefixOf w) &&
    Token.punctuatorLength w == w.length

theorem isPrefixOf_append {p w rest : List Char} (hp : ' ' ∉ p) (hrest : EndsWord rest) :
    p.isPrefixOf (w ++ rest) = p.isPrefixOf w := by
  induction p generalizing w with
  | nil => simp
  | cons x p ih =>
      obtain ⟨hx, hp⟩ : ' ' ≠ x ∧ ' ' ∉ p := by simpa using hp
      cases w with
      | cons y w => simp [List.isPrefixOf, ih hp]
      | nil =>
          cases rest with
          | nil => rfl
          | cons ch rest =>
              obtain rfl := hrest ch rfl
              simp [List.isPrefixOf, hx.symm]

/-- The punctuator at the head of a text ends with the word there. -/
theorem punctuatorLength_append {w rest : List Char} (hchain : ['?', '.'].isPrefixOf w = false)
    (hrest : EndsWord rest) : Token.punctuatorLength (w ++ rest) = Token.punctuatorLength w := by
  have hspaces : ∀ p ∈ Token.longPunctuators, ' ' ∉ p := by decide
  have hfits : ∀ p ∈ Token.longPunctuators,
      Token.punctuatorFits p (w ++ rest) = Token.punctuatorFits p w := by
    intro p hp
    have hfront := isPrefixOf_append (w := w) (hspaces p hp) hrest
    unfold Token.punctuatorFits
    rw [hfront]
    by_cases hp' : p = ['?', '.']
    · rw [hp', hchain]
      rfl
    · simp [beq_false_of_ne hp']
  unfold Token.punctuatorLength
  rw [List.find?_congr hfits]

theorem reads_skipChars {w rest : List Char} {c : Cursor} (hc : c.rest = w ++ rest) :
    c.Reads w (Token.skipChars w.length c) := by
  induction w generalizing c with
  | nil => exact .nil c
  | cons ch w ih =>
      exact (Cursor.reads_advance_cons hc).append (ih (Cursor.rest_advance hc))

/-- An operator or a delimiter. -/
theorem spells_mark {w : List Char} (hmark : isMark w) : Spells w .punctuator := by
  unfold isMark at hmark
  simp only [Bool.and_eq_true, Bool.not_eq_true', beq_iff_eq] at hmark
  obtain ⟨⟨⟨⟨hhead, hpoint⟩, hsolid⟩, hchain⟩, hlength⟩ := hmark
  obtain ⟨ch, cs, rfl⟩ : ∃ ch cs, w = ch :: cs := by
    cases w with
    | nil => cases hhead
    | cons ch cs => exact ⟨ch, cs, rfl⟩
  refine ⟨List.cons_ne_nil ch cs, hsolid, fun c rest hc hrest => ?_⟩
  have hreads := reads_skipChars hc
  refine ⟨_, ?_, hreads⟩
  have hpeek : c.peek? = some ch := by simp [Cursor.peek?, hc]
  simp only [List.head?_cons, Option.any_some, Bool.and_eq_true, Bool.not_eq_true',
    List.contains_eq_mem, List.mem_cons, List.not_mem_nil, or_false, decide_eq_false_iff_not,
    not_or] at hhead
  obtain ⟨⟨hstart, hdigit⟩, hmarks⟩ := hhead
  -- A point is a word by itself, so no digit comes after it.
  have hfraction : ¬ (ch = '.' ∧ c.peekSecondIs Char.isDigit = true) := by
    rintro ⟨rfl, hsecond⟩
    obtain rfl : cs = [] := by simpa using hpoint
    rcases hrest.head? with hhead | hhead <;> cases rest <;>
      simp_all [Cursor.peekSecondIs, Cursor.peekSecond?]
  rw [Token.scan, hpeek]
  simp only [hmarks, hdigit, hfraction, hstart, or_self, false_and, if_false, Bool.false_eq_true]
  rw [Token.scanPunctuator, hc, punctuatorLength_append hchain hrest, hlength]

/-! ## Numbers -/

theorem takeWhile_append {p : Char → Bool} {w rest : List Char} (hw : ∀ ch ∈ w, p ch)
    (hspace : p ' ' = false) (hrest : EndsWord rest) : (w ++ rest).takeWhile p = w := by
  have hstop : rest.takeWhile p = [] := by
    cases rest with
    | nil => rfl
    | cons ch rest =>
        obtain rfl := hrest ch rfl
        rw [List.takeWhile_cons_of_neg (by simp [hspace])]
  rw [List.takeWhile_append_of_pos hw, hstop, List.append_nil]

/-- The characters of a class are read up to the end of the word. -/
theorem reads_skipWhile {p : Char → Bool} {w rest : List Char} (hw : ∀ ch ∈ w, p ch)
    (hspace : p ' ' = false) (hrest : EndsWord rest) {c : Cursor} (hc : c.rest = w ++ rest) :
    c.Reads w (c.skipWhile p) := by
  have hreads := c.reads_skipWhile p
  rwa [hc, takeWhile_append hw hspace hrest] at hreads

/-- The end of a word is none of the characters of a class. -/
theorem EndsWord.peekIs {p : Char → Bool} {c : Cursor} (h : EndsWord c.rest)
    (hspace : p ' ' = false) : c.peekIs p = false := by
  rcases h.peek? with hpeek | hpeek <;> simp [Cursor.peekIs, hpeek, hspace]

theorem EndsWord.accept? {expected : Char} {c : Cursor} (h : EndsWord c.rest)
    (hspace : expected ≠ ' ') : c.accept? expected = none := by
  rcases h.peek? with hpeek | hpeek <;> simp [Cursor.accept?, hpeek, hspace.symm]

/-- The value of a number without a fraction and an exponent. -/
def numberValue (digits : List Char) : Float :=
  (Decimal.ofDigits (digits.filterMap (digitValue? 10)) [] 0).toFloat

/-- The text of digits is one of a plain number, without a superfluous zero. -/
structure IsNumber (w : List Char) : Prop where
  ne_nil : w ≠ []
  digits : ∀ ch ∈ w, ch.isDigit
  leading : w = ['0'] ∨ w.head? ≠ some '0'

theorem separatorsBetween_of_not_mem {cs : List Char} (hcs : '_' ∉ cs) :
    separatorsBetween cs = true := by
  have hhead : cs.head? ≠ some '_' := fun h => hcs (List.mem_of_head? h)
  have hlast : cs.getLast? ≠ some '_' := fun h => hcs (List.mem_of_getLast? h)
  have hpairs : ∀ pair ∈ cs.zip cs.tail, pair ≠ ('_', '_') := by
    rintro pair hmem rfl
    exact hcs (List.of_mem_zip hmem).1
  simpa [separatorsBetween, hhead, hlast] using hpairs

/-- After a zero in front there is no other character of a number. -/
theorem IsNumber.eq_space {w rest text : List Char} {ch : Char} (hw : IsNumber w)
    (hrest : EndsWord rest) (htext : w ++ rest = '0' :: ch :: text) : ch = ' ' := by
  rcases hw.leading with rfl | hhead
  · obtain rfl := (List.cons.inj htext).2
    exact hrest ch rfl
  · obtain ⟨x, xs, rfl⟩ := List.exists_cons_of_ne_nil hw.ne_nil
    exact absurd (congrArg some (List.cons.inj htext).1) hhead

theorem IsNumber.read_eq {w rest : List Char} (hw : IsNumber w) (hrest : EndsWord rest) {c : Cursor}
    (hc : c.rest = w ++ rest) :
    ∃ stop, Numeral.read c = { lexeme := .number (numberValue w), stop } ∧ c.Reads w stop := by
  have hreads := reads_skipWhile (p := fun ch => ch = '_' || isDigitOf 10 ch)
    (fun ch hch => by simp [Character.isDigitOf_ten (hw.digits ch hch)]) (by decide) hrest hc
  let stop := c.skipWhile fun ch => ch = '_' || isDigitOf 10 ch
  have hstop : EndsWord stop.rest := by
    rwa [show stop.rest = rest from List.append_cancel_left (hreads.rest_eq.symm.trans hc)]
  refine ⟨stop, ?_, hreads⟩
  have hunderscore : '_' ∉ w := fun hmem => absurd (hw.digits _ hmem) (by decide)
  have hdigits : w.filterMap (digitValue? 10) ≠ [] := by
    obtain ⟨ch, hch⟩ := List.exists_mem_of_ne_nil w hw.ne_nil
    obtain ⟨value, hvalue⟩ :=
      Option.isSome_iff_exists.mp (Character.isDigitOf_ten (hw.digits ch hch))
    exact List.ne_nil_of_mem (List.mem_filterMap.mpr ⟨ch, hch, hvalue⟩)
  have hrun : DigitRun.read 10 c =
      { digits := w.filterMap (digitValue? 10), separated := false, wellFormed := true, stop } := by
    have hchars : c.charsTo stop = w := hreads.charsTo_eq
    have hseparators : separatorsBetween w = true := separatorsBetween_of_not_mem hunderscore
    rw [DigitRun.read, hchars, hseparators]
    simp [hunderscore, stop]
  have htail : DecimalTail.read stop = { fraction? := none, exponent? := none, stop } := by
    simp [DecimalTail.read, hstop.accept?, hstop.peekIs]
  have hradix : Numeral.radix? c = none := by
    unfold Numeral.radix?
    split
    next heq =>
      obtain rfl := hw.eq_space hrest (hc.symm.trans heq)
      rfl
    · rfl
  have hzero : ¬ (c.peek? = some '0' ∧ c.peekSecondIs fun ch => ch = '_' || ch.isDigit) := by
    rintro ⟨hpeek, hsecond⟩
    unfold Cursor.peek? at hpeek
    unfold Cursor.peekSecondIs Cursor.peekSecond? at hsecond
    rcases htext : c.rest with - | ⟨x, - | ⟨ch, text⟩⟩
    · simp [htext] at hpeek
    · simp [htext] at hsecond
    · obtain rfl : x = '0' := by simpa [htext] using hpeek
      obtain rfl := hw.eq_space hrest (hc.symm.trans htext)
      simp [htext] at hsecond
  rw [Numeral.read, hradix]
  dsimp only
  rw [if_neg hzero, Numeral.readDecimal, hrun]
  dsimp only
  rw [htail]
  simp [DecimalTail.isPresent, hstop.accept?, hdigits, DecimalTail.endsWithPoint,
    DecimalTail.separated, DecimalTail.runs, DecimalTail.wellFormed]
  rfl

/-- A decimal integer. -/
theorem spells_number {w : List Char} (hw : IsNumber w) :
    Spells w (.number (numberValue w)) where
  ne_nil := hw.ne_nil
  solid := by
    obtain ⟨ch, cs, rfl⟩ := List.exists_cons_of_ne_nil hw.ne_nil
    have hch := of_isDigit (p := fun ch => isSolid [ch] ∧ ch ≠ '/') (by decide)
      (hw.digits ch List.mem_cons_self)
    simp_all [isSolid]
  scan c rest hc hrest := by
    obtain ⟨stop, hread, hreads⟩ := hw.read_eq hrest hc
    refine ⟨stop, ?_, hreads⟩
    obtain ⟨ch, cs, rfl⟩ := List.exists_cons_of_ne_nil hw.ne_nil
    have hdigit := hw.digits ch List.mem_cons_self
    have hmarks := of_isDigit (p := (· ∉ ['"', '\x27', TemplateScan.backtick])) (by decide) hdigit
    simp only [List.mem_cons, List.not_mem_nil, or_false, not_or] at hmarks
    have hpeek : c.peek? = some ch := by simp [Cursor.peek?, hc]
    have hstop : EndsWord stop.rest := by
      rwa [show stop.rest = rest from List.append_cancel_left (hreads.rest_eq.symm.trans hc)]
    have hglue : (Numeral.read c).glue = Numeral.read c := by
      have hend := hstop.peekIs (p := fun ch => isIdStart ch || ch.isDigit) (by decide)
      rw [hread, Numeral.glue, hend]
      rfl
    have hscan : Token.scan c = Token.scanNumber c := by
      simp [Token.scan, hpeek, hmarks, hdigit]
    rw [hscan, Token.scanNumber, hglue, hread]
    rfl

/-! ## Strings and templates -/

/-- What holds of the letters of both cases holds of every letter. -/
theorem of_isAlpha {p : Char → Prop}
    (hp : ∀ n ∈ List.range' 65 26 ++ List.range' 97 26, p (Char.ofNat n)) {ch : Char}
    (halpha : ch.isAlpha) : p ch := by
  have hmem : ch.toNat ∈ List.range' 65 26 ++ List.range' 97 26 := by
    change (decide (65 ≤ ch.val ∧ ch.val ≤ 90) || (97 ≤ ch.val && ch.val ≤ 122)) = true at halpha
    simp only [Bool.or_eq_true, Bool.and_eq_true, decide_eq_true_eq,
      UInt32.le_iff_toNat_le] at halpha
    simp only [List.mem_append, List.mem_range'_1]
    change 65 ≤ ch.toNat ∧ ch.toNat ≤ 90 ∨ 97 ≤ ch.toNat ∧ ch.toNat ≤ 122 at halpha
    omega
  have hcode := hp _ hmem
  rwa [Char.ofNat_toNat] at hcode

/-- A letter neither ends a literal nor means more than itself in one. -/
theorem not_mem_of_isAlpha {ch : Char} (halpha : ch.isAlpha) :
    ch ∉ ['"', '\x27', '\\', '\n', '\r', TemplateScan.backtick, '$'] :=
  of_isAlpha (p := (· ∉ ['"', '\x27', '\\', '\n', '\r', TemplateScan.backtick, '$']))
    (by decide) halpha

theorem finish_string {quote : Char} (hquote : quote = '"' ∨ quote = '\x27') (start : Position)
    {cs rest : List Char} (hcs : ∀ ch ∈ cs, ch.isAlpha) {s : StringScan}
    (hstop : s.stop.rest = cs ++ quote :: rest) :
    ∃ stop, StringScan.finish quote start s =
        { s with reversed := cs.reverse ++ s.reversed, stop } ∧
      s.stop.Reads (cs ++ [quote]) stop := by
  induction cs generalizing s with
  | nil =>
      have hpeek : s.stop.peek? = some quote := by simp [Cursor.peek?, hstop]
      have hline : ¬ (quote = '\n' ∨ quote = '\r') := by rcases hquote with rfl | rfl <;> decide
      refine ⟨s.stop.advance, ?_, Cursor.reads_advance hpeek⟩
      rw [StringScan.finish]
      split
      next heq => cases heq.symm.trans hpeek
      next ch heq =>
        obtain rfl := Option.some.inj (heq.symm.trans hpeek)
        rw [if_neg hline, if_pos rfl]
        rfl
  | cons ch cs ih =>
      have hpeek : s.stop.peek? = some ch := by simp [Cursor.peek?, hstop]
      obtain ⟨hdouble, hsingle, hslash, hlf, hcr, -, -⟩ : ch ≠ '"' ∧ ch ≠ '\x27' ∧ ch ≠ '\\' ∧
          ch ≠ '\n' ∧ ch ≠ '\r' ∧ ch ≠ TemplateScan.backtick ∧ ch ≠ '$' := by
        simpa using not_mem_of_isAlpha (hcs ch List.mem_cons_self)
      have hother : ch ≠ quote := by rcases hquote with rfl | rfl <;> assumption
      let s' : StringScan := { s with reversed := ch :: s.reversed, stop := s.stop.advance }
      have hfinish : StringScan.finish quote start s = StringScan.finish quote start s' := by
        rw [StringScan.finish]
        split
        next heq => cases heq.symm.trans hpeek
        next x heq =>
          obtain rfl := Option.some.inj (heq.symm.trans hpeek)
          rw [if_neg (not_or.mpr ⟨hlf, hcr⟩), if_neg hother, if_neg hslash]
      obtain ⟨stop, hstops, hreads⟩ := ih (fun x hx => hcs x (List.mem_cons_of_mem _ hx))
        (s := s') (Cursor.rest_advance hstop)
      refine ⟨stop, ?_, (Cursor.reads_advance_cons hstop).append hreads⟩
      rw [hfinish, hstops]
      simp [s']

/-- A string literal of letters. -/
theorem spells_string {quote : Char} (hquote : quote = '"' ∨ quote = '\x27') {cs : List Char}
    (hcs : ∀ ch ∈ cs, ch.isAlpha) :
    Spells (quote :: cs ++ [quote]) (.string (String.ofList cs)) where
  ne_nil := nofun
  solid := by rcases hquote with rfl | rfl <;> exact Trivia.isSolid_cons (by decide) (by decide) _
  scan c rest hc _ := by
    have hpeek : c.peek? = some quote := by simp [Cursor.peek?, hc]
    have hopen : c.rest = quote :: (cs ++ quote :: rest) := by simp [hc]
    obtain ⟨stop, hfinish, hreads⟩ := finish_string hquote c.position hcs
      (s := { stop := c.advance }) (Cursor.rest_advance hopen)
    refine ⟨stop, ?_, (Cursor.reads_advance_cons hopen).append hreads⟩
    have hscan : Token.scan c = Token.scanString quote c := by
      simp only [Token.scan, hpeek, if_pos hquote]
    rw [hscan, Token.scanString, hfinish]
    simp

/-- How a piece of a template ends: before a substitution, or with the template. -/
def pieceCloser (more : Bool) : List Char :=
  if more then ['$', '\x7b'] else [TemplateScan.backtick]

theorem finish_template (start : Position) {cs rest : List Char} (more : Bool)
    (hcs : ∀ ch ∈ cs, ch.isAlpha) {s : TemplateScan}
    (hstop : s.stop.rest = cs ++ pieceCloser more ++ rest) (hs : s.substitution = false) :
    ∃ stop, TemplateScan.finish start s =
        { s with
          reversed? := s.reversed?.map (cs.reverse ++ ·)
          stop
          substitution := more } ∧
      s.stop.Reads (cs ++ pieceCloser more) stop := by
  induction cs generalizing s with
  | nil =>
      cases more with
      | false =>
          have hpeek : s.stop.peek? = some TemplateScan.backtick := by
            simp [Cursor.peek?, hstop, pieceCloser]
          refine ⟨s.stop.advance, ?_, Cursor.reads_advance hpeek⟩
          rw [TemplateScan.finish]
          split
          next heq => cases heq.symm.trans hpeek
          next ch heq =>
            obtain rfl := Option.some.inj (heq.symm.trans hpeek)
            rw [if_pos rfl]
            simp [hs]
      | true =>
          have hrest : s.stop.rest = '$' :: '\x7b' :: rest := hstop
          have hpeek : s.stop.peek? = some '$' := by simp [Cursor.peek?, hrest]
          have hsecond : s.stop.peekSecond? = some '\x7b' := by simp [Cursor.peekSecond?, hrest]
          refine ⟨s.stop.advance.advance, ?_, (Cursor.reads_advance_cons hrest).append
            (Cursor.reads_advance_cons (Cursor.rest_advance hrest))⟩
          rw [TemplateScan.finish]
          split
          next heq => cases heq.symm.trans hpeek
          next ch heq =>
            obtain rfl := Option.some.inj (heq.symm.trans hpeek)
            rw [if_neg (by decide), if_pos ⟨rfl, hsecond⟩]
            simp
  | cons ch cs ih =>
      have hpeek : s.stop.peek? = some ch := by simp [Cursor.peek?, hstop]
      obtain ⟨-, -, hslash, -, hcr, hbacktick, hdollar⟩ : ch ≠ '"' ∧ ch ≠ '\x27' ∧
          ch ≠ '\\' ∧ ch ≠ '\n' ∧ ch ≠ '\r' ∧ ch ≠ TemplateScan.backtick ∧ ch ≠ '$' := by
        simpa using not_mem_of_isAlpha (hcs ch List.mem_cons_self)
      have hfinish : TemplateScan.finish start s = TemplateScan.finish start (s.plain ch) := by
        rw [TemplateScan.finish]
        split
        next heq => cases heq.symm.trans hpeek
        next x heq =>
          obtain rfl := Option.some.inj (heq.symm.trans hpeek)
          rw [if_neg hbacktick, if_neg (fun h => hdollar h.1), if_neg hslash]
      have hplain : s.plain ch =
          { s with reversed? := s.reversed?.map (ch :: ·), stop := s.stop.advance } := by
        simp [TemplateScan.plain, hcr]
      rw [hfinish, hplain]
      obtain ⟨stop, hstops, hreads⟩ := ih (fun x hx => hcs x (List.mem_cons_of_mem _ hx))
        (s := { s with reversed? := s.reversed?.map (ch :: ·), stop := s.stop.advance })
        (Cursor.rest_advance hstop) hs
      refine ⟨stop, ?_, (Cursor.reads_advance_cons hstop).append hreads⟩
      rw [hstops]
      cases s.reversed? <;> simp

/-- Which piece of its template a piece is. -/
def piecePart (opening more : Bool) : TemplatePart :=
  match opening, more with
  | true, true => .head
  | true, false => .whole
  | false, true => .middle
  | false, false => .tail

/-- A piece of a template behind its opening character. -/
theorem scanTemplate_eq (opening more : Bool) {ch : Char} {cs rest : List Char}
    (hcs : ∀ ch ∈ cs, ch.isAlpha) {c : Cursor}
    (hc : c.rest = ch :: (cs ++ pieceCloser more ++ rest)) :
    ∃ stop, Token.scanTemplate opening c =
        Token.between (.template (piecePart opening more) (some (String.ofList cs))) c stop {} [] ∧
      c.Reads (ch :: (cs ++ pieceCloser more)) stop := by
  obtain ⟨stop, hfinish, hreads⟩ := finish_template c.position more hcs
    (s := { stop := c.advance }) (Cursor.rest_advance hc) rfl
  refine ⟨stop, ?_, (Cursor.reads_advance_cons hc).append hreads⟩
  unfold Token.scanTemplate
  rw [hfinish]
  simp only [Option.map_some, List.append_nil, List.reverse_reverse]
  cases opening <;> cases more <;> rfl

/-- The piece with which a template begins. -/
theorem spells_opening {cs : List Char} (more : Bool) (hcs : ∀ ch ∈ cs, ch.isAlpha) :
    Spells (TemplateScan.backtick :: (cs ++ pieceCloser more))
      (.template (piecePart true more) (some (String.ofList cs))) where
  ne_nil := nofun
  solid := Trivia.isSolid_cons (by decide) (by decide) _
  scan c rest hc _ := by
    have hopen : c.rest = TemplateScan.backtick :: (cs ++ pieceCloser more ++ rest) := by simp [hc]
    obtain ⟨stop, hscan, hreads⟩ := scanTemplate_eq true more hcs hopen
    refine ⟨stop, ?_, hreads⟩
    have hpeek : c.peek? = some TemplateScan.backtick := by simp [Cursor.peek?, hc]
    have hquotes : ¬ (TemplateScan.backtick = '"' ∨ TemplateScan.backtick = '\x27') := by decide
    have hfirst : Token.scan c = Token.scanTemplate true c := by
      simp only [Token.scan, hpeek, if_neg hquotes, if_true]
    rw [hfirst, hscan]

end Core

end ScriptLint
