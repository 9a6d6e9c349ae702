import ScriptLint.Proofs.Lexing.Number
import ScriptLint.Proofs.Lexing.Place

/-! # Strings

What a string literal denotes. Each character can be spelled in several ways, and some of them depend
on what comes next in the source, so the spellings of a text are described from its end. Reading a
literal takes one spelling of a character or one continued line at a time and gives back the text
that was spelled, as long as each of its characters is spelled as a whole: two escapes for the halves
of a character denote two other characters.
-/

namespace ScriptLint

open Character (digitValue? isDigitOf isLineTerminator ofScalar)

/-! ## Digits -/

namespace Denotes

variable {radix n : Nat} {cs rest : List Char} {c : Cursor}

theorem filterMap_eq {values : List Nat}
    (h : List.Forall₂ (fun ch value => digitValue? radix ch = some value) cs values) :
    cs.filterMap (digitValue? radix) = values := by
  induction h with
  | nil => rfl
  | cons hvalue _ ih => rw [List.filterMap_cons_some hvalue, ih]

/-- The number is the value of the digits. -/
theorem digitsValue_eq (h : Denotes radix cs n) :
    digitsValue radix (cs.filterMap (digitValue? radix)) = n := by
  obtain ⟨values, hvalues, rfl⟩ := h
  rw [filterMap_eq hvalues, digitsValue_eq_ofDigits]

theorem isDigitOf (h : Denotes radix cs n) : ∀ ch ∈ cs, isDigitOf radix ch := by
  obtain ⟨values, hvalues, -⟩ := h
  induction hvalues with
  | nil => simp
  | cons hvalue _ ih => simpa [Character.isDigitOf, hvalue] using ih

/-- As many digits as there are are read. -/
theorem digits? (h : Denotes radix cs n) (hc : c.rest = cs ++ rest) :
    ∃ d, c.Reads cs d ∧ c.digits? radix cs.length = (some n, d) := by
  obtain ⟨values, hvalues, rfl⟩ := h
  have hread {cs : List Char} {values : List Nat} {c : Cursor} (value : Nat)
      (hvalues : List.Forall₂ (fun ch value => digitValue? radix ch = some value) cs values)
      (hc : c.rest = cs ++ rest) : ∃ d, c.Reads cs d ∧ Cursor.digitsUpTo radix cs.length value c =
        (cs.length, values.foldl (fun value digit => value * radix + digit) value, d) := by
    induction hvalues generalizing c value with
    | nil => exact ⟨c, .nil c, rfl⟩
    | @cons ch digit cs values hdigit _ ih =>
        obtain ⟨d, hreads, hrest⟩ := ih (value * radix + digit) (Cursor.rest_advance hc)
        refine ⟨d, (Cursor.reads_advance_cons hc).append hreads, ?_⟩
        have hpeek : c.peek? = some ch := by simp [Cursor.peek?, hc]
        simp [Cursor.digitsUpTo, hpeek, hdigit, hrest]
  obtain ⟨d, hreads, hdigits⟩ := hread 0 hvalues hc
  refine ⟨d, hreads, ?_⟩
  rw [← digitsValue_eq_ofDigits, digitsValue]
  simp [Cursor.digits?, hdigits]

/-- Four digits name a character. -/
theorem unicodeEscape (h : Denotes 16 cs n) (hlength : cs.length = 4) (hc : c.rest = cs ++ rest) :
    ∃ d, c.Reads cs d ∧ c.unicodeEscape = (some (ofScalar n), d) := by
  obtain ⟨d, hreads, hdigits⟩ := h.digits? hc
  obtain ⟨ch, cs, rfl⟩ := List.exists_cons_of_length_pos (by omega : 0 < cs.length)
  have hbrace : c.accept? '\x7b' = none := by
    have hdigit := h.isDigitOf ch List.mem_cons_self
    have hne : ch ≠ '\x7b' := by
      rintro rfl
      cases hdigit
    simp [Cursor.accept?, Cursor.peek?, hc, hne]
  refine ⟨d, hreads, ?_⟩
  rw [hlength] at hdigits
  simp [Cursor.unicodeEscape, hbrace, hdigits]

/-- So do digits in braces, however many there are. -/
theorem unicodeEscape_braces (h : Denotes 16 cs n) (hne : cs ≠ []) (hn : n ≤ 0x10FFFF)
    (hc : c.rest = '\x7b' :: (cs ++ '\x7d' :: rest)) :
    ∃ d, c.Reads ('\x7b' :: (cs ++ ['\x7d'])) d ∧ c.unicodeEscape = (some (ofScalar n), d) := by
  have hopen : c.accept? '\x7b' = some c.advance := by simp [Cursor.accept?, Cursor.peek?, hc]
  have hadvance := Cursor.rest_advance hc
  have htake : c.advance.rest.takeWhile (Character.isDigitOf 16) = cs := by
    rw [hadvance, List.takeWhile_append_of_pos h.isDigitOf,
      List.takeWhile_cons_of_neg (by decide), List.append_nil]
  have hreads := c.advance.reads_skipWhile (Character.isDigitOf 16)
  rw [htake] at hreads
  have hstop : (c.advance.skipWhile (Character.isDigitOf 16)).rest = '\x7d' :: rest :=
    List.append_cancel_left (hreads.rest_eq.symm.trans hadvance)
  have hclose : (c.advance.skipWhile (Character.isDigitOf 16)).accept? '\x7d' =
      some (c.advance.skipWhile (Character.isDigitOf 16)).advance := by
    simp [Cursor.accept?, Cursor.peek?, hstop]
  have hdigits : (cs.filterMap (digitValue? 16)).isEmpty = false := by
    obtain ⟨values, hvalues, -⟩ := h
    rw [filterMap_eq hvalues]
    cases hvalues with
    | nil => exact absurd rfl hne
    | cons => rfl
  refine ⟨_, (Cursor.reads_advance_cons hc).append
    (hreads.append (Cursor.reads_advance_cons hstop)), ?_⟩
  simp [Cursor.unicodeEscape, hopen, hreads.charsTo_eq, hdigits, hclose, h.digitsValue_eq, hn]

end Denotes

theorem Character.ofScalar_toNat (ch : Char) : ofScalar ch.toNat = ch := by
  have hvalid : ch.toNat.isValidChar := ch.valid
  rw [ofScalar, if_pos hvalid, Char.ofNat_toNat]

theorem Character.toNat_le (ch : Char) : ch.toNat ≤ 0x10FFFF := by
  have hvalid : ch.toNat < 0xD800 ∨ 0xDFFF < ch.toNat ∧ ch.toNat < 0x110000 := ch.valid
  omega

/-! ## Escapes -/

namespace Escape

variable {c : Cursor} {ch letter : Char} {cs rest : List Char} {n : Nat}

/-- The text behind a backslash is an escape for a character, and not one in the old octal style. -/
def Decodes (c : Cursor) (cs : List Char) (ch : Char) : Prop :=
  (read false c).decoded? = some ch ∧ (read false c).legacyOctal = false ∧
    c.Reads cs (read false c).stop

theorem read_cons (hc : c.rest = letter :: rest) : read false c = ofChar false letter c.advance := by
  simp [read, Cursor.peek?, hc]

theorem decodes_control (hletter : controls.lookup letter = some ch) (hc : c.rest = letter :: rest) :
    Decodes c [letter] ch := by
  rw [Decodes, read_cons hc, ofChar, hletter]
  exact ⟨rfl, rfl, Cursor.reads_advance_cons hc⟩

theorem decodes_nul (hrest : ∀ d ∈ rest.head?, d.isDigit = false) (hc : c.rest = '0' :: rest) :
    Decodes c ['0'] '\x00' := by
  have hdigit : c.advance.peekIs Char.isDigit = false := by
    rw [Cursor.peekIs, Cursor.peek?, Cursor.rest_advance hc]
    cases rest with
    | nil => rfl
    | cons d rest => exact hrest d rfl
  have hnone : controls.lookup '0' = none := by decide
  rw [Decodes, read_cons hc, ofChar, hnone]
  simp [hdigit, Cursor.reads_advance_cons hc]

theorem decodes_hex (h : Denotes 16 cs n) (hlength : cs.length = 2)
    (hc : c.rest = 'x' :: (cs ++ rest)) : Decodes c ('x' :: cs) (ofScalar n) := by
  obtain ⟨d, hreads, hdigits⟩ := h.digits? (Cursor.rest_advance hc)
  rw [hlength] at hdigits
  have hnone : controls.lookup 'x' = none := by decide
  have hdigit : 'x'.isDigit = false := by decide
  rw [Decodes, read_cons hc, ofChar, hnone]
  simpa [hdigit, hdigits] using (Cursor.reads_advance_cons hc).append hreads

theorem decodes_unicode {d : Cursor} (hreads : c.advance.Reads cs d)
    (hescape : c.advance.unicodeEscape = (some ch, d)) (hc : c.rest = 'u' :: rest) :
    Decodes c ('u' :: cs) ch := by
  have hnone : controls.lookup 'u' = none := by decide
  have hdigit : 'u'.isDigit = false := by decide
  rw [Decodes, read_cons hc, ofChar, hnone]
  simpa [hdigit, hescape] using (Cursor.reads_advance_cons hc).append hreads

theorem decodes_self (hnone : controls.lookup ch = none) (hdigit : ch.isDigit = false)
    (hch : ch ≠ 'x' ∧ ch ≠ 'u') (hc : c.rest = ch :: rest) : Decodes c [ch] ch := by
  have hzero : ch ≠ '0' := by
    rintro rfl
    cases hdigit
  rw [Decodes, read_cons hc, ofChar, hnone]
  simp [hzero, hdigit, hch, Cursor.reads_advance_cons hc]

end Escape

/-! ## Spellings of a text -/

namespace StringScan

variable {quote ch : Char} {text spelling spelling' rest : List Char} {start : Position}

/-- The characters that end a line, as one pair or alone. -/
def lineEnds : List (List Char) := [['\n'], ['\r'], ['\r', '\n'], ['\u2028'], ['\u2029']]

/-- The letters that stand for characters after a backslash. -/
def namedEscapes : List (Char × Char) :=
  [('b', '\x08'), ('f', '\x0c'), ('n', '\n'), ('r', '\r'), ('t', '\t'), ('v', '\x0b')]

/-- The second text spells the first one between two quotes. -/
inductive Spells (quote : Char) : List Char → List Char → Prop
  | nil : Spells quote [] []
  | raw {ch : Char} {text spelling : List Char} : ch ∉ [quote, '\\', '\n', '\r'] →
      Spells quote text spelling → Spells quote (ch :: text) (ch :: spelling)
  /-- Any other character may have a backslash in front of it. -/
  | self {ch : Char} {text spelling : List Char} : isLineTerminator ch = false →
      ch.isDigit = false → ch ∉ ['b', 'f', 'n', 'r', 't', 'u', 'v', 'x'] →
      Spells quote text spelling → Spells quote (ch :: text) ('\\' :: ch :: spelling)
  | named {letter ch : Char} {text spelling : List Char} : (letter, ch) ∈ namedEscapes →
      Spells quote text spelling → Spells quote (ch :: text) ('\\' :: letter :: spelling)
  | nul {text spelling : List Char} : (∀ d ∈ spelling.head?, d.isDigit = false) →
      Spells quote text spelling → Spells quote ('\x00' :: text) ('\\' :: '0' :: spelling)
  | hex {ch : Char} {digits text spelling : List Char} : digits.length = 2 →
      Denotes 16 digits ch.toNat → Spells quote text spelling →
      Spells quote (ch :: text) ('\\' :: 'x' :: (digits ++ spelling))
  | unicode {ch : Char} {digits text spelling : List Char} : digits.length = 4 →
      Denotes 16 digits ch.toNat → Spells quote text spelling →
      Spells quote (ch :: text) ('\\' :: 'u' :: (digits ++ spelling))
  | codePoint {ch : Char} {digits text spelling : List Char} : digits ≠ [] →
      Denotes 16 digits ch.toNat → Spells quote text spelling →
      Spells quote (ch :: text) ('\\' :: 'u' :: '\x7b' :: (digits ++ '\x7d' :: spelling))
  /-- A line that goes on behind a backslash adds nothing. -/
  | continued {ending text spelling : List Char} : ending ∈ lineEnds →
      Spells quote text spelling → Spells quote text ('\\' :: (ending ++ spelling))

/-- No spelling begins with an LF, so none continues a line end before it. -/
theorem Spells.head?_ne (h : Spells quote text spelling) : spelling.head? ≠ some '\n' := by
  cases h with
  | nil => simp
  | raw hch =>
      intro heq
      obtain rfl := Option.some.inj heq
      simp at hch
  | _ => simp

/-! ## Reading a spelling -/

/-- Reading on from the first scan to the second one takes the text `spelling` and denotes the text
`text`, and it notices nothing but continued lines and features that an edition introduced. -/
structure Takes (s : StringScan) (text spelling : List Char) (s' : StringScan) : Prop where
  reversed_eq : s'.reversed = text.reverse ++ s.reversed
  legacyOctal_eq : s'.flags.legacyOctal = s.flags.legacyOctal
  issues : ∀ issue ∈ s'.issues, issue ∈ s.issues ∨ issue.code ∈ ["W043", "W119"]
  reads : s.stop.Reads spelling s'.stop

namespace Takes

variable {s s' s'' : StringScan} {text' : List Char}

theorem trans (h : s.Takes text spelling s') (h' : s'.Takes text' spelling' s'') :
    s.Takes (text ++ text') (spelling ++ spelling') s'' where
  reversed_eq := by rw [h'.reversed_eq, h.reversed_eq, List.reverse_append, List.append_assoc]
  legacyOctal_eq := h'.legacyOctal_eq.trans h.legacyOctal_eq
  issues issue hmem := by
    rcases h'.issues issue hmem with hmem | hcode
    · exact h.issues issue hmem
    · exact .inr hcode
  reads := h.reads.append h'.reads

end Takes

variable {s : StringScan}

theorem takes_raw (hc : s.stop.rest = ch :: rest) :
    s.Takes [ch] [ch] { s with reversed := ch :: s.reversed, stop := s.stop.advance } :=
  ⟨rfl, rfl, fun _ => .inl, Cursor.reads_advance_cons hc⟩

theorem takes_escape {cs : List Char} (hc : s.stop.rest = '\\' :: ch :: rest)
    (hline : isLineTerminator ch = false) {decoded : Char}
    (hdecodes : Escape.Decodes s.stop.advance cs decoded) :
    s.Takes [decoded] ('\\' :: cs) s.escape := by
  obtain ⟨hdecoded, hoctal, hreads⟩ := hdecodes
  have hpeek : s.stop.advance.peek? = some ch := by
    simp [Cursor.peek?, Cursor.rest_advance hc]
  have hescape : s.escape = { s with
      reversed := decoded :: s.reversed
      flags := { s.flags with
        legacyOctal := s.flags.legacyOctal || (Escape.read false s.stop.advance).legacyOctal }
      issues := s.issues ++ (Escape.read false s.stop.advance).issues s.stop.position
      stop := (Escape.read false s.stop.advance).stop } := by
    simp [escape, hpeek, hline, hdecoded]
  rw [hescape]
  refine ⟨rfl, by simp [hoctal], fun issue hmem => ?_,
    (Cursor.reads_advance_cons hc).append hreads⟩
  refine (List.mem_append.mp hmem).imp_right fun hmem => ?_
  unfold Escape.issues at hmem
  split at hmem
  · rw [List.mem_singleton.mp hmem]
    simp [LexicalIssue.gated]
  · cases hmem

/-- The end of a line is read as a whole, a CR being one by itself only if no LF follows it. -/
theorem reads_lineEnd {ending : List Char} {c : Cursor} (hending : ending ∈ lineEnds)
    (hrest : rest.head? ≠ some '\n') (hc : c.rest = ending ++ rest) :
    (∃ ch, c.peek? = some ch ∧ isLineTerminator ch = true) ∧ c.Reads ending c.skipLineEnd := by
  have hsingle (ch : Char) (hline : isLineTerminator ch = true) (hne : ch ≠ '\r')
      (hpeek : c.peek? = some ch) :
      (∃ ch, c.peek? = some ch ∧ isLineTerminator ch = true) ∧ c.Reads [ch] c.skipLineEnd := by
    refine ⟨⟨ch, hpeek, hline⟩, ?_⟩
    rw [Cursor.skipLineEnd, hpeek, if_neg (by simpa using hne)]
    exact Cursor.reads_advance hpeek
  have hpeek : c.peek? = (ending ++ rest).head? := congrArg List.head? hc
  simp only [lineEnds, List.mem_cons, List.not_mem_nil, or_false] at hending
  rcases hending with rfl | rfl | rfl | rfl | rfl
  · exact hsingle '\n' (by decide) (by decide) hpeek
  · have hpeek : c.peek? = some '\r' := hpeek
    have hskip : c.advance.skip '\n' = c.advance := by
      simp [Cursor.skip, Cursor.accept?, Cursor.peek?, Cursor.rest_advance hc, hrest]
    refine ⟨⟨'\r', hpeek, by decide⟩, ?_⟩
    rw [Cursor.skipLineEnd, if_pos hpeek, hskip]
    exact Cursor.reads_advance hpeek
  · have hpeek : c.peek? = some '\r' := hpeek
    have hadvance := Cursor.rest_advance hc
    have hskip : c.advance.skip '\n' = c.advance.advance := by
      simp [Cursor.skip, Cursor.accept?, Cursor.peek?, hadvance]
    refine ⟨⟨'\r', hpeek, by decide⟩, ?_⟩
    rw [Cursor.skipLineEnd, if_pos hpeek, hskip]
    exact (Cursor.reads_advance hpeek).append (Cursor.reads_advance_cons hadvance)
  · exact hsingle '\u2028' (by decide) (by decide) hpeek
  · exact hsingle '\u2029' (by decide) (by decide) hpeek

theorem takes_continued {ending : List Char} (hending : ending ∈ lineEnds)
    (hrest : rest.head? ≠ some '\n') (hc : s.stop.rest = '\\' :: (ending ++ rest)) :
    s.Takes [] ('\\' :: ending) s.escape := by
  have hadvance := Cursor.rest_advance hc
  obtain ⟨⟨ch, hpeek, hline⟩, hreads⟩ := reads_lineEnd hending hrest hadvance
  have hescape : s.escape = { s with
      flags := { s.flags with lineContinuation := true }
      issues := s.issues ++ [{ code := "W043", position := s.stop.position }]
      stop := s.stop.advance.skipLineEnd } := by
    simp [escape, hpeek, hline]
  rw [hescape]
  refine ⟨rfl, rfl, fun issue hmem => ?_, (Cursor.reads_advance_cons hc).append hreads⟩
  refine (List.mem_append.mp hmem).imp_right fun hmem => ?_
  rw [List.mem_singleton.mp hmem]
  simp

/-! ## Whole literals -/

/-- A spelling is the text of an escape behind a backslash, of a continued line, or a character that
stands for itself; the literal is read on behind it. -/
theorem finish_raw (hc : s.stop.rest = ch :: rest) (hch : ch ∉ [quote, '\\', '\n', '\r']) :
    s.finish quote start =
      finish quote start { s with reversed := ch :: s.reversed, stop := s.stop.advance } := by
  simp only [List.mem_cons, List.not_mem_nil, or_false, not_or] at hch
  have hpeek : s.stop.peek? = some ch := by simp [Cursor.peek?, hc]
  rw [finish]
  split
  next hnone => cases hpeek.symm.trans hnone
  next x hx =>
    obtain rfl := Option.some.inj (hpeek.symm.trans hx)
    rw [if_neg (by simp [hch]), if_neg hch.1, if_neg hch.2.1]

theorem finish_escape (hquote : quote = '"' ∨ quote = '\x27') (hc : s.stop.rest = '\\' :: rest) :
    s.finish quote start = s.escape.finish quote start := by
  have hpeek : s.stop.peek? = some '\\' := by simp [Cursor.peek?, hc]
  rw [finish]
  split
  next hnone => cases hpeek.symm.trans hnone
  next x hx =>
    obtain rfl := Option.some.inj (hpeek.symm.trans hx)
    have hne : '\\' ≠ quote := by rcases hquote with rfl | rfl <;> decide
    rw [if_neg (by decide), if_neg hne, if_pos rfl]

theorem finish_close (hquote : quote = '"' ∨ quote = '\x27') (hc : s.stop.rest = quote :: rest) :
    s.finish quote start = { s with stop := s.stop.advance } := by
  have hpeek : s.stop.peek? = some quote := by simp [Cursor.peek?, hc]
  rw [finish]
  split
  next hnone => cases hpeek.symm.trans hnone
  next x hx =>
    obtain rfl := Option.some.inj (hpeek.symm.trans hx)
    rw [if_neg (by rcases hquote with rfl | rfl <;> decide), if_pos rfl]

/-- The literal is read as spelled, one step at a time, up to its closing quote. -/
def Completes (quote : Char) (text spelling : List Char) : Prop :=
  ∀ (start : Position) (s : StringScan) (rest : List Char),
    s.stop.rest = spelling ++ quote :: rest →
      s.Takes text (spelling ++ [quote]) (s.finish quote start)

theorem completes_nil (hquote : quote = '"' ∨ quote = '\x27') : Completes quote [] [] := by
  intro start s rest hc
  rw [finish_close hquote hc]
  exact ⟨rfl, rfl, fun _ => .inl, Cursor.reads_advance_cons hc⟩

theorem Completes.raw (h : Completes quote text spelling) (hch : ch ∉ [quote, '\\', '\n', '\r']) :
    Completes quote (ch :: text) (ch :: spelling) := by
  intro start s rest hc
  rw [finish_raw hc hch]
  exact (takes_raw hc).trans (h start _ rest (Cursor.rest_advance hc))

/-- A character that is spelled by an escape. -/
theorem Completes.escape (h : Completes quote text spelling)
    (hquote : quote = '"' ∨ quote = '\x27') {cs : List Char} {letter : Char}
    (hline : isLineTerminator letter = false)
    (hdecodes : ∀ c : Cursor, ∀ rest, c.rest = letter :: cs ++ (spelling ++ quote :: rest) →
      Escape.Decodes c (letter :: cs) ch) :
    Completes quote (ch :: text) ('\\' :: letter :: cs ++ spelling) := by
  intro start s rest hc
  have hc' : s.stop.rest = '\\' :: letter :: (cs ++ (spelling ++ quote :: rest)) := by
    simpa using hc
  have htakes := takes_escape hc' hline (hdecodes _ rest (Cursor.rest_advance hc'))
  have hstop : s.escape.stop.rest = spelling ++ quote :: rest := by
    have hreads := htakes.reads.rest_eq
    rw [hc', List.cons_append, List.cons_append] at hreads
    exact (List.append_cancel_left (List.cons.inj (List.cons.inj hreads).2).2).symm
  rw [finish_escape hquote hc']
  simpa using htakes.trans (h start _ rest hstop)

theorem Completes.continued (h : Completes quote text spelling)
    (hquote : quote = '"' ∨ quote = '\x27') {ending : List Char} (hending : ending ∈ lineEnds)
    (hspelling : spelling.head? ≠ some '\n') :
    Completes quote text ('\\' :: (ending ++ spelling)) := by
  intro start s rest hc
  have hc' : s.stop.rest = '\\' :: (ending ++ (spelling ++ quote :: rest)) := by simpa using hc
  have hrest : (spelling ++ quote :: rest).head? ≠ some '\n' := by
    cases spelling with
    | nil => rcases hquote with rfl | rfl <;> simp
    | cons x xs => exact hspelling
  have htakes := takes_continued hending hrest hc'
  have hstop : s.escape.stop.rest = spelling ++ quote :: rest := by
    have hreads := htakes.reads.rest_eq
    rw [hc', List.cons_append] at hreads
    exact (List.append_cancel_left (List.cons.inj hreads).2).symm
  rw [finish_escape hquote hc']
  simpa using htakes.trans (h start _ rest hstop)

theorem Spells.completes (h : Spells quote text spelling)
    (hquote : quote = '"' ∨ quote = '\x27') : Completes quote text spelling := by
  induction h with
  | nil => exact completes_nil hquote
  | raw hch _ ih => exact ih.raw hch
  | @self ch text spelling hline hdigit hletter _ ih =>
      simp only [List.mem_cons, List.not_mem_nil, or_false, not_or] at hletter
      have hnone : Escape.controls.lookup ch = none := by
        simp [List.lookup_eq_none_iff, Escape.controls, hletter]
      exact ih.escape hquote hline fun c rest hc =>
        Escape.decodes_self hnone hdigit (by simp [hletter]) hc
  | @named letter ch text spelling hnamed _ ih =>
      have hall : ∀ pair ∈ namedEscapes, isLineTerminator pair.1 = false ∧
          Escape.controls.lookup pair.1 = some pair.2 := by decide
      obtain ⟨hline, hcontrol⟩ := hall _ hnamed
      exact ih.escape hquote hline fun c rest hc => Escape.decodes_control hcontrol hc
  | @nul text spelling hnext _ ih =>
      refine ih.escape hquote (by decide) fun c rest hc => Escape.decodes_nul ?_ hc
      cases spelling with
      | nil => rcases hquote with rfl | rfl <;> simp
      | cons x xs => exact hnext
  | @hex ch digits text spelling hlength hdigits _ ih =>
      refine ih.escape hquote (by decide) fun c rest hc => ?_
      rw [← Character.ofScalar_toNat ch]
      exact Escape.decodes_hex hdigits hlength hc
  | @unicode ch digits text spelling hlength hdigits _ ih =>
      refine ih.escape hquote (by decide) fun c rest hc => ?_
      obtain ⟨d, hreads, hescape⟩ := hdigits.unicodeEscape hlength (Cursor.rest_advance hc)
      rw [Character.ofScalar_toNat] at hescape
      exact Escape.decodes_unicode hreads hescape hc
  | @codePoint ch digits text spelling hne hdigits _ ih =>
      have hcompletes : Completes quote (ch :: text)
          ('\\' :: 'u' :: ('\x7b' :: (digits ++ ['\x7d'])) ++ spelling) := by
        refine ih.escape hquote (by decide) fun c rest hc => ?_
        have hc' : c.advance.rest =
            '\x7b' :: (digits ++ '\x7d' :: (spelling ++ quote :: rest)) := by
          simpa using Cursor.rest_advance hc
        obtain ⟨d, hreads, hescape⟩ :=
          hdigits.unicodeEscape_braces hne (Character.toNat_le ch) hc'
        rw [Character.ofScalar_toNat] at hescape
        exact Escape.decodes_unicode hreads hescape hc
      simpa using hcompletes
  | continued hending h ih => exact ih.continued hquote hending h.head?_ne

end StringScan

namespace Token

open StringScan (Completes Spells)

variable {c : Cursor} {quote : Char} {text spelling rest : List Char}

theorem scan_quote (hquote : quote = '"' ∨ quote = '\x27') (hc : c.rest = quote :: rest) :
    scan c = scanString quote c := by
  have hpeek : c.peek? = some quote := by simp [Cursor.peek?, hc]
  rw [scan, hpeek]
  exact if_pos hquote

theorem before_quote (hquote : quote = '"' ∨ quote = '\x27') (hc : c.rest = quote :: rest) :
    Trivia.before c = { stop := c } := by
  rcases hquote with rfl | rfl <;>
    exact Trivia.before_eq hc (by decide) (by decide) (by decide) (by decide)

/-- The token of a literal that is read to its closing quote. -/
theorem next_of_completes (hquote : quote = '"' ∨ quote = '\x27')
    (h : Completes quote text spelling) (hc : c.rest = quote :: (spelling ++ quote :: rest)) :
    (next c).lexeme = .string (String.ofList text) ∧ (next c).start = c ∧
      c.Reads (quote :: (spelling ++ [quote])) (next c).stop ∧
      (next c).raw = String.ofList (quote :: (spelling ++ [quote])) ∧
      (next c).flags.legacyOctal = false ∧
      ∀ issue ∈ (next c).issues, issue.code ∈ ["W043", "W119"] := by
  have htakes := h c.position { stop := c.advance } rest (Cursor.rest_advance hc)
  have hreads := (Cursor.reads_advance_cons hc).append htakes.reads
  have hnext : next c = { scanString quote c with
      flags := { (scanString quote c).flags with newlineBefore := false }, directives := [] } := by
    rw [next, before_quote hquote hc, scan_quote hquote hc]
    rfl
  rw [hnext]
  refine ⟨?_, rfl, hreads, congrArg String.ofList hreads.charsTo_eq, htakes.legacyOctal_eq, ?_⟩
  · simp [scanString, between, htakes.reversed_eq]
  · intro issue hmem
    rcases htakes.issues issue hmem with hmem | hcode
    · cases hmem
    · exact hcode

/-- A string literal denotes the text that it spells, and it is read as a whole without a problem. -/
theorem next_string (hquote : quote = '"' ∨ quote = '\x27') (h : Spells quote text spelling)
    (hc : c.rest = quote :: (spelling ++ quote :: rest)) :
    (next c).lexeme = .string (String.ofList text) ∧ (next c).start = c ∧
      c.Reads (quote :: (spelling ++ [quote])) (next c).stop ∧
      (next c).raw = String.ofList (quote :: (spelling ++ [quote])) ∧
      (next c).flags.legacyOctal = false ∧ (next c).Lacks "W112" ∧ (next c).Lacks "W044" := by
  obtain ⟨hlexeme, hstart, hreads, hraw, hoctal, hissues⟩ :=
    next_of_completes hquote (h.completes hquote) hc
  refine ⟨hlexeme, hstart, hreads, hraw, hoctal, fun issue hmem hcode => ?_,
    fun issue hmem hcode => ?_⟩
  · exact absurd (hcode ▸ hissues issue hmem) (by decide)
  · exact absurd (hcode ▸ hissues issue hmem) (by decide)

/-- An escape with two digits, a continued line, a NUL in front of a letter, and the letter. -/
theorem next_string_continued :
    Spells '"' ['A', '\x00', 'c'] ['\\', 'x', '4', '1', '\\', '\r', '\n', '\\', '0', 'c'] ∧
      (next (.ofSource "\"\\x41\\\r\n\\0c\";")).lexeme = .string "A\x00c" ∧
      (next (.ofSource "\"\\x41\\\r\n\\0c\";")).raw = "\"\\x41\\\r\n\\0c\"" := by
  have hdigits : Denotes 16 ['4', '1'] 65 := ⟨[4, 1], .cons rfl (.cons rfl .nil), by decide⟩
  have hletter : Spells '"' ['c'] ['c'] := .raw (by decide) .nil
  have hnul : Spells '"' ['\x00', 'c'] ['\\', '0', 'c'] := by
    refine .nul ?_ hletter
    rintro _ ⟨⟩
    rfl
  have hcontinued : Spells '"' ['\x00', 'c'] ['\\', '\r', '\n', '\\', '0', 'c'] :=
    .continued (by decide : ['\r', '\n'] ∈ StringScan.lineEnds) hnul
  have hspells : Spells '"' ['A', '\x00', 'c']
      ('\\' :: 'x' :: (['4', '1'] ++ ['\\', '\r', '\n', '\\', '0', 'c'])) :=
    .hex rfl hdigits hcontinued
  have hrest : (Cursor.ofSource "\"\\x41\\\r\n\\0c\";").rest =
      '"' :: (['\\', 'x', '4', '1', '\\', '\r', '\n', '\\', '0', 'c'] ++ '"' :: [';']) := rfl
  obtain ⟨hlexeme, -, -, hraw, -⟩ := next_string (.inl rfl) hspells hrest
  exact ⟨hspells, hlexeme, hraw⟩

end Token

/-! ## Escapes for the halves of characters -/

namespace StringScan

variable {quote : Char} {text spelling : List Char} {units : List Nat}

/-- The code units of a character in UTF-16. -/
def utf16 (ch : Char) : List Nat :=
  if ch.toNat < 0x10000 then [ch.toNat]
  else [0xD800 + (ch.toNat - 0x10000) / 0x400, 0xDC00 + (ch.toNat - 0x10000) % 0x400]

/-- Each unit is spelled by an escape with four digits. -/
inductive SpellsUnits : List Nat → List Char → Prop
  | nil : SpellsUnits [] []
  | cons {unit : Nat} {digits : List Char} {units : List Nat} {spelling : List Char} :
      digits.length = 4 → Denotes 16 digits unit → SpellsUnits units spelling →
      SpellsUnits (unit :: units) ('\\' :: 'u' :: (digits ++ spelling))

/-- What is read of a character that is spelled by its units: the halves of a pair are no
characters. -/
def halved (ch : Char) : List Char := if ch.toNat < 0x10000 then [ch] else ['\ufffd', '\ufffd']

theorem map_ofScalar_utf16 (ch : Char) : (utf16 ch).map ofScalar = halved ch := by
  unfold utf16 halved
  by_cases hplane : ch.toNat < 0x10000
  · simp [hplane, Character.ofScalar_toNat]
  · have hle := Character.toNat_le ch
    have hsurrogate (n : Nat) (hlow : 0xD800 ≤ n) (hhigh : n ≤ 0xDFFF) :
        ofScalar n = '\ufffd' := by
      have hvalid : ¬ n.isValidChar := by
        unfold Nat.isValidChar
        omega
      rw [ofScalar, if_neg hvalid]
    rw [if_neg hplane, if_neg hplane, List.map_cons, List.map_singleton,
      hsurrogate _ (by omega) (by omega), hsurrogate _ (by omega) (by omega)]

theorem SpellsUnits.completes (h : SpellsUnits units spelling)
    (hquote : quote = '"' ∨ quote = '\x27') :
    Completes quote (units.map ofScalar) spelling := by
  induction h with
  | nil => exact completes_nil hquote
  | @cons unit digits units spelling hlength hdigits _ ih =>
      refine ih.escape hquote (by decide) fun c rest hc => ?_
      obtain ⟨d, hreads, hescape⟩ := hdigits.unicodeEscape hlength (Cursor.rest_advance hc)
      exact Escape.decodes_unicode hreads hescape hc

/-- Nothing is lost exactly if there are no halves. -/
theorem flatMap_halved_eq_iff :
    text.flatMap halved = text ↔ ∀ ch ∈ text, ch.toNat < 0x10000 := by
  induction text with
  | nil => simp
  | cons ch text ih =>
      by_cases hplane : ch.toNat < 0x10000
      · simp [halved, hplane, ih]
      · have hne : '\ufffd' ≠ ch := by
          rintro rfl
          exact hplane (by decide)
        simp [halved, hplane, hne]

end StringScan

namespace Token

open StringScan (SpellsUnits utf16 halved)

variable {c c' : Cursor} {quote quote' : Char} {text text' spelling spelling' rest rest' : List Char}

/-- A string literal that spells the code units of a text one by one denotes the text with two
replacement characters in place of each character that has two units. So it denotes the text itself
only if there is no such character, and as keys two such literals are the same as soon as the texts
agree apart from these characters. -/
theorem next_string_units (hquote : quote = '"' ∨ quote = '\x27')
    (hquote' : quote' = '"' ∨ quote' = '\x27') (h : SpellsUnits (text.flatMap utf16) spelling)
    (h' : SpellsUnits (text'.flatMap utf16) spelling')
    (hc : c.rest = quote :: (spelling ++ quote :: rest))
    (hc' : c'.rest = quote' :: (spelling' ++ quote' :: rest')) :
    (next c).lexeme = .string (String.ofList (text.flatMap halved)) ∧
      (next c).raw = String.ofList (quote :: (spelling ++ [quote])) ∧
      ((next c).lexeme = .string (String.ofList text) ↔ ∀ ch ∈ text, ch.toNat < 0x10000) ∧
      ((next c).display = (next c').display ↔ text.flatMap halved = text'.flatMap halved) := by
  have hmap (text : List Char) : (text.flatMap utf16).map ofScalar = text.flatMap halved := by
    rw [List.map_flatMap]
    exact congrArg text.flatMap (funext StringScan.map_ofScalar_utf16)
  obtain ⟨hlexeme, -, -, hraw, -⟩ := next_of_completes hquote (h.completes hquote) hc
  obtain ⟨hlexeme', -, -, -, -⟩ := next_of_completes hquote' (h'.completes hquote') hc'
  rw [hmap] at hlexeme hlexeme'
  refine ⟨hlexeme, hraw, ?_, ?_⟩
  · rw [hlexeme, ← StringScan.flatMap_halved_eq_iff, Lexeme.string.injEq, String.ofList_inj]
  · rw [display, display, hlexeme, hlexeme']
    exact String.ofList_inj

/-- The keys of two characters that are written in pairs are the same. -/
theorem next_string_units_pairs :
    SpellsUnits ([Char.ofNat 0x1F600].flatMap utf16)
        ['\\', 'u', 'D', '8', '3', 'D', '\\', 'u', 'D', 'E', '0', '0'] ∧
      SpellsUnits ([Char.ofNat 0x1F601].flatMap utf16)
        ['\\', 'u', 'D', '8', '3', 'D', '\\', 'u', 'D', 'E', '0', '1'] ∧
      (next (.ofSource "\"\\uD83D\\uDE00\": 1")).lexeme = .string "\ufffd\ufffd" ∧
      (next (.ofSource "\"\\uD83D\\uDE00\": 1")).display =
        (next (.ofSource "\"\\uD83D\\uDE01\": 2")).display := by
  have hhigh : Denotes 16 ['D', '8', '3', 'D'] 0xD83D :=
    ⟨[13, 8, 3, 13], .cons rfl (.cons rfl (.cons rfl (.cons rfl .nil))), by decide⟩
  have hlow : Denotes 16 ['D', 'E', '0', '0'] 0xDE00 :=
    ⟨[13, 14, 0, 0], .cons rfl (.cons rfl (.cons rfl (.cons rfl .nil))), by decide⟩
  have hlow' : Denotes 16 ['D', 'E', '0', '1'] 0xDE01 :=
    ⟨[13, 14, 0, 1], .cons rfl (.cons rfl (.cons rfl (.cons rfl .nil))), by decide⟩
  have hunits : SpellsUnits ([Char.ofNat 0x1F600].flatMap utf16)
      ['\\', 'u', 'D', '8', '3', 'D', '\\', 'u', 'D', 'E', '0', '0'] :=
    .cons rfl hhigh (.cons rfl hlow .nil)
  have hunits' : SpellsUnits ([Char.ofNat 0x1F601].flatMap utf16)
      ['\\', 'u', 'D', '8', '3', 'D', '\\', 'u', 'D', 'E', '0', '1'] :=
    .cons rfl hhigh (.cons rfl hlow' .nil)
  have hrest : (Cursor.ofSource "\"\\uD83D\\uDE00\": 1").rest =
      '"' :: (['\\', 'u', 'D', '8', '3', 'D', '\\', 'u', 'D', 'E', '0', '0'] ++
        '"' :: [':', ' ', '1']) := rfl
  have hrest' : (Cursor.ofSource "\"\\uD83D\\uDE01\": 2").rest =
      '"' :: (['\\', 'u', 'D', '8', '3', 'D', '\\', 'u', 'D', 'E', '0', '1'] ++
        '"' :: [':', ' ', '2']) := rfl
  obtain ⟨hlexeme, -, -, hkeys⟩ :=
    next_string_units (.inl rfl) (.inl rfl) hunits hunits' hrest hrest'
  exact ⟨hunits, hunits', hlexeme, hkeys.mpr rfl⟩

end Token

end ScriptLint
