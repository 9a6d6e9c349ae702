import ScriptLint.Reading.Flow
import ScriptLint.Token.Scan

/-! # How far scanners get

The text that lies between two cursors, and the text that each scanner takes.
-/

/-! ## Reading on

How far a cursor gets. Two cursors are related by the text that lies between them, so a scanner is
described by the text it takes and not by the steps it makes. The offset of a cursor counts the
bytes of that text, which is what makes the text between two cursors the one their offsets tell.
-/

namespace ScriptLint

/-- The number of bytes of a text in UTF-8. -/
def byteLength : List Char → Nat
  | [] => 0
  | c :: cs => c.utf8Size + byteLength cs

@[simp] theorem byteLength_nil : byteLength [] = 0 := rfl

@[simp] theorem byteLength_cons (c : Char) (cs : List Char) :
    byteLength (c :: cs) = c.utf8Size + byteLength cs := rfl

theorem byteLength_pos {cs : List Char} (hcs : cs ≠ []) : 0 < byteLength cs := by
  cases cs with
  | nil => contradiction
  | cons c cs =>
      have := c.utf8Size_pos
      simp only [byteLength_cons]
      omega

theorem utf8ByteSize_ofList (cs : List Char) : (String.ofList cs).utf8ByteSize = byteLength cs := by
  induction cs with
  | nil => rfl
  | cons c cs ih =>
      rw [byteLength_cons, ← ih, ← String.utf8ByteSize_singleton, ← String.utf8ByteSize_append]
      congr 1
      apply String.toList_injective
      simp

namespace Cursor

/-- Reading exactly the text `cs` from one cursor leads to the other. -/
inductive Reads : Cursor → List Char → Cursor → Prop
  | nil (c : Cursor) : Reads c [] c
  | cons {ch : Char} {rest cs : List Char} {position : Position} {d : Cursor} :
      Reads ⟨rest, position.after ch rest.head?⟩ cs d → Reads ⟨ch :: rest, position⟩ (ch :: cs) d

/-- One cursor comes from the other by reading on. -/
def Reaches (c d : Cursor) : Prop := ∃ cs, c.Reads cs d

namespace Reads

variable {c d e : Cursor} {cs ds : List Char}

theorem append (hcd : c.Reads cs d) (hde : d.Reads ds e) : c.Reads (cs ++ ds) e := by
  induction hcd with
  | nil => exact hde
  | cons _ ih => exact .cons (ih hde)

/-- What is left to read is the text in between and then what is left after it. -/
theorem rest_eq (hcd : c.Reads cs d) : c.rest = cs ++ d.rest := by
  induction hcd with
  | nil => rfl
  | cons _ ih => simpa using ih

theorem offset_eq (hcd : c.Reads cs d) :
    d.position.offset = c.position.offset + byteLength cs := by
  induction hcd with
  | nil => rfl
  | @cons ch rest cs position d _ ih =>
      have hafter : (position.after ch rest.head?).offset = position.offset + ch.utf8Size := by
        unfold Position.after
        dsimp only
        split <;> rfl
      simp only [hafter] at ih
      simp only [byteLength_cons]
      omega

theorem takeBytes_byteLength (cs rest : List Char) :
    takeBytes (byteLength cs) (cs ++ rest) = cs := by
  induction cs with
  | nil => cases rest <;> simp [takeBytes]
  | cons c cs ih =>
      have hpos : byteLength (c :: cs) ≠ 0 := 
        Nat.ne_of_gt (byteLength_pos (List.cons_ne_nil c cs))
      rw [List.cons_append, takeBytes, if_neg hpos, byteLength_cons, Nat.add_sub_cancel_left, ih]

/-- The text between two cursors is the text that was read. -/
theorem charsTo_eq (hcd : c.Reads cs d) : c.charsTo d = cs := by
  rw [charsTo, hcd.offset_eq, Nat.add_sub_cancel_left, hcd.rest_eq, takeBytes_byteLength]

end Reads

theorem reads_advance {c : Cursor} {ch : Char} (hch : c.peek? = some ch) :
    c.Reads [ch] c.advance := by
  obtain ⟨rest, position⟩ := c
  cases rest with
  | nil => simp [peek?] at hch
  | cons x rest =>
      have hx : x = ch := by simpa [peek?] using hch
      subst hx
      exact .cons (.nil _)

theorem reads_advance_cons {c : Cursor} {ch : Char} {rest : List Char}
    (hrest : c.rest = ch :: rest) : c.Reads [ch] c.advance :=
  reads_advance (by simp [peek?, hrest])

theorem rest_advance {c : Cursor} {ch : Char} {rest : List Char} (hrest : c.rest = ch :: rest) :
    c.advance.rest = rest := by
  simpa [hrest] using (reads_advance_cons hrest).rest_eq.symm

/-- The text that is passed over by `skipWhile`. -/
theorem reads_skipWhile (p : Char → Bool) (c : Cursor) :
    c.Reads (c.rest.takeWhile p) (c.skipWhile p) := by
  suffices h : ∀ cs position,
      Reads ⟨cs, position⟩ (cs.takeWhile p) (skipWhile.go p cs position) from
    h c.rest c.position
  intro cs
  induction cs with
  | nil => exact fun position => .nil _
  | cons ch cs ih =>
      intro position
      unfold skipWhile.go
      by_cases hch : p ch
      · rw [if_pos hch, List.takeWhile_cons_of_pos hch]
        exact .cons (ih _)
      · rw [if_neg hch, List.takeWhile_cons_of_neg hch]
        exact .nil _

theorem rest_skipWhile (p : Char → Bool) (c : Cursor) :
    (c.skipWhile p).rest = c.rest.dropWhile p := by
  have hread := (reads_skipWhile p c).rest_eq
  have hsplit : c.rest.takeWhile p ++ c.rest.dropWhile p = c.rest :=
    List.takeWhile_append_dropWhile
  exact (List.append_cancel_left (hsplit.trans hread)).symm

/-! ## Reaching -/

theorem Reads.reaches {c d : Cursor} {cs : List Char} (hcd : c.Reads cs d) : c.Reaches d :=
  ⟨cs, hcd⟩

namespace Reaches

variable {c d e : Cursor}

theorem refl (c : Cursor) : c.Reaches c := ⟨[], .nil c⟩

theorem trans (hcd : c.Reaches d) (hde : d.Reaches e) : c.Reaches e := by
  obtain ⟨cs, hcs⟩ := hcd
  obtain ⟨ds, hds⟩ := hde
  exact ⟨cs ++ ds, hcs.append hds⟩

theorem offset_le (hcd : c.Reaches d) : c.position.offset ≤ d.position.offset := by
  obtain ⟨cs, hcs⟩ := hcd
  have := hcs.offset_eq
  omega

end Reaches

theorem reaches_advance (c : Cursor) : c.Reaches c.advance := by
  cases hrest : c.rest with
  | nil =>
      have hsame : c.advance = c := by simp [advance, hrest]
      rw [hsame]
      exact .refl c
  | cons ch rest => exact (reads_advance_cons hrest).reaches

theorem reaches_accept? {c d : Cursor} {expected : Char} (hd : c.accept? expected = some d) :
    c.Reaches d := by
  unfold accept? at hd
  split at hd
  · cases hd
    exact c.reaches_advance
  · cases hd

theorem reaches_skip (expected : Char) (c : Cursor) : c.Reaches (c.skip expected) := by
  unfold skip
  cases hd : c.accept? expected with
  | none => exact .refl c
  | some d => exact reaches_accept? hd

theorem reaches_skipWhile (p : Char → Bool) (c : Cursor) : c.Reaches (c.skipWhile p) :=
  (reads_skipWhile p c).reaches

end Cursor

end ScriptLint

/-! ## Extents of tokens

Every scanner goes forward from the place where it starts, whatever it meets on its way: escapes
that fail, literals that are never closed, names glued to numbers. A token at a character therefore
takes at least that character, and its spelling is the text that it takes. Reading a token again
keeps its first character and its place.
-/

namespace ScriptLint

namespace Cursor

theorem reaches_digitsUpTo (radix count value : Nat) (c : Cursor) :
    c.Reaches (digitsUpTo radix count value c).2.2 := by
  induction count generalizing value c with
  | zero => exact .refl c
  | succ count ih =>
      unfold digitsUpTo
      split
      · exact .refl c
      · exact c.reaches_advance.trans (ih _ _)

theorem reaches_digits? (radix count : Nat) (c : Cursor) : c.Reaches (c.digits? radix count).2 :=
  reaches_digitsUpTo radix count 0 c

theorem reaches_unicodeEscape (c : Cursor) : c.Reaches c.unicodeEscape.2 := by
  unfold unicodeEscape
  split
  · exact c.reaches_digits? 16 4
  next d hd =>
    have hdigits : c.Reaches (d.skipWhile (Character.isDigitOf 16)) :=
      (reaches_accept? hd).trans (d.reaches_skipWhile _)
    dsimp only
    split
    · exact hdigits
    · split
      · exact hdigits
      next hclose => exact hdigits.trans (reaches_accept? hclose)

theorem reaches_skipLineEnd (c : Cursor) : c.Reaches c.skipLineEnd := by
  unfold skipLineEnd
  split
  · exact c.reaches_advance.trans (c.advance.reaches_skip '\n')
  · exact c.reaches_advance

theorem reaches_skipChars (n : Nat) (c : Cursor) : c.Reaches (Token.skipChars n c) := by
  induction n generalizing c with
  | zero => exact .refl c
  | succ n ih => exact c.reaches_advance.trans (ih c.advance)

end Cursor

open Cursor

theorem Escape.reaches_ofChar (inTemplate : Bool) (ch : Char) (after : Cursor) :
    after.Reaches (ofChar inTemplate ch after).stop := by
  unfold ofChar
  split
  · exact .refl after
  · split
    · exact .refl after
    · split
      · split
        · exact .refl after
        · split
          · exact .refl after
          · exact reaches_digitsUpTo _ _ _ _
      · split
        · exact after.reaches_digits? 16 2
        · split
          · exact after.reaches_unicodeEscape
          · exact .refl after

theorem Escape.reaches_read (inTemplate : Bool) (c : Cursor) :
    c.Reaches (read inTemplate c).stop := by
  unfold read
  split
  · exact .refl c
  · exact c.reaches_advance.trans (reaches_ofChar _ _ _)

/-! ## Names -/

namespace NameScan

theorem reaches_escape (s : NameScan) : s.stop.advance.Reaches s.escape.stop := by
  unfold escape
  dsimp only
  cases hu : s.stop.advance.accept? 'u' with
  | none =>
      dsimp only
      split <;> exact .refl _
  | some c =>
      dsimp only
      split <;> exact (reaches_accept? hu).trans c.reaches_unicodeEscape

theorem reaches_finish (s : NameScan) : s.stop.Reaches s.finish.stop := by
  fun_induction finish s with
  | case1 => exact .refl _
  | case2 s _ ih => exact s.stop.reaches_advance.trans (s.reaches_escape.trans ih)
  | case3 s _ _ _ _ ih => exact s.stop.reaches_advance.trans ih
  | case4 => exact .refl _

/-- A name takes the character at which it starts, if that begins a name. -/
theorem reaches_finish_of_start {c : Cursor} {ch : Char} (hch : c.peek? = some ch)
    (hstart : ch = '\\' ∨ Character.isIdStart ch) :
    c.advance.Reaches (finish { stop := c }).stop := by
  unfold finish
  split
  next hnone => rw [hch] at hnone; cases hnone
  next x hx =>
    obtain rfl : ch = x := Option.some.inj (hch.symm.trans hx)
    -- A name may begin with an escape, which is taken whether it is right or not.
    by_cases hslash : ch = '\\'
    · rw [if_pos hslash]
      exact (reaches_escape { stop := c }).trans (reaches_finish _)
    · have hadmits : admits { stop := c } ch = true := by
        simpa [admits, Character.isIdPart] using hstart.resolve_left hslash
      rw [if_neg hslash, if_pos hadmits]
      exact reaches_finish { reversed := [ch], stop := c.advance }

end NameScan

/-! ## Strings and templates -/

/-- The cursor behind a backslash and what it takes in a string or a template. -/
def Cursor.behindBackslash (inTemplate : Bool) (c : Cursor) : Cursor :=
  match c.advance.peek? with
  | none => c.advance
  | some ch =>
    if Character.isLineTerminator ch then c.advance.skipLineEnd
    else (Escape.read inTemplate c.advance).stop

theorem Cursor.reaches_behindBackslash (inTemplate : Bool) (c : Cursor) :
    c.advance.Reaches (c.behindBackslash inTemplate) := by
  unfold behindBackslash
  split
  · exact .refl _
  · split
    · exact c.advance.reaches_skipLineEnd
    · exact Escape.reaches_read inTemplate _

namespace StringScan

theorem stop_escape (s : StringScan) : s.escape.stop = s.stop.behindBackslash false := by
  unfold escape Cursor.behindBackslash
  dsimp only
  cases s.stop.advance.peek? with
  | none => rfl
  | some ch =>
      dsimp only
      split
      · rfl
      · split <;> rfl

theorem reaches_escape (s : StringScan) : s.stop.advance.Reaches s.escape.stop :=
  s.stop_escape ▸ s.stop.reaches_behindBackslash false

theorem reaches_finish (quote : Char) (start : Position) (s : StringScan) :
    s.stop.Reaches (s.finish quote start).stop := by
  fun_induction finish quote start s with
  | case1 => exact .refl _
  | case2 => exact .refl _
  | case3 s => exact s.stop.reaches_advance
  | case4 s _ _ _ ih => exact s.stop.reaches_advance.trans (s.reaches_escape.trans ih)
  | case5 s _ _ _ _ _ ih => exact s.stop.reaches_advance.trans ih

end StringScan

namespace TemplateScan

theorem stop_escape (s : TemplateScan) : s.escape.stop = s.stop.behindBackslash true := by
  unfold escape Cursor.behindBackslash
  dsimp only
  cases s.stop.advance.peek? with
  | none => rfl
  | some ch =>
      dsimp only
      split <;> rfl

theorem reaches_escape (s : TemplateScan) : s.stop.advance.Reaches s.escape.stop :=
  s.stop_escape ▸ s.stop.reaches_behindBackslash true

theorem reaches_finish (start : Position) (s : TemplateScan) :
    s.stop.Reaches (s.finish start).stop := by
  fun_induction finish start s with
  | case1 => exact .refl _
  | case2 s => exact s.stop.reaches_advance
  | case3 s => exact s.stop.reaches_advance.trans (reaches_advance _)
  | case4 s _ _ _ ih => exact s.stop.reaches_advance.trans (s.reaches_escape.trans ih)
  | case5 s _ _ _ _ _ ih => exact s.stop.reaches_advance.trans ih

end TemplateScan

/-! ## Regular expressions -/

namespace PatternScan

theorem reaches_escape (s : PatternScan) : s.stop.advance.Reaches s.escape.stop := by
  unfold escape take
  dsimp only
  split
  · split
    · exact .refl _
    · exact reaches_advance _
  · exact .refl _

theorem reaches_finish (s : PatternScan) : s.stop.Reaches s.finish.stop := by
  fun_induction finish s with
  | case1 => exact .refl _
  | case2 => exact .refl _
  | case3 s _ _ ih => exact s.stop.reaches_advance.trans (s.reaches_escape.trans ih)
  | case4 s => exact s.stop.reaches_advance
  | case5 s _ _ _ _ _ _ ih => exact s.stop.reaches_advance.trans ih

end PatternScan

/-! ## Numbers -/

theorem Character.isDigitOf_ten {ch : Char} (hdigit : ch.isDigit) : isDigitOf 10 ch := by
  have hlt : ch.toNat - '0'.toNat < 10 := by
    simp only [Char.isDigit, Bool.and_eq_true, decide_eq_true_eq, UInt32.le_iff_toNat_le] at hdigit
    have hnine : ch.toNat ≤ 57 := hdigit.2
    have hzero : '0'.toNat = 48 := rfl
    omega
  simp only [isDigitOf, digitValue?, if_pos hdigit, Option.filter, hlt, decide_true,
    Option.isSome_some, if_true]

/-- A run that begins with a character of its kind takes that character. -/
theorem Cursor.reaches_skipWhile_of_peek {p : Char → Bool} {c : Cursor} {ch : Char}
    (hch : c.peek? = some ch) (hp : p ch) : c.advance.Reaches (c.skipWhile p) := by
  obtain ⟨rest, position⟩ := c
  cases rest with
  | nil => simp [peek?] at hch
  | cons x rest =>
      obtain rfl : x = ch := by simpa [peek?] using hch
      have hgo : skipWhile p ⟨x :: rest, position⟩ =
          skipWhile p ⟨rest, position.after x rest.head?⟩ := by
        simp [skipWhile, skipWhile.go, hp]
      rw [hgo]
      exact reaches_skipWhile p _

theorem Cursor.skipWhile_of_peek {p : Char → Bool} {c : Cursor} {ch : Char}
    (hch : c.peek? = some ch) (hp : p ch = false) : c.skipWhile p = c := by
  obtain ⟨rest, position⟩ := c
  cases rest with
  | nil => simp [peek?] at hch
  | cons x rest =>
      obtain rfl : x = ch := by simpa [peek?] using hch
      simp [skipWhile, skipWhile.go, hp]

namespace DecimalTail

theorem reaches_readExponent (c : Cursor) : c.Reaches (readExponent c).2.stop := by
  refine c.reaches_advance.trans ?_
  unfold readExponent
  dsimp only
  split
  · exact (reaches_advance _).trans (reaches_skipWhile _ _)
  · exact (reaches_advance _).trans (reaches_skipWhile _ _)
  · exact reaches_skipWhile _ _

/-- The cursor after the fraction, if there is one. -/
theorem reaches_fraction (c : Cursor) :
    c.Reaches (((c.accept? '.').map (DigitRun.read 10)).elim c (·.stop)) := by
  cases hpoint : c.accept? '.' with
  | none => exact .refl c
  | some d => exact (reaches_accept? hpoint).trans (reaches_skipWhile _ d)

theorem reaches_exponent (c : Cursor) (p : Prop) [Decidable p] :
    c.Reaches ((if p then some (readExponent c) else none).elim c (·.2.stop)) := by
  split
  · exact reaches_readExponent c
  · exact .refl c

theorem reaches_read (c : Cursor) : c.Reaches (read c).stop :=
  (reaches_fraction c).trans (reaches_exponent _ _)

/-- A tail takes the decimal point before it. -/
theorem reaches_read_of_point {c : Cursor} (hpoint : c.peek? = some '.') :
    c.advance.Reaches (read c).stop := by
  have haccept : c.accept? '.' = some c.advance := by rw [Cursor.accept?, if_pos hpoint]
  have hfraction : c.advance.Reaches
      (((c.accept? '.').map (DigitRun.read 10)).elim c (·.stop)) := by
    rw [haccept]
    exact reaches_skipWhile _ _
  exact hfraction.trans (reaches_exponent _ _)

end DecimalTail

namespace Numeral

variable {c : Cursor} {ch : Char}

theorem reaches_readRadix (radix : Nat) (c : Cursor) :
    c.advance.Reaches (readRadix radix c).stop :=
  ((reaches_advance _).trans (reaches_skipWhile _ _)).trans (reaches_skip 'n' _)

theorem reaches_readZero (hzero : c.peek? = some '0') : c.advance.Reaches (readZero c).stop := by
  have hdigits : c.advance.Reaches (c.skipWhile fun ch => ch = '_' || ch.isDigit) :=
    reaches_skipWhile_of_peek hzero (by decide)
  unfold readZero
  dsimp only
  split
  · exact hdigits
  · exact hdigits.trans (DecimalTail.reaches_read _)

/-- The whole part and what follows it take the first character of a number. -/
theorem reaches_wholeAndTail (hch : c.peek? = some ch) (hstart : ch.isDigit ∨ ch = '.') :
    c.advance.Reaches (DecimalTail.read (DigitRun.read 10 c).stop).stop := by
  rcases hstart with hdigit | rfl
  -- A digit is taken by the whole part, a point by the tail.
  · have hwhole : c.advance.Reaches (DigitRun.read 10 c).stop :=
      reaches_skipWhile_of_peek hch (by simp [Character.isDigitOf_ten hdigit])
    exact hwhole.trans (DecimalTail.reaches_read _)
  · have hwhole : (DigitRun.read 10 c).stop = c := skipWhile_of_peek hch (by decide)
    rw [hwhole]
    exact DecimalTail.reaches_read_of_point hch

theorem reaches_readDecimal (hch : c.peek? = some ch) (hstart : ch.isDigit ∨ ch = '.') :
    c.advance.Reaches (readDecimal c).stop := by
  have hread := reaches_wholeAndTail hch hstart
  unfold readDecimal
  dsimp only
  split
  next stop hstop =>
    split at hstop
    · cases hstop
    · exact hread.trans (reaches_accept? hstop)
  · exact hread

theorem reaches_read (hch : c.peek? = some ch) (hstart : ch.isDigit ∨ ch = '.') :
    c.advance.Reaches (read c).stop := by
  unfold read
  split
  · exact reaches_readRadix _ c
  · split
    next hzero => exact reaches_readZero hzero.1
    · exact reaches_readDecimal hch hstart

theorem reaches_glue (n : Numeral) : n.stop.Reaches n.glue.stop := by
  unfold glue
  split
  · exact reaches_skipWhile _ _
  · exact .refl _

/-- A number has a value of one of the two kinds. -/
theorem lexeme_glue_read (c : Cursor) :
    (∃ value, (read c).glue.lexeme = .number value) ∨
      ∃ value, (read c).glue.lexeme = .bigint value := by
  have hglue : (read c).glue.lexeme = (read c).lexeme := by
    unfold glue
    split <;> rfl
  rw [hglue]
  unfold read
  split
  · unfold readRadix
    dsimp only
    split
    · exact .inr ⟨_, rfl⟩
    · exact .inl ⟨_, rfl⟩
  · split
    · unfold readZero
      dsimp only
      split <;> exact .inl ⟨_, rfl⟩
    · unfold readDecimal
      dsimp only
      split
      · exact .inr ⟨_, rfl⟩
      · exact .inl ⟨_, rfl⟩

end Numeral

/-! ## Tokens -/

namespace Token

/-- The token takes the text `cs` and is spelled by it. -/
structure Covers (t : Token) (cs : List Char) : Prop where
  reads : t.start.Reads cs t.stop
  raw_eq : t.raw = String.ofList cs

/-- The token stands at `c` and takes at least the character there. -/
structure Begins (t : Token) (c : Cursor) : Prop where
  start_eq : t.start = c
  covers : ∃ ch cs, t.Covers (ch :: cs)
  isEnd_eq : t.isEnd = false

variable {c : Cursor} {ch : Char}

theorem between_begins {lexeme : Lexeme} {stop : Cursor} (flags : TokenFlags)
    (issues : List LexicalIssue) (hch : c.peek? = some ch) (hstop : c.advance.Reaches stop)
    (hend : lexeme ≠ .endOfInput) : (between lexeme c stop flags issues).Begins c := by
  obtain ⟨cs, hcs⟩ := hstop
  have hreads : c.Reads (ch :: cs) stop := (reads_advance hch).append hcs
  refine ⟨rfl, ⟨ch, cs, hreads, ?_⟩, ?_⟩
  · exact congrArg String.ofList hreads.charsTo_eq
  · cases lexeme <;> first | rfl | exact absurd rfl hend

theorem scanString_begins (quote : Char) (hch : c.peek? = some ch) :
    (scanString quote c).Begins c :=
  between_begins _ _ hch (StringScan.reaches_finish quote c.position { stop := c.advance })
    Lexeme.noConfusion

theorem scanTemplate_begins (opening : Bool) (hch : c.peek? = some ch) :
    (scanTemplate opening c).Begins c :=
  between_begins _ _ hch (TemplateScan.reaches_finish c.position { stop := c.advance })
    Lexeme.noConfusion

theorem scanNumber_begins (hch : c.peek? = some ch) (hstart : ch.isDigit ∨ ch = '.') :
    (scanNumber c).Begins c := by
  have hstop : c.advance.Reaches (Numeral.read c).glue.stop :=
    (Numeral.reaches_read hch hstart).trans (Numeral.reaches_glue _)
  refine between_begins _ _ hch hstop ?_
  rcases Numeral.lexeme_glue_read c with ⟨value, hvalue⟩ | ⟨value, hvalue⟩ <;>
    rw [hvalue] <;> exact Lexeme.noConfusion

theorem scanPrivateName_begins (hch : c.peek? = some ch) : (scanPrivateName c).Begins c :=
  between_begins _ _ hch (NameScan.reaches_finish { stop := c.advance }) Lexeme.noConfusion

theorem scanName_begins (hch : c.peek? = some ch) (hstart : ch = '\\' ∨ Character.isIdStart ch) :
    (scanName c).Begins c := by
  refine between_begins _ _ hch (NameScan.reaches_finish_of_start hch hstart) ?_
  unfold NameScan.lexeme
  split
  · exact Lexeme.noConfusion
  · split <;> exact Lexeme.noConfusion

theorem punctuatorLength_pos (text : List Char) : 0 < punctuatorLength text := by
  unfold punctuatorLength
  cases hfound : longPunctuators.find? (punctuatorFits · text) with
  | none => exact Nat.one_pos
  | some spelling =>
      have hall : ∀ spelling ∈ longPunctuators, 0 < spelling.length := by decide
      exact hall spelling (List.mem_of_find?_eq_some hfound)

theorem scanPunctuator_begins (hch : c.peek? = some ch) : (scanPunctuator c).Begins c := by
  refine between_begins _ _ hch ?_ Lexeme.noConfusion
  obtain ⟨n, hn⟩ := Nat.exists_eq_succ_of_ne_zero (Nat.ne_of_gt (punctuatorLength_pos c.rest))
  rw [hn]
  exact reaches_skipChars n c.advance

/-- Where there is a character, a token begins with it. -/
theorem scan_begins (hch : c.peek? = some ch) : (scan c).Begins c := by
  unfold scan
  split
  next hnone => rw [hch] at hnone; cases hnone
  next x hx =>
    obtain rfl : ch = x := Option.some.inj (hch.symm.trans hx)
    split
    · exact scanString_begins ch hch
    · split
      · exact scanTemplate_begins true hch
      · split
        next hnumber => exact scanNumber_begins hch (hnumber.imp_right And.left)
        · split
          · exact scanPrivateName_begins hch
          · split
            next hname => exact scanName_begins hch hname
            · exact scanPunctuator_begins hch

/-- Where the text ends, there is the token of the end, and nothing else has an end. -/
theorem scan_of_rest_eq_nil (hrest : c.rest = []) :
    scan c = between .endOfInput c c {} [] := by
  simp [scan, peek?, hrest]

/-! ## Reading again -/

theorem rescanTemplate_begins {t : Token} (hch : t.start.peek? = some ch) :
    t.rescanTemplate.Begins t.start := by
  obtain ⟨hstart, ⟨x, cs, hcovers⟩, hend⟩ := scanTemplate_begins false hch
  exact ⟨hstart, ⟨x, cs, hcovers.reads, hcovers.raw_eq⟩, hend⟩

theorem rescanRegexp_begins {t : Token} (hch : t.start.peek? = some ch) :
    t.rescanRegexp.Begins t.start := by
  have hbody := PatternScan.reaches_finish { stop := t.start.advance }
  have hstop : t.start.advance.Reaches t.rescanRegexp.stop := by
    unfold rescanRegexp
    dsimp only [between]
    split
    · exact hbody.trans (reaches_skipWhile _ _)
    · exact hbody
  have hlexeme : t.rescanRegexp.lexeme ≠ .endOfInput := Lexeme.noConfusion
  obtain ⟨_, ⟨x, cs, hcovers⟩, _⟩ := between_begins t.flags [] hch hstop hlexeme
  exact ⟨rfl, ⟨x, cs, hcovers.reads, hcovers.raw_eq⟩, rfl⟩

end Token

end ScriptLint
