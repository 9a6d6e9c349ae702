import Mathlib.Data.List.Induction
import Mathlib.Data.List.TakeWhile
import Mathlib.Data.Nat.Digits.Defs
import ScriptLint.Proofs.Lexing.Extent

/-! # The grammar of numbers

The numeric literals of the language as a grammar, and what of it the parts of a number keep that is
read: runs of digits, fractions and exponents. Each part takes as many characters as it can, whether
they are in their place or not, and tells whether the grammar derives them. In the other direction a
part of the grammar need not be all that is taken, for more of its characters may follow; it is if
nothing of what follows is taken in the end.
-/

namespace ScriptLint

open Character (digitValue? isDigitOf)

/-- The digits of a radix denote a number, the most significant digit first. -/
def Denotes (radix : Nat) (digits : List Char) (n : Nat) : Prop :=
  ∃ values, List.Forall₂ (fun ch value => digitValue? radix ch = some value) digits values ∧
    n = Nat.ofDigits radix values.reverse

theorem digitsValue_eq_ofDigits (radix : Nat) (values : List Nat) :
    digitsValue radix values = Nat.ofDigits radix values.reverse := by
  induction values using List.reverseRecOn with
  | nil => rfl
  | append_singleton values value ih =>
      have hlast : digitsValue radix (values ++ [value]) =
          digitsValue radix values * radix + value := by
        simp [digitsValue]
      simp [hlast, ih, Nat.ofDigits_cons, Nat.add_comm, Nat.mul_comm]

namespace Cursor

variable {c d : Cursor} {cs : List Char}

/-- What is left of a text cannot grow by reading on. -/
theorem Reads.eq_nil_of_suffix (hreads : c.Reads cs d) (hsuffix : c.rest <:+ d.rest) : cs = [] := by
  have hlength := hsuffix.length_le
  rw [hreads.rest_eq, List.length_append] at hlength
  exact List.length_eq_zero_iff.mp (by omega)

theorem Reaches.suffix (hreaches : c.Reaches d) : d.rest <:+ c.rest := by
  obtain ⟨cs, hreads⟩ := hreaches
  exact ⟨cs, hreads.rest_eq.symm⟩

end Cursor

/-! ## The grammar -/

namespace Numeral

/-- Digits of a radix, at least one of them. A separator may stand between two digits. -/
inductive Digits (radix : Nat) : List Char → Prop
  | single {ch : Char} : isDigitOf radix ch → Digits radix [ch]
  | digit {ch : Char} {cs : List Char} :
      isDigitOf radix ch → Digits radix cs → Digits radix (ch :: cs)
  | separated {ch : Char} {cs : List Char} :
      isDigitOf radix ch → Digits radix cs → Digits radix (ch :: '_' :: cs)

/-- A decimal integer without a superfluous zero in front. -/
inductive PlainInteger : List Char → Prop
  | zero : PlainInteger ['0']
  | nonzero {ch : Char} {cs : List Char} :
      ch ≠ '0' → Digits 10 (ch :: cs) → PlainInteger (ch :: cs)

/-- A decimal integer with a superfluous zero in front. Not all of its digits are octal. -/
structure ZeroPrefixed (cs : List Char) : Prop where
  head?_eq : cs.head? = some '0'
  digits : ∀ ch ∈ cs, ch.isDigit
  not_octal : ¬ ∀ ch ∈ cs, isDigitOf 8 ch

/-- A decimal point with the digits after it, which may be missing. -/
inductive Fraction : List Char → Prop
  | point : Fraction ['.']
  | digits {cs : List Char} : Digits 10 cs → Fraction ('.' :: cs)

inductive Exponent : List Char → Prop
  | mk {letter : Char} {sign cs : List Char} : letter = 'e' ∨ letter = 'E' →
      sign ∈ [[], ['+'], ['-']] → Digits 10 cs → Exponent (letter :: (sign ++ cs))

/-- The part of a literal is as it should be, or it is missing. -/
def Optional (part : List Char → Prop) (cs : List Char) : Prop := cs = [] ∨ part cs

/-- The letters that name a radix after a zero. -/
def radixLetters : List (Char × Nat) :=
  [('x', 16), ('X', 16), ('o', 8), ('O', 8), ('b', 2), ('B', 2)]

/-- The big integers with their values. -/
inductive BigInteger : List Char → Nat → Prop
  | decimal {cs : List Char} {n : Nat} : PlainInteger cs → Denotes 10 (cs.filter (· ≠ '_')) n →
      BigInteger (cs ++ ['n']) n
  | radix {letter : Char} {radix : Nat} {cs : List Char} {n : Nat} :
      (letter, radix) ∈ radixLetters → Digits radix cs → Denotes radix (cs.filter (· ≠ '_')) n →
      BigInteger ('0' :: letter :: (cs ++ ['n'])) n

/-- The numeric literals of the edition of 2021. -/
inductive Literal : List Char → Prop
  | decimal {whole fraction exponent : List Char} : PlainInteger whole ∨ ZeroPrefixed whole →
      Optional Fraction fraction → Optional Exponent exponent →
      Literal (whole ++ (fraction ++ exponent))
  | point {cs exponent : List Char} : Digits 10 cs → Optional Exponent exponent →
      Literal ('.' :: cs ++ exponent)
  | radix {letter : Char} {radix : Nat} {cs : List Char} : (letter, radix) ∈ radixLetters →
      Digits radix cs → Literal ('0' :: letter :: cs)
  | legacyOctal {cs : List Char} : cs ≠ [] → (∀ ch ∈ cs, isDigitOf 8 ch) → Literal ('0' :: cs)
  | big {cs : List Char} {n : Nat} : BigInteger cs n → Literal cs

/-! ## Runs of digits -/

/-- The characters that belong to a run of digits, whether they are in their place or not. -/
def inRun (radix : Nat) (ch : Char) : Bool := ch = '_' || isDigitOf radix ch

variable {radix : Nat} {cs : List Char}

theorem not_isDigitOf_separator (radix : Nat) : isDigitOf radix '_' = false := by
  have hnone : digitValue? radix '_' = none := by
    unfold digitValue?
    rfl
  rw [isDigitOf, hnone]
  rfl

theorem ne_separator {ch : Char} (hch : isDigitOf radix ch) : ch ≠ '_' := by
  rintro rfl
  rw [not_isDigitOf_separator] at hch
  cases hch

namespace Digits

theorem exists_cons (h : Digits radix cs) : ∃ ch rest, cs = ch :: rest ∧ isDigitOf radix ch := by
  cases h with
  | single hch => exact ⟨_, _, rfl, hch⟩
  | digit hch => exact ⟨_, _, rfl, hch⟩
  | separated hch => exact ⟨_, _, rfl, hch⟩

theorem inRun (h : Digits radix cs) : ∀ ch ∈ cs, inRun radix ch := by
  induction h with
  | single hch => simp [Numeral.inRun, hch]
  | digit hch _ ih => simpa [Numeral.inRun, hch] using ih
  | separated hch _ ih => simpa [Numeral.inRun, hch] using ih

end Digits

theorem separatorsBetween_cons {a b : Char} (ha : a ≠ '_') (hb : b ≠ '_') (cs : List Char) :
    separatorsBetween (a :: b :: cs) = separatorsBetween (b :: cs) := by
  apply Bool.eq_iff_iff.mpr
  simp [separatorsBetween, ha, hb]

theorem separatorsBetween_separator {a : Char} (ha : a ≠ '_') (b : Char) (cs : List Char) :
    separatorsBetween (a :: '_' :: b :: cs) = separatorsBetween (b :: cs) := by
  apply Bool.eq_iff_iff.mpr
  simp [separatorsBetween, ha]
  grind

theorem digits_of_separatorsBetween : ∀ {cs : List Char}, cs ≠ [] → (∀ ch ∈ cs, inRun radix ch) →
    separatorsBetween cs = true → Digits radix cs
  | [], hne, _, _ => absurd rfl hne
  | [a], _, hcs, h => by
      have ha : a ≠ '_' := by
        rintro rfl
        cases h
      exact .single (by simpa [inRun, ha] using hcs a List.mem_cons_self)
  | a :: b :: rest, _, hcs, h => by
      have ha : a ≠ '_' := by
        rintro rfl
        simp [separatorsBetween] at h
      have hdigit : isDigitOf radix a := by simpa [inRun, ha] using hcs a List.mem_cons_self
      have hrest : ∀ ch ∈ b :: rest, inRun radix ch := fun ch hch =>
        hcs ch (List.mem_cons_of_mem a hch)
      by_cases hb : b = '_'
      · subst hb
        cases rest with
        | nil => simp [separatorsBetween] at h
        | cons next rest =>
            rw [separatorsBetween_separator ha] at h
            refine .separated hdigit (digits_of_separatorsBetween (List.cons_ne_nil next rest) ?_ h)
            exact fun ch hch => hrest ch (List.mem_cons_of_mem '_' hch)
      · rw [separatorsBetween_cons ha hb] at h
        exact .digit hdigit (digits_of_separatorsBetween (List.cons_ne_nil b rest) hrest h)

theorem Digits.separatorsBetween (h : Digits radix cs) : separatorsBetween cs = true := by
  induction h with
  | single hch => simp [ScriptLint.separatorsBetween, ne_separator hch]
  | digit hch h ih =>
      obtain ⟨next, rest, rfl, hnext⟩ := h.exists_cons
      rw [separatorsBetween_cons (ne_separator hch) (ne_separator hnext)]
      exact ih
  | separated hch h ih =>
      obtain ⟨next, rest, rfl, -⟩ := h.exists_cons
      rw [separatorsBetween_separator (ne_separator hch)]
      exact ih

end Numeral

namespace DigitRun

open Numeral (inRun Digits)

variable {radix : Nat} {c : Cursor} {cs rest : List Char}

/-- The text that a run of digits takes. -/
def text (radix : Nat) (c : Cursor) : List Char := c.rest.takeWhile (inRun radix)

theorem inRun_of_mem_text : ∀ ch ∈ text radix c, inRun radix ch := fun _ hch =>
  List.mem_takeWhile_imp hch

theorem reads_read (radix : Nat) (c : Cursor) : c.Reads (text radix c) (read radix c).stop :=
  c.reads_skipWhile (inRun radix)

theorem digits_read (radix : Nat) (c : Cursor) :
    (read radix c).digits = (text radix c).filterMap (digitValue? radix) :=
  congrArg (List.filterMap _) (reads_read radix c).charsTo_eq

theorem wellFormed_read (radix : Nat) (c : Cursor) :
    (read radix c).wellFormed = separatorsBetween (text radix c) :=
  congrArg separatorsBetween (reads_read radix c).charsTo_eq

/-- Of a run nothing is wrong if it is empty or derived by the grammar. -/
theorem wellFormed_iff : (read radix c).wellFormed = true ↔
    text radix c = [] ∨ Digits radix (text radix c) := by
  rw [wellFormed_read]
  constructor
  · intro h
    by_cases hempty : text radix c = []
    · exact .inl hempty
    · exact .inr (Numeral.digits_of_separatorsBetween hempty inRun_of_mem_text h)
  · rintro (hempty | h)
    · rw [hempty]
      rfl
    · exact h.separatorsBetween

theorem digits_ne_nil (h : Digits radix (text radix c)) : (read radix c).digits ≠ [] := by
  obtain ⟨ch, rest, heq, hch⟩ := h.exists_cons
  obtain ⟨value, hvalue⟩ := Option.isSome_iff_exists.mp hch
  rw [digits_read, heq]
  exact List.ne_nil_of_mem (List.mem_filterMap.mpr ⟨ch, List.mem_cons_self, hvalue⟩)

/-- A run that has digits and of which nothing is wrong is derived by the grammar. -/
theorem sound_iff : (read radix c).digits.isEmpty = false ∧ (read radix c).wellFormed = true ↔
    Digits radix (text radix c) := by
  constructor
  · rintro ⟨hdigits, hformed⟩
    refine (wellFormed_iff.mp hformed).resolve_left fun hempty => ?_
    rw [digits_read, hempty] at hdigits
    cases hdigits
  · intro h
    exact ⟨by simpa using digits_ne_nil h, wellFormed_iff.mpr (.inr h)⟩

/-- The value of the digits of a run, once the separators are removed. -/
theorem denotes_read (radix : Nat) (c : Cursor) :
    Denotes radix ((text radix c).filter (· ≠ '_')) (digitsValue radix (read radix c).digits) := by
  refine ⟨_, ?_, digitsValue_eq_ofDigits radix _⟩
  rw [digits_read]
  have hrun : ∀ ch ∈ text radix c, inRun radix ch := inRun_of_mem_text
  generalize text radix c = cs at hrun
  induction cs with
  | nil => exact .nil
  | cons ch cs ih =>
      have hcs := ih fun x hx => hrun x (List.mem_cons_of_mem ch hx)
      by_cases hch : ch = '_'
      · subst hch
        have hnone : digitValue? radix '_' = none := by
          simpa [isDigitOf] using Numeral.not_isDigitOf_separator radix
        simpa [hnone] using hcs
      · have hdigit : isDigitOf radix ch := by
          simpa [inRun, hch] using hrun ch List.mem_cons_self
        obtain ⟨value, hvalue⟩ := Option.isSome_iff_exists.mp hdigit
        simpa [hch, hvalue] using hcs

/-- A run ends where no character of one follows. -/
theorem text_eq (hcs : ∀ ch ∈ cs, inRun radix ch) (hrest : rest.takeWhile (inRun radix) = [])
    (hc : c.rest = cs ++ rest) : text radix c = cs := by
  rw [text, hc, List.takeWhile_append_of_pos hcs, hrest, List.append_nil]

/-- If what is left in the end contains all that follows the digits, then they are the run. -/
theorem text_eq_of_suffix (hcs : ∀ ch ∈ cs, inRun radix ch) (hc : c.rest = cs ++ rest)
    (hrest : rest <:+ (read radix c).stop.rest) : text radix c = cs := by
  refine text_eq hcs ?_ hc
  have hstop : (read radix c).stop.rest = rest.dropWhile (inRun radix) := by
    have hdrop := c.rest_skipWhile (inRun radix)
    rwa [hc, List.dropWhile_append_of_pos hcs] at hdrop
  have hlength := (hstop ▸ hrest).length_le
  have hsplit := congrArg List.length
    (List.takeWhile_append_dropWhile (p := inRun radix) (l := rest))
  rw [List.length_append] at hsplit
  exact List.length_eq_zero_iff.mp (by omega)

theorem rest_stop (hcs : text radix c = cs) (hc : c.rest = cs ++ rest) :
    (read radix c).stop.rest = rest := by
  have hreads := (reads_read radix c).rest_eq
  rw [hcs, hc] at hreads
  exact (List.append_cancel_left hreads).symm

end DigitRun

/-! ## Fractions and exponents -/

namespace DecimalTail

open Numeral (inRun Digits Fraction Exponent Optional)

variable {c : Cursor} {fraction exponent after : List Char}

/-- The run of digits of an exponent comes behind its letter and its sign. -/
theorem exists_readExponent (c : Cursor) : ∃ sign ∈ [[], ['+'], ['-']], ∃ d,
    c.advance.Reads sign d ∧ (readExponent c).2 = DigitRun.read 10 d := by
  unfold readExponent
  dsimp only
  split
  next hsign => exact ⟨['-'], by simp, _, Cursor.reads_advance hsign, rfl⟩
  next hsign => exact ⟨['+'], by simp, _, Cursor.reads_advance hsign, rfl⟩
  · exact ⟨[], by simp, _, .nil _, rfl⟩

theorem readExponent_told {letter : Char} (hletter : letter = 'e' ∨ letter = 'E')
    (hpeek : c.peek? = some letter) : ∃ exponent ≠ [], c.Reads exponent (readExponent c).2.stop ∧
      ((readExponent c).2.digits.isEmpty = false ∧ (readExponent c).2.wellFormed = true →
        Exponent exponent) := by
  obtain ⟨sign, hsign, d, hreads, hrun⟩ := exists_readExponent c
  rw [hrun]
  refine ⟨letter :: (sign ++ DigitRun.text 10 d), List.cons_ne_nil _ _,
    (Cursor.reads_advance hpeek).append (hreads.append (DigitRun.reads_read 10 d)), fun h => ?_⟩
  exact .mk hletter hsign (DigitRun.sound_iff.mp h)

theorem readExponent_complete (h : Exponent exponent) (hc : c.rest = exponent ++ after)
    (hafter : after <:+ (readExponent c).2.stop.rest) :
    (readExponent c).2.stop.rest = after ∧ (readExponent c).2.digits.isEmpty = false ∧
      (readExponent c).2.wellFormed = true := by
  obtain ⟨-, hsign, hdigits⟩ := h
  next letter sign cs =>
    obtain ⟨d, hrun, hd⟩ : ∃ d, (readExponent c).2 = DigitRun.read 10 d ∧ d.rest = cs ++ after := by
      have hadvance : c.advance.rest = sign ++ (cs ++ after) :=
        Cursor.rest_advance (by simpa using hc)
      simp only [List.mem_cons, List.not_mem_nil, or_false] at hsign
      rcases hsign with rfl | rfl | rfl
      · obtain ⟨ch, rest, rfl, hch⟩ := hdigits.exists_cons
        have hpeek : c.advance.peek? = some ch := by simp [Cursor.peek?, hadvance]
        have hplus : ch ≠ '+' := by rintro rfl; cases hch
        have hminus : ch ≠ '-' := by rintro rfl; cases hch
        refine ⟨c.advance, ?_, hadvance⟩
        unfold readExponent
        dsimp only
        split
        next heq => exact absurd (Option.some.inj (hpeek.symm.trans heq)) hminus
        next heq => exact absurd (Option.some.inj (hpeek.symm.trans heq)) hplus
        · rfl
      · have hpeek : c.advance.peek? = some '+' := by simp [Cursor.peek?, hadvance]
        refine ⟨c.advance.advance, ?_, Cursor.rest_advance hadvance⟩
        simp [readExponent, hpeek]
      · have hpeek : c.advance.peek? = some '-' := by simp [Cursor.peek?, hadvance]
        refine ⟨c.advance.advance, ?_, Cursor.rest_advance hadvance⟩
        simp [readExponent, hpeek]
    rw [hrun] at hafter ⊢
    have htext := DigitRun.text_eq_of_suffix hdigits.inRun hd hafter
    exact ⟨DigitRun.rest_stop htext hd, DigitRun.sound_iff.mpr (htext ▸ hdigits)⟩

/-- The cursor after the fraction, if there is one. -/
def afterFraction (c : Cursor) : Cursor :=
  ((c.accept? '.').map (DigitRun.read 10)).elim c (·.stop)

theorem fraction_of_point (hpoint : c.peek? = some '.') :
    (read c).fraction? = some (DigitRun.read 10 c.advance) ∧
      afterFraction c = (DigitRun.read 10 c.advance).stop := by
  simp [read, afterFraction, Cursor.accept?, hpoint]

theorem fraction_of_no_point (hpoint : c.peek? ≠ some '.') :
    (read c).fraction? = none ∧ afterFraction c = c := by
  simp [read, afterFraction, Cursor.accept?, hpoint]

theorem exponent_of_letter {letter : Char} (hletter : letter = 'e' ∨ letter = 'E')
    (hpeek : (afterFraction c).peek? = some letter) :
    (read c).exponent? = some (readExponent (afterFraction c)) ∧
      (read c).stop = (readExponent (afterFraction c)).2.stop := by
  have hpeekIs : ((afterFraction c).peekIs fun ch => ch = 'e' || ch = 'E') = true := by
    simpa [Cursor.peekIs, hpeek] using hletter
  have hexponent : (read c).exponent? = some (readExponent (afterFraction c)) := if_pos hpeekIs
  have hstop : (read c).stop = (read c).exponent?.elim (afterFraction c) (·.2.stop) := rfl
  exact ⟨hexponent, by rw [hstop, hexponent]; rfl⟩

theorem exponent_of_no_letter
    (hpeek : ((afterFraction c).peekIs fun ch => ch = 'e' || ch = 'E') = false) :
    (read c).exponent? = none ∧ (read c).stop = afterFraction c := by
  have hexponent : (read c).exponent? = none := if_neg (Bool.eq_false_iff.mp hpeek)
  have hstop : (read c).stop = (read c).exponent?.elim (afterFraction c) (·.2.stop) := rfl
  exact ⟨hexponent, by rw [hstop, hexponent]; rfl⟩

theorem wellFormed_iff (t : DecimalTail) : t.wellFormed = true ↔
    (∀ run ∈ t.fraction?, run.wellFormed = true) ∧
      ∀ exponent ∈ t.exponent?, exponent.2.digits.isEmpty = false ∧
        exponent.2.wellFormed = true := by
  obtain ⟨fraction?, exponent?, stop⟩ := t
  cases fraction? <;> cases exponent? <;> simp [wellFormed, runs, and_assoc, and_comm]

/-- What is wrong with the fraction and the exponent is told, and both are there or nothing of
them. -/
theorem read_told (c : Cursor) : ∃ fraction exponent,
    c.Reads (fraction ++ exponent) (read c).stop ∧
      ((read c).wellFormed = true → Optional Fraction fraction ∧ Optional Exponent exponent) ∧
      ((read c).isPresent = false ↔ fraction ++ exponent = []) ∧
      (c.peek? = some '.' → fraction = '.' :: DigitRun.text 10 c.advance) := by
  obtain ⟨fraction, hreads, hformed, hnone, hpoint⟩ : ∃ fraction,
      c.Reads fraction (afterFraction c) ∧
        ((∀ run ∈ (read c).fraction?, run.wellFormed = true) → Optional Fraction fraction) ∧
      ((read c).fraction?.isSome = false ↔ fraction = []) ∧
      (c.peek? = some '.' → fraction = '.' :: DigitRun.text 10 c.advance) := by
    by_cases hpoint : c.peek? = some '.'
    · obtain ⟨hfraction, hstop⟩ := fraction_of_point hpoint
      refine ⟨'.' :: DigitRun.text 10 c.advance, ?_, fun h => .inr ?_, by simp [hfraction],
        fun _ => rfl⟩
      · rw [hstop]
        exact (Cursor.reads_advance hpoint).append (DigitRun.reads_read 10 _)
      · rcases DigitRun.wellFormed_iff.mp (h _ hfraction) with hempty | hdigits
        · rw [hempty]
          exact .point
        · exact .digits hdigits
    · obtain ⟨hfraction, hstop⟩ := fraction_of_no_point hpoint
      refine ⟨[], ?_, fun _ => .inl rfl, by simp [hfraction], fun h => absurd h hpoint⟩
      rw [hstop]
      exact .nil c
  have hletters := Bool.eq_false_or_eq_true
    ((afterFraction c).peekIs fun ch => ch = 'e' || ch = 'E')
  rcases hletters with hletter | hletter
  · obtain ⟨letter, hpeek, hletter⟩ : ∃ letter, (afterFraction c).peek? = some letter ∧
        (letter = 'e' ∨ letter = 'E') := by
      simpa [Cursor.peekIs, Option.any_eq_true] using hletter
    obtain ⟨hexponent, hstop⟩ := exponent_of_letter hletter hpeek
    obtain ⟨exponent, hne, hreads', hsound⟩ := readExponent_told hletter hpeek
    refine ⟨fraction, exponent, ?_, fun h => ?_, by simp [isPresent, hexponent, hne], hpoint⟩
    · rw [hstop]
      exact hreads.append hreads'
    · obtain ⟨hrun, hrun'⟩ := (wellFormed_iff _).mp h
      exact ⟨hformed hrun, .inr (hsound (hrun' _ hexponent))⟩
  · obtain ⟨hexponent, hstop⟩ := exponent_of_no_letter hletter
    refine ⟨fraction, [], ?_, fun h => ?_, ?_, hpoint⟩
    · rw [hstop, List.append_nil]
      exact hreads
    · exact ⟨hformed ((wellFormed_iff _).mp h).1, .inl rfl⟩
    · simp only [isPresent, hexponent, Option.isSome_none, Bool.or_false, List.append_nil]
      exact hnone

/-- The suffix of a big integer begins neither a fraction nor an exponent. -/
theorem read_of_suffix (hsuffix : c.peek? = some 'n') :
    (read c).isPresent = false ∧ (read c).wellFormed = true ∧ (read c).stop = c := by
  obtain ⟨hfraction, hafter⟩ := fraction_of_no_point (by simp [hsuffix] : c.peek? ≠ some '.')
  have hletter : ((afterFraction c).peekIs fun ch => ch = 'e' || ch = 'E') = false := by
    simp [hafter, Cursor.peekIs, hsuffix]
  obtain ⟨hexponent, hstop⟩ := exponent_of_no_letter hletter
  refine ⟨by simp [isPresent, hfraction, hexponent], ?_, hstop.trans hafter⟩
  exact (wellFormed_iff _).mpr ⟨by simp [hfraction], by simp [hexponent]⟩

/-- An exponent begins with its letter, so neither a run of digits nor a fraction begins there. -/
theorem exponent_cons (h : Exponent exponent) : ∃ letter rest, exponent = letter :: rest ∧
    (letter = 'e' ∨ letter = 'E') ∧ inRun 10 letter = false ∧ letter ≠ '.' := by
  obtain ⟨hletter, -, -⟩ := h
  refine ⟨_, _, rfl, hletter, ?_⟩
  rcases hletter with rfl | rfl <;> decide

theorem fraction_complete (hfraction : Optional Fraction fraction)
    (hexponent : Optional Exponent exponent) (hc : c.rest = fraction ++ (exponent ++ after))
    (hafter : after <:+ (afterFraction c).rest) :
    (afterFraction c).rest = exponent ++ after ∧
      (∀ run ∈ (read c).fraction?, run.wellFormed = true) ∧
      ((read c).fraction?.isSome = false ↔ fraction = []) := by
  rcases hfraction with rfl | hfraction
  · have hpoint : c.peek? ≠ some '.' := by
      intro hpoint
      rcases hexponent with rfl | hexponent
      · have hreads := (Cursor.reads_advance hpoint).append (DigitRun.reads_read 10 c.advance)
        rw [← (fraction_of_point hpoint).2] at hreads
        have hrest : c.rest = after := by simpa using hc
        exact List.cons_ne_nil _ _ (hreads.eq_nil_of_suffix (hrest ▸ hafter))
      · obtain ⟨letter, rest, rfl, -, -, hne⟩ := exponent_cons hexponent
        rw [Cursor.peek?, hc] at hpoint
        exact hne (Option.some.inj hpoint)
    obtain ⟨hnone, hstop⟩ := fraction_of_no_point hpoint
    exact ⟨by rw [hstop, hc]; rfl, by simp [hnone], by simp [hnone]⟩
  · obtain ⟨cs, rfl, hdigits⟩ : ∃ cs, fraction = '.' :: cs ∧ (cs = [] ∨ Digits 10 cs) := by
      cases hfraction with
      | point => exact ⟨[], rfl, .inl rfl⟩
      | digits h => exact ⟨_, rfl, .inr h⟩
    have hpoint : c.peek? = some '.' := by simp [Cursor.peek?, hc]
    have hadvance : c.advance.rest = cs ++ (exponent ++ after) := Cursor.rest_advance hc
    have hrun : ∀ ch ∈ cs, inRun 10 ch := by
      rcases hdigits with rfl | hdigits
      · simp
      · exact hdigits.inRun
    obtain ⟨hsome, hstop⟩ := fraction_of_point hpoint
    have htext : DigitRun.text 10 c.advance = cs := by
      rcases hexponent with rfl | hexponent
      · exact DigitRun.text_eq_of_suffix hrun (by simpa using hadvance) (hstop ▸ hafter)
      · obtain ⟨letter, rest, rfl, -, hno, -⟩ := exponent_cons hexponent
        exact DigitRun.text_eq hrun (List.takeWhile_cons_of_neg (by simp [hno])) hadvance
    refine ⟨?_, ?_, by simp [hsome]⟩
    · rw [hstop]
      exact DigitRun.rest_stop htext hadvance
    · intro run hmem
      obtain rfl := Option.some.inj (hsome.symm.trans hmem)
      exact DigitRun.wellFormed_iff.mpr (htext ▸ hdigits)

/-- A fraction and an exponent of the grammar are read as such if they are what is read. -/
theorem read_complete (hfraction : Optional Fraction fraction)
    (hexponent : Optional Exponent exponent) (hc : c.rest = fraction ++ (exponent ++ after))
    (hafter : after <:+ (read c).stop.rest) :
    (read c).stop.rest = after ∧ (read c).wellFormed = true ∧
      ((read c).isPresent = false ↔ fraction ++ exponent = []) := by
  have hreaches : (afterFraction c).Reaches (read c).stop := reaches_exponent _ _
  obtain ⟨hrest, hformed, hsome⟩ := fraction_complete hfraction hexponent hc
    (hafter.trans hreaches.suffix)
  rcases hexponent with rfl | hexponent
  · have hletter : ((afterFraction c).peekIs fun ch => ch = 'e' || ch = 'E') = false := by
      by_contra hletter
      obtain ⟨letter, hpeek, hletter⟩ : ∃ letter, (afterFraction c).peek? = some letter ∧
          (letter = 'e' ∨ letter = 'E') := by
        simpa [Cursor.peekIs, Option.any_eq_true] using hletter
      obtain ⟨exponent, hne, hreads, -⟩ := readExponent_told hletter hpeek
      rw [← (exponent_of_letter hletter hpeek).2] at hreads
      rw [show after = (afterFraction c).rest by simpa using hrest.symm] at hafter
      exact hne (hreads.eq_nil_of_suffix hafter)
    obtain ⟨hnone, hstop⟩ := exponent_of_no_letter hletter
    refine ⟨by simpa [hstop] using hrest, ?_, by simpa [isPresent, hnone] using hsome⟩
    exact (wellFormed_iff _).mpr ⟨hformed, by simp [hnone]⟩
  · obtain ⟨letter, rest, rfl, hletter, -, -⟩ := exponent_cons hexponent
    have hpeek : (afterFraction c).peek? = some letter := by simp [Cursor.peek?, hrest]
    obtain ⟨hsome, hstop⟩ := exponent_of_letter hletter hpeek
    obtain ⟨hend, hdigits⟩ := readExponent_complete hexponent hrest (hstop ▸ hafter)
    refine ⟨hstop ▸ hend, (wellFormed_iff _).mpr ⟨hformed, ?_⟩, by simp [isPresent, hsome]⟩
    intro exponent hmem
    obtain rfl := Option.some.inj (hsome.symm.trans hmem)
    exact hdigits

end DecimalTail

end ScriptLint
