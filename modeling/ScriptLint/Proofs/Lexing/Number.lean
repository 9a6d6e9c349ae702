import ScriptLint.Proofs.Lexing.Numeral

/-! # Numbers

A number that is read takes as much as it can and keeps account of what is wrong on the way, so
texts are read that are no literals. A text comes without an error exactly if the grammar derives
it, and the value of a big integer is the one that the grammar gives it.
-/

namespace ScriptLint

open Character (digitValue? isDigitOf isIdStart isIdContinue)

namespace Character

theorem isDigitOf_ten_iff {ch : Char} : isDigitOf 10 ch = true ↔ ch.isDigit = true := by
  refine ⟨fun h => ?_, isDigitOf_ten⟩
  by_contra hdigit
  unfold isDigitOf digitValue? at h
  simp only [hdigit, if_false] at h
  split at h
  · simp [Option.filter] at h
  · split at h <;> simp [Option.filter] at h

theorem isDigitOf_eight_iff {ch : Char} {value : Nat} (h : digitValue? 10 ch = some value) :
    isDigitOf 8 ch = true ↔ value < 8 := by
  unfold digitValue? at h
  obtain ⟨hvalue, -⟩ := Option.filter_eq_some_iff.mp h
  unfold isDigitOf digitValue?
  rw [hvalue]
  simp [Option.filter]

theorem isDigit_of_octal {ch : Char} (h : isDigitOf 8 ch) : ch.isDigit := by
  obtain ⟨value, hvalue⟩ := Option.isSome_iff_exists.mp h
  obtain ⟨hvalue, hlt⟩ := Option.filter_eq_some_iff.mp hvalue
  refine isDigitOf_ten_iff.mp ?_
  unfold isDigitOf digitValue?
  have hten : value < 10 := by
    have : value < 8 := by simpa using hlt
    omega
  rw [hvalue]
  simp [Option.filter, hten]

end Character

namespace Numeral

variable {c : Cursor} {letter : Char} {radix : Nat} {cs rest text after : List Char}

/-- The suffix of a big integer in its place: behind the digits of a radix, or behind those of a
decimal integer without a superfluous zero. -/
inductive Suffixed : List Char → Prop
  | radix {letter : Char} {radix : Nat} {cs glued : List Char} : (letter, radix) ∈ radixLetters →
      (∀ ch ∈ cs, inRun radix ch) → Suffixed ('0' :: letter :: (cs ++ 'n' :: glued))
  | decimal {ch : Char} {cs glued : List Char} : ch.isDigit → (∀ x ∈ cs, inRun 10 x) →
      (ch = '0' → cs = []) → Suffixed (ch :: (cs ++ 'n' :: glued))

theorem Suffixed.append (h : Suffixed cs) (glued : List Char) : Suffixed (cs ++ glued) := by
  cases h with
  | radix hletter hrun => simpa using Suffixed.radix hletter hrun
  | decimal hdigit hrun hzero => simpa using Suffixed.decimal hdigit hrun hzero

/-- What a number that was read as `text` says about it. -/
structure Told (n : Numeral) (text : List Char) : Prop where
  literal : n.malformed = false → Literal text
  value (v : Nat) : n.lexeme = .bigint v → n.malformed = false → BigInteger text v
  suffixed (v : Nat) : n.lexeme = .bigint v → Suffixed text
  issues : ∀ issue ∈ n.issues, issue.code ≠ "E067"

theorem inRun_suffix (radix : Nat) : inRun radix 'n' = false := by
  have hnone : digitValue? radix 'n' = none := by
    unfold digitValue?
    rfl
  rw [inRun, isDigitOf, hnone]
  rfl

/-! ## With a radix letter -/

theorem radix?_of_letter (hletter : (letter, radix) ∈ radixLetters)
    (hc : c.rest = '0' :: letter :: rest) : radix? c = some radix := by
  simp only [radixLetters, List.mem_cons, Prod.mk.injEq, List.not_mem_nil, or_false] at hletter
  unfold radix?
  rw [hc]
  rcases hletter with ⟨rfl, rfl⟩ | ⟨rfl, rfl⟩ | ⟨rfl, rfl⟩ | ⟨rfl, rfl⟩ | ⟨rfl, rfl⟩ |
    ⟨rfl, rfl⟩ <;> rfl

theorem exists_letter (h : radix? c = some radix) : ∃ letter rest,
    (letter, radix) ∈ radixLetters ∧ c.rest = '0' :: letter :: rest := by
  unfold radix? at h
  split at h
  next letter rest hc =>
    refine ⟨letter, rest, ?_, hc⟩
    split at h
    next hletter => cases h; rcases hletter with rfl | rfl <;> decide
    · split at h
      next hletter => cases h; rcases hletter with rfl | rfl <;> decide
      · split at h
        next hletter => cases h; rcases hletter with rfl | rfl <;> decide
        · cases h
  · cases h

theorem readRadix_malformed (radix : Nat) (c : Cursor) : (readRadix radix c).malformed = false ↔
    Digits radix (DigitRun.text radix c.advance.advance) := by
  rw [← DigitRun.sound_iff]
  simp [readRadix]

theorem readRadix_of_suffix
    (hsuffix : (DigitRun.read radix c.advance.advance).stop.peek? = some 'n') :
    (readRadix radix c).lexeme =
        .bigint (digitsValue radix (DigitRun.read radix c.advance.advance).digits) ∧
      (readRadix radix c).stop = (DigitRun.read radix c.advance.advance).stop.advance := by
  simp [readRadix, Cursor.accept?, Cursor.skip, hsuffix]

theorem readRadix_of_no_suffix
    (hsuffix : (DigitRun.read radix c.advance.advance).stop.peek? ≠ some 'n') :
    (∃ value, (readRadix radix c).lexeme = .number value) ∧
      (readRadix radix c).stop = (DigitRun.read radix c.advance.advance).stop := by
  simp [readRadix, Cursor.accept?, Cursor.skip, hsuffix]

theorem reads_letter (hc : c.rest = '0' :: letter :: rest) :
    c.Reads ['0', letter] c.advance.advance :=
  (Cursor.reads_advance_cons hc).append (Cursor.reads_advance_cons (Cursor.rest_advance hc))

theorem readRadix_told (hletter : (letter, radix) ∈ radixLetters)
    (hc : c.rest = '0' :: letter :: rest) :
    ∃ text, c.Reads text (readRadix radix c).stop ∧ Told (readRadix radix c) text := by
  have hreads := (reads_letter hc).append (DigitRun.reads_read radix c.advance.advance)
  have hissues : ∀ issue ∈ (readRadix radix c).issues, issue.code ≠ "E067" := by
    change ∀ issue ∈ radixIssues radix c.position, _
    unfold radixIssues
    split
    · simp [LexicalIssue.gated]
    · split <;> simp [LexicalIssue.gated]
  by_cases hsuffix : (DigitRun.read radix c.advance.advance).stop.peek? = some 'n'
  · obtain ⟨hlexeme, hstop⟩ := readRadix_of_suffix hsuffix
    have hvalue (v : Nat) (hv : (readRadix radix c).lexeme = .bigint v)
        (hformed : (readRadix radix c).malformed = false) :
        BigInteger ('0' :: letter :: (DigitRun.text radix c.advance.advance ++ ['n'])) v := by
      obtain rfl := Lexeme.bigint.inj (hlexeme.symm.trans hv)
      exact .radix hletter ((readRadix_malformed radix c).mp hformed) (DigitRun.denotes_read _ _)
    refine ⟨'0' :: letter :: (DigitRun.text radix c.advance.advance ++ ['n']), ?_,
      fun hformed => .big (hvalue _ hlexeme hformed), hvalue, fun v _ => ?_, hissues⟩
    · rw [hstop]
      simpa using hreads.append (Cursor.reads_advance hsuffix)
    · exact .radix hletter DigitRun.inRun_of_mem_text
  · obtain ⟨⟨value, hlexeme⟩, hstop⟩ := readRadix_of_no_suffix hsuffix
    refine ⟨_, hstop ▸ hreads, fun hformed => ?_, fun v hv => ?_, fun v hv => ?_, hissues⟩
    · exact .radix hletter ((readRadix_malformed radix c).mp hformed)
    · cases hlexeme.symm.trans hv
    · cases hlexeme.symm.trans hv

theorem readRadix_complete {suffix : List Char} (hdigits : Digits radix cs)
    (hsuffix : suffix = [] ∨ suffix = ['n'])
    (hc : c.rest = '0' :: letter :: (cs ++ (suffix ++ after)))
    (hafter : after <:+ (readRadix radix c).stop.rest) :
    (readRadix radix c).malformed = false ∧ (readRadix radix c).stop.rest = after := by
  have hadvance := Cursor.rest_advance (Cursor.rest_advance hc)
  rw [readRadix_malformed]
  rcases hsuffix with rfl | rfl
  · have hrun : (DigitRun.read radix c.advance.advance).stop.Reaches (readRadix radix c).stop :=
      Cursor.reaches_skip 'n' _
    have htext := DigitRun.text_eq_of_suffix hdigits.inRun hadvance (hafter.trans hrun.suffix)
    have hrest := DigitRun.rest_stop htext hadvance
    have hsuffix : (DigitRun.read radix c.advance.advance).stop.peek? ≠ some 'n' := by
      intro hsuffix
      have hreads := Cursor.reads_advance hsuffix
      rw [← (readRadix_of_suffix hsuffix).2] at hreads
      exact List.cons_ne_nil _ _ (hreads.eq_nil_of_suffix (hrest ▸ hafter))
    exact ⟨htext ▸ hdigits, (readRadix_of_no_suffix hsuffix).2 ▸ hrest⟩
  · have htext : DigitRun.text radix c.advance.advance = cs :=
      DigitRun.text_eq hdigits.inRun (List.takeWhile_cons_of_neg (by simp [inRun_suffix])) hadvance
    have hrest := DigitRun.rest_stop htext hadvance
    have hsuffix : (DigitRun.read radix c.advance.advance).stop.peek? = some 'n' := by
      simp [Cursor.peek?, hrest]
    refine ⟨htext ▸ hdigits, ?_⟩
    rw [(readRadix_of_suffix hsuffix).2]
    exact Cursor.rest_advance hrest

/-! ## With a superfluous zero -/

theorem inRun_ten : inRun 10 = fun ch => ch = '_' || ch.isDigit := by
  funext ch
  rw [inRun, Bool.eq_iff_iff.mpr Character.isDigitOf_ten_iff]

/-- Whether all digits are octal is asked of their values. -/
theorem all_octal_iff (hcs : ∀ ch ∈ cs, ch.isDigit) :
    (cs.filterMap (digitValue? 10)).all (· < 8) = true ↔ ∀ ch ∈ cs, isDigitOf 8 ch := by
  induction cs with
  | nil => simp
  | cons ch cs ih =>
      have hdigit := Character.isDigitOf_ten (hcs ch List.mem_cons_self)
      obtain ⟨value, hvalue⟩ := Option.isSome_iff_exists.mp hdigit
      have hrest := ih fun x hx => hcs x (List.mem_cons_of_mem ch hx)
      rw [List.filterMap_cons_some hvalue, List.all_cons, Bool.and_eq_true, hrest]
      simp [Character.isDigitOf_eight_iff hvalue]

/-- The number is octal, or it goes on with a fraction and an exponent. -/
theorem readZero_cases (c : Cursor) :
    ((DigitRun.text 10 c).filterMap (digitValue? 10)).all (· < 8) = true ∧
        (readZero c).malformed = (DigitRun.text 10 c).contains '_' ∧
        (readZero c).stop = (DigitRun.read 10 c).stop ∨
      ((DigitRun.text 10 c).filterMap (digitValue? 10)).all (· < 8) = false ∧
        (readZero c).malformed = ((DigitRun.text 10 c).contains '_' ||
          !(DecimalTail.read (DigitRun.read 10 c).stop).wellFormed) ∧
        (readZero c).stop = (DecimalTail.read (DigitRun.read 10 c).stop).stop := by
  have hstop : (c.skipWhile fun ch => ch = '_' || ch.isDigit) = (DigitRun.read 10 c).stop := by
    rw [← inRun_ten]
    rfl
  rw [← (DigitRun.reads_read 10 c).charsTo_eq, ← hstop]
  unfold readZero
  dsimp only
  split
  next hoctal => exact .inl ⟨hoctal, rfl, rfl⟩
  next hoctal => exact .inr ⟨Bool.eq_false_iff.mpr hoctal, rfl, rfl⟩

theorem readZero_plain (c : Cursor) :
    (∃ value, (readZero c).lexeme = .number value) ∧ (readZero c).issues = [] := by
  unfold readZero
  dsimp only
  split <;> exact ⟨⟨_, rfl⟩, rfl⟩

theorem digits_of_not_contains (hplain : (DigitRun.text 10 c).contains '_' = false) :
    ∀ ch ∈ DigitRun.text 10 c, ch.isDigit := by
  intro ch hch
  have hne : ch ≠ '_' := by
    rintro rfl
    simp [hch] at hplain
  simpa [inRun_ten, hne] using DigitRun.inRun_of_mem_text ch hch

/-- What the second character of a text tells about its run. -/
theorem exists_second (hzero : c.peek? = some '0')
    (hsecond : c.peekSecondIs fun ch => ch = '_' || ch.isDigit) :
    ∃ next rest, DigitRun.text 10 c = '0' :: next :: rest := by
  unfold Cursor.peek? at hzero
  unfold Cursor.peekSecondIs Cursor.peekSecond? at hsecond
  rw [← inRun_ten] at hsecond
  unfold DigitRun.text
  rcases htext : c.rest with - | ⟨x, - | ⟨next, rest⟩⟩
  · simp [htext] at hzero
  · simp [htext] at hsecond
  · obtain rfl : x = '0' := by simpa [htext] using hzero
    have hnext : inRun 10 next = true := by simpa [htext] using hsecond
    rw [List.takeWhile_cons_of_pos (by decide), List.takeWhile_cons_of_pos hnext]
    exact ⟨next, _, rfl⟩

theorem readZero_told (hzero : c.peek? = some '0')
    (hsecond : c.peekSecondIs fun ch => ch = '_' || ch.isDigit) :
    ∃ text, c.Reads text (readZero c).stop ∧ Told (readZero c) text := by
  obtain ⟨next, rest, hrun⟩ := exists_second hzero hsecond
  have htold {text : List Char} (hliteral : (readZero c).malformed = false → Literal text) :
      Told (readZero c) text := by
    obtain ⟨⟨value, hlexeme⟩, hissues⟩ := readZero_plain c
    refine ⟨hliteral, fun v hv => ?_, fun v hv => ?_, by simp [hissues]⟩
    · cases hlexeme.symm.trans hv
    · cases hlexeme.symm.trans hv
  rcases readZero_cases c with ⟨hoctal, hmalformed, hstop⟩ | ⟨hoctal, hmalformed, hstop⟩
  · refine ⟨_, hstop ▸ DigitRun.reads_read 10 c, htold fun hformed => ?_⟩
    have hdigits := digits_of_not_contains (hmalformed.symm.trans hformed)
    have hall := (all_octal_iff hdigits).mp hoctal
    rw [hrun] at hall ⊢
    exact .legacyOctal (List.cons_ne_nil next rest) fun ch hch =>
      hall ch (List.mem_cons_of_mem _ hch)
  · obtain ⟨fraction, exponent, hreads, hparts, -⟩ :=
      DecimalTail.read_told (DigitRun.read 10 c).stop
    refine ⟨_, hstop ▸ (DigitRun.reads_read 10 c).append hreads, htold fun hformed => ?_⟩
    rw [hmalformed, Bool.or_eq_false_iff, Bool.not_eq_false'] at hformed
    have hdigits := digits_of_not_contains hformed.1
    obtain ⟨hfraction, hexponent⟩ := hparts hformed.2
    refine .decimal (.inr ⟨by simp [hrun], hdigits, fun hall => ?_⟩) hfraction hexponent
    rw [(all_octal_iff hdigits).mpr hall] at hoctal
    cases hoctal

theorem inRun_of_isDigit (hcs : ∀ ch ∈ cs, ch.isDigit) : ∀ ch ∈ cs, inRun 10 ch := by
  intro ch hch
  simp [inRun_ten, hcs ch hch]

theorem not_contains_of_isDigit (hcs : ∀ ch ∈ cs, ch.isDigit) : cs.contains '_' = false := by
  simp only [List.contains_eq_mem, decide_eq_false_iff_not]
  exact fun hmem => absurd (hcs _ hmem) (by decide)

theorem readZero_complete_octal (hcs : ∀ ch ∈ cs, isDigitOf 8 ch)
    (hc : c.rest = cs ++ after) (hafter : after <:+ (readZero c).stop.rest) :
    (readZero c).malformed = false ∧ (readZero c).stop.rest = after := by
  have hdigits : ∀ ch ∈ cs, ch.isDigit := fun ch hch => Character.isDigit_of_octal (hcs ch hch)
  have hreaches : (DigitRun.read 10 c).stop.Reaches (readZero c).stop := by
    rcases readZero_cases c with ⟨-, -, hstop⟩ | ⟨-, -, hstop⟩
    · exact hstop ▸ .refl _
    · exact hstop ▸ DecimalTail.reaches_read _
  have htext := DigitRun.text_eq_of_suffix (inRun_of_isDigit hdigits) hc
    (hafter.trans hreaches.suffix)
  have hoctal := (all_octal_iff hdigits).mpr hcs
  rcases readZero_cases c with ⟨-, hmalformed, hstop⟩ | ⟨hno, -, -⟩
  · rw [hmalformed, htext, hstop]
    exact ⟨not_contains_of_isDigit hdigits, DigitRun.rest_stop htext hc⟩
  · rw [htext, hoctal] at hno
    cases hno

section

variable {whole fraction exponent : List Char}

/-- A whole part with a fraction and an exponent behind it is read as such. -/
theorem whole_complete (hwhole : ∀ ch ∈ whole, inRun 10 ch) (hfraction : Optional Fraction fraction)
    (hexponent : Optional Exponent exponent)
    (hc : c.rest = whole ++ (fraction ++ (exponent ++ after)))
    (hafter : after <:+ (DecimalTail.read (DigitRun.read 10 c).stop).stop.rest) :
    DigitRun.text 10 c = whole ∧
      (DecimalTail.read (DigitRun.read 10 c).stop).stop.rest = after ∧
      (DecimalTail.read (DigitRun.read 10 c).stop).wellFormed = true ∧
      ((DecimalTail.read (DigitRun.read 10 c).stop).isPresent = false ↔
        fraction ++ exponent = []) := by
  have htext : DigitRun.text 10 c = whole := by
    have hreaches := DecimalTail.reaches_read (DigitRun.read 10 c).stop
    rcases hfraction with rfl | hfraction
    · rcases hexponent with rfl | hexponent
      · exact DigitRun.text_eq_of_suffix hwhole (by simpa using hc) (hafter.trans hreaches.suffix)
      · obtain ⟨letter, rest, rfl, -, hno, -⟩ := DecimalTail.exponent_cons hexponent
        exact DigitRun.text_eq hwhole (List.takeWhile_cons_of_neg (by simp [hno])) hc
    · have hpoint : inRun 10 '.' = false := by decide
      cases hfraction <;>
        exact DigitRun.text_eq hwhole (List.takeWhile_cons_of_neg (by simp [hpoint])) hc
  have hrest := DigitRun.rest_stop htext hc
  exact ⟨htext, DecimalTail.read_complete hfraction hexponent hrest hafter⟩

theorem readZero_complete_decimal (hwhole : ZeroPrefixed whole)
    (hfraction : Optional Fraction fraction) (hexponent : Optional Exponent exponent)
    (hc : c.rest = whole ++ (fraction ++ (exponent ++ after)))
    (hafter : after <:+ (readZero c).stop.rest) :
    (readZero c).malformed = false ∧ (readZero c).stop.rest = after := by
  have hrun := inRun_of_isDigit hwhole.digits
  rcases readZero_cases c with ⟨hoctal, -, hstop⟩ | ⟨-, hmalformed, hstop⟩
  -- The whole part is a part of the run, and a digit of it is not octal.
  · rw [DigitRun.text, hc, List.takeWhile_append_of_pos hrun, List.filterMap_append,
      List.all_append, Bool.and_eq_true] at hoctal
    exact absurd ((all_octal_iff hwhole.digits).mp hoctal.1) hwhole.not_octal
  · rw [hstop] at hafter ⊢
    obtain ⟨htext, hrest, hformed, -⟩ := whole_complete hrun hfraction hexponent hc hafter
    rw [hmalformed, htext, not_contains_of_isDigit hwhole.digits, hformed]
    exact ⟨rfl, hrest⟩

/-! ## Plain decimals -/

theorem readDecimal_malformed (c : Cursor) : (readDecimal c).malformed = false ↔
    (DigitRun.read 10 c).wellFormed = true ∧
      (DecimalTail.read (DigitRun.read 10 c).stop).wellFormed = true := by
  unfold readDecimal
  dsimp only
  split <;> simp

theorem readDecimal_of_suffix
    (hpresent : (DecimalTail.read (DigitRun.read 10 c).stop).isPresent = false)
    (hsuffix : (DecimalTail.read (DigitRun.read 10 c).stop).stop.peek? = some 'n') :
    (readDecimal c).lexeme = .bigint (digitsValue 10 (DigitRun.read 10 c).digits) ∧
      (readDecimal c).stop = (DecimalTail.read (DigitRun.read 10 c).stop).stop.advance := by
  simp [readDecimal, hpresent, Cursor.accept?, hsuffix]

theorem readDecimal_of_no_suffix
    (hsuffix : (DecimalTail.read (DigitRun.read 10 c).stop).isPresent = true ∨
      (DecimalTail.read (DigitRun.read 10 c).stop).stop.peek? ≠ some 'n') :
    (∃ value, (readDecimal c).lexeme = .number value) ∧
      (readDecimal c).stop = (DecimalTail.read (DigitRun.read 10 c).stop).stop := by
  rcases hsuffix with hpresent | hsuffix
  · simp [readDecimal, hpresent]
  · simp [readDecimal, Cursor.accept?, hsuffix]

theorem readDecimal_issues (c : Cursor) :
    ∀ issue ∈ (readDecimal c).issues, issue.code ≠ "E067" := by
  unfold readDecimal
  dsimp only
  split
  · split <;> simp
  · split <;> split <;> simp

/-- No more than a zero is taken where a zero begins the whole part. -/
theorem exists_whole {ch : Char} (hch : c.peek? = some ch) (hdigit : ch.isDigit)
    (hplain : ¬ (c.peek? = some '0' ∧ c.peekSecondIs fun ch => ch = '_' || ch.isDigit)) :
    ∃ cs, DigitRun.text 10 c = ch :: cs ∧ (∀ x ∈ cs, inRun 10 x) ∧ (ch = '0' → cs = []) := by
  have hrun : inRun 10 ch = true := by simp [inRun_ten, hdigit]
  have hall : ∀ x ∈ DigitRun.text 10 c, inRun 10 x := DigitRun.inRun_of_mem_text
  unfold Cursor.peekSecondIs Cursor.peekSecond? at hplain
  unfold Cursor.peek? at hch hplain
  rw [← inRun_ten] at hplain
  unfold DigitRun.text at hall ⊢
  cases htext : c.rest with
  | nil => simp [htext] at hch
  | cons x rest =>
      obtain rfl : x = ch := by simpa [htext] using hch
      rw [htext, List.takeWhile_cons_of_pos hrun] at hall
      rw [List.takeWhile_cons_of_pos hrun]
      refine ⟨_, rfl, fun y hy => hall y (List.mem_cons_of_mem x hy), ?_⟩
      rintro rfl
      cases rest with
      | nil => rfl
      | cons next rest =>
          have hno : inRun 10 next = false := by simpa [htext] using hplain
          exact List.takeWhile_cons_of_neg (by simp [hno])

theorem plainInteger_of_digits {ch : Char} (hzero : ch = '0' → cs = [])
    (hdigits : Digits 10 (ch :: cs)) : PlainInteger (ch :: cs) := by
  by_cases hch : ch = '0'
  · rw [hzero hch, hch]
    exact .zero
  · exact .nonzero hch hdigits

theorem readDecimal_told_digit {ch : Char} (hch : c.peek? = some ch) (hdigit : ch.isDigit)
    (hplain : ¬ (c.peek? = some '0' ∧ c.peekSecondIs fun ch => ch = '_' || ch.isDigit)) :
    ∃ text, c.Reads text (readDecimal c).stop ∧ Told (readDecimal c) text := by
  obtain ⟨cs, htext, hrun, hzero⟩ := exists_whole hch hdigit hplain
  obtain ⟨fraction, exponent, hreads, hparts, hpresent, -⟩ :=
    DecimalTail.read_told (DigitRun.read 10 c).stop
  have hreads' := (DigitRun.reads_read 10 c).append hreads
  have hwhole (hformed : (readDecimal c).malformed = false) : PlainInteger (ch :: cs) := by
    refine plainInteger_of_digits hzero (htext ▸ ?_)
    refine (DigitRun.wellFormed_iff.mp ((readDecimal_malformed c).mp hformed).1).resolve_left ?_
    simp [htext]
  by_cases hsuffix : (DecimalTail.read (DigitRun.read 10 c).stop).isPresent = false ∧
      (DecimalTail.read (DigitRun.read 10 c).stop).stop.peek? = some 'n'
  · obtain ⟨hlexeme, hstop⟩ := readDecimal_of_suffix hsuffix.1 hsuffix.2
    rw [hpresent.mp hsuffix.1, List.append_nil, htext] at hreads'
    have hvalue (v : Nat) (hv : (readDecimal c).lexeme = .bigint v)
        (hformed : (readDecimal c).malformed = false) : BigInteger (ch :: cs ++ ['n']) v := by
      obtain rfl := Lexeme.bigint.inj (hlexeme.symm.trans hv)
      exact .decimal (hwhole hformed) (htext ▸ DigitRun.denotes_read 10 c)
    refine ⟨ch :: cs ++ ['n'], ?_, fun hformed => .big (hvalue _ hlexeme hformed), hvalue,
      fun v _ => .decimal hdigit hrun hzero, readDecimal_issues c⟩
    rw [hstop]
    exact hreads'.append (Cursor.reads_advance hsuffix.2)
  · rw [not_and_or, Bool.not_eq_false] at hsuffix
    obtain ⟨⟨value, hlexeme⟩, hstop⟩ := readDecimal_of_no_suffix hsuffix
    refine ⟨_, hstop ▸ hreads', fun hformed => ?_, fun v hv => ?_, fun v hv => ?_,
      readDecimal_issues c⟩
    · obtain ⟨hfraction, hexponent⟩ := hparts ((readDecimal_malformed c).mp hformed).2
      exact .decimal (.inl (htext ▸ hwhole hformed)) hfraction hexponent
    · cases hlexeme.symm.trans hv
    · cases hlexeme.symm.trans hv

theorem readDecimal_told_point (hch : c.peek? = some '.') (hsecond : c.peekSecondIs Char.isDigit) :
    ∃ text, c.Reads text (readDecimal c).stop ∧ Told (readDecimal c) text := by
  have hstop : (DigitRun.read 10 c).stop = c := Cursor.skipWhile_of_peek hch (by decide)
  obtain ⟨fraction, exponent, hreads, hparts, hpresent, hpoint⟩ := DecimalTail.read_told c
  have hdigits : DigitRun.text 10 c.advance ≠ [] := by
    unfold Cursor.peek? at hch
    unfold Cursor.peekSecondIs Cursor.peekSecond? at hsecond
    rcases htext : c.rest with - | ⟨x, - | ⟨next, rest⟩⟩
    · simp [htext] at hch
    · simp [htext] at hsecond
    · have hnext : inRun 10 next = true := by
        have hdigit : next.isDigit := by simpa [htext] using hsecond
        simp [inRun_ten, hdigit]
      rw [DigitRun.text, Cursor.rest_advance htext, List.takeWhile_cons_of_pos hnext]
      exact List.cons_ne_nil _ _
  have hfraction := hpoint hch
  have hsuffix : (DecimalTail.read (DigitRun.read 10 c).stop).isPresent = true := by
    rw [hstop, ← Bool.not_eq_false, hpresent, hfraction]
    exact List.cons_ne_nil _ _
  obtain ⟨⟨value, hlexeme⟩, hend⟩ := readDecimal_of_no_suffix (.inl hsuffix)
  rw [hstop] at hend
  refine ⟨_, hend ▸ hreads, fun hformed => ?_, fun v hv => ?_, fun v hv => ?_,
    readDecimal_issues c⟩
  · obtain ⟨hfraction', hexponent⟩ := hparts (hstop ▸ ((readDecimal_malformed c).mp hformed).2)
    rw [hfraction] at hfraction' ⊢
    generalize DigitRun.text 10 c.advance = cs at hdigits hfraction'
    rcases hfraction' with hempty | hfraction'
    · cases hempty
    · cases hfraction' with
      | point => exact absurd rfl hdigits
      | digits h => exact .point h hexponent
  · cases hlexeme.symm.trans hv
  · cases hlexeme.symm.trans hv

theorem readDecimal_complete {suffix : List Char} (hwhole : whole = [] ∨ Digits 10 whole)
    (hfraction : Optional Fraction fraction) (hexponent : Optional Exponent exponent)
    (hsuffix : suffix = [] ∨ suffix = ['n'] ∧ fraction ++ exponent = [])
    (hc : c.rest = whole ++ (fraction ++ (exponent ++ (suffix ++ after))))
    (hafter : after <:+ (readDecimal c).stop.rest) :
    (readDecimal c).malformed = false ∧ (readDecimal c).stop.rest = after := by
  have hrun : ∀ ch ∈ whole, inRun 10 ch := by
    rcases hwhole with rfl | hwhole
    · simp
    · exact hwhole.inRun
  have hmalformed (htext : DigitRun.text 10 c = whole)
      (hformed : (DecimalTail.read (DigitRun.read 10 c).stop).wellFormed = true) :
      (readDecimal c).malformed = false :=
    (readDecimal_malformed c).mpr ⟨DigitRun.wellFormed_iff.mpr (htext ▸ hwhole), hformed⟩
  rcases hsuffix with rfl | ⟨rfl, hempty⟩
  · have hreaches : (DecimalTail.read (DigitRun.read 10 c).stop).stop.Reaches
        (readDecimal c).stop := by
      by_cases hsuffix : (DecimalTail.read (DigitRun.read 10 c).stop).isPresent = false ∧
          (DecimalTail.read (DigitRun.read 10 c).stop).stop.peek? = some 'n'
      · rw [(readDecimal_of_suffix hsuffix.1 hsuffix.2).2]
        exact Cursor.reaches_advance _
      · rw [not_and_or, Bool.not_eq_false] at hsuffix
        rw [(readDecimal_of_no_suffix hsuffix).2]
        exact .refl _
    obtain ⟨htext, hrest, hformed, hpresent⟩ :=
      whole_complete hrun hfraction hexponent hc (hafter.trans hreaches.suffix)
    have hno : (DecimalTail.read (DigitRun.read 10 c).stop).isPresent = true ∨
        (DecimalTail.read (DigitRun.read 10 c).stop).stop.peek? ≠ some 'n' := by
      by_contra hsuffix
      rw [not_or, Bool.not_eq_true, not_not] at hsuffix
      have hreads := Cursor.reads_advance hsuffix.2
      rw [← (readDecimal_of_suffix hsuffix.1 hsuffix.2).2] at hreads
      exact List.cons_ne_nil _ _ (hreads.eq_nil_of_suffix (hrest ▸ hafter))
    exact ⟨hmalformed htext hformed, (readDecimal_of_no_suffix hno).2 ▸ hrest⟩
  · obtain ⟨rfl, rfl⟩ := List.append_eq_nil_iff.mp hempty
    have htext : DigitRun.text 10 c = whole :=
      DigitRun.text_eq hrun (List.takeWhile_cons_of_neg (by simp [inRun_suffix])) hc
    have hrest := DigitRun.rest_stop htext hc
    have hpeek : (DigitRun.read 10 c).stop.peek? = some 'n' := by simp [Cursor.peek?, hrest]
    obtain ⟨hpresent, hformed, hstop⟩ := DecimalTail.read_of_suffix hpeek
    refine ⟨hmalformed htext hformed, ?_⟩
    have hpeek' : (DecimalTail.read (DigitRun.read 10 c).stop).stop.peek? = some 'n' := by
      rw [hstop]
      exact hpeek
    rw [(readDecimal_of_suffix hpresent hpeek').2, hstop]
    exact Cursor.rest_advance hrest

end

/-! ## All forms -/

/-- No radix letter, separator or digit follows a zero at the cursor. -/
structure Plain (c : Cursor) : Prop where
  radix? : radix? c = none
  zero : ¬ (c.peek? = some '0' ∧ c.peekSecondIs fun ch => ch = '_' || ch.isDigit)

theorem read_of_letter (hletter : (letter, radix) ∈ radixLetters)
    (hc : c.rest = '0' :: letter :: rest) : read c = readRadix radix c := by
  rw [read, radix?_of_letter hletter hc]

theorem Plain.read (h : Plain c) : read c = readDecimal c := by
  rw [Numeral.read, h.radix?]
  exact if_neg h.zero

/-- A digit is no radix letter. -/
theorem radix?_of_second (hsecond : c.peekSecondIs fun ch => ch = '_' || ch.isDigit) :
    radix? c = none := by
  cases hradix : radix? c with
  | none => rfl
  | some radix =>
      obtain ⟨letter, rest, hletter, hc⟩ := exists_letter hradix
      have hno : ∀ pair ∈ radixLetters, (pair.1 = '_' || pair.1.isDigit) = false := by decide
      rw [Cursor.peekSecondIs, Cursor.peekSecond?, hc] at hsecond
      have hyes : (letter = '_' || letter.isDigit) = true := by simpa using hsecond
      rw [hno _ hletter] at hyes
      cases hyes

theorem read_of_zero (hzero : c.peek? = some '0')
    (hsecond : c.peekSecondIs fun ch => ch = '_' || ch.isDigit) : read c = readZero c := by
  rw [read, radix?_of_second hsecond]
  exact if_pos ⟨hzero, hsecond⟩

/-- Where the lexer starts to read a number. -/
def Starts (c : Cursor) : Prop :=
  c.peekIs Char.isDigit ∨ c.peek? = some '.' ∧ c.peekSecondIs Char.isDigit

instance : Decidable (Starts c) := by
  unfold Starts
  infer_instance

theorem read_told (hstart : Starts c) :
    ∃ text, c.Reads text (read c).stop ∧ Told (read c) text := by
  cases hradix : radix? c with
  | some radix =>
      obtain ⟨letter, rest, hletter, hc⟩ := exists_letter hradix
      rw [read_of_letter hletter hc]
      exact readRadix_told hletter hc
  | none =>
      by_cases hzero : c.peek? = some '0' ∧ c.peekSecondIs fun ch => ch = '_' || ch.isDigit
      · rw [read_of_zero hzero.1 hzero.2]
        exact readZero_told hzero.1 hzero.2
      · rw [Plain.read ⟨hradix, hzero⟩]
        rcases hstart with hdigit | ⟨hpoint, hsecond⟩
        · obtain ⟨ch, hch, hdigit⟩ : ∃ ch, c.peek? = some ch ∧ ch.isDigit := by
            simpa [Cursor.peekIs, Option.any_eq_true] using hdigit
          exact readDecimal_told_digit hch hdigit hzero
        · exact readDecimal_told_point hpoint hsecond

/-- The second character of a number that is not plain is taken. -/
theorem reads_second (hzero : c.peek? = some '0') (hplain : ¬ Plain c) :
    ∃ next rest, c.Reads ('0' :: next :: rest) (read c).stop := by
  by_cases hsecond : c.peekSecondIs fun ch => ch = '_' || ch.isDigit
  · obtain ⟨next, rest, hrun⟩ := exists_second hzero hsecond
    have hreads := DigitRun.reads_read 10 c
    rw [hrun] at hreads
    rw [read_of_zero hzero hsecond]
    rcases readZero_cases c with ⟨-, -, hstop⟩ | ⟨-, -, hstop⟩
    · exact ⟨next, rest, hstop ▸ hreads⟩
    · obtain ⟨cs, hreads'⟩ := DecimalTail.reaches_read (DigitRun.read 10 c).stop
      exact ⟨next, rest ++ cs, hstop ▸ hreads.append hreads'⟩
  · cases hradix : radix? c with
    | none => exact absurd ⟨hradix, fun h => hsecond h.2⟩ hplain
    | some radix =>
        obtain ⟨letter, rest, hletter, hc⟩ := exists_letter hradix
        obtain ⟨cs, hreads⟩ : c.advance.advance.Reaches (readRadix radix c).stop :=
          (Cursor.reaches_skipWhile _ _).trans (Cursor.reaches_skip 'n' _)
        rw [read_of_letter hletter hc]
        exact ⟨letter, cs, (reads_letter hc).append hreads⟩

theorem plain_of_ne {ch : Char} (hch : c.peek? = some ch) (hne : ch ≠ '0') : Plain c where
  radix? := by
    cases hradix : Numeral.radix? c with
    | none => rfl
    | some radix =>
        obtain ⟨letter, rest, -, hc⟩ := exists_letter hradix
        rw [Cursor.peek?, hc] at hch
        exact absurd (Option.some.inj hch).symm hne
  zero h := hne (Option.some.inj (hch.symm.trans h.1))

/-- A plain integer of the grammar is read as one where the rest of a decimal or the suffix
follows. -/
theorem plain_of_follower {ch : Char} (hwhole : PlainInteger cs) (hc : c.rest = cs ++ ch :: rest)
    (hch : ch ∈ ['.', 'e', 'E', 'n']) : Plain c := by
  cases hwhole with
  | nonzero hne => exact plain_of_ne (by simp [Cursor.peek?, hc]) hne
  | zero =>
      obtain ⟨hno, hletters⟩ :
          (ch = '_' || ch.isDigit) = false ∧ ∀ pair ∈ radixLetters, pair.1 ≠ ch := by
        simp only [List.mem_cons, List.not_mem_nil, or_false] at hch
        rcases hch with rfl | rfl | rfl | rfl <;> decide
      constructor
      · cases hradix : Numeral.radix? c with
        | none => rfl
        | some radix =>
            obtain ⟨letter, rest', hletter, hc'⟩ := exists_letter hradix
            obtain ⟨rfl, -⟩ := List.cons.inj (List.cons.inj (hc'.symm.trans hc)).2
            exact absurd rfl (hletters _ hletter)
      · rintro ⟨-, hsecond⟩
        rw [Cursor.peekSecondIs, Cursor.peekSecond?, hc] at hsecond
        have hyes : (ch = '_' || ch.isDigit) = true := by simpa using hsecond
        rw [hno] at hyes
        cases hyes

/-- A plain integer is also read as one if it is all that is read. -/
theorem plain_of_suffix (hwhole : PlainInteger cs) (hc : c.rest = cs ++ after)
    (hafter : after <:+ (read c).stop.rest) : Plain c := by
  cases hwhole with
  | nonzero hne => exact plain_of_ne (by simp [Cursor.peek?, hc]) hne
  | zero =>
      by_contra hplain
      obtain ⟨next, taken, hreads⟩ := reads_second (by simp [Cursor.peek?, hc]) hplain
      have hlength := hafter.length_le
      have hrest := congrArg List.length (hc.symm.trans hreads.rest_eq)
      simp only [List.length_append, List.length_cons, List.length_nil] at hrest
      omega

theorem PlainInteger.digits (h : PlainInteger cs) : Digits 10 cs := by
  cases h with
  | zero => exact .single (by decide)
  | nonzero _ hdigits => exact hdigits

theorem read_complete_plain {whole fraction exponent : List Char} (hwhole : PlainInteger whole)
    (hfraction : Optional Fraction fraction) (hexponent : Optional Exponent exponent)
    (hc : c.rest = whole ++ (fraction ++ (exponent ++ after)))
    (hafter : after <:+ (read c).stop.rest) :
    (read c).malformed = false ∧ (read c).stop.rest = after := by
  have hplain : Plain c := by
    rcases hfraction with rfl | hfraction
    · rcases hexponent with rfl | hexponent
      · exact plain_of_suffix hwhole hc hafter
      · obtain ⟨letter, rest, rfl, hletter, -, -⟩ := DecimalTail.exponent_cons hexponent
        exact plain_of_follower hwhole hc (by rcases hletter with rfl | rfl <;> decide)
    · cases hfraction <;> exact plain_of_follower hwhole hc (by decide)
  rw [hplain.read] at hafter ⊢
  exact readDecimal_complete (.inr hwhole.digits) hfraction hexponent (.inl rfl) hc hafter

theorem read_complete_big {n : Nat} (hw : BigInteger cs n) (hc : c.rest = cs ++ after)
    (hafter : after <:+ (read c).stop.rest) :
    (read c).malformed = false ∧ (read c).stop.rest = after := by
  cases hw with
  | @decimal whole _ hwhole _ =>
      rw [List.append_assoc] at hc
      have hplain : Plain c := plain_of_follower hwhole hc (by decide)
      rw [hplain.read] at hafter ⊢
      exact readDecimal_complete (.inr hwhole.digits) (.inl rfl) (.inl rfl) (.inr ⟨rfl, rfl⟩) hc
        hafter
  | radix hletter hdigits _ =>
      rw [List.cons_append, List.cons_append, List.append_assoc] at hc
      rw [read_of_letter hletter hc] at hafter ⊢
      exact readRadix_complete hdigits (.inr rfl) hc hafter

theorem read_of_zero_cons {next : Char} (hdigit : next.isDigit)
    (hc : c.rest = '0' :: next :: rest) : read c = readZero c := by
  have hsecond : (c.peekSecondIs fun ch => ch = '_' || ch.isDigit) = true := by
    simp [Cursor.peekSecondIs, Cursor.peekSecond?, hc, hdigit]
  exact read_of_zero (by simp [Cursor.peek?, hc]) hsecond

theorem ZeroPrefixed.exists_second (h : ZeroPrefixed cs) :
    ∃ next rest, cs = '0' :: next :: rest := by
  rcases cs with - | ⟨zero, - | ⟨next, rest⟩⟩
  · cases h.head?_eq
  · obtain rfl : zero = '0' := Option.some.inj h.head?_eq
    exact absurd (List.forall_mem_singleton.mpr (by decide)) h.not_octal
  · obtain rfl : zero = '0' := Option.some.inj h.head?_eq
    exact ⟨next, rest, rfl⟩

/-- What the grammar derives is read without an error if it is all that is read. -/
theorem read_complete (hw : Literal cs) (hc : c.rest = cs ++ after)
    (hafter : after <:+ (read c).stop.rest) :
    (read c).malformed = false ∧ (read c).stop.rest = after := by
  cases hw with
  | @decimal whole fraction exponent hwhole hfraction hexponent =>
      rw [List.append_assoc, List.append_assoc] at hc
      rcases hwhole with hwhole | hwhole
      · exact read_complete_plain hwhole hfraction hexponent hc hafter
      · obtain ⟨next, rest, rfl⟩ := hwhole.exists_second
        rw [read_of_zero_cons (hwhole.digits next (by simp)) hc] at hafter ⊢
        exact readZero_complete_decimal hwhole hfraction hexponent hc hafter
  | @point digits exponent hdigits hexponent =>
      have hpoint : c.peek? = some '.' := by simp [Cursor.peek?, hc]
      have hplain := plain_of_ne hpoint (by decide)
      rw [hplain.read] at hafter ⊢
      rw [List.append_assoc] at hc
      exact readDecimal_complete (.inl rfl) (.inr (.digits hdigits)) hexponent (.inl rfl) hc hafter
  | radix hletter hdigits =>
      rw [List.cons_append, List.cons_append] at hc
      rw [read_of_letter hletter hc] at hafter ⊢
      exact readRadix_complete hdigits (.inl rfl) hc hafter
  | legacyOctal hne hoctal =>
      obtain ⟨next, rest, rfl⟩ := List.exists_cons_of_ne_nil hne
      have hdigit := Character.isDigit_of_octal (hoctal next List.mem_cons_self)
      rw [read_of_zero_cons hdigit hc] at hafter ⊢
      refine readZero_complete_octal (fun ch hch => ?_) hc hafter
      rcases List.mem_cons.mp hch with rfl | hch
      · decide
      · exact hoctal ch hch
  | big hw => exact read_complete_big hw hc hafter

/-- A suffix in its place makes a big integer, whatever follows it. -/
theorem exists_bigint (hw : Suffixed cs) (hc : c.rest = cs ++ after) :
    ∃ v, (read c).lexeme = .bigint v := by
  cases hw with
  | @radix letter radix digits glued hletter hrun =>
      have hc' : c.rest = '0' :: letter :: (digits ++ 'n' :: (glued ++ after)) := by simp [hc]
      have hadvance := Cursor.rest_advance (Cursor.rest_advance hc')
      have htext : DigitRun.text radix c.advance.advance = digits :=
        DigitRun.text_eq hrun (List.takeWhile_cons_of_neg (by simp [inRun_suffix])) hadvance
      have hsuffix : (DigitRun.read radix c.advance.advance).stop.peek? = some 'n' := by
        simp [Cursor.peek?, DigitRun.rest_stop htext hadvance]
      rw [read_of_letter hletter hc']
      exact ⟨_, (readRadix_of_suffix hsuffix).1⟩
  | @decimal ch digits glued hdigit hrun hzero =>
      have hc' : c.rest = (ch :: digits) ++ 'n' :: (glued ++ after) := by simp [hc]
      have hplain : Plain c := by
        by_cases hch : ch = '0'
        · rw [hzero hch, hch] at hc'
          exact plain_of_follower .zero hc' (by decide)
        · exact plain_of_ne (by simp [Cursor.peek?, hc']) hch
      have hall : ∀ x ∈ ch :: digits, inRun 10 x := by
        simpa [inRun_ten, hdigit] using hrun
      have htext : DigitRun.text 10 c = ch :: digits :=
        DigitRun.text_eq hall (List.takeWhile_cons_of_neg (by simp [inRun_suffix])) hc'
      have hpeek : (DigitRun.read 10 c).stop.peek? = some 'n' := by
        simp [Cursor.peek?, DigitRun.rest_stop htext hc']
      obtain ⟨hpresent, -, hstop⟩ := DecimalTail.read_of_suffix hpeek
      rw [hplain.read]
      exact ⟨_, (readDecimal_of_suffix hpresent (by rw [hstop]; exact hpeek)).1⟩

/-! ## What is glued to a number -/

theorem isIdContinue_of_glued {ch : Char} (h : isIdStart ch || ch.isDigit) : isIdContinue ch := by
  unfold isIdContinue
  by_cases hascii : ch.toNat < 0x80
  · rw [if_pos hascii]
    rcases Bool.or_eq_true_iff.mp h with hstart | hdigit
    · rw [isIdStart, if_pos hascii] at hstart
      simp only [Char.isAlphanum, Bool.or_eq_true] at hstart ⊢
      rcases hstart with (halpha | hdollar) | hunderscore
      · exact .inl (.inl (.inl halpha))
      · exact .inl (.inr hdollar)
      · exact .inr hunderscore
    · simp [Char.isAlphanum, hdigit]
  · rw [if_neg hascii]
    rcases Bool.or_eq_true_iff.mp h with hstart | hdigit
    · simp [hstart]
    · have hlt : ch.toNat ≤ 57 := by
        simp only [Char.isDigit, Bool.and_eq_true, decide_eq_true_eq,
          UInt32.le_iff_toNat_le] at hdigit
        exact hdigit.2
      omega

/-- What is glued to a number makes it malformed and is taken with it. -/
theorem glue_cases (n : Numeral) :
    (n.stop.peekIs fun ch => isIdStart ch || ch.isDigit) = false ∧ n.glue = n ∨
      n.glue.malformed = true ∧ n.glue.lexeme = n.lexeme ∧ n.glue.issues = n.issues ∧
        ∃ glued ≠ [], n.stop.Reads glued n.glue.stop := by
  by_cases hglued : n.stop.peekIs fun ch => isIdStart ch || ch.isDigit
  · have hglue : n.glue = { n with malformed := true, stop := n.stop.skipWhile isIdContinue } :=
      if_pos hglued
    obtain ⟨ch, hch, hstart⟩ : ∃ ch, n.stop.peek? = some ch ∧ (isIdStart ch || ch.isDigit) := by
      simpa [Cursor.peekIs, Option.any_eq_true] using hglued
    obtain ⟨taken, hreads⟩ :=
      Cursor.reaches_skipWhile_of_peek hch (isIdContinue_of_glued hstart)
    rw [hglue]
    exact .inr ⟨rfl, rfl, rfl, ch :: taken, List.cons_ne_nil ch taken,
      (Cursor.reads_advance hch).append hreads⟩
  · exact .inl ⟨Bool.eq_false_iff.mpr hglued, if_neg hglued⟩

end Numeral

namespace Token

open Numeral (Starts Literal BigInteger Suffixed)

variable {c : Cursor}

/-- The token comes without a problem of this kind. -/
def Lacks (t : Token) (code : String) : Prop := ∀ issue ∈ t.issues, issue.code ≠ code

instance {t : Token} {code : String} : Decidable (t.Lacks code) := by
  unfold Lacks
  infer_instance

theorem scan_of_starts (hstart : Starts c) : scan c = scanNumber c := by
  obtain ⟨ch, hch, hnumber⟩ : ∃ ch, c.peek? = some ch ∧
      (ch.isDigit ∨ ch = '.' ∧ c.peekSecondIs Char.isDigit) := by
    rcases hstart with hdigit | ⟨hpoint, hsecond⟩
    · obtain ⟨ch, hch, hdigit⟩ : ∃ ch, c.peek? = some ch ∧ ch.isDigit := by
        simpa [Cursor.peekIs, Option.any_eq_true] using hdigit
      exact ⟨ch, hch, .inl hdigit⟩
    · exact ⟨'.', hpoint, .inr ⟨rfl, hsecond⟩⟩
  have hquotes : ¬ (ch = '"' ∨ ch = '\x27') := by
    rintro (rfl | rfl) <;> rcases hnumber with h | ⟨h, -⟩ <;> cases h
  have hbacktick : ch ≠ TemplateScan.backtick := by
    rintro rfl
    rcases hnumber with h | ⟨h, -⟩ <;> revert h <;> decide
  rw [scan, hch]
  dsimp only
  rw [if_neg hquotes, if_neg hbacktick, if_pos hnumber]

theorem issues_glue (n : Numeral) : n.glue.issues = n.issues := by
  rcases n.glue_cases with ⟨-, hglue⟩ | ⟨-, -, hissues, -⟩
  · rw [hglue]
  · exact hissues

/-- A number is reported as malformed exactly if it was. -/
theorem scanNumber_lacks_iff
    (hissues : ∀ issue ∈ (Numeral.read c).issues, issue.code ≠ "E067") :
    (scanNumber c).Lacks "E067" ↔ (Numeral.read c).glue.malformed = false := by
  constructor
  · intro hlacks
    by_contra hmalformed
    rw [Bool.not_eq_false] at hmalformed
    obtain ⟨issue, hmem, hcode⟩ : ∃ issue ∈ (scanNumber c).issues, issue.code = "E067" := by
      simp only [scanNumber, between, hmalformed, if_true]
      exact ⟨_, List.mem_append_right _ List.mem_cons_self, rfl⟩
    exact hlacks issue hmem hcode
  · intro hmalformed issue hmem
    have hgated (feature : String) (since : Edition) :
        (LexicalIssue.gated feature since c.position).code ≠ "E067" := by simp [LexicalIssue.gated]
    simp only [scanNumber, between, hmalformed, issues_glue, List.mem_append] at hmem
    rcases hmem with ((hmem | hmem) | hmem) | hmem
    · exact hissues issue hmem
    · split at hmem
      · rw [List.mem_singleton.mp hmem]
        exact hgated _ _
      · cases hmem
    · split at hmem
      · rw [List.mem_singleton.mp hmem]
        exact hgated _ _
      · cases hmem
    · cases hmem

/-- A number is the longest text that could be one. It is reported as malformed exactly if the
grammar does not derive this text; a name or a digit never follows one that is not reported. It is a
big integer exactly if the suffix stands in its place, and if it is not reported then its value is
the one that the grammar gives to its text. -/
theorem scan_number (hstart : Starts c) :
    c.Reads (scan c).raw.toList (scan c).stop ∧
      ((scan c).Lacks "E067" ↔ Literal (scan c).raw.toList) ∧
      ((scan c).Lacks "E067" →
        ((scan c).stop.peekIs fun ch => isIdStart ch || ch.isDigit) = false) ∧
      ((∃ v, (scan c).lexeme = .bigint v) ↔ Suffixed (scan c).raw.toList) ∧
      ∀ v, (scan c).lexeme = .bigint v → (scan c).Lacks "E067" →
        BigInteger (scan c).raw.toList v := by
  rw [scan_of_starts hstart]
  obtain ⟨text, hreads, htold⟩ := Numeral.read_told hstart
  have hraw {taken : List Char} (htaken : c.Reads taken (Numeral.read c).glue.stop) :
      (scanNumber c).raw.toList = taken := by
    change (String.ofList (c.charsTo (Numeral.read c).glue.stop)).toList = taken
    rw [htaken.charsTo_eq, String.toList_ofList]
  have hlexeme : (scanNumber c).lexeme = (Numeral.read c).glue.lexeme := rfl
  have hstop : (scanNumber c).stop = (Numeral.read c).glue.stop := rfl
  rw [scanNumber_lacks_iff htold.issues, hlexeme, hstop]
  -- A suffix in its place is read as such even if a name is glued to the number.
  have hbig {taken : List Char} (htaken : c.Reads taken (Numeral.read c).glue.stop)
      (hsuffixed : Suffixed taken) : ∃ v, (Numeral.read c).lexeme = .bigint v :=
    Numeral.exists_bigint hsuffixed htaken.rest_eq
  rcases (Numeral.read c).glue_cases with ⟨hfree, hglue⟩ | ⟨hmalformed, hsame, -, glued, hne, hmore⟩
  · rw [hraw (by rwa [hglue]), hglue]
    rw [hglue] at hbig
    refine ⟨hreads, ⟨htold.literal, fun hliteral => ?_⟩, fun _ => hfree,
      ⟨fun ⟨v, hv⟩ => htold.suffixed v hv, hbig hreads⟩, htold.value⟩
    exact (Numeral.read_complete hliteral hreads.rest_eq List.suffix_rfl).1
  · have htaken := hreads.append hmore
    rw [hraw htaken, hmalformed, hsame]
    refine ⟨htaken, ⟨nofun, fun hliteral => ?_⟩, nofun,
      ⟨fun ⟨v, hv⟩ => (htold.suffixed v hv).append glued, hbig htaken⟩, nofun⟩
    -- What the grammar derives would end where the name begins.
    obtain ⟨-, hrest⟩ := Numeral.read_complete hliteral htaken.rest_eq
      (Cursor.Reaches.suffix ⟨glued, hmore⟩)
    exact absurd (hmore.eq_nil_of_suffix (hrest ▸ List.suffix_rfl)) hne

/-- Separators among the digits of a big integer do not count for its value. -/
theorem scan_number_separated :
    Starts (Cursor.ofSource "1_0n;") ∧ (scan (Cursor.ofSource "1_0n;")).lexeme = .bigint 10 ∧
      (scan (Cursor.ofSource "1_0n;")).Lacks "E067" ∧ BigInteger ['1', '_', '0', 'n'] 10 := by
  have hstart : Starts (Cursor.ofSource "1_0n;") := by decide
  have hlexeme : (scan (Cursor.ofSource "1_0n;")).lexeme = .bigint 10 := rfl
  have hlacks : (scan (Cursor.ofSource "1_0n;")).Lacks "E067" := by decide
  have hraw : (scan (Cursor.ofSource "1_0n;")).raw.toList = ['1', '_', '0', 'n'] := rfl
  exact ⟨hstart, hlexeme, hlacks, hraw ▸ (scan_number hstart).2.2.2.2 10 hlexeme hlacks⟩

end Token

end ScriptLint
