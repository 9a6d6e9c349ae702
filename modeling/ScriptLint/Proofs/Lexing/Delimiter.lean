import ScriptLint.Proofs.Lexing.Extent

/-! # Where literals end

A string, a piece of a template and a regular expression are told from what follows by their
delimiters alone, and a small automaton finds these: it reads a character as it stands or, behind a
backslash, as one that the backslash takes. The scanners decode escapes on the way, of which each
takes as many characters as it can use and stops at the first one that it cannot. All it takes
behind its first character are digits and braces, so a delimiter is never among them, and the
scanners end where the automaton does.
-/

namespace ScriptLint

open Character (digitValue? isDigitOf isIdContinue isLineTerminator)

/-- How the next character of a literal is read. -/
inductive Phase where
  | plain
  /-- The character is the one that a backslash takes. -/
  | escaped
deriving Repr, DecidableEq

namespace Phase

/-- The phase behind a character that is read as it stands. -/
def behind (ch : Char) : Phase := if ch = '\\' then escaped else plain

/-- The body of a literal: the text in front of the first place where `ends` holds of what follows
and no backslash takes the next character. A backslash takes one character or a CRLF pair. -/
def body (ends : List Char → Bool) : Phase → List Char → List Char
  | _, [] => []
  | escaped, '\r' :: '\n' :: cs => '\r' :: '\n' :: body ends plain cs
  | escaped, ch :: cs => ch :: body ends plain cs
  | plain, ch :: cs => if ends (ch :: cs) then [] else ch :: body ends (behind ch) cs

/-- The body of a regular expression, inside a character class or not: the text in front of the
first slash outside of a class that no backslash takes, or in front of the end of the line. A
backslash takes no line terminator. -/
def pattern : Phase → (inClass : Bool) → List Char → List Char
  | _, _, [] => []
  | escaped, inClass, ch :: cs =>
    if isLineTerminator ch then [] else ch :: pattern plain inClass cs
  | plain, inClass, ch :: cs =>
    if isLineTerminator ch || (ch == '/' && !inClass) then []
    else
      ch :: pattern (behind ch) (if ch = '[' then true else if ch = ']' then false else inClass) cs

variable {ends : List Char → Bool} {ch : Char} {cs ds : List Char}

@[simp] theorem body_nil (phase : Phase) : body ends phase [] = [] := by
  cases phase <;> rfl

theorem body_of_ends (h : ends (ch :: cs) = true) : body ends plain (ch :: cs) = [] := by
  rw [body, if_pos h]

theorem ends_of_body_eq_nil (h : body ends plain (ch :: cs) = []) : ends (ch :: cs) = true := by
  rw [body] at h
  split at h
  next hends => exact hends
  next => cases h

theorem body_plain (h : ends (ch :: cs) = false) (hch : ch ≠ '\\') :
    body ends plain (ch :: cs) = ch :: body ends plain cs := by
  simp [body, h, behind, hch]

theorem body_backslash (h : ends ('\\' :: cs) = false) :
    body ends plain ('\\' :: cs) = '\\' :: body ends escaped cs := by
  simp [body, h, behind]

theorem body_escaped (h : ch ≠ '\r' ∨ cs.head? ≠ some '\n') :
    body ends escaped (ch :: cs) = ch :: body ends plain cs := by
  rw [body]
  rintro rest rfl rfl
  simp at h

/-- No delimiter begins at a backslash, a digit or a brace. -/
def Spares (ends : List Char → Bool) : Prop :=
  ∀ ch cs, ch = '\\' ∨ isDigitOf 16 ch ∨ ch = '\x7b' ∨ ch = '\x7d' → ends (ch :: cs) = false

/-- The characters that an escape may take behind its first one. -/
def IsEscapeRest (ds : List Char) : Prop := ∀ d ∈ ds, isDigitOf 16 d ∨ d = '\x7b' ∨ d = '\x7d'

theorem pattern_backslash (inClass : Bool) (cs : List Char) :
    pattern plain inClass ('\\' :: cs) = '\\' :: pattern escaped inClass cs := by
  cases inClass <;> rfl

theorem body_append (hends : Spares ends) (hds : IsEscapeRest ds) (cs : List Char) :
    body ends plain (ds ++ cs) = ds ++ body ends plain cs := by
  induction ds with
  | nil => rfl
  | cons d ds ih =>
      have hd := hds d List.mem_cons_self
      have hslash : d ≠ '\\' := by
        rintro rfl
        exact absurd hd (by decide)
      rw [List.cons_append, body_plain (hends d _ (.inr hd)) hslash,
        ih fun x hx => hds x (List.mem_cons_of_mem _ hx), List.cons_append]

/-- A string ends at its quote or at the end of its line. -/
def endsString (quote : Char) (cs : List Char) : Bool :=
  cs.head?.any [quote, '\n', '\r'].contains

/-- A piece of a template ends at a backtick or at the mark of a substitution. -/
def endsPiece (cs : List Char) : Bool :=
  cs.head? == some TemplateScan.backtick || ['$', '\x7b'].isPrefixOf cs

/-- No delimiter is a character that an escape may take. -/
theorem ne_of_taken {ch delimiter : Char}
    (hch : ch = '\\' ∨ isDigitOf 16 ch ∨ ch = '\x7b' ∨ ch = '\x7d')
    (hdelimiter : delimiter ∈ ['"', '\x27', '\n', '\r', TemplateScan.backtick, '$']) :
    ch ≠ delimiter := by
  have hnone : ∀ x ∈ ['"', '\x27', '\n', '\r', TemplateScan.backtick, '$'],
      ¬ (x = '\\' ∨ isDigitOf 16 x ∨ x = '\x7b' ∨ x = '\x7d') := by
    simp only [List.mem_cons, List.not_mem_nil, or_false, forall_eq_or_imp, forall_eq]
    decide
  rintro rfl
  exact hnone ch hdelimiter hch

theorem spares_endsString {quote : Char} (hquote : quote = '"' ∨ quote = '\x27') :
    Spares (endsString quote) := by
  intro ch cs hch
  rcases hquote with rfl | rfl <;> simp [endsString, ne_of_taken hch]

theorem spares_endsPiece : Spares endsPiece := by
  intro ch cs hch
  have hdollar : ('$' == ch) = false := beq_false_of_ne (ne_of_taken hch (by simp)).symm
  simp [endsPiece, List.isPrefixOf, ne_of_taken hch, hdollar]

end Phase

open Phase (IsEscapeRest Spares)

/-! ## What an escape takes -/

namespace Cursor

theorem isDigitOf_le {radix : Nat} (hradix : radix ≤ 16) {ch : Char} (h : isDigitOf radix ch) :
    isDigitOf 16 ch := by
  obtain ⟨value, hvalue⟩ := Option.isSome_iff_exists.mp h
  obtain ⟨hvalue, hlt⟩ := Option.filter_eq_some_iff.mp hvalue
  refine Option.isSome_iff_exists.mpr ⟨value, Option.filter_eq_some_iff.mpr ⟨hvalue, ?_⟩⟩
  simp only [decide_eq_true_eq] at hlt ⊢
  omega

theorem reads_digitsUpTo {radix : Nat} (hradix : radix ≤ 16) (count value : Nat) (c : Cursor) :
    ∃ ds, c.Reads ds (digitsUpTo radix count value c).2.2 ∧ IsEscapeRest ds := by
  induction count generalizing value c with
  | zero => exact ⟨[], .nil c, nofun⟩
  | succ count ih =>
      unfold digitsUpTo
      cases hdigit : c.peek?.bind (digitValue? radix) with
      | none => exact ⟨[], .nil c, nofun⟩
      | some digit =>
          obtain ⟨d, hpeek, hd⟩ := Option.bind_eq_some_iff.mp hdigit
          obtain ⟨ds, hreads, hds⟩ := ih (value * radix + digit) c.advance
          have hisDigit : isDigitOf 16 d := isDigitOf_le hradix (by simp [isDigitOf, hd])
          refine ⟨d :: ds, (reads_advance hpeek).append hreads, fun x hx => ?_⟩
          rcases List.mem_cons.mp hx with rfl | hx
          · exact .inl hisDigit
          · exact hds x hx

theorem reads_accept? {c d : Cursor} {expected : Char} (h : c.accept? expected = some d) :
    c.Reads [expected] d := by
  unfold accept? at h
  split at h
  next hpeek =>
    cases h
    exact reads_advance hpeek
  next => cases h

theorem reads_unicodeEscape (c : Cursor) :
    ∃ ds, c.Reads ds c.unicodeEscape.2 ∧ IsEscapeRest ds := by
  unfold unicodeEscape
  cases hopen : c.accept? '\x7b' with
  | none => exact reads_digitsUpTo (Nat.le_refl 16) 4 0 c
  | some d =>
      have hdigits : c.Reads ('\x7b' :: d.rest.takeWhile (isDigitOf 16))
          (d.skipWhile (isDigitOf 16)) :=
        (reads_accept? hopen).append (d.reads_skipWhile _)
      have hrest : IsEscapeRest ('\x7b' :: d.rest.takeWhile (isDigitOf 16)) := by
        intro x hx
        rcases List.mem_cons.mp hx with rfl | hx
        · exact .inr (.inl rfl)
        · exact .inl (List.all_eq_true.mp List.all_takeWhile x hx)
      dsimp only
      split
      · exact ⟨_, hdigits, hrest⟩
      · split
        · exact ⟨_, hdigits, hrest⟩
        next hclose =>
          refine ⟨_, hdigits.append (reads_accept? hclose), fun x hx => ?_⟩
          rcases List.mem_append.mp hx with hx | hx
          · exact hrest x hx
          · exact .inr (.inr (List.mem_singleton.mp hx))

end Cursor

open Cursor

/-- Behind its first character, an escape takes digits and braces only. -/
theorem Escape.reads_ofChar (inTemplate : Bool) (ch : Char) (after : Cursor) :
    ∃ ds, after.Reads ds (ofChar inTemplate ch after).stop ∧ IsEscapeRest ds := by
  have hnone : ∃ ds, after.Reads ds after ∧ IsEscapeRest ds := ⟨[], .nil after, nofun⟩
  unfold ofChar
  split
  · exact hnone
  · split
    · exact hnone
    · split
      · split
        · exact hnone
        · split
          · exact hnone
          · exact reads_digitsUpTo (by decide) _ _ after
      · split
        · exact reads_digitsUpTo (Nat.le_refl 16) 2 0 after
        · split
          · exact after.reads_unicodeEscape
          · exact hnone

/-! ## Going on inside of a body -/

/-- What lies between the first cursor and the second one belongs to the body that is read at the
first one, and the body goes on at the second one. -/
def Cursor.Inside (ends : List Char → Bool) (c d : Cursor) : Prop :=
  ∃ cs, c.Reads cs d ∧ Phase.body ends .plain c.rest = cs ++ Phase.body ends .plain d.rest

namespace Cursor.Inside

variable {ends : List Char → Bool} {c d e : Cursor} {ch : Char} {text : List Char}

theorem refl (c : Cursor) : c.Inside ends c := ⟨[], .nil c, rfl⟩

theorem trans (hcd : c.Inside ends d) (hde : d.Inside ends e) : c.Inside ends e := by
  obtain ⟨cs, hcs, hbody⟩ := hcd
  obtain ⟨ds, hds, hbody'⟩ := hde
  exact ⟨cs ++ ds, hcs.append hds, by rw [hbody, hbody', List.append_assoc]⟩

/-- A character that is read as it stands. -/
theorem plain (hc : c.rest = ch :: text) (hends : ends (ch :: text) = false) (hch : ch ≠ '\\') :
    c.Inside ends c.advance := by
  refine ⟨[ch], reads_advance_cons hc, ?_⟩
  rw [rest_advance hc, hc]
  exact Phase.body_plain hends hch

variable (hends : Spares ends)
include hends

/-- A backslash with what it takes. -/
theorem taken {cs : List Char} (hc : c.rest = '\\' :: text) (hreads : c.advance.Reads cs e)
    (hbody : Phase.body ends .escaped text = cs ++ Phase.body ends .plain e.rest) :
    c.Inside ends e := by
  refine ⟨'\\' :: cs, (reads_advance_cons hc).append hreads, ?_⟩
  rw [hc, Phase.body_backslash (hends _ _ (.inl rfl)), hbody, List.cons_append]

/-- A backslash at the end of the source takes nothing. -/
theorem last (hc : c.rest = ['\\']) : c.Inside ends c.advance := by
  refine taken hends hc (.nil _) ?_
  rw [rest_advance hc]
  simp

theorem lineEnd (hc : c.rest = '\\' :: ch :: text) (hline : isLineTerminator ch) :
    c.Inside ends c.advance.skipLineEnd := by
  have hadvance := rest_advance hc
  have hpeek : c.advance.peek? = some ch := by simp [peek?, hadvance]
  unfold skipLineEnd
  by_cases hreturn : ch = '\r'
  · subst hreturn
    rw [if_pos hpeek, skip, accept?]
    have hsecond := rest_advance hadvance
    by_cases hfeed : c.advance.advance.peek? = some '\n'
    · obtain ⟨rest, rfl⟩ : ∃ rest, text = '\n' :: rest := by
        rw [peek?, hsecond] at hfeed
        exact List.head?_eq_some_iff.mp hfeed
      rw [if_pos hfeed, Option.getD_some]
      refine taken hends hc ((reads_advance hpeek).append (reads_advance hfeed)) ?_
      rw [rest_advance hsecond]
      rfl
    · rw [if_neg hfeed, Option.getD_none]
      refine taken hends hc (reads_advance hpeek) ?_
      rw [peek?, hsecond] at hfeed
      rw [Phase.body_escaped (.inr hfeed), hsecond]
      rfl
  · rw [if_neg (by simpa [hpeek] using hreturn)]
    refine taken hends hc (reads_advance hpeek) ?_
    rw [Phase.body_escaped (.inl hreturn), rest_advance hadvance]
    rfl

theorem escape (inTemplate : Bool) (hc : c.rest = '\\' :: ch :: text)
    (hline : isLineTerminator ch = false) :
    c.Inside ends (Escape.read inTemplate c.advance).stop := by
  have hadvance := rest_advance hc
  have hread : Escape.read inTemplate c.advance =
      Escape.ofChar inTemplate ch c.advance.advance := by
    simp [Escape.read, peek?, hadvance]
  have hreturn : ch ≠ '\r' := by
    rintro rfl
    cases hline
  obtain ⟨ds, hreads, hds⟩ := Escape.reads_ofChar inTemplate ch c.advance.advance
  rw [hread]
  refine taken hends hc ((reads_advance_cons hadvance).append hreads) ?_
  have hrest := hreads.rest_eq
  rw [rest_advance hadvance] at hrest
  rw [Phase.body_escaped (.inl hreturn), hrest, Phase.body_append hends hds]
  rfl

theorem behindBackslash (inTemplate : Bool) (hc : c.rest = '\\' :: text) :
    c.Inside ends (c.behindBackslash inTemplate) := by
  have hadvance := rest_advance hc
  unfold Cursor.behindBackslash
  cases text with
  | nil =>
      have hpeek : c.advance.peek? = none := by simp [peek?, hadvance]
      rw [hpeek]
      exact .last hends hc
  | cons ch text =>
      have hpeek : c.advance.peek? = some ch := by simp [peek?, hadvance]
      rw [hpeek]
      dsimp only
      split
      next hline => exact .lineEnd hends hc hline
      next hline => exact .escape hends inTemplate hc (by simpa using hline)

end Cursor.Inside

/-! ## Strings -/

namespace StringScan

variable {quote : Char} {s : StringScan} {text : List Char}

theorem inside_escape {ends : List Char → Bool} (hends : Spares ends)
    (hc : s.stop.rest = '\\' :: text) : s.stop.Inside ends s.escape.stop :=
  s.stop_escape ▸ .behindBackslash hends false hc

/-- Reading on leads through the rest of the body and takes the quote behind it, if there is one. -/
theorem inside_finish (hquote : quote = '"' ∨ quote = '\x27') (start : Position) (s : StringScan) :
    ∃ d, s.stop.Inside (Phase.endsString quote) d ∧
      Phase.body (Phase.endsString quote) .plain d.rest = [] ∧
      (s.finish quote start).stop = if d.peek? = some quote then d.advance else d := by
  have hends := Phase.spares_endsString hquote
  fun_induction finish quote start s with
  | case1 s hpeek =>
      have hrest : s.stop.rest = [] := List.head?_eq_none_iff.mp hpeek
      exact ⟨s.stop, .refl _, by simp [hrest],
        by rw [hpeek, if_neg (Option.some_ne_none _).symm]⟩
  | case2 s ch hpeek hline =>
      obtain ⟨text, hrest⟩ := List.head?_eq_some_iff.mp hpeek
      have hdelimits : Phase.endsString quote (ch :: text) = true := by
        rcases hline with rfl | rfl <;> simp [Phase.endsString]
      have hne : ch ≠ quote := by
        rintro rfl
        rcases hquote with rfl | rfl <;> revert hline <;> decide
      exact ⟨s.stop, .refl _, by rw [hrest, Phase.body_of_ends hdelimits],
        by rw [hpeek, if_neg (by simpa using hne)]⟩
  | case3 s hpeek hline =>
      obtain ⟨text, hrest⟩ := List.head?_eq_some_iff.mp hpeek
      have hdelimits : Phase.endsString quote (quote :: text) = true := by
        simp [Phase.endsString]
      exact ⟨s.stop, .refl _, by rw [hrest, Phase.body_of_ends hdelimits],
        by rw [hpeek, if_pos rfl]⟩
  | case4 s hpeek _ _ ih =>
      obtain ⟨text, hrest⟩ := List.head?_eq_some_iff.mp hpeek
      obtain ⟨d, hinside, hd⟩ := ih
      exact ⟨d, (inside_escape hends hrest).trans hinside, hd⟩
  | case5 s ch hpeek hline hne hslash ih =>
      obtain ⟨text, hrest⟩ := List.head?_eq_some_iff.mp hpeek
      obtain ⟨d, hinside, hd⟩ := ih
      have hgoes : Phase.endsString quote (ch :: text) = false := by
        simpa [Phase.endsString, hne] using hline
      exact ⟨d, (Cursor.Inside.plain hrest hgoes hslash).trans hinside, hd⟩

end StringScan

/-! ## Templates -/

namespace TemplateScan

variable {s : TemplateScan} {text : List Char}

theorem inside_escape {ends : List Char → Bool} (hends : Spares ends)
    (hc : s.stop.rest = '\\' :: text) : s.stop.Inside ends s.escape.stop :=
  s.stop_escape ▸ .behindBackslash hends true hc

/-- Reading on leads through the rest of the body and takes the delimiter behind it, if there is
one. -/
theorem inside_finish (start : Position) (s : TemplateScan) :
    ∃ d, s.stop.Inside Phase.endsPiece d ∧ Phase.body Phase.endsPiece .plain d.rest = [] ∧
      (s.finish start).stop =
        if d.peek? = none then d else if d.peek? = some backtick then d.advance
        else d.advance.advance := by
  have hends := Phase.spares_endsPiece
  fun_induction finish start s with
  | case1 s hpeek =>
      have hrest : s.stop.rest = [] := List.head?_eq_none_iff.mp hpeek
      exact ⟨s.stop, .refl _, by simp [hrest], by rw [if_pos hpeek]⟩
  | case2 s hpeek =>
      obtain ⟨text, hrest⟩ := List.head?_eq_some_iff.mp hpeek
      have hdelimits : Phase.endsPiece (backtick :: text) = true := by simp [Phase.endsPiece]
      exact ⟨s.stop, .refl _, by rw [hrest, Phase.body_of_ends hdelimits],
        by rw [hpeek, if_neg (Option.some_ne_none _), if_pos rfl]⟩
  | case3 s ch hpeek hne hmark =>
      obtain ⟨text, hrest⟩ := List.head?_eq_some_iff.mp hpeek
      obtain ⟨rfl, hsecond⟩ := hmark
      have hdelimits : Phase.endsPiece ('$' :: text) = true := by
        rw [peekSecond?, hrest] at hsecond
        obtain ⟨x, rest, rfl⟩ : ∃ x rest, text = x :: rest := by
          cases text with
          | nil => cases hsecond
          | cons x rest => exact ⟨x, rest, rfl⟩
        obtain rfl : x = '\x7b' := by simpa using hsecond
        simp [Phase.endsPiece, List.isPrefixOf]
      exact ⟨s.stop, .refl _, by rw [hrest, Phase.body_of_ends hdelimits],
        by rw [hpeek, if_neg (Option.some_ne_none _), if_neg (by simpa using hne)]⟩
  | case4 s hpeek _ _ ih =>
      obtain ⟨text, hrest⟩ := List.head?_eq_some_iff.mp hpeek
      obtain ⟨d, hinside, hd⟩ := ih
      exact ⟨d, (inside_escape hends hrest).trans hinside, hd⟩
  | case5 s ch hpeek hne hmark hslash ih =>
      obtain ⟨text, hrest⟩ := List.head?_eq_some_iff.mp hpeek
      obtain ⟨d, hinside, hd⟩ := ih
      have hgoes : Phase.endsPiece (ch :: text) = false := by
        rw [peekSecond?, hrest] at hmark
        rw [Phase.endsPiece, Bool.or_eq_false_iff]
        refine ⟨by simpa using hne, ?_⟩
        cases text with
        | nil => simp [List.isPrefixOf]
        | cons x rest =>
            refine Bool.eq_false_iff.mpr fun hprefix => hmark ?_
            obtain ⟨hfirst, hsecond⟩ : '$' = ch ∧ '\x7b' = x := by
              simpa [List.isPrefixOf] using hprefix
            exact ⟨hfirst.symm, by simp [← hsecond]⟩
      exact ⟨d, (Cursor.Inside.plain hrest hgoes hslash).trans hinside, hd⟩

end TemplateScan

/-! ## Regular expressions -/

namespace PatternScan

variable {s : PatternScan} {ch : Char} {text : List Char}

/-- Reading on takes the rest of the body, and the slash behind it if there is one. -/
structure Finishes (s : PatternScan) (d : Cursor) : Prop where
  reads : s.stop.Reads (Phase.pattern .plain s.inClass s.stop.rest) d
  reversed_eq : s.finish.reversed =
    (Phase.pattern .plain s.inClass s.stop.rest).reverse ++ s.reversed
  closed_eq : s.finish.closed = (s.closed || d.peek? == some '/')
  stop_eq : s.finish.stop = if d.peek? = some '/' then d.advance else d

/-- What is taken on the way belongs to the body. -/
theorem Finishes.of_taken {s' : PatternScan} {cs : List Char} {d : Cursor} (h : s'.Finishes d)
    (hfinish : s.finish = s'.finish) (hreads : s.stop.Reads cs s'.stop)
    (hpattern : Phase.pattern .plain s.inClass s.stop.rest =
      cs ++ Phase.pattern .plain s'.inClass s'.stop.rest)
    (hreversed : s'.reversed = cs.reverse ++ s.reversed) (hclosed : s'.closed = s.closed) :
    s.Finishes d where
  reads := by
    rw [hpattern]
    exact hreads.append h.reads
  reversed_eq := by
    rw [hfinish, h.reversed_eq, hreversed, hpattern, List.reverse_append, List.append_assoc]
  closed_eq := by rw [hfinish, h.closed_eq, hclosed]
  stop_eq := by rw [hfinish, h.stop_eq]

/-- A backslash is taken with the character behind it, or alone at the end of the line. -/
theorem exists_taken_escape (hc : s.stop.rest = '\\' :: text) :
    ∃ cs, s.stop.Reads cs s.escape.stop ∧ s.escape.reversed = cs.reverse ++ s.reversed ∧
      s.escape.closed = s.closed ∧ Phase.pattern .plain s.inClass s.stop.rest =
        cs ++ Phase.pattern .plain s.escape.inClass s.escape.stop.rest := by
  have hadvance := rest_advance hc
  have hslash := reads_advance_cons hc
  unfold escape take
  dsimp only
  rw [hc, Phase.pattern_backslash]
  cases text with
  | nil =>
      have hpeek : s.stop.advance.peek? = none := by simp [peek?, hadvance]
      rw [hpeek]
      exact ⟨['\\'], hslash, rfl, rfl, by simp [hadvance, Phase.pattern]⟩
  | cons ch text =>
      have hpeek : s.stop.advance.peek? = some ch := by simp [peek?, hadvance]
      rw [hpeek]
      dsimp only
      split
      next hline =>
        exact ⟨['\\'], hslash, rfl, rfl, by simp [hadvance, Phase.pattern, hline]⟩
      next hline =>
        refine ⟨['\\', ch], hslash.append (reads_advance_cons hadvance), rfl, rfl, ?_⟩
        simp [rest_advance hadvance, Phase.pattern, hline]

theorem finish_of_peek (hpeek : s.stop.peek? = some ch) :
    s.finish =
      if isLineTerminator ch then s
      else if ch = '\\' then s.escape.finish
      else if ch = '/' ∧ ¬s.inClass then { s with closed := true, stop := s.stop.advance }
      else finish { s.take ch with
        inClass := if ch = '[' then true else if ch = ']' then false else s.inClass } := by
  rw [finish]
  split
  next hnone => exact absurd (hpeek.symm.trans hnone) (Option.some_ne_none _)
  next x hx =>
    obtain rfl := Option.some.inj (hpeek.symm.trans hx)
    rfl

theorem finish_of_none (hpeek : s.stop.peek? = none) : s.finish = s := by
  rw [finish]
  split
  next => rfl
  next hsome => exact absurd (hsome.symm.trans hpeek) (Option.some_ne_none _)

theorem exists_finishes (s : PatternScan) : ∃ d, s.Finishes d := by
  fun_induction finish s with
  | case1 s hpeek =>
      have hfinish := finish_of_none hpeek
      have hpattern : Phase.pattern .plain s.inClass s.stop.rest = [] := by
        rw [List.head?_eq_none_iff.mp hpeek, Phase.pattern]
      exact ⟨s.stop, hpattern ▸ .nil _, by simp [hfinish, hpattern], by simp [hfinish, hpeek],
        by simp [hfinish, hpeek]⟩
  | case2 s ch hpeek hline =>
      have hfinish := (finish_of_peek hpeek).trans (if_pos hline)
      obtain ⟨text, hrest⟩ := List.head?_eq_some_iff.mp hpeek
      have hpattern : Phase.pattern .plain s.inClass s.stop.rest = [] := by
        simp [hrest, Phase.pattern, hline]
      have hslash : ch ≠ '/' := by
        rintro rfl
        cases hline
      exact ⟨s.stop, hpattern ▸ .nil _, by simp [hfinish, hpattern],
        by simp [hfinish, hpeek, hslash], by simp [hfinish, hpeek, hslash]⟩
  | case3 s hpeek hline ih =>
      have hfinish := (finish_of_peek hpeek).trans ((if_neg hline).trans (if_pos rfl))
      obtain ⟨text, hrest⟩ := List.head?_eq_some_iff.mp hpeek
      obtain ⟨d, hd⟩ := ih
      obtain ⟨cs, hreads, hreversed, hclosed, hpattern⟩ := exists_taken_escape hrest
      exact ⟨d, hd.of_taken hfinish hreads hpattern hreversed hclosed⟩
  | case4 s ch hpeek hline hslash hclose =>
      have hfinish := (finish_of_peek hpeek).trans
        ((if_neg hline).trans ((if_neg hslash).trans (if_pos hclose)))
      obtain ⟨text, hrest⟩ := List.head?_eq_some_iff.mp hpeek
      obtain ⟨rfl, houtside⟩ := hclose
      have hpattern : Phase.pattern .plain s.inClass s.stop.rest = [] := by
        simp [hrest, Phase.pattern, houtside]
      exact ⟨s.stop, hpattern ▸ .nil _, by simp [hfinish, hpattern], by simp [hfinish, hpeek],
        by simp [hfinish, hpeek]⟩
  | case5 s ch hpeek hline hslash hclose inClass ih =>
      have hfinish := (finish_of_peek hpeek).trans
        ((if_neg hline).trans ((if_neg hslash).trans (if_neg hclose)))
      obtain ⟨text, hrest⟩ := List.head?_eq_some_iff.mp hpeek
      obtain ⟨d, hd⟩ := ih
      have hgoes : (isLineTerminator ch || (ch == '/' && !s.inClass)) = false := by
        simpa [hline] using hclose
      refine ⟨d, hd.of_taken hfinish (reads_advance hpeek) ?_ rfl rfl⟩
      rw [hrest, Phase.pattern, hgoes, if_neg (by decide), Phase.behind, if_neg hslash]
      exact congrArg (ch :: ·) (congrArg _ (rest_advance hrest).symm)

end PatternScan

/-! ## The literals -/

namespace Token

variable {c : Cursor} {first : Char} {text : List Char}

theorem covers_between {lexeme : Lexeme} {stop : Cursor} {cs : List Char} (flags : TokenFlags)
    (issues : List LexicalIssue) (hreads : c.Reads cs stop) :
    (between lexeme c stop flags issues).Covers cs :=
  ⟨hreads, congrArg String.ofList hreads.charsTo_eq⟩

/-- What stands behind the body, where reading has come to its end. -/
theorem drop_body {ends : List Char → Bool} {d : Cursor} (hc : c.rest = first :: text)
    (hinside : c.advance.Inside ends d) (hend : Phase.body ends .plain d.rest = []) :
    c.Reads (first :: Phase.body ends .plain text) d ∧
      d.rest = text.drop (Phase.body ends .plain text).length := by
  obtain ⟨cs, hreads, hbody⟩ := hinside
  rw [rest_advance hc, hend, List.append_nil] at hbody
  subst hbody
  have hrest := hreads.rest_eq
  rw [rest_advance hc] at hrest
  refine ⟨(reads_advance_cons hc).append hreads, ?_⟩
  have hdrop := congrArg (List.drop (Phase.body ends .plain text).length) hrest
  rw [List.drop_left] at hdrop
  exact hdrop.symm

theorem scanString_covers {quote : Char} (hquote : quote = '"' ∨ quote = '\x27')
    (hc : c.rest = first :: text) :
    let body := Phase.body (Phase.endsString quote) .plain text
    (scanString quote c).Covers
      (first :: body ++ if text[body.length]? = some quote then [quote] else []) := by
  intro body
  obtain ⟨d, hinside, hend, hstop⟩ :=
    StringScan.inside_finish hquote c.position { stop := c.advance }
  obtain ⟨hreads, hrest⟩ := drop_body hc hinside hend
  have hpeek : d.peek? = text[body.length]? := by rw [peek?, hrest, List.head?_drop]
  refine covers_between _ _ ?_
  rw [hstop, hpeek]
  split
  next hclosed => exact hreads.append (reads_advance (hpeek.trans hclosed))
  next => exact (List.append_nil _).symm ▸ hreads

theorem scanTemplate_covers (opening : Bool) (hc : c.rest = first :: text) :
    let body := Phase.body Phase.endsPiece .plain text
    (scanTemplate opening c).Covers
      (first :: body ++ if text[body.length]? = some TemplateScan.backtick
        then [TemplateScan.backtick] else (text.drop body.length).take 2) := by
  intro body
  obtain ⟨d, hinside, hend, hstop⟩ := TemplateScan.inside_finish c.position { stop := c.advance }
  obtain ⟨hreads, hrest⟩ := drop_body hc hinside hend
  have hpeek : d.peek? = text[body.length]? := by rw [peek?, hrest, List.head?_drop]
  refine covers_between _ _ ?_
  rw [← hpeek, ← hrest]
  cases hd : d.rest with
  | nil =>
      have hpeek : d.peek? = none := by rw [peek?, hd]; rfl
      rw [hpeek, if_pos rfl] at hstop
      rw [hpeek, if_neg (Option.some_ne_none _).symm, List.take_nil, List.append_nil, hstop]
      exact hreads
  | cons ch rest =>
      have hpeek : d.peek? = some ch := by rw [peek?, hd]; rfl
      rw [hpeek, if_neg (Option.some_ne_none _)] at hstop
      rw [hpeek, hstop]
      split
      next hclosed => exact hreads.append (reads_advance (hpeek.trans hclosed))
      next hclosed =>
        rw [hd] at hend
        -- What ends a piece and is no backtick is the mark of a substitution.
        have hends := (Bool.or_eq_true_iff.mp (Phase.ends_of_body_eq_nil hend)).resolve_left
          (by simpa using hclosed)
        obtain ⟨rest, hmark⟩ := List.isPrefixOf_iff_prefix.mp hends
        obtain ⟨rfl, rfl⟩ := List.cons.inj hmark
        have hsecond := reads_advance_cons (rest_advance hd)
        exact hreads.append ((reads_advance hpeek).append hsecond)

/-- A slash read again ends behind the body and the flags. -/
theorem rescanRegexp_of_reads {t : Token} {s : PatternScan} {cs : List Char}
    (hs : PatternScan.finish { stop := t.start.advance } = s)
    (hreads : t.start.Reads cs (if s.closed then s.stop.skipWhile isIdContinue else s.stop)) :
    t.rescanRegexp.lexeme = .regexp (String.ofList s.reversed.reverse)
        (if s.closed then s.stop.textTo (s.stop.skipWhile isIdContinue) else "") ∧
      t.rescanRegexp.Covers cs := by
  subst hs
  refine ⟨?_, hreads, congrArg String.ofList hreads.charsTo_eq⟩
  unfold rescanRegexp
  dsimp only [between]
  split <;> rfl

theorem rescanRegexp_covers {t : Token} (hc : t.start.rest = first :: text) :
    let pattern := Phase.pattern .plain false text
    let flags := (text.drop (pattern.length + 1)).takeWhile isIdContinue
    if text[pattern.length]? = some '/' then
      t.rescanRegexp.lexeme = .regexp (String.ofList pattern) (String.ofList flags) ∧
        t.rescanRegexp.Covers (first :: pattern ++ '/' :: flags)
    else
      t.rescanRegexp.lexeme = .regexp (String.ofList pattern) "" ∧
        t.rescanRegexp.Covers (first :: pattern) := by
  intro pattern flags
  obtain ⟨d, hreads, hreversed, hclosed, hstop⟩ :=
    PatternScan.exists_finishes { stop := t.start.advance }
  generalize hs : PatternScan.finish { stop := t.start.advance } = s at hreversed hclosed hstop
  have hpattern : Phase.pattern .plain false t.start.advance.rest = pattern := by
    rw [rest_advance hc]
  rw [hpattern] at hreads hreversed
  rw [List.append_nil] at hreversed
  rw [Bool.false_or] at hclosed
  have hbody : t.start.Reads (first :: pattern) d := (reads_advance_cons hc).append hreads
  have hrest := congrArg (List.drop pattern.length) hreads.rest_eq
  rw [List.drop_left, rest_advance hc] at hrest
  have hpeek : d.peek? = text[pattern.length]? := by rw [peek?, ← hrest, List.head?_drop]
  rw [← hpeek]
  split
  next hslash =>
    rw [hslash, beq_self_eq_true] at hclosed
    rw [if_pos hslash] at hstop
    have hread := d.advance.reads_skipWhile isIdContinue
    have hflags : d.advance.rest.takeWhile isIdContinue = flags := by
      obtain ⟨rest, hd⟩ := List.head?_eq_some_iff.mp hslash
      rw [rest_advance hd]
      unfold flags
      rw [← List.tail_drop, hrest, hd, List.tail_cons]
    rw [hflags] at hread
    have hcovers := hbody.append ((reads_advance hslash).append hread)
    obtain ⟨hlexeme, hcovers⟩ := rescanRegexp_of_reads hs (by rwa [if_pos hclosed, hstop])
    refine ⟨?_, hcovers⟩
    rw [hlexeme, hreversed, if_pos hclosed, hstop, List.reverse_reverse, textTo, hread.charsTo_eq]
  next hslash =>
    rw [beq_eq_false_iff_ne.mpr hslash] at hclosed
    rw [if_neg hslash] at hstop
    have hopen : ¬ s.closed = true := by simp [hclosed]
    obtain ⟨hlexeme, hcovers⟩ := rescanRegexp_of_reads hs (by rwa [if_neg hopen, hstop])
    refine ⟨?_, hcovers⟩
    rw [hlexeme, hreversed, if_neg hopen, List.reverse_reverse]

/-- Strings, pieces of templates and regular expressions take their first character, the body that
the automaton finds, and what delimits it, whatever escapes there are. -/
theorem ends_at_delimiter :
    (∀ (quote : Char) (c : Cursor) (text : List Char), quote = '"' ∨ quote = '\x27' →
      c.rest = quote :: text →
        let body := Phase.body (Phase.endsString quote) .plain text
        (scanString quote c).start = c ∧ (scanString quote c).Covers
          (quote :: body ++ if text[body.length]? = some quote then [quote] else [])) ∧
    (∀ (opening : Bool) (first : Char) (c : Cursor) (text : List Char), c.rest = first :: text →
      let body := Phase.body Phase.endsPiece .plain text
      (scanTemplate opening c).start = c ∧ (scanTemplate opening c).Covers
        (first :: body ++ if text[body.length]? = some TemplateScan.backtick
          then [TemplateScan.backtick] else (text.drop body.length).take 2)) ∧
    ∀ (t : Token) (text : List Char), t.start.rest = '/' :: text →
      let pattern := Phase.pattern .plain false text
      let flags := (text.drop (pattern.length + 1)).takeWhile isIdContinue
      t.rescanRegexp.start = t.start ∧
        if text[pattern.length]? = some '/' then
          t.rescanRegexp.lexeme = .regexp (String.ofList pattern) (String.ofList flags) ∧
            t.rescanRegexp.Covers ('/' :: pattern ++ '/' :: flags)
        else
          t.rescanRegexp.lexeme = .regexp (String.ofList pattern) "" ∧
            t.rescanRegexp.Covers ('/' :: pattern) :=
  ⟨fun _ _ _ hquote hc => ⟨rfl, scanString_covers hquote hc⟩,
    fun opening _ _ _ hc => ⟨rfl, scanTemplate_covers opening hc⟩,
    fun _ _ hc => ⟨rfl, rescanRegexp_covers hc⟩⟩

/-- Escapes that a delimiter cuts off, and a class with slashes in it. -/
theorem ends_at_delimiter_cut :
    (scanString '"' (.ofSource "\"\\x4\"+\"\"")).raw = "\"\\x4\"" ∧
      (scanTemplate true (.ofSource "`\\u\x7b4`\x7d`")).raw = "`\\u\x7b4`" ∧
      (next (.ofSource "/[/\\]/]/g;")).rescanRegexp.raw = "/[/\\]/]/g" := by
  obtain ⟨hstrings, htemplates, hpatterns⟩ := ends_at_delimiter
  have hstring := (hstrings '"' (.ofSource "\"\\x4\"+\"\"") _ (.inl rfl) rfl).2.raw_eq
  have htemplate := (htemplates true _ (.ofSource "`\\u\x7b4`\x7d`") _ rfl).2.raw_eq
  have hpattern := hpatterns (next (.ofSource "/[/\\]/]/g;"))
    ['[', '/', '\\', ']', '/', ']', '/', 'g', ';'] (by decide +kernel)
  refine ⟨hstring.trans (by decide +kernel), htemplate.trans (by decide +kernel), ?_⟩
  exact hpattern.2.2.raw_eq.trans (by decide +kernel)

end Token

end ScriptLint
