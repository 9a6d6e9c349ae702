import ScriptLint.Proofs.Core.Front
import ScriptLint.Proofs.Nesting.Walk
import ScriptLint.Proofs.Reading.Opening

/-! # Groups of the core

A bracket of the core opens an expression, never the parameters of an arrow function or a pattern
that is assigned to. The search for the end of a group need not be followed for that: whichever
closing bracket it ends with, there is no `=>` and no `=` behind any of them.
-/

namespace ScriptLint.Core

open Character (isIdStart isIdContinue)
open Reading (NoTarget GroupScan)

/-! ## Texts without targets -/

/-- The characters that close a group. -/
def closers : List Char := [')', ']', '\x7d']

/-- The token is no mark of an assignment or of an arrow function. -/
def IsNoTarget (t : Token) : Prop := t.isPunctuator "=" = false ∧ t.isPunctuator "=>" = false

/-- There is no such mark behind any character of the text that may close a group. -/
def Tame (text : List Char) : Prop :=
  ∀ ch ∈ closers, ∀ c : Cursor, ch :: c.rest <:+ text → IsNoTarget (Token.next c)

theorem Tame.of_suffix {text rest : List Char} (h : Tame text) (hrest : rest <:+ text) :
    Tame rest :=
  fun ch hch c hc => h ch hch c (hc.trans hrest)

theorem isNoTarget_of_lexeme {t : Token} (h : t.lexeme ≠ .punctuator) : IsNoTarget t := by
  constructor <;> exact Bool.eq_false_iff.mpr fun heq => h (Token.isPunctuator_iff.mp heq).1

theorem suffix_of_follows {t : Token} {c : Cursor} (ht : t.Follows c) :
    t.stop.rest <:+ t.start.rest ∧ t.start.rest <:+ c.rest := by
  obtain ⟨gap, hgap, -⟩ := ht.gap
  obtain ⟨cs, hcovers, -⟩ := ht.text
  exact ⟨⟨cs, hcovers.reads.rest_eq.symm⟩, ⟨gap, hgap.rest_eq.symm⟩⟩

/-- The search ends with the input or behind a closing bracket. -/
theorem step_closes {s : GroupScan} {t : Token} (hstep : s.step = .inr t) :
    t.lexeme = .endOfInput ∨
      ∃ ch ∈ closers, ch :: s.taken.stop.rest <:+ s.stop.rest ∧ t = Token.next s.taken.stop := by
  have htaken := s.taken_follows
  unfold GroupScan.step at hstep
  dsimp only at hstep
  rw [← GroupScan.taken_eq] at hstep
  generalize s.taken = u at hstep htaken ⊢
  split at hstep
  next hlexeme => exact .inl (Sum.inr.inj hstep ▸ hlexeme)
  · cases hstep
  · split at hstep
    · cases hstep
    · split at hstep
      · cases hstep
      · split at hstep
        next hcloses =>
          split at hstep
          · obtain ⟨cs, hcovers, -⟩ := htaken.text
            have hmem : u.raw ∈ [")", "]", "\x7d"] := by simpa using hcloses
            obtain ⟨ch, hch, hraw⟩ : ∃ ch ∈ closers, u.raw = String.ofList [ch] := by
              revert hmem
              generalize u.raw = raw
              simp only [List.mem_cons, List.not_mem_nil, or_false]
              rintro (rfl | rfl | rfl)
              · exact ⟨')', by decide, rfl⟩
              · exact ⟨']', by decide, rfl⟩
              · exact ⟨'\x7d', by decide, rfl⟩
            obtain rfl : cs = [ch] := String.ofList_injective (hcovers.raw_eq.symm.trans hraw)
            refine .inr ⟨ch, hch, ?_, (Sum.inr.inj hstep).symm⟩
            have hstart : u.start.rest = ch :: u.stop.rest := hcovers.reads.rest_eq
            exact hstart ▸ (suffix_of_follows htaken).2
          · cases hstep
        · cases hstep
  · cases hstep

/-- Behind a group in such a text there is no assignment and no arrow. -/
theorem Tame.run {s : GroupScan} (h : Tame s.stop.rest) {fuel : Nat} {t : Token}
    (hrun : s.run fuel = some t) : IsNoTarget t := by
  induction fuel generalizing s with
  | zero => cases hrun
  | succ fuel ih =>
      unfold GroupScan.run at hrun
      cases hstep : s.step with
      | inr t' =>
          rw [hstep] at hrun
          cases hrun
          rcases step_closes hstep with hend | ⟨ch, hch, hsuffix, rfl⟩
          · exact isNoTarget_of_lexeme (by simp [hend])
          · exact h ch hch _ hsuffix
      | inl s' =>
          rw [hstep] at hrun
          refine ih (h.of_suffix ?_) hrun
          have htaken := suffix_of_follows s.taken_follows
          rcases GroupScan.step_stop hstep with ⟨-, hstop⟩ | ⟨hbrace, hstop⟩
          · exact hstop ▸ htaken.1.trans htaken.2
          · have hend := Token.isEnd_eq_false_of_isPunctuator hbrace
            obtain ⟨ch, hch⟩ := s.taken_follows.exists_peek hend
            have hpiece := suffix_of_follows
              (s.taken_follows.of_begins hend (Token.rescanTemplate_begins hch) rfl)
            exact hstop ▸ hpiece.1.trans hpiece.2

/-! ## Words without targets -/

/-- A mark of an assignment comes after names only. -/
inductive Calm : List Word → Prop
  | nil : Calm []
  | cons {w : Word} {ws : List Word} : w ≠ .mark .assign → Calm ws → Calm (w :: ws)
  | assign {x : Name} {ws : List Word} : Calm ws → Calm (.name x :: .mark .assign :: ws)

theorem Calm.head_ne {w : Word} {ws : List Word} (h : Calm (w :: ws)) : w ≠ .mark .assign := by
  cases h with
  | cons hw => exact hw
  | assign => nofun

theorem not_mem_closers_of_isIdContinue {ch : Char} (h : isIdContinue ch) : ch ∉ closers := by
  intro hmem
  simp only [closers, List.mem_cons, List.not_mem_nil, or_false] at hmem
  rcases hmem with rfl | rfl | rfl <;> revert h <;> decide

theorem not_mem_closers_of_isIdStart {ch : Char} (h : isIdStart ch) : ch ∉ closers := by
  intro hmem
  simp only [closers, List.mem_cons, List.not_mem_nil, or_false] at hmem
  rcases hmem with rfl | rfl | rfl <;> revert h <;> decide

theorem not_mem_closers_of_isAlpha {ch : Char} (h : ch.isAlpha) : ch ∉ closers :=
  of_isAlpha (p := (· ∉ closers)) (by decide) h

theorem not_mem_closers_of_all {text : List Char} (h : text.all (!closers.contains ·)) {ch : Char}
    (hmem : ch ∈ text) : ch ∉ closers := by
  have hfree := List.all_eq_true.mp h ch hmem
  simpa using hfree

/-- The characters that close a group stand in few words, as a mark of their own or at the beginning
of a piece of a template. -/
theorem closes_in_word {w : Word} {before after : List Char} {ch : Char} (hch : ch ∈ closers)
    (hw : w.text.toList = before ++ ch :: after) :
    (∀ x, w ≠ .name x) ∧
      (after = [] ∨ ∃ (t : Letters) (more : Bool), after = t.text.toList ++ pieceCloser more) := by
  have hmem : ch ∈ w.text.toList := hw ▸ List.mem_append_right _ List.mem_cons_self
  have hpiece (more : Bool) (hend : ch ∈ pieceCloser more) : ch ∉ closers :=
    not_mem_closers_of_all (by cases more <;> decide) hend
  cases w with
  | mark m =>
      have hsingle : m.text.toList = [ch] := by
        change ch ∈ m.text.toList at hmem
        simp only [closers, List.mem_cons, List.not_mem_nil, or_false] at hch
        rcases hch with rfl | rfl | rfl <;> revert hmem <;> cases m <;> decide
      have hlength := congrArg List.length (hsingle.symm.trans hw)
      refine ⟨fun _ => Word.noConfusion, .inl (List.length_eq_zero_iff.mp ?_)⟩
      simp only [List.length_append, List.length_cons, List.length_nil] at hlength
      omega
  | unary operator =>
      have hnone : ∀ text ∈ unaryOperators, text.toList.all (!closers.contains ·) := by
        decide
      exact absurd hch (not_mem_closers_of_all (hnone _ operator.mem) hmem)
  | binary operator =>
      have hnone : ∀ text ∈ binaryOperators, text.toList.all (!closers.contains ·) := by
        decide
      exact absurd hch (not_mem_closers_of_all (hnone _ operator.mem) hmem)
  | name x =>
      have hfirst := x.first
      have hrest := x.rest
      change ch ∈ x.text.toList at hmem
      cases htext : x.text.toList with
      | nil => simp [htext] at hmem
      | cons first rest =>
          rw [htext] at hfirst hrest hmem
          rcases List.mem_cons.mp hmem with rfl | htail
          · exact absurd hch (not_mem_closers_of_isIdStart (by simpa using hfirst))
          · exact absurd hch (not_mem_closers_of_isIdContinue (List.all_eq_true.mp hrest ch htail))
  | number n =>
      exact absurd hch (of_isDigit (p := (· ∉ closers)) (by decide) (n.isNumber.digits ch hmem))
  | string q t =>
      have hquote : q.char ∉ closers := by cases q <;> decide
      have hcases : ch = q.char ∨ ch ∈ t.text.toList ∨ ch = q.char := by
        simpa [Word.text, or_assoc] using hmem
      rcases hcases with rfl | hletter | rfl
      · exact absurd hch hquote
      · exact absurd hch (not_mem_closers_of_isAlpha (t.isAlpha ch hletter))
      · exact absurd hch hquote
  | opening t more =>
      have hcases : ch = TemplateScan.backtick ∨ ch ∈ t.text.toList ∨ ch ∈ pieceCloser more := by
        simpa [Word.text, ← toList_pieceEnd, TemplateScan.backtick] using hmem
      rcases hcases with rfl | hletter | hend
      · exact absurd hch (by decide)
      · exact absurd hch (not_mem_closers_of_isAlpha (t.isAlpha ch hletter))
      · exact absurd hch (hpiece more hend)
  | continuing t more =>
      rw [Word.text_continuing] at hw
      refine ⟨fun _ => Word.noConfusion, .inr ⟨t, more, ?_⟩⟩
      -- Behind its first character a piece has none of them.
      cases before with
      | nil => exact (List.cons.inj hw).2.symm
      | cons x before =>
          have hrest : ch ∈ t.text.toList ++ pieceCloser more :=
            (List.cons.inj hw).2 ▸ List.mem_append_right _ List.mem_cons_self
          rcases List.mem_append.mp hrest with hletter | hend
          · exact absurd hch (not_mem_closers_of_isAlpha (t.isAlpha ch hletter))
          · exact absurd hch (hpiece more hend)

/-- What closes a group stands in the first word or behind it. -/
theorem suffix_cases {w : Word} {ws : List Word} {ch : Char} {rest : List Char}
    (hch : ch ∈ closers) (h : ch :: rest <:+ joined (w :: ws)) :
    (∃ before after, w.text.toList = before ++ ch :: after ∧ rest = after ++ spaced ws) ∨
      ch :: rest <:+ joined ws := by
  obtain ⟨front, hfront⟩ := h
  rw [joined_cons] at hfront
  rcases List.append_eq_append_iff.mp hfront with ⟨as, hword, hbehind⟩ | ⟨bs, -, hbehind⟩
  · cases as with
    | nil =>
        have hhead : (spaced ws).head? = some ch := by
          rw [← show ch :: rest = spaced ws from hbehind]
          rfl
        have hspace := endsWord_spaced ws ch hhead
        rw [hspace] at hch
        exact absurd hch (by decide)
    | cons x as =>
        obtain ⟨rfl, rfl⟩ := List.cons.inj hbehind
        exact .inl ⟨front, as, hword, rfl⟩
  · cases ws with
    | nil => simp [spaced] at hbehind
    | cons next ws =>
        rw [spaced_cons] at hbehind
        cases bs with
        | nil =>
            obtain ⟨rfl, -⟩ := List.cons.inj hbehind
            exact absurd hch (by decide)
        | cons x bs => exact .inr ⟨bs, (List.cons.inj hbehind).2.symm⟩

theorem scanName_lexeme_ne (c : Cursor) : (Token.scanName c).lexeme ≠ .punctuator := by
  change (NameScan.finish { stop := c }).lexeme ≠ .punctuator
  unfold NameScan.lexeme
  split
  · nofun
  · split <;> nofun

/-- The rest of a piece of a template is neither an assignment nor an arrow. -/
theorem isNoTarget_in_piece {t : Letters} {more : Bool} {rest : List Char} {c : Cursor}
    (hc : c.rest = t.text.toList ++ pieceCloser more ++ rest) : IsNoTarget (Token.next c) := by
  obtain ⟨ch, cs, hrest, hch⟩ : ∃ ch cs, c.rest = ch :: cs ∧
      (ch = TemplateScan.backtick ∨ isIdStart ch) := by
    cases htext : t.text.toList with
    | nil =>
        rw [htext] at hc
        cases more with
        | true => exact ⟨'$', _, hc, .inr (by decide)⟩
        | false => exact ⟨TemplateScan.backtick, _, hc, .inl rfl⟩
    | cons ch cs =>
        rw [htext] at hc
        have hstart := of_isAlpha (p := (isIdStart · = true)) (by decide)
          (t.isAlpha ch (htext ▸ List.mem_cons_self))
        exact ⟨ch, _, hc, .inr hstart⟩
  have hpeek : c.peek? = some ch := by simp [Cursor.peek?, hrest]
  refine isNoTarget_of_lexeme ?_
  rcases hch with rfl | hstart
  · have hsolid : Trivia.isSolid c.rest := hrest ▸ Trivia.isSolid_cons (by decide) (by decide) cs
    have hquotes : ¬ (TemplateScan.backtick = '"' ∨ TemplateScan.backtick = '\x27') := by decide
    have hscan : Token.scan c = Token.scanTemplate true c := by
      simp only [Token.scan, hpeek, if_neg hquotes, if_true]
    rw [next_of_solid hsolid, hscan]
    exact Lexeme.noConfusion
  · have hmarks := not_mem_of_isIdStart hstart
    simp only [List.mem_cons, List.not_mem_nil, or_false, not_or] at hmarks
    have hname : Spells [ch] (nameLexeme (String.ofList [ch])) := spells_name hstart (by simp)
    have hsolid : Trivia.isSolid c.rest :=
      hrest ▸ Trivia.isSolid_cons hname.solid (by simp [hmarks]) cs
    have hscan : Token.scan c = Token.scanName c := by
      simp [Token.scan, hpeek, hmarks, hstart, isDigit_of_isIdStart hstart]
    rw [next_of_solid hsolid, hscan]
    exact scanName_lexeme_ne c

/-- A word is an assignment only if it is the mark of one, and none is an arrow. -/
theorem isNoTarget_of_begins {w : Word} {t : Token} (h : w.Begins t) (hw : w ≠ .mark .assign) :
    IsNoTarget t := by
  have hoperator : ∀ text ∈ unaryOperators ++ binaryOperators, text ∉ ["=", "=>"] := by
    decide
  suffices hno : ∀ p ∈ ["=", "=>"], t.isPunctuator p = false from
    ⟨hno "=" (by decide), hno "=>" (by decide)⟩
  refine fun p hp => Bool.eq_false_iff.mpr fun heq => ?_
  obtain ⟨hlexeme, hraw⟩ := Token.isPunctuator_iff.mp heq
  rw [h.lexeme_eq] at hlexeme
  rw [h.raw_eq] at hraw
  subst hraw
  cases w with
  | mark m =>
      have hmark : m.text ∈ ["=", "=>"] → m = .assign := by cases m <;> decide
      exact hw (congrArg Word.mark (hmark hp))
  | unary operator => exact hoperator _ (List.mem_append_left _ operator.mem) hp
  | binary operator => exact hoperator _ (List.mem_append_right _ operator.mem) hp
  | continuing t more => exact absurd hp (show "\x7d" ∉ ["=", "=>"] by decide)
  | name | number | string | opening => cases hlexeme

/-- What comes before words is no mark of an assignment unless the first of them is. -/
theorem isNoTarget_of_spaced {ws : List Word} {c : Cursor} (hc : c.rest = spaced ws)
    (hws : ∀ w ∈ ws.head?, w ≠ .mark .assign) : IsNoTarget (Token.next c) := by
  obtain ⟨d, hd, -, hnext⟩ := exists_joined_of_spaced hc
  rw [hnext]
  cases ws with
  | nil =>
      have hpeek : d.peek? = none := by rw [Cursor.peek?, show d.rest = [] from hd]; rfl
      have hsolid : Trivia.isSolid d.rest := by rw [show d.rest = [] from hd]; rfl
      have hscan : Token.scan d = Token.between .endOfInput d d {} [] := by rw [Token.scan, hpeek]
      refine isNoTarget_of_lexeme ?_
      rw [next_of_solid hsolid, hscan]
      exact Lexeme.noConfusion
  | cons w ws => exact isNoTarget_of_begins (next_begins hd) (hws w rfl)

/-- In a text of words each mark of an assignment comes after a name, so no group is a target. -/
theorem Calm.tame {ws : List Word} (h : Calm ws) : Tame (joined ws) := by
  induction h with
  | nil => exact fun ch _ c hc => absurd (List.suffix_nil.mp hc) (List.cons_ne_nil ch c.rest)
  | @cons w ws hw hws ih =>
      intro ch hch c hc
      rcases suffix_cases hch hc with ⟨before, after, hword, hrest⟩ | hsuffix
      · rcases (closes_in_word hch hword).2 with rfl | ⟨t, more, rfl⟩
        · refine isNoTarget_of_spaced hrest fun next hnext => ?_
          cases ws with
          | nil => cases hnext
          | cons next ws =>
              cases hnext
              exact hws.head_ne
        · exact isNoTarget_in_piece hrest
      · exact ih ch hch c hsuffix
  | @assign x ws hws ih =>
      intro ch hch c hc
      rcases suffix_cases hch hc with ⟨before, after, hword, -⟩ | hsuffix
      · exact absurd rfl ((closes_in_word hch hword).1 x)
      · rcases suffix_cases hch hsuffix with ⟨before, after, hword, -⟩ | hsuffix
        · have hmem : ch ∈ (Word.mark .assign).text.toList :=
            hword ▸ List.mem_append_right _ List.mem_cons_self
          exact absurd hch (not_mem_closers_of_all (by decide) hmem)
        · exact ih ch hch c hsuffix

/-! ## Programs -/

namespace Calm

variable {words rest : List Word} {items : List (List Word)}

theorem append (h : Calm words) (hrest : Calm rest) : Calm (words ++ rest) := by
  induction h with
  | nil => exact hrest
  | cons hw _ ih => exact .cons hw ih
  | assign _ ih => exact .assign ih

theorem enclosed (h : Calm words) (hrest : Calm rest) : Calm (enclosed words rest) :=
  .cons nofun (h.append (.cons nofun hrest))

theorem braced (h : Calm words) (hrest : Calm rest) : Calm (braced words rest) :=
  .cons nofun (h.append (.cons nofun hrest))

theorem commaSeparated (h : ∀ item ∈ items, Calm item) : Calm (commaSeparated items) := by
  cases items with
  | nil => exact .nil
  | cons item items =>
      refine (h item List.mem_cons_self).append ?_
      induction items with
      | nil => exact .nil
      | cons next items ih =>
          refine .cons nofun ((h next (by simp)).append (ih fun item hitem => h item ?_))
          rcases List.mem_cons.mp hitem with rfl | hitem <;> simp_all

theorem functionWords (parameters : List Name) (h : Calm words) :
    Calm (functionWords parameters words) := by
  refine .enclosed (.commaSeparated fun item hitem => ?_) (.braced h .nil)
  obtain ⟨x, -, rfl⟩ := List.mem_map.mp hitem
  exact .cons nofun .nil

end Calm

mutual

theorem Expr.calm : ∀ e : Expr, Calm e.words
  | .name _ | .number _ | .string _ _ => .cons nofun .nil
  | .template _ parts => .cons nofun (calm_parts parts)
  | .array elements =>
    .cons nofun ((Calm.commaSeparated (calm_elements elements)).append (.cons nofun .nil))
  | .object properties => .braced (.commaSeparated (calm_properties properties)) .nil
  | .function none parameters body => .cons nofun (.functionWords parameters (calm_body body))
  | .function (some _) parameters body =>
    .cons nofun (.cons nofun (.functionWords parameters (calm_body body)))
  | .member object _ => .enclosed object.calm (.cons nofun (.cons nofun .nil))
  | .index object position =>
    .enclosed object.calm (.cons nofun (position.calm.append (.cons nofun .nil)))
  | .call callee arguments =>
    .enclosed callee.calm (.enclosed (.commaSeparated (calm_elements arguments)) .nil)
  | .unary _ operand => .cons nofun (.enclosed operand.calm .nil)
  | .conditional condition first second =>
    .enclosed condition.calm (.cons nofun (.enclosed first.calm
      (.cons nofun (.enclosed second.calm .nil))))
  | .binary _ left right => .enclosed left.calm (.cons nofun (.enclosed right.calm .nil))

theorem Stmt.calm : ∀ statement : Stmt, Calm statement.words
  | .var _ value => .cons nofun (.assign (value.calm.append (.cons nofun .nil)))
  | .assign _ value => .assign (value.calm.append (.cons nofun .nil))
  | .call _ arguments =>
    .cons nofun (.enclosed (.commaSeparated (calm_elements arguments)) (.cons nofun .nil))
  | .branch condition first second =>
    .cons nofun (.enclosed condition.calm (.braced (calm_body first)
      (.cons nofun (.braced (calm_body second) .nil))))
  | .while condition body => .cons nofun (.enclosed condition.calm (.braced (calm_body body) .nil))
  | .for _ value condition step body =>
    .cons nofun (.enclosed (.cons nofun (.assign (.enclosed value.calm (.cons nofun
      (.enclosed condition.calm (.cons nofun (.enclosed step.calm .nil)))))))
      (.braced (calm_body body) .nil))
  | .return value => .cons nofun (value.calm.append (.cons nofun .nil))
  | .function _ parameters body =>
    .cons nofun (.cons nofun (.functionWords parameters (calm_body body)))

theorem calm_elements : ∀ (elements : List Expr), ∀ words ∈ elementWords elements, Calm words
  | [] => nofun
  | e :: es => List.forall_mem_cons.mpr ⟨e.calm, calm_elements es⟩

theorem calm_properties :
    ∀ (properties : List (Key × Expr)), ∀ words ∈ propertyWords properties, Calm words
  | [] => nofun
  | (key, value) :: ps =>
    List.forall_mem_cons.mpr
      ⟨.cons (by cases key <;> nofun) (.cons nofun value.calm), calm_properties ps⟩

theorem calm_parts : ∀ parts : List (Expr × Letters), Calm (partWords parts)
  | [] => .nil
  | (e, _) :: parts => e.calm.append (.cons nofun (calm_parts parts))

theorem calm_body : ∀ body : List Stmt, Calm (bodyWords body)
  | [] => .nil
  | statement :: body => statement.calm.append (calm_body body)

end

end ScriptLint.Core
