import ScriptLint.Proofs.Core.Step
import ScriptLint.Reading.Program

/-! # Operands of the core

A table of productions reads what the core has of each kind if each production gets past all words
of an expression, a statement or a name, wherever these stand and as long as their nesting fits. With
such a table the operands without an operator after them are read: literals, names, templates,
groups, arrays and objects.
-/

namespace ScriptLint

namespace Reading

open ScriptLint.Core (Word Expr Stmt Name Letters Mark enclosed braced commaSeparated)

variable {p : Place} {w : Word} {ws rest : List Word}

/-- The next word does not continue an operand with an operator that binds more strongly. -/
def Stops (power : Nat) (ws : List Word) : Prop :=
  ∃ w rest, ws = w :: rest ∧ ∀ form, (Symbol.ofToken w.token).operator? = some form →
    (Symbol.ofToken w.token).power ≤ power

theorem Stops.mono {power power' : Nat} (h : Stops power ws) (hle : power ≤ power') :
    Stops power' ws := by
  obtain ⟨w, rest, rfl, hstops⟩ := h
  exact ⟨w, rest, rfl, fun form hform => (hstops form hform).trans hle⟩

/-- An expression that is none was reported. -/
def Expression.IsValid (e : Expression) : Prop := e.kind ≠ .invalid

/-- The productions read what the core has of each kind. -/
structure Productions.ReadsCore (table : Productions) : Prop where
  expression {p : Place} {e : Expr} {power : Nat} {ws : List Word} : p.inExcluded = false →
    power < Symbol.conditionalPower → Stops (min power Symbol.commaPower) ws →
    p.depth + 2 * e.nesting ≤ p.options.maxDepth →
    ParsesTo p (e.words ++ ws) (table.expression power) ws Expression.IsValid
  group {p : Place} {e : Expr} {power : Nat} {ws : List Word} : Stops power ws →
    p.depth + (2 * e.nesting + 1) ≤ p.options.maxDepth →
    ParsesTo p (enclosed e.words ws) (table.expression power) ws Expression.IsValid
  assignment {p : Place} {x : Name} {value : Expr} {ws : List Word} : p.inExcluded = false →
    p.depth + 1 + 2 * value.nesting ≤ p.options.maxDepth →
    ParsesTo p (.name x :: .mark .assign :: value.words ++ .mark .semicolon :: ws)
      table.anyExpression (.mark .semicolon :: ws) Expression.IsValid
  invocation {p : Place} {f : Name} {arguments : List Expr} {ws : List Word} :
    p.inExcluded = false → p.depth + 1 + 2 * Core.elementNesting arguments ≤ p.options.maxDepth →
    ParsesTo p (.name f :: enclosed (commaSeparated (Core.elementWords arguments))
      (.mark .semicolon :: ws)) table.anyExpression (.mark .semicolon :: ws) Expression.IsValid
  statement {p : Place} {statement : Stmt} {inList : Bool} {ws : List Word} :
    p.inExcluded = false → p.depth + 2 * statement.nesting ≤ p.options.maxDepth →
    ParsesTo p (statement.words ++ ws) (table.statement inList) ws
  block {p : Place} {body : List Stmt} {inList : Bool} {ws : List Word} :
    p.inExcluded = false → p.depth + 1 + 2 * Core.bodyNesting body ≤ p.options.maxDepth →
    ParsesTo p (braced (Core.bodyWords body) ws) (table.statement inList) ws
  bindingTarget {p : Place} {x : Name} {ws : List Word} :
    ParsesTo p (.name x :: ws) table.bindingTarget ws

/-! ## Single tokens -/

/-- What begins an operand is not spelled like what begins none. -/
theorem isPunctuator_eq_false_of_operand {t : Token} {form : OperandForm} {mark : String}
    (hform : (Symbol.ofToken t).operand? = some form)
    (hmark : ((Symbol.ofSpelling? mark).getD .unknown).operand? = none) :
    t.isPunctuator mark = false := by
  refine Bool.eq_false_iff.mpr fun heq => ?_
  obtain ⟨hlexeme, hraw⟩ := Token.isPunctuator_iff.mp heq
  rw [Symbol.ofToken, hlexeme] at hform
  dsimp only at hform
  rw [hraw, hmark] at hform
  cases hform

/-- No word is the arrow of a function. -/
theorem isPunctuator_arrow {t : Token} {size : Nat} (ht : t.Fronts size ws) :
    t.isPunctuator "=>" = false := by
  cases ws with
  | nil => exact Bool.eq_false_iff.mpr fun h =>
      absurd ht.isEnd (Bool.eq_false_iff.mp (Token.isEnd_eq_false_of_isPunctuator h))
  | cons w ws =>
      by_cases hw : w = .mark .assign
      · rw [ht.begins.isPunctuator_eq, hw]
        decide
      · exact (Core.isNoTarget_of_begins ht.begins hw).2

namespace Parses

variable {self : Productions} {post : Expression → List Word → Prop}

theorem readOperand {form : OperandForm} (hform : (Symbol.ofToken w.token).operand? = some form)
    (h : Parses p (w :: ws) (operandOf self form) post) :
    Parses p (w :: ws) (readOperand self) post := by
  have hrescan : ParsesTo p (w :: ws) rescanRegexp (w :: ws) := by
    refine .token fun t ht => ?_
    have hslash : isSlash t = false := by
      rw [isSlash, ht.begins.isPunctuator_eq, ht.begins.isPunctuator_eq,
        isPunctuator_eq_false_of_operand hform rfl,
        isPunctuator_eq_false_of_operand hform rfl]
      rfl
    rw [hslash]
    exact .pure ⟨rfl, trivial⟩
  refine hrescan.after fun _ _ => .token fun t ht => ?_
  rw [ht.begins.ofToken_eq, hform]
  exact h

theorem literal (hw : w.isWhole) : ParsesTo p (w :: ws) literal ws Expression.IsValid := by
  refine .token fun t ht => .skip fun strict => ?_
  rw [ht.begins.flags_eq]
  refine .remark <| .ite Bool.noConfusion fun _ => (advance hw).after fun _ _ => .pure ⟨rfl, ?_⟩
  generalize t.lexeme = lexeme
  cases lexeme <;> exact ExpressionKind.noConfusion

theorem nameRole {x : Name} :
    ParsesTo p (.name x :: ws) nameRole (.name x :: ws) (· = .plain) := by
  refine .token fun t ht => ?_
  have hname : t.name = x.text := by
    rw [Token.name, ht.begins.lexeme_eq]
    rfl
  have hcontextual := x.not_mem_contextualWords
  have hrole : wordRole? t = Pure.pure none := by
    have hescaped : t.flags.escaped = false := by rw [ht.begins.flags_eq]
    unfold wordRole?
    rw [hescaped, hname]
    have hother : x.text ≠ "async" ∧ x.text ≠ "yield" ∧ x.text ≠ "await" := by
      refine ⟨?_, ?_, ?_⟩ <;> intro heq <;> rw [heq] at hcontextual <;>
        exact hcontextual (by decide)
    simp [hother]
  rw [hrole, pure_bind]
  refine .peek rfl fun next hnext => ?_
  rw [isPunctuator_arrow hnext]
  exact .pure ⟨rfl, rfl⟩

theorem nameExpression {x : Name} :
    ParsesTo p (.name x :: ws) (nameExpression self) ws
      fun e => ∃ reference, e.kind = .identifier x.text reference := by
  refine nameRole.after fun role hrole => ?_
  subst hrole
  refine .token fun t ht => .skip fun reserved => .remark <| (advance rfl).after fun _ _ =>
    .skip fun reference => .pure ⟨rfl, reference, ?_⟩
  have hname : t.name = x.text := by
    rw [Token.name, ht.begins.lexeme_eq]
    rfl
  rw [hname]

/-! ## Brackets -/

theorem stops_mark {m : Mark} {power : Nat}
    (hm : m ∈ [Mark.closeParen, .closeBracket, .closeBrace, .colon, .semicolon]) :
    Stops power (.mark m :: ws) := by
  refine ⟨.mark m, ws, rfl, fun form hform => ?_⟩
  have hnone : (Symbol.ofToken (Word.mark m).token).operator? = none := by
    simp only [List.mem_cons, List.not_mem_nil, or_false] at hm
    rcases hm with rfl | rfl | rfl | rfl | rfl <;> rfl
  rw [hnone] at hform
  cases hform

theorem stops_comma {power : Nat} (hpower : Symbol.commaPower ≤ power) :
    Stops power (.mark .comma :: ws) :=
  ⟨.mark .comma, ws, rfl, fun _ _ => hpower⟩

theorem stops_continuing {t : Letters} {more : Bool} {power : Nat} :
    Stops power (.continuing t more :: ws) := by
  refine ⟨.continuing t more, ws, rfl, fun form hform => ?_⟩
  have hnone : (Symbol.ofToken (Word.continuing t more).token).operator? = none := by
    change ((Symbol.ofSpelling? "\x7d").getD .unknown).operator? = none
    rfl
  rw [hnone] at hform
  cases hform

/-- An expression without a comma outside brackets. -/
theorem element (hself : self.ReadsCore) (hp : p.inExcluded = false)
    (hstops : Stops Symbol.commaPower ws) {e : Expr}
    (hdepth : p.depth + 2 * e.nesting ≤ p.options.maxDepth) :
    ParsesTo p (e.words ++ ws) self.element ws Expression.IsValid :=
  hself.expression hp (by decide) (hstops.mono (by decide)) hdepth

/-- An expression in front of what closes the bracket around it. -/
theorem bracketed (hself : self.ReadsCore) {m : Mark}
    (hm : m ∈ [Mark.closeParen, .closeBracket, .closeBrace, .colon, .semicolon]) {e : Expr}
    (hdepth : p.depth + 2 * e.nesting ≤ p.options.maxDepth) :
    ParsesTo p (e.words ++ .mark m :: ws) (Reading.allowingIn self.anyExpression) (.mark m :: ws)
      Expression.IsValid :=
  allowingIn (hself.expression rfl (by decide) (stops_mark hm) hdepth)

theorem templateLiteral (hself : self.ReadsCore) {t : Letters} {parts : List (Expr × Letters)}
    (hdepth : p.depth + 2 * Core.partNesting parts ≤ p.options.maxDepth) :
    ParsesTo p (.opening t (!parts.isEmpty) :: Core.partWords parts ++ ws) (templateLiteral self) ws
      Expression.IsValid := by
  refine .token fun u hu => .skip fun _ => (advance rfl).after fun _ _ => ?_
  have hlexeme : u.lexeme =
      .template (Core.piecePart true (!parts.isEmpty)) (some t.text) := hu.begins.lexeme_eq
  rw [hlexeme]
  cases parts with
  | nil => exact .pure ⟨rfl, nofun⟩
  | cons part parts =>
      let partsLeft (left : List Word) : Prop := ∃ parts', parts' ≠ [] ∧
        p.depth + 2 * Core.partNesting parts' ≤ p.options.maxDepth ∧
        left = Core.partWords parts' ++ ws
      refine (repeatWhile partsLeft (· = ws) (fun left hleft => ?_)
        ⟨_, List.cons_ne_nil part parts, hdepth, rfl⟩).bind fun _ left hleft =>
          .pure ⟨hleft, nofun⟩
      obtain ⟨parts', hne, hdepth', rfl⟩ := hleft
      obtain ⟨⟨e, t'⟩, parts'', rfl⟩ := List.exists_cons_of_ne_nil hne
      simp only [Core.partNesting] at hdepth'
      have hwords : Core.partWords ((e, t') :: parts'') ++ ws =
          e.words ++ .continuing t' (!parts''.isEmpty) :: (Core.partWords parts'' ++ ws) := by
        simp [Core.partWords]
      rw [hwords]
      refine (allowingIn (hself.expression rfl (by decide) stops_continuing ?_)).after fun _ _ => ?_
      · change p.depth + 2 * e.nesting ≤ p.options.maxDepth
        omega
      refine .atPunctuator (piece fun u hu => .pure ?_)
      rw [hu]
      cases parts'' with
      | nil => exact rfl
      | cons part' parts'' => exact ⟨_, List.cons_ne_nil part' parts'', by omega, rfl⟩

/-- A bracket that opens no pattern. -/
theorem patternOr {otherwise : Reading Expression} (h : Parses p ws otherwise post) :
    Parses p ws (patternOr self otherwise) post := by
  refine .tokenAfterGroup fun t ht => ?_
  rw [ht.1]
  exact h

theorem parenthesis (hself : self.ReadsCore) {e : Expr}
    (hdepth : p.depth + 2 * e.nesting ≤ p.options.maxDepth) :
    ParsesTo p (enclosed e.words ws) (parenthesis self) ws Expression.IsValid := by
  refine .tokenAfterGroup fun t ht => ?_
  rw [ht.2]
  refine (advance rfl).after fun _ _ => ?_
  refine (bracketed hself (by decide) hdepth).after fun e he => ?_
  exact (expectPunctuator (by decide) rfl).after fun _ _ => .pure ⟨rfl, he⟩

/-- An operator in front of a group. -/
theorem unaryExpression (hself : self.ReadsCore) {operator : Core.Operator Core.unaryOperators}
    {e : Expr} (hstops : Stops Symbol.unaryPower ws)
    (hdepth : p.depth + (2 * e.nesting + 1) ≤ p.options.maxDepth) :
    ParsesTo p (.unary operator :: enclosed e.words ws) (unaryExpression self) ws
      Expression.IsValid := by
  refine .token fun t ht => (advance rfl).after fun _ _ =>
    (hself.group hstops hdepth).after fun operand _ => ?_
  have hvalid : Expression.IsValid
      { kind := if t.raw == "delete" then .delete else .unary, position := t.position } := by
    unfold Expression.IsValid
    dsimp only
    split <;> nofun
  generalize (if t.raw == "delete" then ExpressionKind.delete else .unary) = kind at hvalid ⊢
  split
  · exact .skip fun _ => .pure ⟨rfl, hvalid⟩
  · exact .skip fun _ => .pure ⟨rfl, hvalid⟩
  · exact .pure ⟨rfl, hvalid⟩

/-! ## Lists -/

theorem form_of_unary {operator : Core.Operator Core.unaryOperators} :
    (Symbol.ofToken (Word.unary operator).token).operand? = some .unary := by
  have hall : ∀ text ∈ Core.unaryOperators,
      let symbol := Symbol.ofToken
        { lexeme := Core.fixedLexeme text, raw := text, start := default, stop := default }
      symbol.operand? = some .unary := by decide
  exact hall operator.text operator.mem

/-- An expression begins with a word that begins an operand. -/
theorem exists_words_eq (e : Expr) : ∃ w words form, e.words = w :: words ∧
    (Symbol.ofToken w.token).operand? = some form := by
  cases e with
  | name | number | string | array | object | function => exact ⟨_, _, _, rfl, rfl⟩
  | template t parts => cases parts <;> exact ⟨_, _, .template, rfl, rfl⟩
  | member | index | call | conditional | binary =>
      exact ⟨.mark .openParen, _, .parenthesis, rfl, rfl⟩
  | unary operator => exact ⟨.unary operator, _, .unary, rfl, form_of_unary⟩

/-- No expression begins like what begins no operand. -/
theorem isPunctuator_of_words {e : Expr} {mark : String} {t : Token} {size : Nat}
    (ht : t.Fronts size (e.words ++ ws))
    (hmark : ((Symbol.ofSpelling? mark).getD .unknown).operand? = none) :
    t.isPunctuator mark = false := by
  obtain ⟨w, words, form, hwords, hform⟩ := exists_words_eq e
  rw [hwords] at ht
  exact isPunctuator_eq_false_of_operand (ht.begins.ofToken_eq ▸ hform) hmark

/-- There are no dots in front of an expression. -/
theorem spread {e : Expr} : ParsesTo p (e.words ++ ws) spread (e.words ++ ws) := by
  refine .token fun t ht => ?_
  rw [isPunctuator_of_words ht rfl]
  exact .pure ⟨rfl, trivial⟩

theorem mem_elementWords {es : List Expr} {words : List Word}
    (h : words ∈ Core.elementWords es) :
    ∃ e : Expr, words = e.words ∧ e.nesting ≤ Core.elementNesting es := by
  induction es with
  | nil => cases h
  | cons e es ih =>
      simp only [Core.elementNesting]
      rcases List.mem_cons.mp h with rfl | hmem
      · exact ⟨e, rfl, by omega⟩
      · obtain ⟨e', hwords, hle⟩ := ih hmem
        exact ⟨e', hwords, by omega⟩

theorem mem_propertyWords {ps : List (Core.Key × Expr)} {words : List Word}
    (h : words ∈ Core.propertyWords ps) :
    ∃ (key : Core.Key) (value : Expr), words = key.word :: .mark .colon :: value.words ∧
      value.nesting ≤ Core.propertyNesting ps := by
  induction ps with
  | nil => cases h
  | cons property ps ih =>
      obtain ⟨key, value⟩ := property
      simp only [Core.propertyNesting]
      rcases List.mem_cons.mp h with rfl | hmem
      · exact ⟨key, value, rfl, by omega⟩
      · obtain ⟨key', value', hwords, hle⟩ := ih hmem
        exact ⟨key', value', hwords, by omega⟩

theorem EndsItem.stops {closer : Mark} (hcloser : closer ∈ [Mark.closeParen, .closeBrace])
    (h : EndsItem closer rest) : Stops Symbol.commaPower rest := by
  obtain ⟨m, rest, rfl, rfl | rfl⟩ := h
  · exact stops_comma le_rfl
  · refine stops_mark ?_
    revert hcloser
    cases m <;> decide

/-- There are elements left in front of the bracket that closes the array. -/
def ElementsLeft (p : Place) (ws left : List Word) : Prop :=
  ∃ es, p.depth + 2 * Core.elementNesting es ≤ p.options.maxDepth ∧
    left = commaSeparated (Core.elementWords es) ++ .mark .closeBracket :: ws

theorem arrayElement (hself : self.ReadsCore) (hp : p.inExcluded = false) {left : List Word}
    (hleft : ElementsLeft p ws left) : Parses p left (arrayElement self) fun again =>
      if again then ElementsLeft p ws else (· = .mark .closeBracket :: ws) := by
  obtain ⟨es, hdepth, rfl⟩ := hleft
  cases es with
  | nil =>
      refine .token fun t ht => ?_
      have hcloses : t.isPunctuator "]" := ht.begins.isPunctuator_eq "]" ▸ by decide
      rw [if_pos hcloses]
      exact .pure rfl
  | cons e es =>
      let rest := (Core.elementWords es).flatMap (.mark .comma :: ·) ++ .mark .closeBracket :: ws
      have hwords : commaSeparated (Core.elementWords (e :: es)) ++ .mark .closeBracket :: ws =
          e.words ++ rest := List.append_assoc _ _ _
      simp only [Core.elementNesting] at hdepth
      rw [hwords]
      refine .token fun t ht => ?_
      rw [isPunctuator_of_words ht rfl, isPunctuator_of_words ht rfl]
      have hstops : Stops Symbol.commaPower rest := by
        cases es with
        | nil => exact stops_mark (by decide)
        | cons next es => exact stops_comma le_rfl
      have helement : p.depth + 2 * e.nesting ≤ p.options.maxDepth := by omega
      refine spread.after fun _ _ => (element hself hp hstops helement).after fun _ _ => ?_
      refine .skip fun comma => ?_
      cases es with
      | nil => exact .acceptPunctuator rfl nofun fun _ => .pure rfl
      | cons next es =>
          refine .acceptPunctuator rfl (fun _ => ?_) nofun
          refine .skip fun atEnd => .skip fun o => .remark <| .pure ?_
          exact ⟨next :: es, by omega, rfl⟩

theorem arrayLiteral (hself : self.ReadsCore) {elements : List Expr}
    (hdepth : p.depth + 2 * Core.elementNesting elements ≤ p.options.maxDepth) :
    ParsesTo p (.mark .openBracket :: (commaSeparated (Core.elementWords elements) ++
      .mark .closeBracket :: ws)) (arrayLiteral self) ws Expression.IsValid := by
  refine .token fun t ht => (advance rfl).after fun _ _ => ?_
  refine (allowingIn (repeatWhile (ElementsLeft (p.excluding false) ws)
    (· = .mark .closeBracket :: ws) (fun _ hleft => arrayElement hself rfl hleft)
    ⟨elements, hdepth, rfl⟩)).bind fun _ rest hrest => ?_
  rw [hrest]
  exact (expectPunctuator (by decide) rfl).after fun _ _ => .pure ⟨rfl, nofun⟩

/-! ### Objects -/

/-- A key is taken as it is, for no word of the core is a modifier. -/
theorem modifiers {key : Core.Key} : ParsesTo p (key.word :: ws) modifiers (key.word :: ws)
    (·.accessor? = none) := by
  have hword : ParsesTo p (key.word :: ws) modifierWord (key.word :: ws) (·.accessor? = none) := by
    refine .token fun t ht => ?_
    have hescaped : t.flags.escaped = false := by rw [ht.begins.flags_eq]
    have hnone : modifierOf? t = none := by
      have hname : ∀ word ∈ Core.contextualWords, t.isName word = false := by
        intro word hword
        rw [ht.begins.isName_eq]
        cases key with
        | name x => exact beq_false_of_ne fun heq => x.not_mem_contextualWords (heq ▸ hword)
        | string | number => rfl
      simp [modifierOf?, hescaped, hname "get" (by decide), hname "set" (by decide),
        hname "async" (by decide)]
    rw [hnone]
    exact .pure ⟨rfl, rfl⟩
  refine hword.after fun m hm => .token fun t ht => ?_
  have hstar : t.isPunctuator "*" = false := by
    rw [ht.begins.isPunctuator_eq]
    cases key <;> rfl
  rw [hstar]
  exact .pure ⟨rfl, hm⟩

theorem propertyKey {key : Core.Key} :
    ParsesTo p (key.word :: ws) (propertyKey self) ws := by
  have hwhole : key.word.isWhole := by cases key <;> rfl
  refine .token fun t ht => ?_
  rw [ht.begins.lexeme_eq]
  cases key <;> exact (advance hwhole).after fun _ _ => .pure ⟨rfl, trivial⟩

instance (keys : KeyTable) (key : String) (use : KeyUse) (position : Position) :
    Harmless (recordKey keys key use position) := by
  unfold recordKey
  dsimp only
  cases keys.use? key with
  | none => infer_instance
  | some earlier =>
      dsimp only
      cases earlier.join? use <;> infer_instance

instance (keys : KeyTable) (comma : Position) : Harmless (propertyComma keys comma) := by
  unfold propertyComma
  infer_instance

theorem objectProperty (hself : self.ReadsCore) (hp : p.inExcluded = false) {key : Core.Key}
    {value : Expr} (hdepth : p.depth + 2 * value.nesting ≤ p.options.maxDepth)
    (hrest : Stops Symbol.commaPower rest) (keys : KeyTable) :
    Parses p (key.word :: .mark .colon :: value.words ++ rest) (objectProperty self keys)
      fun r left => left = rest ∧ ∃ next, r = .again next := by
  refine .token fun t ht => ?_
  have hend : t.isEnd = false := by
    rw [Token.isEnd, ht.begins.lexeme_eq]
    cases key <;> rfl
  have hdots : t.isPunctuator "..." = false := by
    rw [ht.begins.isPunctuator_eq]
    cases key <;> rfl
  rw [hend, hdots]
  refine modifiers.after fun m hm => propertyKey.after fun key? _ => ?_
  have hvalue : ParsesTo p (.mark .colon :: value.words ++ rest) (propertyValue self t m key?) rest
      (· = true) := by
    unfold propertyValue
    rw [hm]
    refine .atPunctuator <| .acceptPunctuator rfl (fun _ => ?_) nofun
    exact (element hself hp hrest hdepth).after fun _ _ => .pure ⟨rfl, rfl⟩
  refine hvalue.after fun again hagain => ?_
  subst hagain
  cases key? with
  | none => exact .pure ⟨rfl, keys, rfl⟩
  | some key => exact .skip fun keys => .pure ⟨rfl, keys, rfl⟩

theorem objectLiteral (hself : self.ReadsCore) {properties : List (Core.Key × Expr)}
    (hdepth : p.depth + 2 * Core.propertyNesting properties ≤ p.options.maxDepth) :
    ParsesTo p (braced (commaSeparated (Core.propertyWords properties)) ws) (objectLiteral self) ws
      Expression.IsValid := by
  have hitems : ∀ words ∈ Core.propertyWords properties,
      (∀ w ∈ words.head?, w.token.isPunctuator Mark.closeBrace.text = false) ∧ words ≠ [] ∧
        ∀ keys rest, EndsItem .closeBrace rest →
          Parses (p.excluding false) (words ++ rest) (Reading.objectProperty self keys)
            fun r left => left = rest ∧ ∃ next, r = .again next := by
    intro words hwords
    obtain ⟨key, value, rfl, hle⟩ := mem_propertyWords hwords
    refine ⟨fun w hw => ?_, List.cons_ne_nil _ _, fun keys rest hrest => ?_⟩
    · obtain rfl := Option.some.inj hw
      cases key <;> rfl
    · have hvalue : p.depth + 2 * value.nesting ≤ p.options.maxDepth := by omega
      exact objectProperty (p := p.excluding false) hself rfl hvalue (hrest.stops (by decide)) keys
  refine .token fun t ht => (advance rfl).after fun _ _ => ?_
  refine (allowingIn (commaList (by decide) hitems _)).after fun keys _ => ?_
  exact (expectPunctuator (by decide) rfl).after fun _ _ => .skip fun _ => .pure ⟨rfl, nofun⟩

end Parses

end Reading

end ScriptLint
