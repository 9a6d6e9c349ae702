import ScriptLint.Proofs.Core.Function

/-! # Operators of the core

What follows a group is at most one operator with operands that are groups, too. So reading goes
around the loop of operators once, and then stops at a word that continues no operand more strongly.
-/

set_option synthInstance.maxSize 4096

namespace ScriptLint

/-- The power with which the right operand of an operator is read. -/
def Symbol.rightPower (symbol : Symbol) : Nat :=
  if symbol.associativity = .right then symbol.power - 1 else symbol.power

namespace Reading

open ScriptLint.Core (Word Expr Stmt Name Letters Mark enclosed braced commaSeparated)

variable {p : Place} {w : Word} {ws rest : List Word} {self : Productions}

/-! ## Remarks -/

instance (operator : Token) (left right : Expression) :
    Harmless (checkComparison operator left right) := by
  unfold checkComparison
  infer_instance

instance (right : Expression) : Harmless (checkInstanceOf right) := by
  unfold checkInstanceOf
  infer_instance

instance (e : Expression) : Harmless (checkIndex e) := by
  unfold checkIndex
  split <;> infer_instance

instance (callee : Expression) (first? : Option Expression) :
    Harmless (checkCall callee first?) := by
  unfold checkCall reportFunctionFunction
  dsimp only
  refine .bind inferInstance fun o => ?_
  split
  · split <;> infer_instance
  · infer_instance

instance (first? : Option Expression) (comma : Position) :
    Harmless (argumentComma first? comma) := by
  unfold argumentComma
  infer_instance

namespace Parses

/-! ## Access and calls -/

theorem propertyAfterDot {x : Name} : ParsesTo p (.name x :: ws) propertyAfterDot ws := by
  refine .token fun t ht => ?_
  rw [ht.begins.lexeme_eq]
  exact (advance rfl).after fun _ _ => .pure ⟨rfl, trivial⟩

theorem index (hself : self.ReadsCore) {e : Expr}
    (hdepth : p.depth + 2 * e.nesting ≤ p.options.maxDepth) :
    ParsesTo p (e.words ++ .mark .closeBracket :: ws) (index self) ws :=
  (bracketed hself (by decide) hdepth).after fun e _ => .skip fun _ =>
    expectPunctuator (by decide) rfl

theorem arguments (hself : self.ReadsCore) {es : List Expr}
    (hdepth : p.depth + 2 * Core.elementNesting es ≤ p.options.maxDepth) :
    ParsesTo p (commaSeparated (Core.elementWords es) ++ .mark .closeParen :: ws)
      (arguments self) ws := by
  have hitems : ∀ words ∈ Core.elementWords es,
      (∀ w ∈ words.head?, w.token.isPunctuator Mark.closeParen.text = false) ∧ words ≠ [] ∧
        ∀ first? rest, EndsItem .closeParen rest →
          Parses (p.excluding false) (words ++ rest) (argument self first?)
            fun r left => left = rest ∧ ∃ next, r = .again next := by
    intro words hwords
    obtain ⟨e, rfl, hle⟩ := mem_elementWords hwords
    obtain ⟨w, words, form, heq, hform⟩ := exists_words_eq e
    refine ⟨fun w' hw' => ?_, heq ▸ List.cons_ne_nil _ _, fun first? rest hrest => ?_⟩
    · rw [heq] at hw'
      obtain rfl := Option.some.inj hw'
      exact isPunctuator_eq_false_of_operand hform rfl
    · have helement : p.depth + 2 * e.nesting ≤ p.options.maxDepth := by omega
      exact spread.after fun _ _ => (element (p := p.excluding false) hself rfl
        (hrest.stops (by decide)) helement).after fun e _ => .pure ⟨rfl, _, rfl⟩
  refine (allowingIn (commaList (by decide) hitems _)).after fun first? _ => ?_
  exact (expectPunctuator (by decide) rfl).after fun _ _ => .pure ⟨rfl, trivial⟩

/-! ## Operators -/

/-- In front of a word that does not continue it, an operand is at its end. -/
theorem noOperator {power : Nat} (h : Stops power ws) :
    ParsesTo p ws (nextOperator? power) ws (· = none) := by
  obtain ⟨w, rest, rfl, hstops⟩ := h
  refine .token fun t ht => .state fun s hs => ?_
  rw [ht.begins.ofToken_eq]
  cases hform : (Symbol.ofToken w.token).operator? with
  | none => exact .pure ⟨rfl, rfl⟩
  | some form =>
      refine .ite (fun _ => .pure ⟨rfl, rfl⟩) fun hno => ?_
      have hpower := hstops form hform
      simp [hpower] at hno

theorem nextOperator {power : Nat} {form : OperatorForm}
    (hform : (Symbol.ofToken w.token).operator? = some form) (hupdate : form ≠ .update)
    (hpower : power < (Symbol.ofToken w.token).power) (hp : p.inExcluded = false) :
    ParsesTo p (w :: ws) (nextOperator? power) (w :: ws)
      (· = some (Symbol.ofToken w.token, form)) := by
  refine .token fun t ht => .state fun s hs => ?_
  rw [ht.begins.ofToken_eq, hs.inExcluded, hp, hform]
  have hcontinues : ¬ ((false && t.isKeyword "in") || (Symbol.ofToken w.token).power ≤ power ||
      (form = .update && t.flags.newlineBefore)) = true := by
    simp [hupdate, hpower]
  exact .ite (fun h => absurd h hcontinues) fun _ => .pure ⟨rfl, rfl⟩

/-- An operator with what belongs to it after its left operand. -/
theorem operatorRound {power : Nat} (form : OperatorForm) {left : Expression}
    (hform : (Symbol.ofToken w.token).operator? = some form) (hupdate : form ≠ .update)
    (hpower : power < (Symbol.ofToken w.token).power) (hp : p.inExcluded = false)
    (h : ParsesTo p (w :: ws)
      (operatorOf self (Symbol.ofToken w.token).rightPower left form) rest (· ≠ .invalid)) :
    Parses p (w :: ws) (operatorRound self power left)
      fun r left => left = rest ∧ ∃ e, r = .again e ∧ e.IsValid := by
  refine (nextOperator hform hupdate hpower hp).after fun next hnext => ?_
  subst hnext
  have hoperation : ParsesTo p (w :: ws) (operation self (Symbol.ofToken w.token) form left) rest
      Expression.IsValid :=
    .skip fun position => .skip fun _ => h.after fun kind hkind => .pure ⟨rfl, hkind⟩
  exact hoperation.after fun e he => .pure ⟨rfl, e, rfl, he⟩

/-- Where nothing continues an operand, that is all. -/
theorem operatorRound_stops {power : Nat} {left : Expression} (h : Stops power ws) :
    Parses p ws (Reading.operatorRound self power left) fun r rest => rest = ws ∧ r = .done left :=
  (noOperator h).after fun next hnext => by
    subst hnext
    exact .pure ⟨rfl, rfl⟩

/-- An operand by itself. -/
theorem operandAlone {power : Nat} (hdepth : p.depth < p.options.maxDepth)
    (hstops : Stops power rest)
    (h : ParsesTo p.deeper ws (Reading.readOperand self) rest Expression.IsValid) :
    ParsesTo p ws (readExpression self power) rest Expression.IsValid := by
  refine nested hdepth (h.after fun first hfirst => ?_)
  refine repeatFrom (fun e left => left = rest ∧ e.IsValid) (fun e left hleft => ?_) ⟨rfl, hfirst⟩
  obtain ⟨rfl, he⟩ := hleft
  refine (operatorRound_stops hstops).mono fun r left hr => ?_
  obtain ⟨rfl, rfl⟩ := hr
  exact ⟨rfl, he⟩

/-- An operand with one operator after it. -/
theorem operandContinued {power : Nat} {mid : List Word} {valid : Expression → Prop}
    (hdepth : p.depth < p.options.maxDepth)
    (hstops : Stops power rest) (h : ParsesTo p.deeper ws (Reading.readOperand self) mid valid)
    (hround : ∀ left, valid left → Parses p.deeper mid (Reading.operatorRound self power left)
      fun r left => left = rest ∧ ∃ e, r = .again e ∧ e.IsValid) :
    ParsesTo p ws (readExpression self power) rest Expression.IsValid := by
  refine nested hdepth (h.after fun first hfirst => ?_)
  refine repeatFrom (fun e left => left = mid ∧ valid e ∨ left = rest ∧ e.IsValid)
    (fun e left hleft => ?_) (.inl ⟨rfl, hfirst⟩)
  rcases hleft with ⟨rfl, he⟩ | ⟨rfl, he⟩
  · refine (hround e he).mono fun r left hr => ?_
    obtain ⟨rfl, e', rfl, he'⟩ := hr
    exact .inr ⟨rfl, he'⟩
  · refine (operatorRound_stops hstops).mono fun r left hr => ?_
    obtain ⟨rfl, rfl⟩ := hr
    exact ⟨rfl, he⟩

/-! ## The operators of the core -/

variable {power : Nat} {left : Expression}

theorem member (hpower : power < Symbol.callPower) (hp : p.inExcluded = false) {x : Name} :
    Parses p (.mark .dot :: .name x :: rest) (Reading.operatorRound self power left)
      fun r left => left = rest ∧ ∃ e, r = .again e ∧ e.IsValid :=
  operatorRound .dot rfl nofun hpower hp <|
    (advance rfl).after fun _ _ => propertyAfterDot.after fun _ _ => .pure ⟨rfl, nofun⟩

theorem indexed (hself : self.ReadsCore) (hpower : power < Symbol.callPower)
    (hp : p.inExcluded = false) {e : Expr} (hdepth : p.depth + 2 * e.nesting ≤ p.options.maxDepth) :
    Parses p (.mark .openBracket :: e.words ++ .mark .closeBracket :: rest)
      (Reading.operatorRound self power left)
      fun r left => left = rest ∧ ∃ e, r = .again e ∧ e.IsValid :=
  operatorRound .index rfl nofun hpower hp <|
    (advance rfl).after fun _ _ => (index hself hdepth).after fun _ _ => .pure ⟨rfl, nofun⟩

theorem called (hself : self.ReadsCore) (hpower : power < Symbol.callPower)
    (hp : p.inExcluded = false) {es : List Expr}
    (hdepth : p.depth + 2 * Core.elementNesting es ≤ p.options.maxDepth) :
    Parses p (enclosed (commaSeparated (Core.elementWords es)) rest)
      (Reading.operatorRound self power left)
      fun r left => left = rest ∧ ∃ e, r = .again e ∧ e.IsValid :=
  operatorRound .call rfl nofun hpower hp <|
    ((advance rfl).after fun _ _ => (arguments hself hdepth).after fun _ _ =>
      harmless fun _ => ⟨rfl, trivial⟩ : ParsesTo p _ (callOperation self left) rest).after
        fun _ _ => .pure ⟨rfl, nofun⟩

theorem chosen (hself : self.ReadsCore) (hpower : power < Symbol.conditionalPower)
    (hp : p.inExcluded = false) (hstops : Stops Symbol.commaPower rest) {first second : Expr}
    (hfirst : p.depth + (2 * first.nesting + 1) ≤ p.options.maxDepth)
    (hsecond : p.depth + (2 * second.nesting + 1) ≤ p.options.maxDepth) :
    Parses p (.mark .question :: enclosed first.words (.mark .colon :: enclosed second.words rest))
      (Reading.operatorRound self power left)
      fun r left => left = rest ∧ ∃ e, r = .again e ∧ e.IsValid :=
  operatorRound .conditional rfl nofun hpower hp <|
    (advance rfl).after fun _ _ =>
      (allowingIn (hself.group (stops_mark (by decide)) hfirst)).after fun _ _ =>
        (expectPunctuator (by decide) rfl).after fun _ _ =>
          (hself.group hstops hsecond).after fun _ _ => .pure ⟨rfl, nofun⟩

/-- The forms of the operators between two operands. -/
def binaryForms : List OperatorForm := [.binary, .logical, .nullish, .exponent]

theorem form_of_binary (operator : Core.Operator Core.binaryOperators) :
    ∃ form ∈ binaryForms,
      (Symbol.ofToken (Word.binary operator).token).operator? = some form ∧
        Symbol.conditionalPower ≤ (Symbol.ofToken (Word.binary operator).token).rightPower ∧
          Symbol.conditionalPower < (Symbol.ofToken (Word.binary operator).token).power := by
  have hall : ∀ text ∈ Core.binaryOperators,
      let symbol := Symbol.ofToken
        { lexeme := Core.fixedLexeme text, raw := text, start := default, stop := default }
      symbol.operator?.any binaryForms.contains ∧ Symbol.conditionalPower ≤ symbol.rightPower ∧
        Symbol.conditionalPower < symbol.power := by decide
  obtain ⟨hform, hright, hpower⟩ := hall operator.text operator.mem
  obtain ⟨form, hform, hmem⟩ := (Option.any_eq_true _ _).mp hform
  exact ⟨form, by simpa using hmem, hform, hright, hpower⟩

theorem combined (hself : self.ReadsCore) (hpower : power < Symbol.conditionalPower)
    (hp : p.inExcluded = false) (hstops : Stops power rest)
    {operator : Core.Operator Core.binaryOperators} {right : Expr}
    (hdepth : p.depth + (2 * right.nesting + 1) ≤ p.options.maxDepth) :
    Parses p (.binary operator :: enclosed right.words rest)
      (Reading.operatorRound self power left)
      fun r left => left = rest ∧ ∃ e, r = .again e ∧ e.IsValid := by
  obtain ⟨form, hmem, hform, hright, hless⟩ := form_of_binary operator
  have hstops' := hstops.mono ((Nat.le_of_lt hpower).trans hright)
  have hgroup := hself.group hstops' hdepth
  have hplain {kind : ExpressionKind} (hkind : kind ≠ .invalid) :
      ParsesTo p (.binary operator :: enclosed right.words rest) (do
        Reading.advance
        let _ ← self.expression (Symbol.ofToken (Word.binary operator).token).rightPower
        Pure.pure kind) rest (· ≠ .invalid) :=
    (advance rfl).after fun _ _ => hgroup.after fun _ _ => .pure ⟨rfl, hkind⟩
  refine operatorRound form hform (by rintro rfl; revert hmem; decide) (hpower.trans hless) hp ?_
  simp only [binaryForms, List.mem_cons, List.not_mem_nil, or_false] at hmem
  rcases hmem with rfl | rfl | rfl | rfl
  · have hbinary : ParsesTo p (.binary operator :: enclosed right.words rest)
        (binaryOperation self (Symbol.ofToken (Word.binary operator).token).rightPower left) rest :=
      .skip fun t => (advance rfl).after fun _ _ => hgroup.after fun e _ =>
        .ite (fun _ => harmless fun _ => ⟨rfl, trivial⟩) fun _ =>
          .ite (fun _ => harmless fun _ => ⟨rfl, trivial⟩) fun _ => .pure ⟨rfl, trivial⟩
    exact hbinary.after fun _ _ => .pure ⟨rfl, nofun⟩
  · exact hplain nofun
  · exact hplain nofun
  · exact hplain nofun

/-- A name to which a value is assigned. -/
theorem assigned (hself : self.ReadsCore) (hp : p.inExcluded = false) {value : Expr}
    {x : String} {reference : Nat} (hleft : left.kind = .identifier x reference)
    (hdepth : p.depth + 2 * value.nesting ≤ p.options.maxDepth) :
    Parses p (.mark .assign :: value.words ++ .mark .semicolon :: rest)
      (Reading.operatorRound self 0 left)
      fun r left => left = .mark .semicolon :: rest ∧ ∃ e, r = .again e ∧ e.IsValid := by
  have htarget (access : Scope.Access) : Harmless (assignmentTarget left access) := by
    unfold assignmentTarget
    rw [hleft]
    infer_instance
  have hassignment : ParsesTo p (.mark .assign :: value.words ++ .mark .semicolon :: rest)
      (assignmentOperation self left) (.mark .semicolon :: rest) :=
    .skip fun atAssign => (advance rfl).after fun _ _ => .skip fun _ =>
      (hself.expression hp (by decide) (stops_mark (by decide)) hdepth).after fun _ _ =>
        .pure ⟨rfl, trivial⟩
  exact operatorRound .assign rfl nofun (by decide) hp <|
    hassignment.after fun _ _ => .pure ⟨rfl, nofun⟩

/-! ## Expressions -/

theorem enclosed_append (words first second : List Word) :
    enclosed words first ++ second = enclosed words (first ++ second) := by
  simp [enclosed]

theorem groupOperand (hself : self.ReadsCore) {e : Expr}
    (hdepth : p.depth + 2 * e.nesting ≤ p.options.maxDepth) :
    ParsesTo p (enclosed e.words ws) (Reading.readOperand self) ws Expression.IsValid := by
  have hform : (Symbol.ofToken (Word.mark .openParen).token).operand? = some .parenthesis := by
    rfl
  exact readOperand hform (parenthesis hself hdepth)

/-- A group with an operator after it. -/
theorem groupContinued (hself : self.ReadsCore) {e : Expr} {mid : List Word}
    (hdepth : p.depth + (2 * e.nesting + 1) ≤ p.options.maxDepth) (hstops : Stops power rest)
    (hround : ∀ left, Parses p.deeper mid (Reading.operatorRound self power left)
      fun r left => left = rest ∧ ∃ e, r = .again e ∧ e.IsValid) :
    ParsesTo p (enclosed e.words mid) (readExpression self power) rest Expression.IsValid := by
  have hinside : p.deeper.depth + 2 * e.nesting ≤ p.deeper.options.maxDepth := by
    change p.depth + 1 + 2 * e.nesting ≤ p.options.maxDepth
    omega
  exact operandContinued (by omega) hstops (groupOperand hself hinside) fun left _ => hround left

/-- The word of a function where an operand is expected. -/
theorem functionOperand (hself : self.ReadsCore) (hp : p.inExcluded = false)
    {name? : Option Name} {names : List Name} {body : List Stmt}
    (hdepth : p.depth + 2 * Core.bodyNesting body ≤ p.options.maxDepth) :
    ParsesTo p (.mark .functionWord :: (name?.toList.map .name ++
      (Core.functionWords names (Core.bodyWords body) ++ rest)))
      (operandOf self .functionWord) rest Expression.IsValid := by
  refine .peek rfl fun next hnext => ?_
  have hdot : next.isPunctuator "." = false := by
    cases name? with
    | none => exact hnext.begins.isPunctuator_eq "."
    | some name => exact hnext.begins.isPunctuator_eq "."
  rw [hdot]
  exact functionExpression hself hp hdepth

/-- An expression is read by a table whose productions read what the core has. -/
theorem readExpression (hself : self.ReadsCore) (hp : p.inExcluded = false)
    (hpower : power < Symbol.conditionalPower) (hstops : Stops (min power Symbol.commaPower) ws)
    {e : Expr} (hdepth : p.depth + 2 * e.nesting ≤ p.options.maxDepth) :
    ParsesTo p (e.words ++ ws) (readExpression self power) ws Expression.IsValid := by
  have hstops' : Stops power ws := hstops.mono (min_le_left _ _)
  have hcomma : Stops Symbol.commaPower ws := hstops.mono (min_le_right _ _)
  have hunary : Stops Symbol.unaryPower ws := hcomma.mono (by decide)
  have hcall : power < Symbol.callPower := hpower.trans (by decide)
  have hdeeper : p.deeper.inExcluded = false := hp
  have hinside {n : Nat} (h : p.depth + 1 + n ≤ p.options.maxDepth) :
      p.deeper.depth + n ≤ p.deeper.options.maxDepth := h
  cases e with
  | name x =>
      simp only [Expr.nesting] at hdepth
      refine operandAlone (by omega) hstops' <| readOperand rfl <|
        nameExpression.mono fun e rest ⟨hrest, reference, hkind⟩ => ⟨hrest, ?_⟩
      rw [Expression.IsValid, hkind]
      nofun
  | number n =>
      simp only [Expr.nesting] at hdepth
      exact operandAlone (by omega) hstops' (readOperand rfl (literal rfl))
  | string q t =>
      simp only [Expr.nesting] at hdepth
      exact operandAlone (by omega) hstops' (readOperand rfl (literal rfl))
  | template t parts =>
      simp only [Expr.nesting] at hdepth
      have hform : (Symbol.ofToken (Word.opening t (!parts.isEmpty)).token).operand? =
          some .template := by cases parts <;> rfl
      exact operandAlone (by omega) hstops'
        (readOperand hform (templateLiteral hself (hinside (by omega))))
  | array elements =>
      simp only [Expr.nesting] at hdepth
      have hwords : (Expr.array elements).words ++ ws = .mark .openBracket ::
          (commaSeparated (Core.elementWords elements) ++ .mark .closeBracket :: ws) := by
        simp [Expr.words]
      rw [hwords]
      exact operandAlone (by omega) hstops'
        (readOperand rfl (patternOr (arrayLiteral hself (hinside (by omega)))))
  | object properties =>
      simp only [Expr.nesting] at hdepth
      have hwords : (Expr.object properties).words ++ ws =
          braced (commaSeparated (Core.propertyWords properties)) ws := by
        simp [Expr.words, braced]
      rw [hwords]
      exact operandAlone (by omega) hstops'
        (readOperand rfl (patternOr (objectLiteral hself (hinside (by omega)))))
  | function name? parameters body =>
      simp only [Expr.nesting] at hdepth
      have hwords : (Expr.function name? parameters body).words ++ ws =
          .mark .functionWord :: (name?.toList.map .name ++
            (Core.functionWords parameters (Core.bodyWords body) ++ ws)) := by
        simp [Expr.words]
      rw [hwords]
      exact operandAlone (by omega) hstops'
        (readOperand rfl (functionOperand hself hdeeper (hinside (by omega))))
  | member object property =>
      simp only [Expr.nesting] at hdepth
      rw [Expr.words, enclosed_append]
      exact groupContinued hself (by omega) hstops' fun left => member hcall hdeeper
  | index object position =>
      simp only [Expr.nesting] at hdepth
      have hwords : (Expr.index object position).words ++ ws = enclosed object.words
          (.mark .openBracket :: position.words ++ .mark .closeBracket :: ws) := by
        simp [Expr.words, enclosed]
      rw [hwords]
      exact groupContinued hself (by omega) hstops' fun left =>
        indexed hself hcall hdeeper (hinside (by omega))
  | call callee arguments =>
      simp only [Expr.nesting] at hdepth
      rw [Expr.words, enclosed_append, enclosed_append]
      exact groupContinued hself (by omega) hstops' fun left =>
        called hself hcall hdeeper (hinside (by omega))
  | unary operator operand =>
      simp only [Expr.nesting] at hdepth
      rw [Expr.words, List.cons_append, enclosed_append]
      exact operandAlone (by omega) hstops'
        (readOperand form_of_unary (unaryExpression hself hunary (hinside (by omega))))
  | conditional condition first second =>
      simp only [Expr.nesting] at hdepth
      rw [Expr.words, enclosed_append, List.cons_append, enclosed_append, List.cons_append,
        enclosed_append]
      exact groupContinued hself (by omega) hstops' fun left =>
        chosen hself hpower hdeeper hcomma (hinside (by omega)) (hinside (by omega))
  | binary operator left right =>
      simp only [Expr.nesting] at hdepth
      rw [Expr.words, enclosed_append, List.cons_append, enclosed_append]
      exact groupContinued hself (by omega) hstops' fun left =>
        combined hself hpower hdeeper hstops' (hinside (by omega))

/-- A group is read whatever operators bind around it, also where `in` is excluded. -/
theorem readGroup (hself : self.ReadsCore) {e : Expr} (hstops : Stops power ws)
    (hdepth : p.depth + (2 * e.nesting + 1) ≤ p.options.maxDepth) :
    ParsesTo p (enclosed e.words ws) (Reading.readExpression self power) ws Expression.IsValid := by
  have hinside : p.deeper.depth + 2 * e.nesting ≤ p.deeper.options.maxDepth := by
    change p.depth + 1 + 2 * e.nesting ≤ p.options.maxDepth
    omega
  exact operandAlone (by omega) hstops (groupOperand hself hinside)

theorem readAssignment (hself : self.ReadsCore) (hp : p.inExcluded = false) {x : Name}
    {value : Expr} (hdepth : p.depth + 1 + 2 * value.nesting ≤ p.options.maxDepth) :
    ParsesTo p (.name x :: .mark .assign :: value.words ++ .mark .semicolon :: ws)
      (Reading.readExpression self 0) (.mark .semicolon :: ws) Expression.IsValid :=
  operandContinued (by omega) (stops_mark (by decide)) (readOperand rfl nameExpression)
    fun _ ⟨_, hleft⟩ => assigned (p := p.deeper) hself hp hleft hdepth

theorem readInvocation (hself : self.ReadsCore) (hp : p.inExcluded = false) {f : Name}
    {es : List Expr} (hdepth : p.depth + 1 + 2 * Core.elementNesting es ≤ p.options.maxDepth) :
    ParsesTo p (.name f :: enclosed (commaSeparated (Core.elementWords es))
      (.mark .semicolon :: ws)) (Reading.readExpression self 0) (.mark .semicolon :: ws)
      Expression.IsValid :=
  operandContinued (by omega) (stops_mark (by decide)) (readOperand rfl nameExpression)
    fun _ _ => called (p := p.deeper) hself (by decide) hp hdepth

end Parses

end Reading

end ScriptLint
