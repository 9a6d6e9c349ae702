import ScriptLint.Proofs.Core.Operand

/-! # Functions of the core

Functions have names as parameters, and their bodies are lists of statements, as those of blocks and
of the whole program are. No list begins with a string, so there are no directives.
-/

set_option synthInstance.maxSize 4096

namespace ScriptLint.Reading

open ScriptLint.Core (Word Expr Stmt Name Mark enclosed braced commaSeparated)

variable {p : Place} {w : Word} {ws rest : List Word} {self : Productions}

/-! ## Remarks -/

instance (ps : Parameters) (comma : Position) : Harmless (parameterComma ps comma) := by
  unfold parameterComma
  infer_instance

instance (ps : Parameters) (method : Bool) : Harmless (declareParameters ps method) := by
  unfold declareParameters
  infer_instance

instance (bound : BoundName) (position : Position) : Harmless (declareFunction bound position) := by
  unfold declareFunction reportMisplacedFunction
  infer_instance

namespace Parses

/-! ## Parameters -/

theorem bindingName {x : Name} : ParsesTo p (.name x :: ws) bindingName ws := by
  refine .token fun t ht => ?_
  have hproperty : t.isPropertyName = true := ht.begins.isPropertyName_eq
  rw [if_pos hproperty]
  exact .skip fun reserved => .remark <| (advance rfl).after fun _ _ => .pure ⟨rfl, trivial⟩

theorem parameter (hself : self.ReadsCore) {x : Name} (hrest : EndsItem .closeParen rest)
    (ps : Parameters) :
    Parses p (.name x :: rest) (parameter self ps)
      fun r left => left = rest ∧ ∃ next, r = .again next := by
  have hdefault (takesRest : Bool) : ParsesTo p rest (parameterDefault self takesRest) rest := by
    obtain ⟨m, rest, rfl, hm⟩ := hrest
    refine .token fun t ht => ?_
    have hassign : t.isPunctuator "=" = false := by
      rw [ht.begins.isPunctuator_eq]
      rcases hm with rfl | rfl <;> decide
    rw [hassign]
    exact .pure ⟨rfl, trivial⟩
  refine .token fun t ht => ?_
  have hend : t.isEnd = false := by
    rw [Token.isEnd, ht.begins.lexeme_eq]
    rfl
  have hdots : t.isPunctuator "..." = false := ht.begins.isPunctuator_eq "..."
  rw [hend, hdots]
  refine .ite nofun fun _ => .remark <| .ite nofun fun _ => ?_
  refine hself.bindingTarget.after fun target _ => (hdefault false).after fun defaultEnd? _ => ?_
  exact .remark <| .pure ⟨rfl, _, rfl⟩

theorem parameters (hself : self.ReadsCore) (names : List Name) :
    ParsesTo p (enclosed (commaSeparated (names.map fun x => [.name x])) ws) (parameters self)
      ws := by
  have hitems : ∀ words ∈ names.map fun x => [Word.name x],
      (∀ w ∈ words.head?, w.token.isPunctuator Mark.closeParen.text = false) ∧ words ≠ [] ∧
        ∀ ps rest, EndsItem .closeParen rest →
          Parses p (words ++ rest) (Reading.parameter self ps)
            fun r left => left = rest ∧ ∃ next, r = .again next := by
    intro words hwords
    obtain ⟨x, -, rfl⟩ := List.mem_map.mp hwords
    refine ⟨fun w hw => ?_, List.cons_ne_nil _ _, fun ps rest hrest => parameter hself hrest ps⟩
    obtain rfl := Option.some.inj hw
    rfl
  refine (expectPunctuator (by decide) rfl).after fun _ _ => ?_
  refine (commaList (by decide) hitems _).after fun ps _ => ?_
  exact (expectPunctuator (by decide) rfl).after fun _ _ => .pure ⟨rfl, trivial⟩

/-! ## Lists of statements -/

/-- What begins a statement of the core is no string and closes no block. -/
theorem exists_statement_words_eq (statement : Stmt) : ∃ w words, statement.words = w :: words ∧
    ((∃ x, w = .name x) ∨ ∃ m ∈ [Mark.varWord, .ifWord, .whileWord, .forWord, .returnWord,
      .functionWord], w = .mark m) := by
  cases statement with
  | assign x | call x => exact ⟨_, _, rfl, .inl ⟨x, rfl⟩⟩
  | var | branch | «while» | «for» | «return» | function =>
      exact ⟨_, _, rfl, .inr ⟨_, by decide, rfl⟩⟩

/-- A list of statements ends where no statement begins. -/
def EndsList (top : Bool) (ws : List Word) : Prop :=
  match top with
  | true => ws = []
  | false => ∃ rest, ws = .mark .closeBrace :: rest

theorem lexeme_ne_string {body : List Stmt} {top : Bool} (hrest : EndsList top rest) {t : Token}
    {size : Nat} (ht : t.Fronts size (Core.bodyWords body ++ rest)) (value : String) :
    t.lexeme ≠ .string value := by
  cases body with
  | nil =>
      cases top with
      | true =>
          obtain rfl : rest = [] := hrest
          rw [Token.lexeme_of_isEnd ht.isEnd]
          nofun
      | false =>
          obtain ⟨rest, rfl⟩ := hrest
          rw [ht.begins.lexeme_eq]
          nofun
  | cons statement body =>
      obtain ⟨w, words, hwords, hw⟩ := exists_statement_words_eq statement
      rw [Core.bodyWords, hwords] at ht
      rw [ht.begins.lexeme_eq]
      rcases hw with ⟨x, rfl⟩ | ⟨m, hm, rfl⟩
      · nofun
      · cases m <;> nofun

theorem directives {body : List Stmt} {top : Bool} (hrest : EndsList top rest)
    (simpleParameters? : Option Bool) :
    ParsesTo p (Core.bodyWords body ++ rest) (directives simpleParameters?)
      (Core.bodyWords body ++ rest) := by
  refine (repeatWhile (· = Core.bodyWords body ++ rest) (· = Core.bodyWords body ++ rest)
    (fun left hleft => ?_) rfl).mono fun _ left hleft => ⟨hleft, trivial⟩
  subst hleft
  refine .token fun t ht => ?_
  split
  next value heq => exact absurd heq (lexeme_ne_string hrest ht value)
  next => exact .pure rfl

/-- The statements that are left in front of the end of a list. -/
def StatementsLeft (p : Place) (rest left : List Word) : Prop :=
  ∃ body, p.depth + 2 * Core.bodyNesting body ≤ p.options.maxDepth ∧
    left = Core.bodyWords body ++ rest

theorem listRound (hself : self.ReadsCore) (hp : p.inExcluded = false) {top : Bool}
    (hrest : EndsList top rest) {left : List Word} (hleft : StatementsLeft p rest left)
    (s : ListScan) :
    Parses p left (listRound self top s) (Round.Keeps (fun _ => StatementsLeft p rest)
      fun _ => (· = rest)) := by
  obtain ⟨body, hdepth, rfl⟩ := hleft
  refine .token fun t ht => ?_
  cases body with
  | nil =>
      have hends : (t.isEnd || (t.isPunctuator "\x7d" && !top)) = true := by
        cases top with
        | true =>
            obtain rfl : rest = [] := hrest
            rw [ht.isEnd]
            rfl
        | false =>
            obtain ⟨rest, rfl⟩ := hrest
            rw [ht.begins.isPunctuator_eq]
            exact Bool.or_true _
      rw [if_pos hends]
      exact .pure rfl
  | cons statement body =>
      simp only [Core.bodyNesting] at hdepth
      obtain ⟨w, words, hwords, hw⟩ := exists_statement_words_eq statement
      have hbegins : w.Begins t := by
        rw [Core.bodyWords, hwords] at ht
        exact ht.begins
      have hbrace : t.isPunctuator "\x7d" = false := by
        rw [hbegins.isPunctuator_eq]
        rcases hw with ⟨x, rfl⟩ | ⟨m, hm, rfl⟩
        · rfl
        · revert hm
          cases m <;> decide
      have hend : t.isEnd = false := by
        rw [Token.isEnd, hbegins.lexeme_eq]
        rcases hw with ⟨x, rfl⟩ | ⟨m, hm, rfl⟩
        · rfl
        · cases m <;> rfl
      have hstatement : p.depth + 2 * statement.nesting ≤ p.options.maxDepth := by omega
      rw [hend, hbrace, Core.bodyWords, List.append_assoc]
      refine (hself.statement hp hstatement).after fun kind _ => .token fun next hnext => ?_
      -- The statement took words, so the token after it stands elsewhere.
      have hmoved : (next.position.offset == t.position.offset) = false := by
        have hlt := Core.byteLength_joined_lt w words (Core.bodyWords body ++ rest)
        have hbefore := ht.offset_eq
        have hbehind := hnext.offset_eq
        rw [Core.bodyWords, hwords, List.append_assoc] at hbefore
        exact beq_false_of_ne (by omega)
      rw [hmoved]
      exact .pure ⟨body, by omega, rfl⟩

theorem statementList (hself : self.ReadsCore) (hp : p.inExcluded = false) {body : List Stmt}
    {top : Bool} (hrest : EndsList top rest)
    (hdepth : p.depth + 2 * Core.bodyNesting body ≤ p.options.maxDepth) :
    ParsesTo p (Core.bodyWords body ++ rest) (statementList self top) rest := by
  refine (repeatFrom (fun _ => StatementsLeft p rest)
    (fun s left hleft => listRound hself hp hrest hleft s) ⟨body, hdepth, rfl⟩).bind
      fun s left hleft => .pure ⟨hleft, trivial⟩

/-! ## Bodies -/

theorem functionBody (hself : self.ReadsCore) (hp : p.inExcluded = false) {body : List Stmt}
    (hdepth : p.depth + 2 * Core.bodyNesting body ≤ p.options.maxDepth) (simple : Bool) :
    ParsesTo p (braced (Core.bodyWords body) ws) (functionBody self simple) ws := by
  have hrest : EndsList false (.mark .closeBrace :: ws) := ⟨ws, rfl⟩
  refine .token fun t ht => ?_
  have hopens : t.isPunctuator "\x7b" = true := ht.begins.isPunctuator_eq "\x7b"
  rw [if_pos hopens]
  refine (advance rfl).after fun _ _ => (directives hrest _).after fun _ _ => ?_
  refine .skip fun o => .skip fun strict => .remark ?_
  exact (statementList hself hp hrest hdepth).after fun _ _ => expectPunctuator (by decide) rfl

theorem functionRest (hself : self.ReadsCore) (hp : p.inExcluded = false) {body : List Stmt}
    (hdepth : p.depth + 2 * Core.bodyNesting body ≤ p.options.maxDepth) (names : List Name)
    (facts : Scope.FunctionFacts) (position : Position) (ownName? : Option BoundName) :
    ParsesTo p (Core.functionWords names (Core.bodyWords body) ++ ws)
      (functionRest self facts position ownName?) ws := by
  have hwords : Core.functionWords names (Core.bodyWords body) ++ ws =
      enclosed (commaSeparated (names.map fun x => [.name x]))
        (braced (Core.bodyWords body) ws) := by
    simp [Core.functionWords, enclosed, braced]
  rw [hwords]
  refine .skip fun _ => .skip fun _ => (parameters hself names).after fun ps _ => ?_
  refine .skip fun _ => (functionBody hself hp hdepth ps.simple).after fun _ _ => ?_
  exact .skip fun t => .remark <| .skip fun _ => .pure ⟨rfl, trivial⟩

theorem functionWords (position : Position) :
    ParsesTo p (.mark .functionWord :: ws) (functionWords false position) ws :=
  advance rfl

theorem generatorStar (hw : w.token.isPunctuator "*" = false) :
    ParsesTo p (w :: ws) generatorStar (w :: ws) (· = false) := by
  refine .token fun t ht => ?_
  rw [ht.begins.isPunctuator_eq, hw]
  exact .pure ⟨rfl, rfl⟩

/-- A function with a name. -/
theorem functionDeclaration (hself : self.ReadsCore) (hp : p.inExcluded = false) {f : Name}
    {names : List Name} {body : List Stmt}
    (hdepth : p.depth + 2 * Core.bodyNesting body ≤ p.options.maxDepth) :
    ParsesTo p (.mark .functionWord :: .name f ::
      (Core.functionWords names (Core.bodyWords body) ++ ws))
      (functionDeclaration self false false) ws := by
  refine .skip fun t => (functionWords _).after fun _ _ => (generatorStar rfl).after fun _ _ => ?_
  refine bindingName.after fun bound? _ => .skip fun _ => ?_
  exact (functionRest hself hp hdepth names _ _ _).after fun ps _ => .pure ⟨rfl, trivial⟩

theorem functionExpression (hself : self.ReadsCore) (hp : p.inExcluded = false)
    {name? : Option Name} {names : List Name} {body : List Stmt}
    (hdepth : p.depth + 2 * Core.bodyNesting body ≤ p.options.maxDepth) :
    ParsesTo p (.mark .functionWord :: (name?.toList.map .name ++
      (Core.functionWords names (Core.bodyWords body) ++ ws)))
      (functionExpression self false) ws Expression.IsValid := by
  refine .skip fun t => (functionWords _).after fun _ _ => ?_
  cases name? with
  | none =>
      refine (generatorStar rfl).after fun _ _ => .token fun u hu => ?_
      have hname : u.isPropertyName = false := hu.begins.isPropertyName_eq
      rw [hname]
      refine .ite nofun fun _ => .skip fun bound? => ?_
      exact (functionRest hself hp hdepth names _ _ _).after fun ps _ => .pure ⟨rfl, nofun⟩
  | some name =>
      refine (generatorStar rfl).after fun _ _ => .token fun u hu => ?_
      have hname : u.isPropertyName = true := hu.begins.isPropertyName_eq
      rw [if_pos hname]
      refine bindingName.after fun bound? _ => ?_
      exact (functionRest hself hp hdepth names _ _ _).after fun ps _ => .pure ⟨rfl, nofun⟩

end Parses

end ScriptLint.Reading
