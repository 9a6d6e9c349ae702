import ScriptLint.Analysis.Basic
import ScriptLint.Proofs.Reading.Chain
import ScriptLint.Proofs.Reading.Restriction
import ScriptLint.Proofs.Reading.Takes

/-! # Powers of operators

No tree is built of a chain of operators, so how they group shows in where reading stops. A part of
a chain that is read with some power ends in front of the first operator that does not bind more
strongly, and what it turns out to be is decided by the operator in it that binds most weakly.
-/

namespace ScriptLint

namespace Reading

/-- What a chain may be reported for: the edition, comparisons with `NaN` and with conversions, and
what `instanceof` tests against. -/
def chainCodes : List String := ["W119", "W019", "W116", "E060"]

variable {self : Productions} {s s' : State} {power n : Nat} {first t stop : Token} {l : Link}
variable {links : List Link}

/-- A chain comes next, up to a token that ends it, and there is depth enough for each of its
operators. -/
structure State.AtChain (s : State) (power : Nat) (first : Token) (links : List Link)
    (stop : Token) : Prop where
  ready : s.Ready
  lookahead : s.lookahead = first
  inAdmitted : s.inExcluded = false
  depth : s.depth + links.length < s.options.maxDepth
  unsuspicious : first.Unsuspicious
  operand : first.IsOperand s.reserves
  chain : Chain s.reserves stop first links
  ends : stop.EndsChain power

/-- Chains of fewer than `n` links are read up to the first operator that does not bind more
strongly. -/
def Productions.ReadsChains (self : Productions) (n : Nat) : Prop :=
  ∀ power s first links stop, State.AtChain s power first links stop → links.length < n →
    Goes chainCodes s (first :: Link.tokens (Link.tighter power links))
      (Link.next stop (Link.looser power links)) (self.expression power) fun e =>
        ∃ operand, first.IsOperandKind operand ∧
          Loosest operand (Link.tighter power links) e.kind

/-! ### Operands -/

/-- What comes behind an operand lets reading go on. -/
theorem next_admitted (hchain : Chain s.reserves stop t links) (hends : stop.EndsChain power) :
    Token.next t.stop = Link.next stop links ∧ (Link.next stop links).Admitted ∧
      (Link.next stop links).isPunctuator "=>" = false := by
  cases hchain with
  | last hnext => exact ⟨hnext, hends.toAdmitted, hends.noArrow⟩
  | link hnext hoperator hkind =>
      exact ⟨hnext, hoperator.toAdmitted, Link.isPunctuator_arrow hkind⟩

theorem Goes.takeUnsuspicious {next : Token} (ht : s.lookahead = t) (hunsuspicious : t.Unsuspicious)
    (hnext : Token.next t.stop = next) (hadmitted : next.Admitted) :
    Goes chainCodes s [t] next Reading.advance fun _ => True := by
  subst ht hnext
  refine advance (fun issue hmem => ?_) hadmitted.fatalIssue? hadmitted.directives
  rw [hunsuspicious.issues issue hmem]
  decide

theorem run_nameRole {name : String} (hlexeme : s.lookahead.lexeme = .identifier name)
    (hplain : name ∉ ["async", "yield", "await"])
    (harrow : (Token.next s.lookahead.stop).isPunctuator "=>" = false) :
    nameRole.run.run s = (.ok .plain, s) := by
  have hname : s.lookahead.name = name := by rw [Token.name, hlexeme]
  have hrole : (wordRole? s.lookahead).run.run s = (.ok none, s) := by
    unfold wordRole?
    split
    · rfl
    · rw [hname]
      split
      case h_1 | h_2 | h_3 => exact absurd (by decide) hplain
      case h_4 => rfl
  have hpeek : peek.run.run s = (.ok (Token.next s.lookahead.stop), s) := rfl
  rw [nameRole, run_bind, run_token]
  dsimp only
  rw [run_bind, hrole]
  dsimp only
  rw [run_bind, hpeek]
  dsimp only
  rw [harrow]
  rfl

theorem Goes.readOperand {next : Token} (hfirst : s.lookahead = first)
    (hunsuspicious : first.Unsuspicious) (hoperand : first.IsOperand s.reserves)
    (hnext : Token.next first.stop = next) (hadmitted : next.Admitted)
    (harrow : next.isPunctuator "=>" = false) :
    Goes chainCodes s [first] next (readOperand self) (first.IsOperandKind ·.kind) := by
  have htake {s' : State} (h : s.Takes chainCodes [] s.lookahead s') :
      Goes chainCodes s' [first] next Reading.advance fun _ => True :=
    .takeUnsuspicious (h.lookahead.trans hfirst) hunsuspicious hnext hadmitted
  have hslash : isSlash s.lookahead = false := by
    rw [hfirst]
    cases hoperand with
    | name hlexeme | number hlexeme =>
        simp only [isSlash, Token.isPunctuator, hlexeme, Bool.or_self]
  have hrescan : rescanRegexp.run.run s = (.ok (), s) := by
    rw [rescanRegexp, run_bind, run_token]
    dsimp only
    rw [hslash]
    rfl
  refine look hrescan (token ?_)
  cases hoperand with
  | @name name hlexeme hfree hplain =>
      have hform : (Symbol.ofToken s.lookahead).operand? = some .identifier := by
        rw [hfirst, Symbol.ofToken, hlexeme]
      have hrole := run_nameRole (s := s) (hfirst ▸ hlexeme) hplain (by rw [hfirst, hnext, harrow])
      have hreserved : (isReserved s.lookahead.name).run.run s = (.ok false, s) := by
        rw [Lockstep.run_isReserved, hfirst, Token.name, hlexeme]
        exact congrArg (fun b => (Except.ok b, s)) hfree
      rw [hform]
      refine look hrole (token (look hreserved ?_))
      refine (htake (.refl s)).before fun _ s' h _ => ?_
      rw [← h.lookahead]
      refine after (addReference _ _ _) fun reference s'' h' _ => ?_
      rw [← h'.lookahead]
      refine pure ?_
      rw [hfirst, Token.name, hlexeme]
      exact .name hlexeme reference
  | @number value hlexeme hoctal hzero =>
      have hform : (Symbol.ofToken s.lookahead).operand? = some .literal := by
        rw [hfirst, Symbol.ofToken, hlexeme]
      have hstrict : isStrict.run.run s = (.ok s.session.tracker.isStrict, s) := rfl
      rw [hform]
      refine token (look hstrict ?_)
      rw [hfirst, hoctal, hzero, hlexeme]
      exact (htake (.refl s)).before fun _ s' h _ => h.lookahead ▸ pure (.number hlexeme)

/-! ### Operators -/

theorem operatorAt?_of_ends (hends : t.EndsChain power) (excluded : Bool) :
    operatorAt? power excluded t = none := by
  unfold operatorAt?
  split
  · rfl
  next form hform =>
    refine if_pos ?_
    rcases hends.noOperator form hform with hle | ⟨hupdate, hnewline⟩
    · simp [hle]
    · simp [hupdate, hnewline]

theorem operatorAt?_of_le (hle : l.power ≤ power) (excluded : Bool) :
    operatorAt? power excluded l.operator = none := by
  unfold operatorAt?
  split
  · rfl
  · exact if_pos (by simpa [Link.power, Link.symbol] using .inl (.inr hle))

theorem exists_operatorAt? (hkind : l.kind?.isSome) (hpower : power < l.power) :
    ∃ form, operatorAt? power false l.operator = some (l.symbol, form) ∧
      l.kind? = form.chainKind? := by
  obtain ⟨kind, hkind⟩ := Option.isSome_iff_exists.mp hkind
  obtain ⟨form, hform, hchain⟩ := Option.bind_eq_some_iff.mp hkind
  refine ⟨form, ?_, hkind.trans hchain.symm⟩
  have hupdate : form ≠ .update := by
    rintro rfl
    cases hchain
  have hpower' : ¬ (Symbol.ofToken l.operator).power ≤ power := Nat.not_le.mpr hpower
  rw [Link.symbol] at hform
  unfold operatorAt?
  rw [hform]
  exact if_neg (by simp [hupdate, hpower'])

/-- An operator of a chain comes next. -/
structure State.AtOperator (s : State) (l : Link) (links : List Link) (stop : Token) : Prop where
  ready : s.Ready
  lookahead : s.lookahead = l.operator
  inAdmitted : s.inExcluded = false
  depth : s.depth + links.length < s.options.maxDepth
  chain : ∃ t, Chain s.reserves stop t (l :: links)
  ends : stop.EndsChain l.symbol.rightPower

/-- What a part of a chain turns out to be has no effect of its own, and it is no function. -/
theorem inert_of_loosest {operand : ExpressionKind} {e : Expression}
    (hoperand : t.IsOperandKind operand) (h : Loosest operand links e.kind) :
    e.hasEffect = false ∧ e.kind ≠ .function := by
  obtain ⟨kind, position, parenthesized⟩ := e
  cases h with
  | none hlinks hkind =>
      cases hkind
      cases hoperand <;> exact ⟨rfl, nofun⟩
  | link l hmem hle hkind =>
      obtain ⟨form, -, hform⟩ := Option.bind_eq_some_iff.mp hkind
      cases form <;> cases hform <;> exact ⟨rfl, nofun⟩

/-- To the right of an operator, its operand is read as far as it binds. -/
theorem Goes.rightOperand {α : Type} {rest : Expression → Reading α} {post : α → Prop}
    (hself : self.ReadsChains n) (h : s.AtOperator l links stop) (hn : links.length < n)
    (hrest : ∀ e s', e.hasEffect = false → e.kind ≠ .function →
      Goes chainCodes s' [] s'.lookahead (rest e) post) :
    Goes chainCodes s
      (l.operator :: l.operand :: Link.tokens (Link.tighter l.symbol.rightPower links))
      (Link.next stop (Link.looser l.symbol.rightPower links))
      (Reading.advance >>= fun _ => self.expression l.symbol.rightPower >>= rest) post := by
  obtain ⟨t, hchain⟩ := h.chain
  obtain _ | ⟨hnext, hoperator, hkind, hbetween, hunsuspicious, hreserved, hlinks⟩ := hchain
  have hadvance := takeUnsuspicious h.lookahead hoperator hbetween hunsuspicious.toAdmitted
  refine hadvance.bind fun _ s' hs' _ => ?_
  have hat : s'.AtChain l.symbol.rightPower l.operand links stop := {
    ready := by
      have hwithin := h.ready
      rw [State.Ready, h.lookahead] at hwithin
      rw [State.Ready, hs'.lookahead, hs'.size, ← hbetween]
      exact .next hwithin.stop
    lookahead := hs'.lookahead
    inAdmitted := hs'.inExcluded.trans h.inAdmitted
    depth := by rw [hs'.depth, hs'.options]; exact h.depth
    unsuspicious := hunsuspicious
    operand := by rwa [hs'.reserves]
    chain := by rwa [hs'.reserves]
    ends := h.ends }
  refine (hself _ _ _ _ _ hat hn).before fun e s'' hs'' he => ?_
  obtain ⟨operand, hoperand, hloosest⟩ := he
  obtain ⟨heffect, hfunction⟩ := inert_of_loosest hoperand hloosest
  exact hs''.lookahead ▸ hrest e s'' heffect hfunction

theorem Goes.checkComparison (operator : Token) (left right : Expression) :
    Goes chainCodes s [] s.lookahead (checkComparison operator left right) fun _ => True := by
  have hnan : "W019" ∈ chainCodes := by decide
  have hequality : "W116" ∈ chainCodes := by decide
  unfold Reading.checkComparison
  refine whenThen (fun _ => report hnan _ _ _) fun _ s' hs' => ?_
  rw [← hs'.lookahead]
  refine look rfl (when fun _ => ?_)
  cases strictEquality? operator.raw with
  | none => exact pure trivial
  | some wanted => exact report hequality _ _ _

theorem Goes.checkInstanceOf {right : Expression} (hfunction : right.kind ≠ .function) :
    Goes chainCodes s [] s.lookahead (checkInstanceOf right) fun _ => True := by
  unfold Reading.checkInstanceOf
  rw [if_neg hfunction]
  exact when fun _ => report (by decide) _ _ _

theorem Goes.operatorOf {form : OperatorForm} {kind : ExpressionKind} (left : Expression)
    (hself : self.ReadsChains n) (h : s.AtOperator l links stop) (hn : links.length < n)
    (hform : form.chainKind? = some kind) :
    Goes chainCodes s
      (l.operator :: l.operand :: Link.tokens (Link.tighter l.symbol.rightPower links))
      (Link.next stop (Link.looser l.symbol.rightPower links))
      (operatorOf self l.symbol.rightPower left form) (· = kind) := by
  cases form with
  | comma =>
      cases hform
      refine rightOperand hself h hn fun e s' heffect _ => pure ?_
      rw [heffect]
  | logical | nullish | exponent =>
      cases hform
      exact rightOperand hself h hn fun e s' _ _ => pure rfl
  | binary =>
      cases hform
      have hoperation : Goes chainCodes s
          (l.operator :: l.operand :: Link.tokens (Link.tighter l.symbol.rightPower links))
          (Link.next stop (Link.looser l.symbol.rightPower links))
          (binaryOperation self l.symbol.rightPower left) fun _ => True := by
        refine token (rightOperand hself h hn fun e s' _ hfunction => ?_)
        split
        · exact checkComparison _ _ _
        · exact when fun _ => checkInstanceOf hfunction
      exact hoperation.before fun _ s' hs' _ => hs'.lookahead ▸ pure rfl
  | _ => cases hform

/-- An operator is read with its right operand, and makes an operation of its kind. -/
theorem Goes.operation {form : OperatorForm} (left : Expression) (hself : self.ReadsChains n)
    (h : s.AtOperator l links stop) (hn : links.length < n) (hkind : l.kind?.isSome)
    (hform : l.kind? = form.chainKind?) :
    Goes chainCodes s
      (l.operator :: l.operand :: Link.tokens (Link.tighter l.symbol.rightPower links))
      (Link.next stop (Link.looser l.symbol.rightPower links))
      (operation self l.symbol form left) fun e => l.kind? = some e.kind := by
  obtain ⟨kind, hkind⟩ := Option.isSome_iff_exists.mp hkind
  have hgate : Goes chainCodes s [] s.lookahead
      (l.symbol.since?.forM fun since =>
        Reading.requireEdition (operatorFeature l.symbol.id) since s.lookahead.position)
      fun _ => True := by
    have hedition : "W119" ∈ chainCodes := by decide
    cases l.symbol.since? with
    | none => exact pure trivial
    | some since => exact requireEdition hedition _ _ _
  refine token (after hgate fun _ s' hs' _ => ?_)
  have h' : s'.AtOperator l links stop := {
    ready := by rw [State.Ready, hs'.lookahead, hs'.size]; exact h.ready
    lookahead := hs'.lookahead.trans h.lookahead
    inAdmitted := hs'.inExcluded.trans h.inAdmitted
    depth := by rw [hs'.depth, hs'.options]; exact h.depth
    chain := by rw [hs'.reserves]; exact h.chain
    ends := h.ends }
  refine (operatorOf left hself h' hn (hform.symm.trans hkind)).before fun kind' s'' hs'' hk => ?_
  rw [← hs''.lookahead]
  exact pure (by rw [hkind, hk])

/-! ### Chains -/

/-- An operand of a chain was consumed, and the links behind it come next. -/
structure State.BehindOperand (s : State) (power : Nat) (t : Token) (links : List Link)
    (stop : Token) : Prop where
  within : t.Within s.size
  lookahead : s.lookahead = Link.next stop links
  inAdmitted : s.inExcluded = false
  depth : s.depth + links.length ≤ s.options.maxDepth
  chain : Chain s.reserves stop t links
  ends : stop.EndsChain power

/-- A loop over the operators has rounds enough. -/
theorem State.BehindOperand.length_lt (h : s.BehindOperand power t links stop) :
    links.length < s.size - s.lookahead.position.offset + 4 := by
  rw [h.lookahead]
  cases links with
  | nil => exact Nat.succ_pos _
  | cons l links =>
      have hlt := h.chain.operator_lt h.within
      have hle := h.chain.tail.length_le (h.chain.operand_within h.within)
      simp only [Link.next, List.length_cons]
      omega

theorem State.BehindOperand.atOperator (h : s.BehindOperand power t (l :: links) stop)
    (hpower : power < l.power) : s.AtOperator l links stop where
  ready := by
    rw [State.Ready, h.lookahead]
    exact h.chain.operator_within h.within
  lookahead := h.lookahead
  inAdmitted := h.inAdmitted
  depth := h.depth
  chain := ⟨t, h.chain⟩
  ends := h.ends.mono (Symbol.le_rightPower hpower)

/-- An operator that binds more strongly than `power` is read in one round. -/
theorem Goes.operatorRound {left : Expression} (hself : self.ReadsChains n)
    (h : s.BehindOperand power t (l :: links) stop) (hn : links.length < n)
    (hpower : power < l.power) :
    Goes chainCodes s
      (l.operator :: l.operand :: Link.tokens (Link.tighter l.symbol.rightPower links))
      (Link.next stop (Link.looser l.symbol.rightPower links)) (operatorRound self power left)
      fun round => ∃ e, round = .again e ∧ l.kind? = some e.kind := by
  have hkind := h.chain.kind_isSome
  obtain ⟨form, hform, hkind'⟩ := exists_operatorAt? hkind hpower
  have hnext : (nextOperator? power).run.run s = (.ok (some (l.symbol, form)), s) := by
    rw [run_nextOperator?, h.inAdmitted, h.lookahead, Bool.false_and]
    exact congrArg (fun next => (Except.ok next, s)) hform
  refine look hnext ((operation left hself (h.atOperator hpower) hn hkind hkind').before ?_)
  exact fun e s' hs' he => hs'.lookahead ▸ pure ⟨e, rfl, he⟩

/-- Behind an operand the operators are read that bind more strongly than `power`. -/
theorem Goes.operators {rounds : Nat} {left : Expression} (hself : self.ReadsChains n)
    (h : s.BehindOperand power t links stop) (hn : links.length ≤ n)
    (hrounds : links.length < rounds) :
    Goes chainCodes s (Link.tokens (Link.tighter power links))
      (Link.next stop (Link.looser power links))
      (iterate (Reading.operatorRound self power) rounds left)
      fun e => Loosest left.kind (Link.tighter power links) e.kind := by
  induction rounds generalizing s t links left with
  | zero => cases hrounds
  | succ rounds ih =>
      have hdone (hnone : operatorAt? power false (Link.next stop links) = none)
          (htighter : Link.tighter power links = []) (hlooser : Link.looser power links = links) :
          Goes chainCodes s (Link.tokens (Link.tighter power links))
            (Link.next stop (Link.looser power links))
            (iterate (Reading.operatorRound self power) (rounds + 1) left)
            fun e => Loosest left.kind (Link.tighter power links) e.kind := by
        have hround :
            (Reading.operatorRound self power left).run.run s = (.ok (.done left), s) := by
          rw [Reading.operatorRound, run_bind, run_nextOperator?, h.inAdmitted, h.lookahead,
            Bool.false_and, hnone]
          rfl
        rw [htighter, hlooser, ← h.lookahead]
        exact look hround (pure (.none rfl rfl))
      cases links with
      | nil => exact hdone (operatorAt?_of_ends h.ends _) rfl rfl
      | cons l links =>
          rcases Nat.lt_or_ge power l.power with hpower | hle
          · have hpower' := Symbol.le_rightPower hpower
            have hleft : (Link.looser l.symbol.rightPower links).length ≤ links.length :=
              List.length_dropWhile_le _ _
            obtain ⟨t', hwithin, hchain⟩ := h.chain.tail.exists_looser
              (h.chain.operand_within h.within) l.symbol.rightPower
            rw [Link.tighter_cons hpower, Link.looser_cons hpower,
              Link.tighter_eq_append hpower' links, ← Link.looser_looser hpower' links,
              Link.tokens_cons_append]
            refine (operatorRound hself h (Nat.lt_of_succ_le hn) hpower).bind
              fun round s' hs' hagain => ?_
            obtain ⟨e, rfl, he⟩ := hagain
            have hbehind :
                s'.BehindOperand power t' (Link.looser l.symbol.rightPower links) stop := {
              within := by rw [hs'.size]; exact hwithin
              lookahead := hs'.lookahead
              inAdmitted := hs'.inExcluded.trans h.inAdmitted
              depth := by
                rw [hs'.depth, hs'.options]
                exact Nat.le_trans (by simp only [List.length_cons]; omega) h.depth
              chain := by rw [hs'.reserves]; exact hchain
              ends := h.ends }
            have hlength : (l :: links).length = links.length + 1 := List.length_cons
            refine (ih hbehind ?_ ?_).mono fun e' he' => he'.cons he <;> omega
          · exact hdone (operatorAt?_of_le hle _) (Link.tighter_cons_of_le hle)
              (Link.looser_cons_of_le hle)

theorem Goes.readExpression (hself : self.ReadsChains n) (h : s.AtChain power first links stop)
    (hn : links.length ≤ n) :
    Goes chainCodes s (first :: Link.tokens (Link.tighter power links))
      (Link.next stop (Link.looser power links)) (readExpression self power) fun e =>
        ∃ operand, first.IsOperandKind operand ∧
          Loosest operand (Link.tighter power links) e.kind := by
  have hroom : s.depth + links.length < s.options.maxDepth := h.depth
  refine nested (by omega) ?_
  let deeper : State := { s with depth := s.depth + 1 }
  obtain ⟨hnext, hadmitted, harrow⟩ := next_admitted h.chain h.ends
  have hoperand : Goes chainCodes deeper [first] (Link.next stop links) (Reading.readOperand self)
      (first.IsOperandKind ·.kind) :=
    readOperand h.lookahead h.unsuspicious h.operand hnext hadmitted harrow
  refine hoperand.bind fun e s' hs' he => ?_
  have hbehind : s'.BehindOperand power first links stop := {
    within := by
      rw [hs'.size, ← h.lookahead]
      exact h.ready
    lookahead := hs'.lookahead
    inAdmitted := hs'.inExcluded.trans h.inAdmitted
    depth := by
      rw [hs'.depth, hs'.options, Nat.add_right_comm]
      exact h.depth
    chain := by rw [hs'.reserves]; exact h.chain
    ends := h.ends }
  exact look rfl ((operators hself hbehind hn hbehind.length_lt).mono fun e' he' => ⟨_, he, he'⟩)

theorem productions_readChains (fuel : Nat) : (productions fuel).ReadsChains fuel := by
  induction fuel with
  | zero => exact fun _ _ _ _ _ _ hlength => nomatch hlength
  | succ fuel ih =>
      intro power s first links stop h hlength
      rw [productions_expression]
      exact .readExpression ih h (Nat.le_of_lt_succ hlength)

/-- A chain is read with a power up to the first operator that does not bind more strongly, with no
remarks but those of a chain, and it turns out to be what the operator in it makes of it that binds
most weakly. The right operand of each of its operators goes on for as long as operators bind more
strongly than that one, or as strongly where it is an exponentiation. -/
theorem expression_of_chain {fuel : Nat} (h : s.AtChain power first links stop)
    (hfuel : links.length < fuel) :
    Goes chainCodes s (first :: Link.tokens (links.takeWhile (power < ·.power)))
        (Link.next stop (links.dropWhile (power < ·.power))) ((productions fuel).expression power)
        (fun e => ∃ operand, first.IsOperandKind operand ∧
          Loosest operand (links.takeWhile (power < ·.power)) e.kind) ∧
      ∀ outer l inner s' form left, links = outer ++ l :: inner → power < l.power →
        s'.Ready → s'.lookahead = l.operator → s'.inExcluded = false →
        s'.depth + inner.length < s'.options.maxDepth → s'.reserves = s.reserves →
        l.symbol.operator? = some form →
        Goes chainCodes s' (l.operator :: l.operand :: Link.tokens (inner.takeWhile l.claims))
          (Link.next stop (inner.dropWhile l.claims))
          (operation (productions fuel) l.symbol form left) fun e => l.kind? = some e.kind := by
  have hself := productions_readChains fuel
  refine ⟨hself power s first links stop h hfuel, ?_⟩
  intro outer l inner s' form left hlinks hpower hready hlookahead hin hdepth hreserves hform
  have hchain : ∃ t, Chain s'.reserves stop t (l :: inner) := by
    rw [hreserves]
    exact h.chain.exists_suffix hlinks
  have hat : s'.AtOperator l inner stop :=
    ⟨hready, hlookahead, hin, hdepth, hchain, h.ends.mono (Symbol.le_rightPower hpower)⟩
  have hlength : inner.length < fuel := by
    rw [hlinks, List.length_append, List.length_cons] at hfuel
    omega
  obtain ⟨t, hchain⟩ := hchain
  have hkind : l.kind? = form.chainKind? := by rw [Link.kind?, hform]; rfl
  have hclaims : (fun m : Link => decide (l.symbol.rightPower < m.power)) = l.claims :=
    funext fun m => Bool.eq_iff_iff.mpr
      (decide_eq_true_iff.trans (Link.rightPower_lt_iff hchain.kind_isSome m))
  have hoperation := Goes.operation left hself hat hlength hchain.kind_isSome hkind
  rwa [Link.tighter, Link.looser, hclaims] at hoperation

/-- In front of the comma a sum with a power on its right is read, which is one operation. -/
theorem expression_of_chain_sum :
    let s := Analysis.startState "a + b ** c, d;" {} {}
    let behind (t : Token) : Link := ⟨Token.next t.stop, Token.next (Token.next t.stop).stop⟩
    let sum := behind s.lookahead
    let exponentiation := behind sum.operand
    let comma := behind exponentiation.operand
    s.AtChain Symbol.commaPower s.lookahead [sum, exponentiation, comma]
        (Token.next comma.operand.stop) ∧
      Goes chainCodes s
        [s.lookahead, sum.operator, sum.operand, exponentiation.operator, exponentiation.operand]
        comma.operator ((productions 4).expression Symbol.commaPower) (·.kind = .binary) := by
  intro s behind sum exponentiation comma
  have hname {t : Token} (name : String) (h : t.isName name = true)
      (hfree : s.reserves name = false) (hplain : name ∉ ["async", "yield", "await"]) :
      t.IsOperand s.reserves := by
    unfold Token.isName at h
    split at h
    next hlexeme =>
      rw [beq_iff_eq.mp h] at hlexeme
      exact .name hlexeme hfree hplain
    · cases h
  have hends : (Token.next comma.operand.stop).EndsChain Symbol.commaPower :=
    { directives := by decide +kernel
      fatalIssue? := by decide +kernel
      noArrow := by decide +kernel
      noOperator := by
        have hnone : (Symbol.ofToken (Token.next comma.operand.stop)).operator? = none := by
          decide +kernel
        exact fun form hform => absurd (hnone.symm.trans hform) nofun }
  have hunsuspicious : ∀ t ∈ s.lookahead :: Link.tokens [sum, exponentiation, comma],
      t.directives = [] ∧ t.fatalIssue? = none ∧ ∀ issue ∈ t.issues, issue.code = "W119" := by
    decide +kernel
  have hclear {t : Token} (hmem : t ∈ s.lookahead :: Link.tokens [sum, exponentiation, comma]) :
      t.Unsuspicious :=
    have h := hunsuspicious t hmem
    ⟨⟨h.1, h.2.1⟩, h.2.2⟩
  have hchain : s.AtChain Symbol.commaPower s.lookahead [sum, exponentiation, comma]
      (Token.next comma.operand.stop) :=
    { ready := .next (Cursor.ofSource_within _)
      lookahead := rfl
      inAdmitted := rfl
      depth := by decide
      unsuspicious := hclear (by simp [Link.tokens])
      operand := hname "a" (by decide +kernel) (by decide +kernel) (by decide)
      chain :=
        .link rfl (hclear (by simp [Link.tokens])) (by decide +kernel) rfl
          (hclear (by simp [Link.tokens]))
          (hname "b" (by decide +kernel) (by decide +kernel) (by decide)) <|
        .link rfl (hclear (by simp [Link.tokens])) (by decide +kernel) rfl
          (hclear (by simp [Link.tokens]))
          (hname "c" (by decide +kernel) (by decide +kernel) (by decide)) <|
        .link rfl (hclear (by simp [Link.tokens])) (by decide +kernel) rfl
          (hclear (by simp [Link.tokens]))
          (hname "d" (by decide +kernel) (by decide +kernel) (by decide)) <|
        .last rfl
      ends := hends }
  have hpowers : Symbol.commaPower < sum.power ∧ Symbol.commaPower < exponentiation.power ∧
      comma.power ≤ Symbol.commaPower := by decide +kernel
  obtain ⟨hsum, hexponentiation, hcomma⟩ := hpowers
  have hkinds : ∀ l ∈ [sum, exponentiation], l.kind? = some .binary := by decide +kernel
  have hgoes : Goes _ s (_ :: Link.tokens (Link.tighter _ _)) (Link.next _ (Link.looser _ _))
      ((productions 4).expression _)
      (fun e : Expression => ∃ operand, _ ∧ Loosest operand (Link.tighter _ _) e.kind) :=
    (expression_of_chain hchain (by decide)).1
  rw [Link.tighter_cons hsum, Link.tighter_cons hexponentiation, Link.tighter_cons_of_le hcomma,
    Link.looser_cons hsum, Link.looser_cons hexponentiation, Link.looser_cons_of_le hcomma] at hgoes
  refine ⟨hchain, hgoes.mono fun e he => ?_⟩
  obtain ⟨operand, -, hloosest⟩ := he
  cases hloosest with
  | none hlinks => cases hlinks
  | link l hmem hle hkind => exact Option.some.inj (hkind.symm.trans (hkinds l hmem))

end Reading

end ScriptLint
