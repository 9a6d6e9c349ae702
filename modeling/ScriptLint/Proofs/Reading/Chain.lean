import ScriptLint.Proofs.Core.Operator

/-! # Chains of operators

A chain is an expression of names and numbers with binary operators between them. Each operator
with the operand behind it is a link. A power cuts the links behind an operand in two: those up to
the first that does not bind more strongly, and the rest. Cutting with a high power first and with a
lower one behind that is the same as cutting with the lower one.
-/

namespace ScriptLint

open Reading (ExpressionKind)

/-- What an operation of a chain turns out to be. -/
def OperatorForm.chainKind? : OperatorForm → Option ExpressionKind
  | .comma => some (.sequence false)
  | .logical | .nullish => some .logical
  | .exponent | .binary => some .binary
  | _ => none

namespace Token

/-- Reading goes on when the token comes next, and no directive stands before it. -/
structure Admitted (t : Token) : Prop where
  directives : t.directives = []
  fatalIssue? : t.fatalIssue? = none

/-- All that the spelling of the token may be reported for is its edition. -/
structure Unsuspicious (t : Token) : Prop extends t.Admitted where
  issues : ∀ issue ∈ t.issues, issue.code = "W119"

/-- What an operand of a chain turns out to be. -/
inductive IsOperandKind (t : Token) : ExpressionKind → Prop
  | name {name : String} (hlexeme : t.lexeme = .identifier name) (reference : Nat) :
    t.IsOperandKind (.identifier name reference)
  | number {value : Float} (hlexeme : t.lexeme = .number value) : t.IsOperandKind .number

/-- An operand of a chain: a name that is not reserved and begins nothing else, or a number without
superfluous zeros. -/
inductive IsOperand (reserved : String → Bool) (t : Token) : Prop
  | name {name : String} (hlexeme : t.lexeme = .identifier name) (hfree : reserved name = false)
    (hplain : name ∉ ["async", "yield", "await"])
  | number {value : Float} (hlexeme : t.lexeme = .number value)
    (hoctal : t.flags.legacyOctal = false) (hzero : t.flags.leadingZero = false)

/-- The token is none that continues a chain which is read with `power`. An update on another line
belongs to what comes after it. -/
structure EndsChain (power : Nat) (t : Token) : Prop extends t.Admitted where
  noArrow : t.isPunctuator "=>" = false
  noOperator : ∀ form, (Symbol.ofToken t).operator? = some form →
    (Symbol.ofToken t).power ≤ power ∨ (form = .update ∧ t.flags.newlineBefore = true)

theorem EndsChain.mono {power power' : Nat} {t : Token} (h : t.EndsChain power)
    (hle : power ≤ power') : t.EndsChain power' :=
  { h with noOperator := fun form hform => (h.noOperator form hform).imp_left (·.trans hle) }

end Token

/-- An operator of a chain with the operand after it. -/
structure Link where
  operator : Token
  operand : Token

namespace Link

def symbol (l : Link) : Symbol := Symbol.ofToken l.operator

def power (l : Link) : Nat := l.symbol.power

/-- What the operation turns out to be. -/
def kind? (l : Link) : Option ExpressionKind := l.symbol.operator?.bind (·.chainKind?)

def tokens (links : List Link) : List Token := links.flatMap fun l => [l.operator, l.operand]

/-- The token that the links begin with, where `stop` comes after them. -/
def next (stop : Token) : List Link → Token
  | [] => stop
  | l :: _ => l.operator

/-- The links behind an operand that bind more strongly than `power`, up to the first that does
not. -/
def tighter (power : Nat) (links : List Link) : List Link := links.takeWhile (power < ·.power)

/-- The links from the first one on that does not bind more strongly than `power`. -/
def looser (power : Nat) (links : List Link) : List Link := links.dropWhile (power < ·.power)

/-- Whether an operator further to the right belongs to the right operand. It does if it binds more
strongly, and after an exponentiation also if it binds as strongly. -/
def claims (l m : Link) : Bool :=
  if l.symbol.operator? = some .exponent then l.power ≤ m.power else l.power < m.power

end Link

/-- Behind the operand `t`, the source goes on with the links and then with `stop`. -/
inductive Chain (reserved : String → Bool) (stop : Token) : Token → List Link → Prop
  | last {t : Token} (hnext : Token.next t.stop = stop) : Chain reserved stop t []
  | link {t : Token} {l : Link} {links : List Link} (hnext : Token.next t.stop = l.operator)
    (hoperator : l.operator.Unsuspicious) (hkind : l.kind?.isSome)
    (hoperand : Token.next l.operator.stop = l.operand) (hunsuspicious : l.operand.Unsuspicious)
    (hreserved : l.operand.IsOperand reserved) (hlinks : Chain reserved stop l.operand links) :
    Chain reserved stop t (l :: links)

/-- The kind of an operation is that of the link that binds most weakly; where there is none, all is
the operand. -/
inductive Loosest (operand : ExpressionKind) (links : List Link) (kind : ExpressionKind) : Prop
  | none (hlinks : links = []) (hkind : kind = operand)
  | link (l : Link) (hmem : l ∈ links) (hle : ∀ m ∈ links, l.power ≤ m.power)
    (hkind : l.kind? = some kind)

/-! ## Powers -/

namespace Symbol

/-- The entry of an operator of a chain is one of the table. -/
theorem ofToken_mem {t : Token} (hkind : ((ofToken t).operator?.bind (·.chainKind?)).isSome) :
    ofToken t ∈ table := by
  revert hkind
  unfold ofToken
  split
  case h_13 | h_14 =>
    cases hfind : ofSpelling? t.raw with
    | none => exact fun h => nomatch h
    | some symbol => exact fun _ => List.mem_of_find?_eq_some hfind
  all_goals exact fun h => nomatch h

theorem right_iff_exponent : ∀ symbol ∈ table, (symbol.operator?.bind (·.chainKind?)).isSome →
    (symbol.associativity = .right ↔ symbol.operator? = some .exponent) := by decide

theorem power_pos : ∀ symbol ∈ table, (symbol.operator?.bind (·.chainKind?)).isSome →
    0 < symbol.power := by decide

theorem le_rightPower {power : Nat} {symbol : Symbol} (h : power < symbol.power) :
    power ≤ symbol.rightPower := by
  unfold rightPower
  split <;> omega

theorem rightPower_le (symbol : Symbol) : symbol.rightPower ≤ symbol.power := by
  unfold rightPower
  split <;> omega

/-- What binds more strongly than the right operand binds at least as strongly as the operator. -/
theorem power_le_of_rightPower_lt {power : Nat} {symbol : Symbol} (h : symbol.rightPower < power) :
    symbol.power ≤ power := by
  unfold rightPower at h
  split at h <;> omega

end Symbol

namespace Link

variable {l : Link} {links : List Link} {power power' : Nat}

theorem rightPower_lt_iff (hkind : l.kind?.isSome) (m : Link) :
    l.symbol.rightPower < m.power ↔ l.claims m = true := by
  have hmem := Symbol.ofToken_mem hkind
  have hright := Symbol.right_iff_exponent l.symbol hmem hkind
  have hpos := Symbol.power_pos l.symbol hmem hkind
  unfold Symbol.rightPower claims power
  split
  next h =>
    rw [if_pos (hright.mp h), decide_eq_true_iff]
    omega
  next h => rw [if_neg fun h' => h (hright.mpr h'), decide_eq_true_iff]

theorem tighter_cons (h : power < l.power) :
    tighter power (l :: links) = l :: tighter power links :=
  List.takeWhile_cons_of_pos (decide_eq_true h)

theorem tighter_cons_of_le (h : l.power ≤ power) : tighter power (l :: links) = [] :=
  List.takeWhile_cons_of_neg (by simpa using h)

theorem looser_cons (h : power < l.power) : looser power (l :: links) = looser power links :=
  List.dropWhile_cons_of_pos (decide_eq_true h)

theorem looser_cons_of_le (h : l.power ≤ power) : looser power (l :: links) = l :: links :=
  List.dropWhile_cons_of_neg (by simpa using h)

/-- What binds more strongly than a power is what binds more strongly than a higher one, and then
more of what is left. -/
theorem tighter_eq_append (hle : power ≤ power') (links : List Link) :
    tighter power links = tighter power' links ++ tighter power (looser power' links) := by
  induction links with
  | nil => rfl
  | cons l links ih =>
      rcases Nat.lt_or_ge power' l.power with h | h
      · rw [tighter_cons (Nat.lt_of_le_of_lt hle h), tighter_cons h, looser_cons h, ih]
        rfl
      · rw [tighter_cons_of_le h, looser_cons_of_le h]
        rfl

theorem looser_looser (hle : power ≤ power') (links : List Link) :
    looser power (looser power' links) = looser power links := by
  induction links with
  | nil => rfl
  | cons l links ih =>
      rcases Nat.lt_or_ge power' l.power with h | h
      · rw [looser_cons h, looser_cons (Nat.lt_of_le_of_lt hle h), ih]
      · rw [looser_cons_of_le h]

theorem tokens_cons_append (l : Link) (links links' : List Link) :
    tokens (l :: (links ++ links')) =
      (l.operator :: l.operand :: tokens links) ++ tokens links' := by simp [tokens]

theorem lt_of_mem_tighter (h : l ∈ tighter power links) : power < l.power := by
  simpa using List.mem_takeWhile_imp h

/-- What comes behind the operators that bind more strongly does not. -/
theorem le_of_looser_eq {rest : List Link} (h : looser power links = l :: rest) :
    l.power ≤ power := by
  induction links with
  | nil => cases h
  | cons m links ih =>
      rcases Nat.lt_or_ge power m.power with hm | hm
      · exact ih (looser_cons hm ▸ h)
      · rw [looser_cons_of_le hm] at h
        cases h
        exact hm

theorem isPunctuator_arrow (hkind : l.kind?.isSome) : l.operator.isPunctuator "=>" = false := by
  refine Bool.eq_false_iff.mpr fun h => ?_
  have hoperator : l.symbol.operator? = none := by
    unfold Token.isPunctuator at h
    split at h
    next hlexeme =>
      rw [symbol, Symbol.ofToken, hlexeme, beq_iff_eq.mp h]
      rfl
    · cases h
  rw [kind?, hoperator] at hkind
  cases hkind

end Link

/-- The operator that comes last on its level binds most weakly: what its operand takes binds more
strongly, and what comes after that less. -/
theorem Loosest.cons {l : Link} {links : List Link} {power : Nat}
    {operand operation kind : ExpressionKind} (hl : l.kind? = some operation)
    (h : Loosest operation (Link.tighter power (Link.looser l.symbol.rightPower links)) kind) :
    Loosest operand
      (l :: (Link.tighter l.symbol.rightPower links ++
        Link.tighter power (Link.looser l.symbol.rightPower links))) kind := by
  have hinner (m : Link) (hmem : m ∈ Link.tighter l.symbol.rightPower links) : l.power ≤ m.power :=
    Symbol.power_le_of_rightPower_lt (Link.lt_of_mem_tighter hmem)
  cases h with
  | none hlinks hkind =>
      rw [hlinks, hkind, List.append_nil]
      exact .link l List.mem_cons_self
        (List.forall_mem_cons.mpr ⟨Nat.le_refl _, hinner⟩) hl
  | link m hmem hle hkind =>
      have hm : m.power ≤ l.power := by
        cases hrest : Link.looser l.symbol.rightPower links with
        | nil => rw [hrest] at hmem; cases hmem
        | cons first rest =>
            have hfirst := (Link.le_of_looser_eq hrest).trans l.symbol.rightPower_le
            have hmem' : first ∈ Link.tighter power (Link.looser l.symbol.rightPower links) := by
              rw [hrest] at hmem ⊢
              rcases Nat.lt_or_ge power first.power with h | h
              · rw [Link.tighter_cons h]
                exact List.mem_cons_self
              · rw [Link.tighter_cons_of_le h] at hmem
                cases hmem
            exact (hle first hmem').trans hfirst
      refine .link m (List.mem_cons_of_mem _ (List.mem_append_right _ hmem)) ?_ hkind
      refine List.forall_mem_cons.mpr ⟨hm, fun m' hmem' => ?_⟩
      rcases List.mem_append.mp hmem' with hmem' | hmem'
      · exact hm.trans (hinner m' hmem')
      · exact hle m' hmem'

/-! ## Places in a chain -/

namespace Chain

variable {reserved : String → Bool} {size power : Nat} {t stop : Token} {l : Link}
variable {links : List Link}

section

variable (hchain : Chain reserved stop t (l :: links))
include hchain

theorem kind_isSome : l.kind?.isSome := by
  obtain _ | ⟨-, -, hkind⟩ := hchain
  exact hkind

theorem tail : Chain reserved stop l.operand links := by
  obtain _ | ⟨-, -, -, -, -, -, hlinks⟩ := hchain
  exact hlinks

theorem operator_within (ht : t.Within size) : l.operator.Within size := by
  obtain _ | ⟨hnext⟩ := hchain
  exact hnext ▸ .next ht.stop

theorem operand_within (ht : t.Within size) : l.operand.Within size := by
  have hoperator := hchain.operator_within ht
  obtain _ | ⟨-, -, -, hbetween⟩ := hchain
  rw [← hbetween]
  exact .next hoperator.stop

theorem isEnd_operator : l.operator.isEnd = false := by
  refine Bool.eq_false_iff.mpr fun hend => ?_
  have hkind := hchain.kind_isSome
  rw [Link.kind?, Link.symbol, Symbol.ofToken, Token.lexeme_of_isEnd hend] at hkind
  cases hkind

/-- An operator takes some of the source. -/
theorem operator_lt (ht : t.Within size) :
    l.operator.position.offset < l.operand.position.offset := by
  have hlt := (hchain.operator_within ht).offset_lt_stop hchain.isEnd_operator
  obtain _ | ⟨-, -, -, hbetween⟩ := hchain
  have hle := Token.offset_le_next l.operator.stop
  rw [hbetween] at hle
  omega

end

/-- What is left of a chain stands behind an operand, too. -/
theorem exists_looser (hchain : Chain reserved stop t links) (ht : t.Within size) (power : Nat) :
    ∃ t', t'.Within size ∧ Chain reserved stop t' (Link.looser power links) := by
  induction links generalizing t with
  | nil => exact ⟨t, ht, hchain⟩
  | cons l links ih =>
      rcases Nat.lt_or_ge power l.power with h | h
      · rw [Link.looser_cons h]
        exact ih hchain.tail (hchain.operand_within ht)
      · rw [Link.looser_cons_of_le h]
        exact ⟨t, ht, hchain⟩

theorem exists_suffix {outer inner : List Link} (hchain : Chain reserved stop t links)
    (hlinks : links = outer ++ inner) : ∃ t', Chain reserved stop t' inner := by
  induction outer generalizing t links with
  | nil => exact ⟨t, by rwa [← List.nil_append inner, ← hlinks]⟩
  | cons l outer ih =>
      subst hlinks
      exact ih hchain.tail rfl

/-- Every operator takes some of the source. -/
theorem length_le (hchain : Chain reserved stop t links) (ht : t.Within size) :
    links.length + t.position.offset ≤ size := by
  induction links generalizing t with
  | nil =>
      rw [List.length_nil, Nat.zero_add]
      exact ht.start.offset_le
  | cons l links ih =>
      have hrest := ih hchain.tail (hchain.operand_within ht)
      have hlt := hchain.operator_lt ht
      have hle := ht.offset_le_stop
      obtain _ | ⟨hnext⟩ := hchain
      have hle' := Token.offset_le_next t.stop
      rw [hnext] at hle'
      simp only [List.length_cons]
      omega

end Chain

end ScriptLint
