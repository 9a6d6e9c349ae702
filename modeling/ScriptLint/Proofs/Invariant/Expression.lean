import ScriptLint.Proofs.Invariant.Function
import ScriptLint.Proofs.Nesting.Function
import ScriptLint.Proofs.Reading.Property

/-! # Expressions

Expressions uphold a lawful invariant if the productions they are written over do. Here it matters
which token comes next: a reference needs a token that is taken.
-/

set_option synthInstance.maxSize 4096

namespace ScriptLint

/-- No operand comes at the end of the input. -/
theorem Token.isEnd_eq_false_of_operand? {t : Token} {form : OperandForm}
    (h : (Symbol.ofToken t).operand? = some form) : t.isEnd = false := by
  cases hend : t.isEnd with
  | false => rfl
  | true => simp [Symbol.ofToken, Token.lexeme_of_isEnd hend] at h

namespace Reading

variable {I : Invariant} {bs : List Bracket} {s : State}

namespace Upholds

variable [hI : I.Modest] (self : Productions) [hself : self.UpholdsTerms I]

/-! ## Names -/

omit hI in
/-- To tell what a name begins is to look ahead, and no more. -/
theorem nameRole_leads (hs : s.Ready) : Leads nameRole s fun _ s' => s' = s := by
  intro role s' hrun
  have hrole : Meets False nameRole s fun _ s' => s' = s := Steady.meets_nameRole hs
  have houtcome := hrole.outcome
  rwa [hrun] at houtcome

/-- A variable is recorded right behind its name. -/
theorem variableName_leads (hs : I bs s) (hend : s.lookahead.isEnd = false) :
    Leads variableName s fun _ s' => I bs s' := by
  have hrecord {s₁ : State} (hs₁ : I bs s₁) (hsame : s₁.lookahead = s.lookahead) :
      Leads (do
        advance
        let reference ← addReference s.lookahead.name s.lookahead.position .read
        pure ({ kind := .identifier s.lookahead.name reference,
                position := s.lookahead.position } : Expression)) s₁ fun _ s' => I bs s' := by
    rw [← hsame] at hend ⊢
    refine .bind fun _ s₂ hrun => .bind fun _ s₃ hrun' => .pure ?_
    obtain ⟨hs₂, hoffers⟩ := hI.advance_offers hs₁ hend _ s₂ hrun
    exact hI.record _ _ hs₂ hoffers _ s₃ hrun'
  have hreserved : Upholds I bs (isReserved s.lookahead.name) bs := inferInstance
  have hreport : Upholds I bs (reportReserved s.lookahead.name s.lookahead.position) bs :=
    inferInstance
  have hkeeps : Keeps (isReserved s.lookahead.name) := inferInstance
  have hkeeps' : Keeps (reportReserved s.lookahead.name s.lookahead.position) := inferInstance
  refine .bind ?_
  rintro _ _ ⟨⟩
  refine .bind fun reserved s₁ hrun => ?_
  have hs₁ := hreserved.leads hs _ s₁ hrun
  have hsame := (hkeeps.leads s _ s₁ hrun).lookahead
  refine .ite (fun _ => .bind fun _ s₂ hrun' => ?_) fun _ => hrecord hs₁ hsame
  exact hrecord (hreport.leads hs₁ _ s₂ hrun')
    ((hkeeps'.leads s₁ _ s₂ hrun').lookahead.trans hsame)

instance : Upholds I bs atOperand bs := by
  unfold atOperand
  infer_instance

instance : Upholds I bs (yieldExpression self) bs := by
  unfold yieldExpression
  infer_instance

instance : Upholds I bs (awaitExpression self) bs := by
  unfold awaitExpression
  infer_instance

variable [hfunctions : self.UpholdsFunctions I]

theorem nameExpression_leads (hs : I bs s) (hend : s.lookahead.isEnd = false) :
    Leads (nameExpression self) s fun _ s' => I bs s' := by
  refine .bind fun role s' hrun => ?_
  obtain rfl := nameRole_leads (hI.inOrder hs).ready role s' hrun
  have harrow (async : Bool) : Upholds I bs (arrowFunction self async) bs := inferInstance
  have hfunction : Upholds I bs (functionExpression self true) bs := inferInstance
  have hyield : Upholds I bs (yieldExpression self) bs := inferInstance
  have hawait : Upholds I bs (awaitExpression self) bs := inferInstance
  cases role with
  | plain => exact variableName_leads hs hend
  | arrow async => exact (harrow async).leads hs
  | asyncFunction => exact hfunction.leads hs
  | yield => exact hyield.leads hs
  | await => exact hawait.leads hs

/-! ## Object literals -/

omit hI in
/-- Of a place that was passed, a key may be reported. -/
theorem reportKey_leads [hI : I.Scanning] {p : Position} {code : String} (arguments : List String)
    {hregular : Halt.IsRegular code} (hcode : code ∈ keyCodes) (hs : I bs s)
    (hp : I.Passed bs p s) :
    Leads (report code p arguments hregular) s fun _ s' =>
      I bs s' ∧ s'.lookahead = s.lookahead := by
  have hkeeps : Keeps (report code p arguments hregular) := inferInstance
  obtain ⟨s₀, hs₀, rfl, hlt⟩ := hp
  exact (hI.reportKey arguments hregular hcode hs₀ hs hlt).and
    ((hkeeps.leads s).mono fun _ _ h => h.lookahead)

/-- The key of a property that was passed is entered. -/
theorem recordKey_leads {p : Position} (keys : KeyTable) (key : String) (use : KeyUse)
    (hs : I bs s) (hp : I.Passed bs p s) :
    Leads (recordKey keys key use p) s fun keys' s' => (I bs s' ∧ s'.lookahead = s.lookahead) ∧
      ∀ b ∈ keys'.setters, b ∈ keys.setters ∨ b.position = p := by
  have hset {keys' : KeyTable} (hkeys' : keys'.setters = keys.setters) :
      ∀ b ∈ (if use = .setter then keys'.addSetter key p else keys').setters,
        b ∈ keys.setters ∨ b.position = p := by
    intro b hmem
    split at hmem
    · rcases List.mem_cons.mp hmem with rfl | hmem
      · exact .inr rfl
      · exact .inl (hkeys' ▸ hmem)
    · exact .inl (hkeys' ▸ hmem)
  unfold recordKey
  dsimp only
  split
  · exact .pure ⟨⟨hs, rfl⟩, hset rfl⟩
  · split
    · exact .pure ⟨⟨hs, rfl⟩, hset rfl⟩
    · exact .bind fun _ s' hrun =>
        .pure ⟨reportKey_leads _ (by decide) hs hp _ s' hrun, hset rfl⟩

/-- A word before a key is none without a meaning. -/
theorem modifierOf?_ne {t : Token} {m : Modifiers} (h : modifierOf? t = some m) : m ≠ {} := by
  unfold modifierOf? at h
  split at h
  · cases h
  · split at h
    · cases h
      decide
    · split at h
      · cases h
        decide
      · split at h <;> cases h
        decide

theorem modifierWord_leads : Leads modifierWord s fun m s' => m = {} → s' = s := by
  refine .bind ?_
  rintro _ _ ⟨⟩
  split
  next => exact .pure fun _ => rfl
  next m hm =>
    have hmeant (s : State) {s₀ : State} :
        Leads (do advance; pure m) s fun m s' => m = {} → s' = s₀ :=
      .after fun _ _ => .pure fun hnone => absurd hnone (modifierOf?_ne hm)
    refine .bind ?_
    rintro _ _ ⟨⟩
    refine .ite (fun _ => .pure fun _ => rfl) fun _ => ?_
    exact .ite (fun _ => .after fun _ s => hmeant s) fun _ => .after fun _ s =>
      .ite (fun _ => .after fun _ s => hmeant s) fun _ => hmeant s

/-- Where no word stands before a key, nothing was taken. -/
theorem modifiers_leads : Leads modifiers s fun m s' => m = {} → s' = s := by
  refine .bind fun m s₁ hrun => ?_
  have hword := modifierWord_leads m s₁ hrun
  refine .bind ?_
  rintro _ _ ⟨⟩
  refine .ite (fun _ => .after fun _ _ => .after fun _ _ => .pure fun hnone => ?_)
    fun _ => .pure hword
  cases congrArg Modifiers.generator hnone

omit hfunctions in
/-- A name that is the key of a property may be recorded once it is taken. -/
theorem propertyKey_leads (hs : I bs s) :
    Leads (propertyKey self) s fun _ s' => I bs s' ∧
      (s.lookahead.isIdentifier → InOrder [s.lookahead.position] bs s') := by
  have hkey : Upholds I bs (propertyKey self) bs := inferInstance
  refine (hkey.leads hs).and fun key? s' hrun hname => ?_
  have hend := Token.isEnd_eq_false_of_isIdentifier hname
  have htaken : Leads (propertyKey self) s fun _ s' =>
      InOrder [s.lookahead.position] bs s' := by
    refine .bind ?_
    rintro _ _ ⟨⟩
    unfold Token.isIdentifier at hname
    split at hname
    next name hlexeme =>
      rw [hlexeme]
      exact .bind fun _ s₁ hrun => .pure (hI.advance_offers hs hend _ s₁ hrun).2
    next => cases hname
  exact htaken key? s' hrun

omit hI hself hfunctions in
/-- A key that is told has been taken. -/
theorem propertyKey_taken (hs : s.Ready) :
    Leads (propertyKey self) s fun key? s' => key?.isSome → s'.left < s.left := by
  have htaken {step : Reading (Option String)} (hstep : Consumes 0 step)
      (hend : s.lookahead.isEnd = false) :
      Leads step s fun key? s' => key?.isSome → s'.left < s.left :=
    (hstep.leads hs).mono fun _ _ h _ =>
      h.taken.resolve_left (Nat.ne_of_gt (hs.left_pos hend))
  have hend (hlexeme : s.lookahead.lexeme ≠ .endOfInput) : s.lookahead.isEnd = false :=
    Bool.eq_false_iff.mpr fun hend => hlexeme (Token.lexeme_of_isEnd hend)
  have hnone {first : Reading Unit} : Leads (do first; pure none) s
      fun (key? : Option String) s' => key?.isSome → s'.left < s.left :=
    .after fun _ _ => .pure fun hkey => absurd hkey Bool.false_ne_true
  refine .bind ?_
  rintro _ _ ⟨⟩
  split
  case h_3 name hlexeme =>
    refine .bind ?_
    rintro _ _ ⟨⟩
    dsimp only
    exact htaken inferInstance (hend (by simp [hlexeme]))
  case h_7 => exact .ite (fun _ => hnone) fun _ => hnone
  all_goals
    next hlexeme =>
    exact htaken inferInstance (hend (by simp [hlexeme]))

/-- What is behind the key of a property: a name that is a property by itself is recorded late. -/
theorem propertyValue_leads {first : Token} {m : Modifiers} (hs : I bs s)
    (hoffers : first.isIdentifier → m = {} → InOrder [first.position] bs s)
    (key? : Option String) :
    Leads (propertyValue self first m key?) s fun _ s' => I bs s' := by
  have hmethod : Upholds I bs (do method self key? m false; pure true) bs := inferInstance
  have hconcise : Upholds I bs (do
    requireEdition "concise methods" .es2015 first.position
    method self key? m false
    pure true) bs := inferInstance
  have hvalue : Upholds I bs (do let _ ← self.element; pure true) bs := inferInstance
  have hmissing : Upholds I bs (do
    expectPunctuator ":"
    pure ((← token).position.offset != first.position.offset)) bs := inferInstance
  refine .ite (fun _ => hmethod.leads hs) fun haccessor => ?_
  refine .bind ?_
  rintro _ _ ⟨⟩
  refine .ite (fun _ => hconcise.leads hs) fun _ => ?_
  by_cases hshort : first.isIdentifier ∧ m = {}
  · -- Nothing is recorded until it is clear that the key is all there is.
    have hcolon : Upholds (fun bs s => I bs s ∧ InOrder [first.position] bs s) bs
      (acceptPunctuator ":") bs := inferInstance
    have hgate : Upholds (fun bs s => I bs s ∧ InOrder [first.position] bs s) bs
      (requireEdition "object short notation" .es2015 first.position) bs := inferInstance
    refine .bind fun colon s₁ hrun => ?_
    have hs₁ := hcolon.leads ⟨hs, hoffers hshort.1 hshort.2⟩ _ s₁ hrun
    refine .ite (fun _ => hvalue.leads hs₁.1) fun _ => ?_
    split
    next name _ =>
      refine .bind fun _ s₂ hrun => .bind fun _ s₃ hrun' => .pure ?_
      obtain ⟨hs₂, hoffers⟩ := hgate.leads hs₁ _ s₂ hrun
      exact hI.record _ _ hs₂ hoffers _ s₃ hrun'
    next => exact hmissing.leads hs₁.1
  · have hnone : (if first.isIdentifier && !m.generator && !m.async then key? else none) = none := by
      refine if_neg fun hshown => hshort ?_
      obtain ⟨async, generator, accessor?⟩ := m
      simp_all
    have hcolon : Upholds I bs (acceptPunctuator ":") bs := inferInstance
    refine .bind fun colon s₁ hrun => ?_
    have hs₁ := hcolon.leads hs _ s₁ hrun
    refine .ite (fun _ => hvalue.leads hs₁) fun _ => ?_
    rw [hnone]
    exact hmissing.leads hs₁

/-- The invariant holds, and the setters of the table were passed. -/
def HoldsKeys (I : Invariant) (bs : List Bracket) (keys : KeyTable) (s : State) : Prop :=
  I bs s ∧ ∀ b ∈ keys.setters, I.Passed bs b.position s

omit hself hfunctions in
/-- Reading on, the setters stay behind. -/
theorem HoldsKeys.reaches {keys : KeyTable} {s' : State} (hs : HoldsKeys I bs keys s)
    (hs' : I bs s') (hreaches : s.Reaches s') : HoldsKeys I bs keys s' :=
  ⟨hs', fun b hmem => (hs.2 b hmem).of_le (hreaches.offset_le (hI.inOrder hs.1).ready)⟩

omit hfunctions in
/-- A key that is told has been taken, and if a name is all that stands in front of the value, the
name may be recorded. -/
theorem propertyHead_leads (hs : I bs s) :
    Leads (propertyHead self) s fun head s' => I bs s' ∧ s.Reaches s' ∧
      (head.2.isSome → s.lookahead.position.offset < s'.lookahead.position.offset) ∧
      (s.lookahead.isIdentifier → head.1 = {} → InOrder [s.lookahead.position] bs s') := by
  have := hself.steady
  have hready := (hI.inOrder hs).ready
  have hmodifiers : Upholds I bs modifiers bs := inferInstance
  have hsteady : Steady 0 modifiers := inferInstance
  have hsteady' : Steady 0 (propertyKey self) := inferInstance
  refine .bind fun m s₁ hrun => .bind fun key? s₂ hrun' => .pure ?_
  have hreaches := hsteady.leads hready m s₁ hrun
  have hreaches' := hsteady'.leads hreaches.ready key? s₂ hrun'
  have htaken := propertyKey_taken self hreaches.ready key? s₂ hrun'
  obtain ⟨hs₂, hoffers⟩ := propertyKey_leads self (hmodifiers.leads hs m s₁ hrun) key? s₂ hrun'
  refine ⟨hs₂, hreaches.trans hreaches', fun hkey => ?_, fun hname hnone => ?_⟩
  · exact Nat.lt_of_le_of_lt (hreaches.offset_le hready) (hreaches'.offset_lt (htaken hkey))
  · obtain rfl := modifiers_leads m s₁ hrun hnone
    exact hoffers hname

theorem propertyRest_leads {first : Token} {m : Modifiers} {key? : Option String} (hs : I bs s)
    (hoffers : first.isIdentifier → m = {} → InOrder [first.position] bs s) :
    Leads (propertyRest self first m key?) s fun part s' => I bs s' ∧ s.Reaches s' ∧
      ∀ key use, part = .keyed key use → key?.isSome := by
  have := hself.steady
  have hsteady : Steady 0 (propertyValue self first m key?) := inferInstance
  refine .bind fun told s₁ hrun => ?_
  have hs₁ := propertyValue_leads self hs hoffers key? told s₁ hrun
  have hreaches := hsteady.leads (hI.inOrder hs).ready told s₁ hrun
  refine .ite (fun _ => ?_) fun _ => .pure ⟨hs₁, hreaches, nofun⟩
  cases key? with
  | none => exact .pure ⟨hs₁, hreaches, nofun⟩
  | some key => exact .pure ⟨hs₁, hreaches, fun _ _ _ => rfl⟩

/-- Behind a property that has a key, its first token has been taken. -/
theorem propertyPart_leads (hs : I bs s) :
    Leads (propertyPart self s.lookahead) s fun part s' => I bs s' ∧ s.Reaches s' ∧
      ∀ key use, part = .keyed key use →
        s.lookahead.position.offset < s'.lookahead.position.offset := by
  have := hself.steady
  have hready := (hI.inOrder hs).ready
  refine .ite (fun _ => earlyEnd_leads) fun _ => .ite (fun _ => ?_) fun _ => ?_
  · let step : Reading PropertyPart := do
      requireEdition "object spread property" .es2018 s.lookahead.position
      advance
      let _ ← self.element
      pure .unkeyed
    have hstep : Upholds I bs step bs := inferInstance
    have hsteady : Steady 0 step := inferInstance
    have hunkeyed : Leads step s fun part _ => part = .unkeyed :=
      .after fun _ _ => .after fun _ _ => .after fun _ _ => .pure rfl
    refine (((hstep.leads hs).and (hsteady.leads hready)).and hunkeyed).mono ?_
    rintro part s' ⟨⟨hs', hreaches⟩, rfl⟩
    exact ⟨hs', hreaches, nofun⟩
  · refine .bind fun head s₁ hrun => ?_
    obtain ⟨hs₁, hreaches, htaken, hoffers⟩ := propertyHead_leads self hs head s₁ hrun
    refine (propertyRest_leads self hs₁ hoffers).mono fun part s₂ h => ?_
    obtain ⟨hs₂, hreaches', hkey⟩ := h
    refine ⟨hs₂, hreaches.trans hreaches', fun key use hpart => ?_⟩
    exact Nat.lt_of_lt_of_le (htaken (hkey key use hpart)) (hreaches'.offset_le hreaches.ready)

/-- A property is passed once its key is taken, and then the key is entered. -/
theorem objectProperty_leads (keys : KeyTable) (hs : HoldsKeys I bs keys s) :
    Leads (objectProperty self keys) s fun r s' => HoldsKeys I bs r.state s' := by
  rw [objectProperty_eq]
  refine .bind ?_
  rintro _ _ ⟨⟩
  refine .bind fun part s₁ hrun => ?_
  obtain ⟨hs₁, hreaches, htaken⟩ := propertyPart_leads self hs.1 part s₁ hrun
  have hpassedOn : HoldsKeys I bs keys s₁ := hs.reaches hs₁ hreaches
  cases part with
  | unkeyed => exact .pure hpassedOn
  | broken => exact .pure hpassedOn
  | keyed key use =>
      have hpassed : I.Passed bs s.lookahead.position s₁ := ⟨s, hs.1, rfl, htaken key use rfl⟩
      refine .bind fun keys' s₂ hrun => .pure ?_
      obtain ⟨⟨hs₂, hlookahead⟩, hsetters⟩ := recordKey_leads keys key use hs₁ hpassed _ s₂ hrun
      refine ⟨hs₂, fun b hmem => .of_le (s := s₁) ?_ (Nat.le_of_eq (by rw [hlookahead]))⟩
      rcases hsetters b hmem with hmem | hposition
      · exact hpassedOn.2 b hmem
      · exact hposition ▸ hpassed

instance (keys : KeyTable) (comma : Position) : Upholds I bs (propertyComma keys comma) bs := by
  unfold propertyComma
  infer_instance

/-- The properties of an object literal, and the table of their keys. -/
theorem properties_leads (hs : I bs s) :
    Leads (allowingIn (commaList "\x7d" {} (objectProperty self) propertyComma)) s
      (HoldsKeys I bs) := by
  have hadjust (keys : KeyTable) (excluded : Bool) {s : State} (hs : HoldsKeys I bs keys s) :
      Leads (setInExcluded excluded) s fun _ s' => HoldsKeys I bs keys s' := by
    rintro _ _ ⟨⟩
    exact ⟨hI.adjust _ _ _ hs.1, hs.2⟩
  have hlist {s : State} (hs : HoldsKeys I bs {} s) :
      Leads (commaList "\x7d" {} (objectProperty self) propertyComma) s (HoldsKeys I bs) := by
    refine commaList_leads (fun keys s comma hs => ?_)
      (fun keys s hs => objectProperty_leads self keys hs) hs
    have hstep : Upholds I bs (advance >>= fun _ => propertyComma keys comma) bs := inferInstance
    have hsteady : Steady 0 (advance >>= fun _ => propertyComma keys comma) := inferInstance
    exact ((hstep.leads hs.1).and (hsteady.leads (hI.inOrder hs.1).ready)).mono
      fun _ _ h => hs.reaches h.1 h.2
  refine .bind ?_
  rintro _ _ ⟨⟩
  refine .bind fun _ s₁ hrun => .bind fun keys s₂ hrun' => .bind fun _ s₃ hrun'' => .pure ?_
  have hs₁ := hadjust {} false ⟨hs, nofun⟩ _ s₁ hrun
  exact hadjust keys _ (hlist hs₁ keys s₂ hrun') _ s₃ hrun''

/-- Setters that were passed are reported. -/
theorem reportSetters_leads {setters : List BoundName} (hs : I bs s)
    (hpassed : ∀ b ∈ setters, I.Passed bs b.position s) :
    Leads (setters.forM fun b => report "W078" b.position []) s fun _ s' => I bs s' := by
  induction setters generalizing s with
  | nil => exact .pure hs
  | cons b rest ih =>
      refine .bind fun _ s₁ hrun => ?_
      obtain ⟨hs₁, hlookahead⟩ :=
        reportKey_leads [] (by decide) hs (hpassed b List.mem_cons_self) _ s₁ hrun
      refine ih hs₁ fun b' hmem => .of_le (hpassed b' (List.mem_cons_of_mem b hmem)) ?_
      rw [hlookahead]

instance : Upholds I bs (objectLiteral self) bs where
  leads {s} hs := by
    have := hself.steady
    have hadvance : Upholds I bs advance bs := inferInstance
    have hclose : Upholds I bs (expectPunctuator "\x7d") bs := inferInstance
    have hsteady : Steady 0 (expectPunctuator "\x7d") := inferInstance
    refine .bind ?_
    rintro _ _ ⟨⟩
    refine .bind fun _ s₁ hrun => .bind fun keys s₂ hrun' => .bind fun _ s₃ hrun'' => ?_
    have hs₂ := properties_leads self (hadvance.leads hs _ s₁ hrun) keys s₂ hrun'
    have hs₃ := hs₂.reaches (hclose.leads hs₂.1 _ s₃ hrun'')
      (hsteady.leads (hI.inOrder hs₂.1).ready _ s₃ hrun'')
    refine .bind fun _ s₄ hrun => .pure (reportSetters_leads hs₃.1 (fun b hmem => ?_) _ s₄ hrun)
    have hsetter : b ∈ keys.setters.reverse := List.mem_of_mem_filter hmem
    exact hs₃.2 b (List.mem_reverse.mp hsetter)

/-! ## Operands -/

variable [hclasses : self.UpholdsClasses I]

instance : Upholds I bs (arrayElement self) bs := by
  unfold arrayElement
  infer_instance

instance : Upholds I bs (arrayLiteral self) bs := by
  unfold arrayLiteral
  infer_instance

instance (otherwise : Reading Expression) [Upholds I bs otherwise bs] :
    Upholds I bs (patternOr self otherwise) bs := by
  unfold patternOr
  infer_instance

instance : Upholds I bs (parenthesizedExpression self) bs := by
  unfold parenthesizedExpression
  infer_instance

instance : Upholds I bs (parenthesis self) bs := by
  unfold parenthesis
  infer_instance

instance : Upholds I bs (unaryExpression self) bs := by
  unfold unaryExpression
  refine .bind inferInstance fun t => .bind inferInstance fun _ => ?_
  refine .bind inferInstance fun operand => ?_
  dsimp only
  split <;> infer_instance

instance (operand : Expression) : Upholds I bs (updateOperand operand) bs := by
  unfold updateOperand
  split <;> infer_instance

instance : Upholds I bs (updateExpression self) bs := by
  unfold updateExpression
  infer_instance

instance : Upholds I bs thisWord bs := by
  unfold thisWord
  infer_instance

instance : Upholds I bs privateName bs := by
  unfold privateName
  infer_instance

instance : Upholds I bs missingOperand bs := by
  unfold missingOperand
  infer_instance

/-- All operands but names need no certain token. -/
theorem operandOf_upholds {form : OperandForm} (hform : form ≠ .identifier) :
    Upholds I bs (operandOf self form) bs := by
  cases form
  case identifier => exact absurd rfl hform
  all_goals
    dsimp only [operandOf]
    infer_instance

instance : Upholds I bs (readOperand self) bs where
  leads {s} hs := by
    have hrescan : Upholds I bs rescanRegexp bs := inferInstance
    have hmissing : Upholds I bs missingOperand bs := inferInstance
    refine .bind fun _ s₁ hrun => ?_
    have hs₁ := hrescan.leads hs _ s₁ hrun
    refine .bind ?_
    rintro _ _ ⟨⟩
    split
    next form hform =>
      by_cases hname : form = .identifier
      · subst hname
        have hend : s₁.lookahead.isEnd = false :=
          Token.isEnd_eq_false_of_operand? hform
        exact nameExpression_leads self hs₁ hend
      · exact (operandOf_upholds self hname).leads hs₁
    next => exact hmissing.leads hs₁

/-! ## Operators -/

instance (operator : Token) (left right : Expression) :
    Upholds I bs (checkComparison operator left right) bs := by
  unfold checkComparison
  infer_instance

instance (right : Expression) : Upholds I bs (checkInstanceOf right) bs := by
  unfold checkInstanceOf
  infer_instance

instance (power : Nat) (left : Expression) : Upholds I bs (binaryOperation self power left) bs := by
  unfold binaryOperation
  infer_instance

instance (left : Expression) : Upholds I bs (assignmentOperation self left) bs := by
  unfold assignmentOperation
  infer_instance

instance : Upholds I bs (optionalAccess self) bs := by
  unfold optionalAccess
  infer_instance

instance (callee : Expression) (first? : Option Expression) :
    Upholds I bs (checkCall callee first?) bs := by
  unfold checkCall
  refine .bind inferInstance fun o => ?_
  dsimp only
  split
  · split <;> infer_instance
  · infer_instance

instance (callee : Expression) : Upholds I bs (callOperation self callee) bs := by
  unfold callOperation
  infer_instance

instance (power : Nat) (left : Expression) (form : OperatorForm) :
    Upholds I bs (operatorOf self power left form) bs := by
  cases form <;> dsimp only [operatorOf] <;> infer_instance

instance (symbol : Symbol) (form : OperatorForm) (left : Expression) :
    Upholds I bs (operation self symbol form left) bs := by
  unfold operation
  infer_instance

instance (power : Nat) : Upholds I bs (nextOperator? power) bs :=
  look fun s => by rw [run_nextOperator?]

instance (power : Nat) (left : Expression) :
    Upholds I bs (operatorRound self power left) bs := by
  unfold operatorRound
  refine .bind inferInstance fun next? => ?_
  split <;> infer_instance

instance (power : Nat) : Upholds I bs (readExpression self power) bs := by
  unfold readExpression
  infer_instance

end Upholds

end Reading

end ScriptLint
