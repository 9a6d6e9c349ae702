import ScriptLint.Proofs.Invariant.Program
import ScriptLint.Proofs.Scope.Declarator

/-! # What expressions leave as it is

No expression declares a name where it stands. The functions in it have frames of their own, and so
do the classes, so when an expression has been read, all frames that were there before declare what
they did, and dead zones end where they did.
-/

set_option synthInstance.maxSize 4096

namespace ScriptLint

namespace Scope.Operation

variable {t t' : Tracker} {codes : List String}

theorem WithToken.untouched {operation : Operation} (hoperation : operation.WithToken codes) :
    operation.perform.Ensures t fun _ t' => t.Untouched t' := by
  cases hoperation with
  | markExported name =>
      refine .update ⟨Tracker.markExported_touches name, ?_⟩
      unfold Tracker.markExported
      split <;> rfl
  | setStrict =>
      exact .update ⟨.modifyFrame_untouched _ fun _ => ⟨rfl, rfl, fun _ => rfl⟩, rfl⟩
  | changeSink =>
      rintro sink _ _ ⟨⟩
      exact .refl t
  | _ => exact .update ⟨.of_frames_eq rfl, rfl⟩

theorem performAll_untouched {operations : List Operation}
    (hoperations : ∀ operation ∈ operations, operation.WithToken codes) :
    (performAll operations).Ensures t fun _ t' => t.Untouched t' := by
  refine (Action.Ensures.forM (fun rest t' => (∀ operation ∈ rest, operation.WithToken codes) ∧
    t.Untouched t') ⟨hoperations, .refl t⟩ ?_).mono fun _ _ h => h.2
  rintro operation rest t' ⟨hrest, hfirst⟩
  refine (hrest operation List.mem_cons_self).untouched.mono fun _ t'' h => ⟨?_, hfirst.trans h⟩
  exact fun operation hmem => hrest operation (List.mem_cons_of_mem _ hmem)

/-- What productions do inside of a function stays inside. -/
theorem perform_shelters {operation : Operation} {bs bs' : List Bracket}
    (hturns : operation.Turns bs bs') (h : t.Shelters (bs.count .scope) t') :
    operation.perform.Ensures t' fun _ t'' => t.Shelters (bs'.count .scope) t'' := by
  have hstack := h.stack_ne_nil
  have htouches := operation.perform_touches hstack
  have hopens (hopens : operation.opensOnly) := ((perform_opens hopens hstack).and
    (operation.perform_depth hstack)).and htouches
  have hsame (hopensOnly : operation.opensOnly) (hcount : bs'.count .scope = bs.count .scope)
      (hdepth : ∀ n, operation.depthAfter n = n) :
      operation.perform.Ensures t' fun _ t'' => t.Shelters (bs'.count .scope) t'' := by
    refine (hopens hopensOnly).mono fun _ t'' ⟨⟨hframes, hlength⟩, htouches⟩ => ?_
    rw [hcount]
    rcases hframes.frames with ⟨hstack', -⟩ | ⟨hstack', -⟩
    · exact h.touch hstack' htouches
    · rw [hstack', hdepth] at hlength
      simp at hlength
  have hpush (hopensOnly : operation.opensOnly)
      (hcount : bs'.count .scope = bs.count .scope + 1)
      (hdepth : ∀ n, operation.depthAfter n = n + 1) :
      operation.perform.Ensures t' fun _ t'' => t.Shelters (bs'.count .scope) t'' := by
    refine (hopens hopensOnly).mono fun _ t'' ⟨⟨hframes, hlength⟩, htouches⟩ => ?_
    rw [hcount]
    rcases hframes.frames with ⟨hstack', -⟩ | ⟨hstack', hsize⟩
    · rw [hstack', hdepth] at hlength
      simp at hlength
    · exact h.push hstack' hsize htouches
  cases hturns with
  | exitScope =>
      rw [List.count_cons_self] at h
      exact Action.exitScope_rests.mono fun _ _ => h.pop
  | enterScope | enterFunction => exact hpush rfl List.count_cons_self fun _ => rfl
  | _ => exact hsame rfl (by simp) fun _ => rfl

end Scope.Operation

namespace Reading

open Scope (Operation Tracker)

variable {α β : Type} {bs bs' : List Bracket} {s s' : State} {t : Tracker}

/-- What holds of the tracker goes on to hold as long as the tracker is untouched. -/
class Lasting (P : List Bracket → Tracker → Prop) : Prop where
  untouched {bs : List Bracket} {t t' : Tracker} : P bs t → t.Untouched t' → P bs t'

/-- The references come in order, and the tracker is as it should be. -/
structure Alongside (P : List Bracket → Tracker → Prop) (bs : List Bracket) (s : State) : Prop
    extends InOrder [] bs s where
  tracker : P bs s.session.tracker

theorem State.Attends.untouched {codes : List String} (h : s.Attends codes s') :
    s.session.tracker.Untouched s'.session.tracker := by
  obtain ⟨operations, hoperations, hrun⟩ := h.operations
  exact Operation.performAll_untouched hoperations s.session.sink _ _ hrun

namespace Alongside

variable {P : List Bracket → Tracker → Prop} [hP : Lasting P]

theorem of_attends {codes : List String} (hs : Alongside P bs s) (hattends : s.Attends codes s') :
    Alongside P bs s' :=
  ⟨hs.toInOrder.of_attends hattends, hP.untouched hs.tracker hattends.untouched⟩

theorem report (hs : Alongside P bs s) {code : String} (position : Position)
    (arguments : List String) (hcode : Halt.IsRegular code) :
    Leads (Reading.report code position arguments hcode) s fun _ s' => Alongside P bs s' := by
  have hreport : Attends [code] (Reading.report code position arguments hcode) :=
    .report List.mem_cons_self position arguments hcode
  exact fun _ s' hrun => hs.of_attends (hreport.leads s _ s' hrun)

instance : Invariant.Modest (Alongside P) where
  adjust _ _ _ hs := ⟨⟨hs.ready, hs.opened, hs.ordered, hs.before, hs.taken⟩, hs.tracker⟩
  report position arguments hcode _ hs := hs.report position arguments hcode
  reportKey arguments hcode _ _ hs _ := hs.report _ arguments hcode
  advance {_ s} hs := by
    have hissues : ∀ issue ∈ s.lookahead.issues,
        issue.code ∈ commentCodes ++ s.lookahead.issues.map (·.code) := fun issue hmem =>
      List.mem_append_right _ (List.mem_map_of_mem hmem)
    have hattends := advance_attends (List.subset_append_left _ _) hissues
    have hbehind : Alongside P _ s.behind := ⟨hs.toInOrder.behind, hs.tracker⟩
    exact hattends.mono fun _ _ => hbehind.of_attends
  rescanRegexp hslash hs :=
    ⟨hs.toInOrder.of_lookahead (Token.Within.rescanRegexp hs.ready hslash) rfl, hs.tracker⟩
  rescanTemplate {_ s} hbrace hs := by
    refine .bind ?_
    rintro _ _ ⟨⟩
    refine .bind ?_
    rintro _ _ ⟨⟩
    have hpiece := hs.toInOrder.of_lookahead (Token.Within.rescanTemplate hs.ready hbrace) rfl
    have hfatal : Attends [] checkFatal := .checkFatal
    have hs' : Alongside P _ { s with lookahead := s.lookahead.rescanTemplate } :=
      ⟨hpiece, hs.tracker⟩
    exact fun _ s' hrun => hs'.of_attends (hfatal.leads _ _ s' hrun)
  inOrder hs := hs.toInOrder
  record {_ s p} name access hs hoffers := by
    refine ((hoffers.record name access).and ?_).mono fun _ _ h => ⟨h.1, h.2⟩
    refine .tracker (.bind (.track (.pure (hP.untouched hs.tracker ?_))))
    exact ⟨Tracker.addReference_touches name p access, rfl⟩
  setAccess {_ s} id access hs := by
    refine ((hs.toInOrder.perform (.setAccess id access _)).and (.track ?_)).mono
      fun _ _ h => ⟨h.1, h.2⟩
    exact hP.untouched hs.tracker ⟨.of_frames_eq rfl, rfl⟩
  recordYield {_ s} hs := by
    refine ((hs.toInOrder.perform (.recordYield _)).and (.track ?_)).mono fun _ _ h => ⟨h.1, h.2⟩
    exact hP.untouched hs.tracker
      ⟨.modifyFrame_untouched _ fun _ => ⟨rfl, rfl, fun _ => rfl⟩, rfl⟩

end Alongside

/-! ## Functions -/

/-- Since the tracker, nothing was touched. -/
abbrev Sparing (t : Tracker) : Invariant := Alongside fun _ t' => t.Untouched t'

/-- A function is read that was entered since the tracker. What is open in it is told, and it is out
of reach for the tracker. -/
abbrev Sheltered (t : Tracker) : Invariant :=
  Alongside fun bs t' => t.Shelters (bs.count .scope) t'

instance (t : Tracker) : Lasting fun _ t' => t.Untouched t' := ⟨.trans⟩

instance (t : Tracker) : Lasting fun bs t' => t.Shelters (bs.count .scope) t' := ⟨.untouched⟩

instance (t : Tracker) : Invariant.Lawful (Sheltered t) where
  perform hturns hs :=
    ((hs.toInOrder.perform hturns).and
      (.inScopes (Operation.perform_shelters hturns hs.tracker))).mono fun _ _ h => ⟨h.1, h.2⟩
  inOrder hs := hs.toInOrder
  record name access hs := Invariant.Modest.record name access hs

/-- A function is entered, read and left. Inside of it the tracker is out of reach, and outside
nothing was touched. -/
def Entering (t : Tracker) (outer : List Bracket) : Invariant := fun bs s =>
  bs = outer ∧ Sparing t outer s ∨
    bs = .scope :: outer ∧ outer.count .scope < t.stack.length ∧ Sheltered t [] s

namespace Entering

variable {outer : List Bracket}

theorem sparing (hs : Entering t outer outer s) : Sparing t outer s := by
  rcases hs with ⟨-, hs⟩ | ⟨hcons, -⟩
  · exact hs
  · exact absurd hcons (List.cons_ne_self .scope outer).symm

theorem sheltered (hs : Entering t outer (.scope :: outer) s) :
    outer.count .scope < t.stack.length ∧ Sheltered t [] s := by
  rcases hs with ⟨hcons, -⟩ | ⟨-, hs⟩
  · exact absurd hcons (List.cons_ne_self .scope outer)
  · exact hs

/-- Inside, the function counts by itself; from outside, it is one scope more. -/
theorem inOrder (hs : Entering t outer (.scope :: outer) s) : InOrder [] (.scope :: outer) s := by
  obtain ⟨hopened, hs⟩ := hs.sheltered
  refine ⟨hs.ready, ?_, hs.ordered, hs.before, hs.taken⟩
  obtain ⟨inner, f, hstack, -⟩ := hs.tracker.stack
  rw [hstack, List.count_cons_self, List.length_append, List.length_cons]
  omega

instance (facts : Scope.FunctionFacts) (start : Position) :
    Upholds (Entering t outer) outer (track (·.enterFunction facts start)) (.scope :: outer) where
  leads {s} hs _ s' hrun := by
    have hs := hs.sparing
    have hinOrder := hs.toInOrder.perform (.enterFunction facts start outer) _ s' hrun
    have hopened : outer.count .scope < t.stack.length := hs.tracker.stack ▸ hs.opened
    cases hrun
    have hshelters : s.session.tracker.Shelters 0 (s.session.tracker.enterFunction facts start) :=
      .enter _ rfl
    exact .inr ⟨rfl, hopened, ⟨hinOrder.ready, Nat.zero_lt_succ _, hinOrder.ordered,
      hinOrder.before, hinOrder.taken⟩, .of_untouched hs.tracker hshelters⟩

instance : Upholds (Entering t outer) (.scope :: outer) (inScopes Scope.Action.exitScope) outer where
  leads {s} hs _ s' hrun := by
    have hinOrder := hs.inOrder.perform (.exitScope outer) _ s' hrun
    have hrests := Leads.inScopes Scope.Action.exitScope_rests _ s' hrun
    exact .inl ⟨rfl, hinOrder, hs.sheltered.2.tracker.leave hrests⟩

instance (priority := low) {step : Reading α} [hstep : Upholds (Sparing t) outer step outer] :
    Upholds (Entering t outer) outer step outer :=
  ⟨fun hs a s' hrun => .inl ⟨rfl, hstep.leads hs.sparing a s' hrun⟩⟩

instance (priority := low) {step : Reading α} [hstep : Upholds (Sheltered t) [] step []] :
    Upholds (Entering t outer) (.scope :: outer) step (.scope :: outer) :=
  ⟨fun hs a s' hrun => .inr ⟨rfl, hs.sheltered.1, hstep.leads hs.sheltered.2 a s' hrun⟩⟩

/-- What enters functions and leaves them again touches nothing. -/
theorem spares {step : Reading α} (hstep : Upholds (Entering t bs) bs step bs) :
    Upholds (Sparing t) bs step bs :=
  ⟨fun hs a s' hrun => (hstep.leads (.inl ⟨rfl, hs⟩) a s' hrun).sparing⟩

end Entering

instance (fuel : Nat) :
    (productions fuel).UpholdsFunctions (Sparing t) where
  functionRest bs facts position ownName? := by
    have := productions_uphold (I := Sheltered t) fuel
    refine Entering.spares ?_
    unfold functionRest
    infer_instance
  arrowFunction bs async := by
    have := productions_uphold (I := Sheltered t) fuel
    refine Entering.spares ?_
    unfold arrowFunction
    infer_instance
  staticBlock bs position := by
    have := productions_uphold (I := Sheltered t) fuel
    refine Entering.spares ?_
    unfold staticBlock
    infer_instance
  fieldValue bs key? position := by
    have := productions_uphold (I := Sheltered t) fuel
    refine Entering.spares ?_
    unfold fieldValue
    infer_instance

/-! ## Classes -/

/-- What spares the tracker where it is keeps to all that lasts. -/
theorem Upholds.alongside {P : List Bracket → Tracker → Prop} [hP : Lasting P] {step : Reading α}
    (hstep : ∀ t, Upholds (Sparing t) bs step bs) : Upholds (Alongside P) bs step bs where
  leads {s} hs a s' hrun := by
    have hspared := (hstep s.session.tracker).leads ⟨hs.toInOrder, .refl _⟩ a s' hrun
    exact ⟨hspared.toInOrder, hP.untouched hs.tracker hspared.tracker⟩

/-- The frame of a class is open in addition, and binds the names. -/
abbrev Hosting (t : Tracker) (names : List String) : Invariant :=
  Alongside fun _ t' => t.Hosts names t'

instance (t : Tracker) (names : List String) : Lasting fun _ t' => t.Hosts names t' := ⟨.untouched⟩

section

variable {fuel : Nat} (hterms : ∀ t, (productions fuel).UpholdsTerms (Sparing t))
include hterms

theorem classRest_hosts (bound? : Option BoundName) :
    Upholds (Hosting t (bound?.toList.map (·.name))) bs (classRest (productions fuel) bound?) bs := by
  have hexpression (power : Nat) : Upholds (Hosting t (bound?.toList.map (·.name))) bs
      ((productions fuel).expression power) bs := .alongside fun t => (hterms t).expression bs power
  have hround : Upholds (Hosting t (bound?.toList.map (·.name))) bs
      (classRound (productions fuel)) bs := .alongside fun t => inferInstance
  have hmark (body : Nat) : Upholds (Hosting t (bound?.toList.map (·.name))) bs
      (bound?.forM fun bound => track (·.markInitialized bound.name body)) bs := by
    cases bound? with
    | none => exact inferInstanceAs (Upholds _ bs (Pure.pure PUnit.unit) bs)
    | some bound =>
        refine ⟨fun hs => ((hs.toInOrder.perform (.markInitialized bound.name body bs)).and
          (.track ?_)).mono fun _ _ h => ⟨h.1, h.2⟩⟩
        exact hs.tracker.markInitialized List.mem_cons_self body
  unfold classRest
  infer_instance

omit hterms in
/-- The name of a class that is an operand is declared in the frame of the class. -/
theorem declareClass_hosts (hs : Sparing t bs s) (position : Position) (bound? : Option BoundName) :
    Leads (track (·.enterScope .classBody position)) s fun _ s' =>
      Leads (declareClass bound?) s' fun _ s'' =>
        Hosting t (bound?.toList.map (·.name)) (.scope :: bs) s'' := by
  intro _ s₁ hrun
  have hinOrder := hs.toInOrder.perform (.enterScope .classBody position bs) _ s₁ hrun
  cases hrun
  cases bound? with
  | none => exact .pure ⟨hinOrder, .of_untouched hs.tracker (.push _ _)⟩
  | some bound =>
      have hdeclared := hinOrder.perform (.declare bound.name .className bound.position _)
      have hhosts := Scope.Action.declareLexical_hosts s.session.tracker position bound.name
        .className bound.position
      refine .bind ((hdeclared.and (.inScopes hhosts)).mono fun _ _ h => .pure ?_)
      exact ⟨h.1, .of_untouched hs.tracker h.2⟩

omit hterms in
theorem readClass_operand (self : Productions) (anonymous : Bool) :
    readClass self false anonymous = (do
      let position := (← token).position
      requireEdition "class" .es2015 position
      advance
      let bound? ← className anonymous
      track (·.enterScope .classBody position)
      declareClass bound?
      classRest self bound?
      inScopes Scope.Action.exitScope
      expectPunctuator "\x7d"
      pure (bound?.map (·.name))) := rfl

theorem readClass_spares (anonymous : Bool) :
    Upholds (Sparing t) bs (readClass (productions fuel) false anonymous) bs where
  leads {s} hs := by
    have hgate (position : Position) : Upholds (Sparing t) bs
      (requireEdition "class" .es2015 position) bs := inferInstance
    have hname : Upholds (Sparing t) bs (className anonymous) bs := inferInstance
    have hadvance : Upholds (Sparing t) bs advance bs := inferInstance
    have hclose : Upholds (Sparing t) bs (expectPunctuator "\x7d") bs := inferInstance
    rw [readClass_operand]
    refine .bind ?_
    rintro _ _ ⟨⟩
    refine .bind fun _ s₁ hrun₁ => .bind fun _ s₂ hrun₂ => .bind fun bound? s₃ hrun₃ => ?_
    have hs₃ := hname.leads (hadvance.leads ((hgate _).leads hs _ s₁ hrun₁) _ s₂ hrun₂) _ s₃ hrun₃
    refine .bind ((declareClass_hosts hs₃ _ bound?).mono fun _ s' hdeclares => ?_)
    refine .bind fun _ s₄ hrun₄ => .bind fun _ s₅ hrun₅ => .bind fun _ s₆ hrun₆ => ?_
    have hs₄ := hdeclares _ s₄ hrun₄
    have hs₅ := (classRest_hosts hterms bound?).leads hs₄ _ s₅ hrun₅
    have hs₆ : Sparing t bs s₆ := by
      have hrests := Leads.inScopes Scope.Action.exitScope_rests _ s₆ hrun₆
      exact ⟨hs₅.toInOrder.perform (.exitScope bs) _ s₆ hrun₆, hs₅.tracker.leave hrests⟩
    exact .bind fun _ s₇ hrun₇ => .pure (hclose.leads hs₆ _ s₇ hrun₇)

end

/-! ## Expressions -/

/-- Expressions and patterns touch nothing of what there was before. -/
theorem productions_spare (fuel : Nat) (t : Tracker) :
    (productions fuel).UpholdsTerms (Sparing t) := by
  induction fuel generalizing t with
  | zero => exact productions_zero_upholdTerms
  | succ fuel ih =>
      have hterms := ih t
      have hclasses : (productions fuel).UpholdsClasses (Sparing t) :=
        ⟨fun _ anonymous => readClass_spares ih anonymous⟩
      exact productions_succ_upholdTerms

end Reading

end ScriptLint
