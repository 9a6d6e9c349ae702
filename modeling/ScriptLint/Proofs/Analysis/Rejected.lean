import ScriptLint.Proofs.Analysis.Implied
import ScriptLint.Proofs.Invariant.Touch

/-! # Rejected declarators

A declarator with a name that is rejected declares nothing for it, but its initial value still ends
the dead zone of the name, that is, of the older binding that the name is found to have. This is the
only thing that a rejected name does to what was declared before: a use of the older binding that
stands in front of the end of the initial value falls into a dead zone then, and one behind it is in
none.
-/

set_option synthInstance.maxSize 4096

namespace ScriptLint

open Scope (Binding BindingKind Reference Tracker)

namespace Reading

variable {bs : List Bracket} {s s' : State} {kind : BindingKind} {source : String}

/-- The names of a target are declared one after the other. -/
theorem declareAll_leads (hkind : kind.isLexical) (hs : Unsettled source bs s)
    (names : List BoundName) :
    Leads (declareAll kind names) s fun _ s' => Unsettled source bs s' ∧
      s.session.tracker.Grows s'.session.tracker ∧
      s.session.tracker.DeclaresAll kind (names.map (·.name)) s'.session.tracker := by
  induction names generalizing s with
  | nil => exact .pure ⟨hs, .refl _, .nil _⟩
  | cons bound names ih =>
      have harena := hs.traced.arena
      have hstack := hs.toInOrder.stack_ne_nil
      have hperform : Scope.Action.declare bound.name kind bound.position =
          Scope.Action.declareLexical bound.name kind bound.position := by
        cases kind <;> first | rfl | exact absurd hkind (by decide)
      have hdeclares := (Scope.Action.declareLexical_grows hstack bound.name kind
        bound.position).and (Scope.Action.declareLexical_rebinds
          (harena.stack_lt _ (Tracker.currentId_mem_stack hstack)) (hs.traced.indexed _) bound.name
          kind bound.position)
      rw [← hperform] at hdeclares
      refine .bind (((hs.perform (.declare bound.name kind bound.position bs)).and
        (.inScopes hdeclares)).mono fun _ s₁ h => ?_)
      obtain ⟨hs₁, hgrows, hfirst⟩ := h
      refine (ih hs₁).mono fun _ s₂ ⟨hs₂, hgrows', hrest⟩ => ⟨hs₂, hgrows.trans hgrows', ?_⟩
      rcases hfirst with ⟨hadmitted, hrebinds⟩ | ⟨hrejected, hsame⟩
      · refine .cons_of_admitted hadmitted ?_ hrebinds hrest
        rw [Tracker.currentId, hgrows.stack]
        rfl
      · exact .cons_of_rejected hrejected (hsame ▸ hrest)

/-- The initial value touches nothing, and at its end the dead zones of the names end. -/
theorem initializer_leads (fuel : Nat) (hkind : kind.isLexical) (hs : Unsettled source bs s)
    (target : BindingTarget) :
    Leads (initializer (productions fuel) kind target) s fun _ s' =>
      ∃ t : Tracker, s.session.tracker.Untouched t ∧ t.Traced ∧
        s'.session.tracker =
          t.markAll (target.names.map (·.name)) s'.previous.endPosition.offset := by
  have hterms := productions_spare fuel s.session.tracker
  have huphold := productions_uphold (I := Unsettled source) fuel
  have hadvance (I : Invariant) [I.Scanning] : Upholds I bs advance bs := inferInstance
  have hcheck (I : Invariant) [I.Scanning] (value : Expression) :
      Upholds I bs (checkInitializer kind target value) bs := inferInstance
  have hspared : Sparing s.session.tracker bs s := ⟨hs.toInOrder, .refl _⟩
  refine .bind fun _ s₁ hrun₁ => .bind fun value s₂ hrun₂ => .bind fun _ s₃ hrun₃ => ?_
  have hspared₁ := (hadvance (Sparing s.session.tracker)).leads hspared _ s₁ hrun₁
  have hspared₂ := (hterms.expression bs _).leads hspared₁ _ s₂ hrun₂
  have hspared₃ := (hcheck _ value).leads hspared₂ _ s₃ hrun₃
  have hs₁ := (hadvance (Unsettled source)).leads hs _ s₁ hrun₁
  have hs₂ := (huphold.expression bs _).leads hs₁ _ s₂ hrun₂
  have hs₃ := (hcheck _ value).leads hs₂ _ s₃ hrun₃
  rw [if_pos hkind]
  refine .previous fun _ s' hrun => ?_
  obtain rfl := markAll_leads target.names _ s₃ _ s' hrun
  exact ⟨_, hspared₃.tracker, hs₃.traced, rfl⟩

/-- A declarator leaves each binding that any frame had before as it was declared, but for the own
name of a function expression that gives way to a declared name, and for the end of the dead zone
of what a rejected name is bound to, which is moved to the end of the initial value. -/
theorem declarator_moves_dead_zones (hs : Unsettled source bs s) (hkind : kind.isLexical)
    (inHead : Bool) (ds : Declarations) (fuel : Nat) :
    Leads (declarator (productions fuel) kind inHead ds) s fun ds' s' =>
      ∃ (names : List BoundName) (stop? : Option Nat), ds'.names = ds.names ++ names ∧
        ds'.initialized = (ds.initialized || stop?.isSome) ∧
        (∀ stop ∈ stop?, stop = s'.previous.endPosition.offset) ∧
        ∀ i name b, (s.session.tracker.frame i).find? name = some b →
          ∃ b', (s'.session.tracker.frame i).find? name = some b' ∧
            s.session.tracker.Survives kind (names.map (·.name)) stop? i name b b' := by
  have huphold := productions_uphold (I := Unsettled source) fuel
  have hspares := productions_spare fuel s.session.tracker
  have hbefore : Sparing s.session.tracker bs s := ⟨hs.toInOrder, .refl _⟩
  refine .bind ((((hspares.bindingTarget bs).leads hbefore).and
    ((huphold.bindingTarget bs).leads hs)).mono fun target s₁ ⟨hspared₁, hs₁⟩ => ?_)
  refine .bind ((declareAll_leads hkind hs₁ target.names).mono fun _ s₂ h => ?_)
  obtain ⟨hs₂, hgrows, hdeclared⟩ := h
  have hdeclares {t : Tracker} (hvalue : s₂.session.tracker.Untouched t) :
      s.session.tracker.DeclaratorSteps kind (target.names.map (·.name)) s₁.session.tracker
        s₂.session.tracker t :=
    ⟨hs.toInOrder.stack_ne_nil, hs.traced.arena, hspared₁.tracker, hs₁.traced.arena, hdeclared,
      hgrows, hvalue⟩
  refine .bind fun initialized s₃ hlook => ?_
  obtain rfl : s₂ = s₃ := by
    cases hlook
    rfl
  cases initialized with
  | true =>
      refine .bind ((initializer_leads fuel hkind hs₂ target).mono fun _ s' h => ?_)
      obtain ⟨t, hvalue, htraced, hmarked⟩ := h
      refine .pure ⟨target.names, some s'.previous.endPosition.offset, rfl, rfl, ?_, ?_⟩
      · rintro _ ⟨⟩
        rfl
      · intro i name b hfind
        rw [hmarked]
        exact (hdeclares hvalue).exists_survives htraced.arena htraced.indexed (some _) hfind
  | false =>
      suffices hpure : ∀ s', Unsettled source bs s' →
          s₂.session.tracker.Untouched s'.session.tracker → Leads _ s' _ by
        have hspares₂ : Sparing s₂.session.tracker bs s₂ := ⟨hs₂.toInOrder, .refl _⟩
        refine .ite (fun h => Bool.noConfusion h) fun _ => .ite (fun _ => ?_) fun _ =>
          hpure s₂ hs₂ (.refl _)
        have hreport (I : Invariant) [I.Scanning] :
            Upholds I bs (reportFirst reportUninitialized target.names) bs := inferInstance
        exact .bind ((((hreport (Sparing _)).leads hspares₂).and
          ((hreport (Unsettled source)).leads hs₂)).mono fun _ s' h => hpure s' h.2 h.1.tracker)
      intro s' hs' hvalue
      refine .pure ⟨target.names, none, rfl, rfl, ?_, fun i name b hfind => ?_⟩
      · rintro _ ⟨⟩
      · exact (hdeclares hvalue).exists_survives hs'.traced.arena hs'.traced.indexed none hfind

/-- What a step leads to can be told of a state that it was computed to stop in. -/
theorem Leads.of_ok {α : Type} {step : Reading α} {post : α → State → Prop}
    (hstep : Leads step s post) {a : α} (hok : (step.run.run s).1.toOption = some a) :
    post a (step.run.run s).2 := by
  refine hstep a _ ?_
  rcases hrun : step.run.run s with ⟨stop | a', s'⟩ <;> rw [hrun] at hok <;> cases hok
  rfl

/-- Two declarations of a name with a use in between, which is behind the initial value of the
declaration that holds and in front of the end of the one that is rejected. -/
def redeclaration : String := "let a = 1; a = 3; let a = 2;"

/-- What is read of the two declarations up to the name in the second one. -/
def untilRedeclared (self : Productions) : Reading Unit := do
  acceptLookahead
  let _ ← self.statement true
  let _ ← self.statement true
  advance

theorem untilRedeclared_leads (fuel : Nat) (hs : Unsettled source bs s) :
    Leads (untilRedeclared (productions fuel)) s fun _ s' => Unsettled source bs s' := by
  have huphold := productions_uphold (I := Unsettled source) fuel
  refine .bind (hs.acceptLookahead.mono fun _ s' hs' => ?_)
  have hstatement : Upholds (Unsettled source) bs ((productions fuel).statement true) bs :=
    inferInstance
  have hadvance : Upholds (Unsettled source) bs advance bs := inferInstance
  refine .bind (((hstatement.leads hs').mono fun _ s₁ hs₁ => ?_))
  exact .bind (((hstatement.leads hs₁).mono fun _ s₂ hs₂ => hadvance.leads hs₂))

/-- In front of the name in the second declaration. -/
def beforeRedeclaration : Except Stop Unit × State :=
  (untilRedeclared (productions 20)).run.run
    (Analysis.startState redeclaration { edition := .es2015 } {})

/-- Behind the second declaration. -/
def afterRedeclaration : Except Stop Declarations × State :=
  (declarator (productions 20) .letName false {}).run.run beforeRedeclaration.2

theorem beforeRedeclaration_unsettled : Unsettled redeclaration [] beforeRedeclaration.2 := by
  have hread : beforeRedeclaration.1.toOption = some () := by decide +kernel
  exact (untilRedeclared_leads 20 (Analysis.startState_unsettled _ _ _)).of_ok hread

theorem declarator_moves_dead_zones_of_use :
    let t := beforeRedeclaration.2.session.tracker
    let t' := afterRedeclaration.2.session.tracker
    let analysis := Analysis.ofSource redeclaration { edition := .es2015 } {}
    BindingKind.letName.isLexical ∧ Unsettled redeclaration [] beforeRedeclaration.2 ∧
      t.admitsLexical "a" = false ∧ (t.reference 0).name = "a" ∧
      (∃ b b', (t.frame 0).find? "a" = some b ∧ (t'.frame 0).find? "a" = some b' ∧
        (t.reference 0).inDeadZone b = false ∧ b'.declaration = (b.endZone 27).declaration ∧
        (t.reference 0).inDeadZone b' = true) ∧
      analysis.diagnostics.map (fun d => (d.code, d.position.place)) =
        [("E011", 1, 23), ("E056", 1, 12)] := by
  intro t t' analysis
  have hdeclares : afterRedeclaration.1.toOption.map
      (fun ds => (ds.names.map (·.name), ds.initialized)) = some (["a"], true) := by decide +kernel
  have hend : afterRedeclaration.2.previous.endPosition.offset = 27 := by decide +kernel
  have hfound : (t.admitsLexical "a", t.innermost? "a") = (false, some 0) := by decide +kernel
  have hbinding : ((t.frame 0).find? "a").map (fun b => (b.kind.hasDeadZone, b.initializedAt)) =
      some (true, 9) := by decide +kernel
  have huse : ((t.reference 0).name, (t.reference 0).crossedFunction,
      (t.reference 0).position.offset) = ("a", false, 11) := by decide +kernel
  have hreports : analysis.diagnostics.map (fun d => (d.code, d.position.place)) =
      [("E011", 1, 23), ("E056", 1, 12)] := by decide +kernel
  obtain ⟨hrejected, hinnermost⟩ := Prod.mk.inj hfound
  obtain ⟨hname, huse⟩ := Prod.mk.inj huse
  obtain ⟨hcrossed, hoffset⟩ := Prod.mk.inj huse
  obtain ⟨b, hb, hzone⟩ := Option.map_eq_some_iff.mp hbinding
  obtain ⟨hzone, hearlier⟩ := Prod.mk.inj hzone
  obtain ⟨ds, hok, hds⟩ := Option.map_eq_some_iff.mp hdeclares
  obtain ⟨hsingle, hinit⟩ := Prod.mk.inj hds
  obtain ⟨names, stop?, hnames, hinitialized, hstop, hsurvives⟩ :=
    (declarator_moves_dead_zones beforeRedeclaration_unsettled rfl false {} 20).of_ok hok
  obtain ⟨stop, hsome⟩ : ∃ stop, stop? = some stop :=
    Option.isSome_iff_exists.mp (hinitialized.symm.trans hinit)
  obtain rfl : stop = 27 := (hstop stop hsome).trans hend
  obtain ⟨b', hb', hsurvives⟩ := hsurvives 0 "a" b hb
  have hmem : "a" ∈ names.map (·.name) := by
    rw [hnames] at hsingle
    exact hsingle ▸ List.mem_singleton_self "a"
  obtain ⟨hmoved, hdead⟩ := hsurvives.moved 27 hsome hmem hrejected hinnermost
  refine ⟨rfl, beforeRedeclaration_unsettled, hrejected, hname, ⟨b, b', hb, hb', ?_, hmoved, ?_⟩,
    hreports⟩
  · simp [Scope.Reference.inDeadZone, hearlier, hoffset]
  · simp [hdead, hzone, hcrossed, hoffset]

end Reading

end ScriptLint
