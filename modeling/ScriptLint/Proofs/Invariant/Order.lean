import ScriptLint.Proofs.Invariant.Session
import ScriptLint.Proofs.Scope.Rest
import ScriptLint.Proofs.Scope.Unused

/-! # The order of references

References are recorded in the order of the source. Most are recorded right behind their token, but
some have to wait until it is clear that they are references: a property in the short notation, and
the names of an export. That nothing else is recorded meanwhile is an invariant too, with the places
that wait for it.
-/

namespace ScriptLint

theorem Token.isEnd_eq_false_of_isIdentifier {t : Token} (hname : t.isIdentifier) :
    t.isEnd = false := by
  unfold isIdentifier at hname
  unfold isEnd
  split at hname
  · simp_all
  · cases hname

namespace Scope.Operation

variable {codes : List String} {t : Tracker}

/-- What comes with a token concerns no frame and no reference. -/
theorem WithToken.perform {operation : Operation} (hoperation : operation.WithToken codes) :
    operation.perform.Ensures t fun _ t' => t'.stack = t.stack ∧ t'.places = t.places := by
  cases hoperation with
  | markExported name =>
      refine .update ?_
      unfold Tracker.markExported
      split <;> exact ⟨rfl, rfl⟩
  | changeSink =>
      rintro sink _ _ ⟨⟩
      exact ⟨rfl, rfl⟩
  | _ => exact .update ⟨rfl, rfl⟩

theorem performAll_withToken {operations : List Operation}
    (hoperations : ∀ operation ∈ operations, operation.WithToken codes) :
    (performAll operations).Ensures t fun _ t' => t'.stack = t.stack ∧ t'.places = t.places := by
  refine (Action.Ensures.forM (fun rest t' => (∀ operation ∈ rest, operation.WithToken codes) ∧
    t'.stack = t.stack ∧ t'.places = t.places) ⟨hoperations, rfl, rfl⟩ ?_).mono fun _ _ h => h.2
  rintro operation rest t' ⟨hrest, hstack, hplaces⟩
  refine (hrest operation List.mem_cons_self).perform.mono fun _ t'' h => ?_
  exact ⟨fun operation hmem => hrest operation (List.mem_cons_of_mem _ hmem),
    h.1.trans hstack, h.2.trans hplaces⟩

theorem Turns.place?_eq_none {operation : Operation} {bs bs' : List Bracket} :
    operation.Turns bs bs' → operation.place? = none := by
  rintro ⟨⟩ <;> rfl

/-- As many scopes are open as there should be. -/
theorem Turns.depthAfter_eq {operation : Operation} {bs bs' : List Bracket}
    (hturns : operation.Turns bs bs') (n : Nat) :
    operation.depthAfter (n + 1 + bs.count .scope) = n + 1 + bs'.count .scope := by
  cases hturns <;> simp [depthAfter] <;> omega

end Scope.Operation

namespace Reading

open Scope (Operation)

variable {α β σ : Type}

/-- The references were recorded in the order of the source, and the places `ps` of further ones
wait behind them; all of these tokens were taken. Inside of what is open there is always some
scope. -/
structure InOrder (ps : List Position) (bs : List Bracket) (s : State) : Prop where
  ready : s.Ready
  opened : bs.count .scope < s.session.tracker.stack.length
  ordered : ((s.session.tracker.places ++ ps).map (·.offset)).Pairwise (· < ·)
  before : ∀ p ∈ s.session.tracker.places ++ ps, p.offset < s.lookahead.position.offset
  taken : ∀ p ∈ s.session.tracker.places ++ ps, ∃ t ∈ s.consumed, t.position = p

namespace InOrder

variable {ps : List Position} {p : Position} {bs bs' : List Bracket} {s s' : State}

theorem stack_ne_nil (hs : InOrder ps bs s) : s.session.tracker.stack ≠ [] :=
  List.ne_nil_of_length_pos (Nat.zero_lt_of_lt hs.opened)

/-- What happens to the scopes matters only in the open frames and the places. -/
theorem of_session (hs : InOrder ps bs s) {session : Scope.Session}
    (hopened : bs'.count .scope < session.tracker.stack.length)
    (hplaces : session.tracker.places = s.session.tracker.places) :
    InOrder ps bs' { s with session } :=
  ⟨hs.ready, hopened, by rw [hplaces]; exact hs.ordered, by rw [hplaces]; exact hs.before,
    by rw [hplaces]; exact hs.taken⟩

theorem of_attends {codes : List String} (hs : InOrder ps bs s) (hattends : s.Attends codes s') :
    InOrder ps bs s' := by
  obtain ⟨hlookahead, hconsumed, hsize, operations, hoperations, hrun⟩ := hattends
  obtain ⟨hstack, hplaces⟩ := Operation.performAll_withToken hoperations s.session.sink _ _ hrun
  refine ⟨?_, hstack ▸ hs.opened, hplaces ▸ hs.ordered, ?_, ?_⟩
  · unfold State.Ready
    rw [hlookahead, hsize]
    exact hs.ready
  · rw [hlookahead, hplaces]
    exact hs.before
  · rw [hconsumed, hplaces]
    exact hs.taken

/-- Another reading of the next token, at the same place. -/
theorem of_lookahead (hs : InOrder ps bs s) {t : Token} (hready : t.Within s.size)
    (hposition : t.position = s.lookahead.position) :
    InOrder ps bs { s with lookahead := t } :=
  ⟨hready, hs.opened, hs.ordered, by simpa only [hposition] using hs.before, hs.taken⟩

theorem behind (hs : InOrder ps bs s) : InOrder ps bs s.behind where
  ready := .next hs.ready.stop
  opened := hs.opened
  ordered := hs.ordered
  before p hp :=
    Nat.lt_of_lt_of_le (hs.before p hp) (Nat.le_trans hs.ready.offset_le_stop
      (Token.offset_le_next s.lookahead.stop))
  taken p hp := by
    obtain ⟨t, hmem, ht⟩ := hs.taken p hp
    exact ⟨t, List.mem_cons_of_mem _ hmem, ht⟩

/-- The place of the next token may wait once the token is taken. -/
theorem behind_offers (hs : InOrder ps bs s) (hend : s.lookahead.isEnd = false) :
    InOrder (ps ++ [s.lookahead.position]) bs s.behind where
  ready := hs.behind.ready
  opened := hs.opened
  ordered := by
    rw [← List.append_assoc, List.map_append, List.pairwise_append]
    refine ⟨hs.ordered, List.pairwise_singleton _ _, ?_⟩
    simp only [List.mem_map, List.map_cons, List.map_nil, List.mem_singleton]
    rintro _ ⟨p, hp, rfl⟩ _ rfl
    exact hs.before p hp
  before := by
    intro p hp
    rw [← List.append_assoc] at hp
    rcases List.mem_append.mp hp with hp | hp
    · exact hs.behind.before p hp
    · rw [List.mem_singleton.mp hp]
      exact Nat.lt_of_lt_of_le (hs.ready.offset_lt_stop hend)
        (Token.offset_le_next s.lookahead.stop)
  taken := by
    intro p hp
    rw [← List.append_assoc] at hp
    rcases List.mem_append.mp hp with hp | hp
    · exact hs.behind.taken p hp
    · exact ⟨s.lookahead, List.mem_cons_self, (List.mem_singleton.mp hp).symm⟩

theorem of_advance (hs : InOrder ps bs s.behind) :
    Leads Reading.advance s fun _ s' => InOrder ps bs s' := by
  intro _ s' hrun
  have hissues : ∀ issue ∈ s.lookahead.issues,
      issue.code ∈ commentCodes ++ s.lookahead.issues.map (·.code) := fun issue hmem =>
    List.mem_append_right _ (List.mem_map_of_mem hmem)
  exact hs.of_attends (advance_attends (List.subset_append_left _ _) hissues _ s' hrun)

theorem rescanTemplate (hs : InOrder ps bs s) (hbrace : s.lookahead.isPunctuator "\x7d") :
    Leads rescanTemplate s fun _ s' => InOrder ps bs s' := by
  refine .bind ?_
  rintro _ _ ⟨⟩
  refine .bind ?_
  rintro _ _ ⟨⟩
  have hpiece := hs.of_lookahead (Token.Within.rescanTemplate hs.ready hbrace) rfl
  have hfatal : Attends [] checkFatal := .checkFatal
  exact fun _ s' hrun => hpiece.of_attends (hfatal.leads _ _ s' hrun)

theorem perform (hs : InOrder ps bs s) {operation : Operation} (hturns : operation.Turns bs bs') :
    Leads (inScopes operation.perform) s fun _ s' => InOrder ps bs' s' := by
  intro _ s' hrun
  have hafter := Leads.inScopes ((operation.perform_places hs.stack_ne_nil).and
    (operation.perform_depth hs.stack_ne_nil)) _ s' hrun
  obtain ⟨hplaces, hdepth⟩ := hafter
  rw [run_inScopes] at hrun
  obtain ⟨-, rfl⟩ := Prod.mk.inj hrun
  refine hs.of_session ?_ ?_
  · obtain ⟨n, hn⟩ := Nat.exists_eq_add_of_lt hs.opened
    have hdepth' := hturns.depthAfter_eq n
    rw [hdepth, hn, show bs.count .scope + n + 1 = n + 1 + bs.count .scope by omega, hdepth']
    omega
  · rw [hplaces, hturns.place?_eq_none]
    exact List.append_nil _

/-- A place need not wait any longer. -/
theorem of_sublist {qs : List Position} (hs : InOrder ps bs s) (hqs : qs.Sublist ps) :
    InOrder qs bs s := by
  have hsublist := hqs.append_left s.session.tracker.places
  exact ⟨hs.ready, hs.opened, hs.ordered.sublist (hsublist.map _),
    fun p hp => hs.before p (hsublist.subset hp), fun p hp => hs.taken p (hsublist.subset hp)⟩

/-- A place that waits, before all others, becomes that of a reference. -/
theorem record (hs : InOrder (p :: ps) bs s) (name : String) (access : Scope.Access) :
    Leads (addReference name p access) s fun _ s' => InOrder ps bs s' := by
  refine .tracker (.bind (.track (.pure ?_)))
  have hplaces := s.session.tracker.places_addReference name p access
  have happend : s.session.tracker.places ++ [p] ++ ps = s.session.tracker.places ++ p :: ps :=
    List.append_assoc _ _ _
  exact ⟨hs.ready, hs.opened, by rw [hplaces, happend]; exact hs.ordered,
    by rw [hplaces, happend]; exact hs.before, by rw [hplaces, happend]; exact hs.taken⟩

theorem report (hs : InOrder ps bs s) {code : String} (position : Position)
    (arguments : List String) (hcode : Halt.IsRegular code) :
    Leads (Reading.report code position arguments hcode) s fun _ s' => InOrder ps bs s' := by
  have hreport : Attends [code] (Reading.report code position arguments hcode) :=
    .report List.mem_cons_self position arguments hcode
  exact fun _ s' hrun => hs.of_attends (hreport.leads s _ s' hrun)

instance (ps : List Position) : Invariant.Basic (InOrder ps) where
  adjust _ _ _ hs := ⟨hs.ready, hs.opened, hs.ordered, hs.before, hs.taken⟩
  report position arguments hcode _ hs := hs.report position arguments hcode
  reportKey arguments hcode _ _ hs _ := hs.report _ arguments hcode
  perform hturns hs := hs.perform hturns
  advance hs := hs.behind.of_advance
  rescanRegexp hslash hs := hs.of_lookahead (Token.Within.rescanRegexp hs.ready hslash) rfl
  rescanTemplate hbrace hs := hs.rescanTemplate hbrace

end InOrder

/-! ## Invariants that see references -/

theorem Leads.mono {step : Reading α} {s : State} {post post' : α → State → Prop}
    (hpost : Leads step s post) (himp : ∀ a s', post a s' → post' a s') : Leads step s post' :=
  fun a s' hrun => himp a s' (hpost a s' hrun)

theorem Leads.and {step : Reading α} {s : State} {post post' : α → State → Prop}
    (hpost : Leads step s post) (hpost' : Leads step s post') :
    Leads step s fun a s' => post a s' ∧ post' a s' :=
  fun a s' hrun => ⟨hpost a s' hrun, hpost' a s' hrun⟩

/-- Two invariants hold together. -/
instance (I J : Invariant) [hI : I.Scanning] [hJ : J.Scanning] :
    Invariant.Scanning fun bs s => I bs s ∧ J bs s where
  adjust depth inExcluded exports hs :=
    ⟨hI.adjust depth inExcluded exports hs.1, hJ.adjust depth inExcluded exports hs.2⟩
  report position arguments hcode hlisted hs :=
    (hI.report position arguments hcode hlisted hs.1).and
      (hJ.report position arguments hcode hlisted hs.2)
  reportKey arguments hcode hlisted hs₀ hs hlt :=
    (hI.reportKey arguments hcode hlisted hs₀.1 hs.1 hlt).and
      (hJ.reportKey arguments hcode hlisted hs₀.2 hs.2 hlt)
  advance hs := (hI.advance hs.1).and (hJ.advance hs.2)
  rescanRegexp hslash hs := ⟨hI.rescanRegexp hslash hs.1, hJ.rescanRegexp hslash hs.2⟩
  rescanTemplate hbrace hs := (hI.rescanTemplate hbrace hs.1).and (hJ.rescanTemplate hbrace hs.2)

instance (I J : Invariant) [hI : I.Basic] [hJ : J.Basic] :
    Invariant.Basic fun bs s => I bs s ∧ J bs s where
  perform hturns hs := (hI.perform hturns hs.1).and (hJ.perform hturns hs.2)

/-- An invariant of what expressions do by themselves, outside of the functions and classes in them:
the references come in order, another one is recorded where it may be, and nothing is declared. -/
class Invariant.Modest (I : Invariant) : Prop extends Invariant.Scanning I where
  inOrder {bs : List Bracket} {s : State} : I bs s → InOrder [] bs s
  record {bs : List Bracket} {s : State} {p : Position} (name : String) (access : Scope.Access) :
    I bs s → InOrder [p] bs s → Leads (addReference name p access) s fun _ s' => I bs s'
  setAccess {bs : List Bracket} {s : State} (id : Nat) (access : Scope.Access) :
    I bs s → Leads (track (·.setAccess id access)) s fun _ s' => I bs s'
  recordYield {bs : List Bracket} {s : State} : I bs s →
    Leads (track (·.recordYield)) s fun _ s' => I bs s'

/-- An invariant of all steps of productions: the references come in order, and another one is
recorded where it may be. -/
class Invariant.Lawful (I : Invariant) : Prop extends Invariant.Basic I where
  inOrder {bs : List Bracket} {s : State} : I bs s → InOrder [] bs s
  record {bs : List Bracket} {s : State} {p : Position} (name : String) (access : Scope.Access) :
    I bs s → InOrder [p] bs s → Leads (addReference name p access) s fun _ s' => I bs s'

instance (I : Invariant) [hI : I.Lawful] : I.Modest where
  inOrder := hI.inOrder
  record := hI.record
  setAccess id access := hI.perform (.setAccess id access _)
  recordYield := hI.perform (.recordYield _)

namespace Upholds

variable {I : Invariant} {bs : List Bracket} [hI : I.Modest]

instance (id : Nat) (access : Scope.Access) : Upholds I bs (track (·.setAccess id access)) bs :=
  ⟨hI.setAccess id access⟩

instance : Upholds I bs (track (·.recordYield)) bs := ⟨hI.recordYield⟩

instance (target : Expression) (access : Scope.Access) :
    Upholds I bs (assignmentTarget target access) bs := by
  unfold assignmentTarget
  split <;> infer_instance

end Upholds

/-- Once a token is taken, its place may become that of a reference. -/
theorem Invariant.Modest.advance_offers {I : Invariant} (hI : I.Modest) {bs : List Bracket}
    {s : State} (hs : I bs s) (hend : s.lookahead.isEnd = false) :
    Leads Reading.advance s fun _ s' => I bs s' ∧ InOrder [s.lookahead.position] bs s' :=
  (hI.advance hs).and ((hI.inOrder hs).behind_offers hend).of_advance

end Reading

end ScriptLint
