import ScriptLint.Proofs.Analysis.Ending
import ScriptLint.Proofs.Invariant.Space
import ScriptLint.Proofs.Scope.Station
import ScriptLint.Proofs.Scope.Touch

/-! # Labels around a place

A jump sees the labels around it in its function. They are followed through the operations of scope
analysis first, and then through reading.
-/

set_option synthInstance.maxSize 4096

/-! ## What is around a jump

A jump looks at the open frames only for the labels of the function that it is in. Each operation
does to the labels of the open frames what it does whatever names there are, so what is around a
place can be followed from one operation to the next.
-/

namespace ScriptLint.Scope

/-- What a frame is to the jumps in it. -/
structure Enclosure where
  /-- Whether the labels around the frame cannot be seen in it. -/
  function : Bool
  /-- The labels in it, innermost first. -/
  labels : List Label

def Frame.enclosure (f : Frame) : Enclosure := ⟨f.kind.holdsVars, f.labels⟩

def Station.enclosure (e : Station) : Enclosure := ⟨e.holdsVars, e.labels⟩

namespace Enclosure

variable {change : List Label → List Label} {es : List Enclosure}

/-- Change the labels of the innermost function, or of the last frame if there is none. -/
def relabel (change : List Label → List Label) : List Enclosure → List Enclosure
  | [] => []
  | e :: rest =>
    if e.function || rest.isEmpty then { e with labels := change e.labels } :: rest
    else e :: relabel change rest

/-- The labels of the innermost function. -/
def labelsOf : List Enclosure → List Label
  | [] => []
  | e :: rest => if e.function || rest.isEmpty then e.labels else labelsOf rest

theorem isEmpty_relabel : (relabel change es).isEmpty = es.isEmpty := by
  cases es with
  | nil => rfl
  | cons e rest =>
      rw [relabel]
      split <;> rfl

theorem tail_relabel (label : Label) : relabel List.tail (relabel (label :: ·) es) = es := by
  induction es with
  | nil => rfl
  | cons e rest ih =>
      rw [relabel]
      split
      next h => rw [relabel, if_pos h, List.tail_cons]
      next h => rw [relabel, isEmpty_relabel, if_neg h, ih]

theorem labelsOf_relabel (hne : es ≠ []) : labelsOf (relabel change es) = change (labelsOf es) := by
  induction es with
  | nil => exact absurd rfl hne
  | cons e rest ih =>
      rw [relabel, labelsOf]
      split
      next h => rw [labelsOf, if_pos h]
      next h =>
        have hrest : rest ≠ [] := by
          rintro rfl
          simp at h
        rw [labelsOf, isEmpty_relabel, if_neg h, ih hrest]

theorem labelsOf_cons {e : Enclosure} (hfunction : e.function = false) (hne : es ≠ []) :
    labelsOf (e :: es) = labelsOf es := by
  have hrest : es.isEmpty = false := List.isEmpty_eq_false_iff.mpr hne
  rw [labelsOf, hfunction, hrest]
  rfl

end Enclosure

open Enclosure (relabel labelsOf tail_relabel)

namespace Tracker

variable {t t' t'' : Tracker}

/-- The open frames as jumps see them, innermost first. -/
def enclosures (t : Tracker) : List Enclosure := t.stack.map fun i => (t.frame i).enclosure

theorem enclosures_ne_nil (hstack : t.stack ≠ []) : t.enclosures ≠ [] := by
  simpa [enclosures] using hstack

theorem enclosures_eq (t : Tracker) : t.enclosures = t.stations.map Station.enclosure := by
  rw [stations, views, List.map_map]
  rfl

theorem labels_functionFrame (hstack : t.stack ≠ []) :
    t.functionFrame.labels = labelsOf t.enclosures := by
  have hlast {ids : List Nat} (hids : ids ≠ []) :
      (t.frame ((t.upToFunction ids).getLastD 0)).labels =
        labelsOf (ids.map fun i => (t.frame i).enclosure) := by
    induction ids with
    | nil => exact absurd rfl hids
    | cons i ids ih =>
        have hfunction : (t.frame i).enclosure.function = (t.frame i).kind.holdsVars := rfl
        rw [List.map_cons, labelsOf, List.isEmpty_map, hfunction, getLastD_upToFunction]
        split
        · rfl
        next hinner =>
          refine ih ?_
          rintro rfl
          exact hinner (Bool.or_true _)
  exact hlast hstack

end Tracker

/-! ### Operations -/

namespace Operation

variable {t : Tracker}

/-- What an operation does to the open frames, as jumps see them. -/
def enclose : Operation → List Enclosure → List Enclosure
  | enterScope kind _ => (⟨kind.holdsVars, []⟩ :: ·)
  | enterFunction _ _ => (⟨true, []⟩ :: ·)
  | exitScope => List.tail
  | pushLabel label => relabel (label :: ·)
  | popLabel => relabel List.tail
  | _ => id

/-- What is done to the stations at a function is done to its labels. -/
theorem relabel_stations {change : List Label → List Label} {changeStation : Station → Station}
    (hchange : ∀ e, (changeStation e).enclosure = { e.enclosure with labels := change e.labels })
    (es : List Station) :
    relabel change (es.map Station.enclosure) =
      (Tracker.atFunction Station.holdsVars changeStation es).map Station.enclosure := by
  induction es with
  | nil => rfl
  | cons e es ih =>
      have hfunction : e.enclosure.function = e.holdsVars := rfl
      rw [List.map_cons, relabel, Tracker.atFunction, List.isEmpty_map, hfunction]
      split
      · rw [List.map_cons, hchange]
        rfl
      · rw [List.map_cons, ih]

/-- What an operation does to the stations, jumps see it do. -/
theorem enclose_stations (operation : Operation) (es : List Station) :
    operation.enclose (es.map Station.enclosure) =
      (operation.shift es).map Station.enclosure := by
  have hsame (change : Station → Station)
      (hchange : ∀ e, (change e).enclosure = e.enclosure) :
      (Tracker.atFunction Station.holdsVars change es).map Station.enclosure =
        es.map Station.enclosure := Tracker.map_atFunction hchange es
  cases operation with
  | exitScope => exact List.map_tail.symm
  | pushLabel label => exact relabel_stations (fun _ => rfl) es
  | popLabel => exact relabel_stations (fun _ => rfl) es
  | setStrict => exact (hsame .setStrict fun _ => rfl).symm
  | enterLoop => exact (hsame .enterLoop fun _ => rfl).symm
  | exitLoop => exact (hsame .exitLoop fun _ => rfl).symm
  | enterSwitch => exact (hsame .enterSwitch fun _ => rfl).symm
  | exitSwitch => exact (hsame .exitSwitch fun _ => rfl).symm
  | _ => rfl

theorem perform_enclosures (operation : Operation) (ht : t.Stacked) :
    operation.perform.Ensures t fun _ t' =>
      t'.Stacked ∧ t'.enclosures = operation.enclose t.enclosures := by
  intro sink _ s hrun
  obtain ⟨hstacked, hstations⟩ := operation.perform_stations (s := ⟨t, sink⟩) ht
  rw [hrun] at hstacked hstations
  refine ⟨hstacked, ?_⟩
  rw [Tracker.enclosures_eq, Tracker.enclosures_eq, hstations, enclose_stations]

end Operation

end ScriptLint.Scope

/-! ## Labels while reading

Productions close what they open, and each label they push they pop again. So what is around a
place, as jumps see it, is the same behind a production as in front of it, whatever functions,
classes and loops were read in between. On the way into a statement, blocks and loops leave the
labels of the function alone, and a label is one more of them.
-/

namespace ScriptLint

open Scope (Enclosure Label Operation)

namespace Scope

open Enclosure (relabel labelsOf)

/-- What was around the place before the constructs that are open there. -/
def Enclosure.around : List Bracket → List Enclosure → List Enclosure
  | [], es => es
  | .scope :: bs, es => around bs es.tail
  | .label :: bs, es => around bs (relabel List.tail es)
  | .loop :: bs, es | .switch :: bs, es => around bs es

namespace Operation

variable {operation : Operation} {bs bs' : List Bracket} {codes : List String}

/-- What is opened or closed by an operation is told by the brackets. -/
theorem Turns.around_enclose (hturns : operation.Turns bs bs') (es : List Enclosure) :
    Enclosure.around bs' (operation.enclose es) = Enclosure.around bs es := by
  cases hturns with
  | pushLabel label => exact congrArg (Enclosure.around bs) (Enclosure.tail_relabel label)
  | _ => rfl

theorem WithToken.enclose_eq (hoperation : operation.WithToken codes) : operation.enclose = id := by
  cases hoperation <;> rfl

theorem performAll_enclosures {operations : List Operation} {t : Tracker}
    (hoperations : ∀ operation ∈ operations, operation.WithToken codes) (ht : t.Stacked) :
    (performAll operations).Ensures t fun _ t' => t'.Stacked ∧ t'.enclosures = t.enclosures := by
  refine (Action.Ensures.forM (fun rest t' => (∀ operation ∈ rest, operation.WithToken codes) ∧
    t'.Stacked ∧ t'.enclosures = t.enclosures) ⟨hoperations, ht, rfl⟩ ?_).mono fun _ _ h => h.2
  rintro operation rest t' ⟨hrest, ht', hsame⟩
  refine (operation.perform_enclosures ht').mono fun _ t'' h => ⟨?_, h.1, ?_⟩
  · exact fun operation hmem => hrest operation (List.mem_cons_of_mem _ hmem)
  · rw [h.2, (hrest operation List.mem_cons_self).enclose_eq]
    exact hsame

end Operation

end Scope

namespace Reading

variable {α β : Type} {bs bs' : List Bracket} {es : List Enclosure} {s s' : State}

/-! ### Productions -/

/-- The next token is one that the lexer gives, as it gave it or read again. -/
def State.Lexed (s : State) : Prop := ∃ c, (Token.next c).LeadsTo s.lookahead

/-- The references come in order, and around the constructs that are open is what was given. -/
structure Enclosed (es : List Enclosure) (bs : List Bracket) (s : State) : Prop
    extends InOrder [] bs s where
  lexed : s.Lexed
  stacked : s.session.tracker.Stacked
  around : Enclosure.around bs s.session.tracker.enclosures = es

namespace Enclosed

theorem of_attends {codes : List String} (hs : Enclosed es bs s) (hattends : s.Attends codes s') :
    Enclosed es bs s' := by
  obtain ⟨operations, hoperations, hrun⟩ := hattends.operations
  obtain ⟨hstacked, hsame⟩ :=
    Operation.performAll_enclosures hoperations hs.stacked s.session.sink _ _ hrun
  have hlexed : s'.Lexed := by
    rw [State.Lexed, hattends.lookahead]
    exact hs.lexed
  exact ⟨hs.toInOrder.of_attends hattends, hlexed, hstacked, hsame ▸ hs.around⟩

theorem perform (hs : Enclosed es bs s) {operation : Operation} (hturns : operation.Turns bs bs') :
    Leads (inScopes operation.perform) s fun _ s' => Enclosed es bs' s' := by
  have henclosures := Leads.inScopes (operation.perform_enclosures hs.stacked)
  intro _ s' hrun
  obtain ⟨hstacked, hsame⟩ := henclosures _ s' hrun
  have horder := hs.toInOrder.perform hturns _ s' hrun
  rw [run_inScopes] at hrun
  obtain ⟨-, rfl⟩ := Prod.mk.inj hrun
  refine ⟨horder, hs.lexed, hstacked, ?_⟩
  rw [hsame, hturns.around_enclose, hs.around]

theorem report (hs : Enclosed es bs s) {code : String} (position : Position)
    (arguments : List String) (hcode : Halt.IsRegular code) :
    Leads (Reading.report code position arguments hcode) s fun _ s' => Enclosed es bs s' := by
  have hreport : Attends [code] (Reading.report code position arguments hcode) :=
    .report List.mem_cons_self position arguments hcode
  exact fun _ s' hrun => hs.of_attends (hreport.leads s _ s' hrun)

instance (es : List Enclosure) : Invariant.Lawful (Enclosed es) where
  adjust _ _ _ hs :=
    ⟨⟨hs.ready, hs.opened, hs.ordered, hs.before, hs.taken⟩, hs.lexed, hs.stacked, hs.around⟩
  report position arguments hcode _ hs := hs.report position arguments hcode
  reportKey arguments hcode _ _ hs _ := hs.report _ arguments hcode
  advance {_ s} hs := by
    have hissues : ∀ issue ∈ s.lookahead.issues,
        issue.code ∈ commentCodes ++ s.lookahead.issues.map (·.code) := fun issue hmem =>
      List.mem_append_right _ (List.mem_map_of_mem hmem)
    have hbehind : Enclosed es _ s.behind :=
      ⟨hs.toInOrder.behind, hs.lexed.imp fun _ => .next, hs.stacked, hs.around⟩
    exact (advance_attends (List.subset_append_left _ _) hissues).mono
      fun _ _ => hbehind.of_attends
  rescanRegexp hslash hs :=
    ⟨hs.toInOrder.of_lookahead (Token.Within.rescanRegexp hs.ready hslash) rfl,
      hs.lexed.imp fun _ hleads => hleads.regexp hslash, hs.stacked, hs.around⟩
  rescanTemplate {_ s} hbrace hs := by
    refine .bind ?_
    rintro _ _ ⟨⟩
    refine .bind ?_
    rintro _ _ ⟨⟩
    have hpiece := hs.toInOrder.of_lookahead (Token.Within.rescanTemplate hs.ready hbrace) rfl
    have hs' : Enclosed es _ { s with lookahead := s.lookahead.rescanTemplate } :=
      ⟨hpiece, hs.lexed.imp fun _ hleads => hleads.template hbrace, hs.stacked, hs.around⟩
    have hfatal : Attends [] checkFatal := .checkFatal
    exact fun _ s' hrun => hs'.of_attends (hfatal.leads _ _ s' hrun)
  perform hturns hs := hs.perform hturns
  inOrder hs := hs.toInOrder
  record {_ s p} name access hs hoffers := by
    have hperform := Leads.inScopes (s := s)
      ((Operation.addReference name p access).perform_enclosures hs.stacked)
    have hrecord : Leads (addReference name p access) s fun _ s' =>
        s'.session.tracker.Stacked ∧
          s'.session.tracker.enclosures = s.session.tracker.enclosures :=
      .tracker (.bind (.track (.pure (hperform () _ rfl))))
    have hlexed : Leads (addReference name p access) s fun _ s' => s'.Lexed :=
      .tracker (.bind (.track (.pure hs.lexed)))
    intro _ s' hrun
    obtain ⟨hstacked, hsame⟩ := hrecord _ s' hrun
    exact ⟨hoffers.record name access _ s' hrun, hlexed _ s' hrun, hstacked, hsame ▸ hs.around⟩

end Enclosed

instance (es : List Enclosure) (fuel : Nat) : (productions fuel).Upholds (Enclosed es) :=
  productions_uphold fuel

/-! ### The way into a statement -/

/-- The labels around the current place in its function, innermost first. -/
def State.labels (s : State) : List Label := s.session.tracker.functionFrame.labels

/-- Reading is going on, and tokens, frames and references are in order. -/
structure State.Settled (s : State) : Prop extends InOrder [] [] s where
  lexed : s.Lexed
  stacked : s.session.tracker.Stacked
  records : s.session.sink.Records none

/-- Whatever is open, reading is settled in it. -/
theorem Enclosed.settled (hs : Enclosed es bs s) (hrecords : s.session.sink.Records none) :
    s.Settled :=
  ⟨⟨hs.ready, Nat.zero_lt_of_lt hs.opened, hs.ordered, hs.before, hs.taken⟩, hs.lexed, hs.stacked,
    hrecords⟩

namespace State.Settled

theorem enclosed (hs : s.Settled) : Enclosed s.session.tracker.enclosures [] s :=
  ⟨hs.toInOrder, hs.lexed, hs.stacked, rfl⟩

theorem labels_eq (hs : s.Settled) : s.labels = Enclosure.labelsOf s.session.tracker.enclosures :=
  Scope.Tracker.labels_functionFrame hs.stack_ne_nil

theorem deeper (hs : s.Settled) (depth : Nat) : State.Settled { s with depth } :=
  ⟨⟨hs.ready, hs.opened, hs.ordered, hs.before, hs.taken⟩, hs.lexed, hs.stacked, hs.records⟩

/-- Reading stays settled, in what productions open and behind what they close. -/
theorem leads {step : Reading α} (hstepwise : Stepwise step)
    (hstep : ∀ es, Upholds (Enclosed es) [] step bs) (hs : s.Settled) :
    Leads step s fun _ s' => s'.Settled ∧
      Enclosure.around bs s'.session.tracker.enclosures = s.session.tracker.enclosures := by
  intro a s' hrun
  have henclosed := (hstep _).leads hs.enclosed a s' hrun
  have hrecords := hstepwise.records hs.records
  rw [hrun] at hrecords
  exact ⟨henclosed.settled hrecords, henclosed.around⟩

/-- What an operation does to the labels can be told from the frames as jumps see them. -/
theorem perform (hs : s.Settled) {operation : Operation} (hturns : operation.Turns [] bs) :
    Leads (inScopes operation.perform) s fun _ s' => s'.Settled ∧
      s'.labels = Enclosure.labelsOf (operation.enclose s.session.tracker.enclosures) := by
  intro _ s' hrun
  have hstepwise : Stepwise (inScopes operation.perform) := .scopes hturns.reports.1
  obtain ⟨hs', -⟩ := hs.leads hstepwise (fun _ => ⟨fun hs => hs.perform hturns⟩) _ s' hrun
  obtain ⟨-, hsame⟩ := Leads.inScopes (operation.perform_enclosures hs.stacked) _ s' hrun
  exact ⟨hs', hs'.labels_eq.trans (congrArg Enclosure.labelsOf hsame)⟩

end State.Settled

/-- A step that leaves the labels of the function as they are. -/
class KeepsLabels (step : Reading α) : Prop where
  leads {s : State} : s.Settled → Leads step s fun _ s' => s'.Settled ∧ s'.labels = s.labels

namespace KeepsLabels

/-- What closes all that it opens does so with labels, too. -/
instance (priority := low) {step : Reading α} [hsteady : Steady 0 step]
    [hstep : ∀ es, Upholds (Enclosed es) [] step []] : KeepsLabels step where
  leads {s} hs a s' hrun := by
    obtain ⟨hs', hsame⟩ := hs.leads hsteady.stepwise hstep a s' hrun
    exact ⟨hs', by rw [hs'.labels_eq, hs.labels_eq, ← hsame]; rfl⟩

protected theorem bind {first : Reading α} {next : α → Reading β} (hfirst : KeepsLabels first)
    (hnext : ∀ a, KeepsLabels (next a)) : KeepsLabels (first >>= next) where
  leads hs := .bind fun a s' hrun => by
    obtain ⟨hs', hlabels⟩ := hfirst.leads hs a s' hrun
    exact ((hnext a).leads hs').mono fun _ _ h => ⟨h.1, h.2.trans hlabels⟩

instance {first : Reading α} {next : α → Reading β} [hfirst : KeepsLabels first]
    [hnext : ∀ a, KeepsLabels (next a)] : KeepsLabels (first >>= next) := .bind hfirst hnext

instance {c : Prop} [Decidable c] {first second : Reading α} [hfirst : KeepsLabels first]
    [hsecond : KeepsLabels second] : KeepsLabels (if c then first else second) := by
  split <;> infer_instance

/-- A scope that is no function leaves the labels in sight. -/
theorem enterScope {kind : Scope.FrameKind} (hkind : kind.holdsVars = false) (start : Position) :
    KeepsLabels (track (·.enterScope kind start)) where
  leads {s} hs _ s' hrun := by
    obtain ⟨hs', hlabels⟩ := hs.perform (.enterScope kind start []) _ s' hrun
    have hne := Scope.Tracker.enclosures_ne_nil hs.stack_ne_nil
    exact ⟨hs', hlabels.trans ((Enclosure.labelsOf_cons hkind hne).trans hs.labels_eq.symm)⟩

instance (start : Position) : KeepsLabels (track (·.enterScope .block start)) :=
  .enterScope rfl start

instance (start : Position) : KeepsLabels (track (·.enterScope .catchClause start)) :=
  .enterScope rfl start

instance : KeepsLabels (track (·.enterLoop)) where
  leads hs _ s' hrun :=
    (hs.perform (.enterLoop []) _ s' hrun).imp_right fun h => h.trans hs.labels_eq.symm

instance : KeepsLabels (track (·.enterSwitch)) where
  leads hs _ s' hrun :=
    (hs.perform (.enterSwitch []) _ s' hrun).imp_right fun h => h.trans hs.labels_eq.symm

end KeepsLabels

/-- A label is the innermost one from there on. -/
theorem pushLabel_leads (hs : s.Settled) (label : Label) :
    Leads (track (·.pushLabel label)) s fun _ s' => s'.Settled ∧ s'.labels = label :: s.labels := by
  intro _ s' hrun
  obtain ⟨hs', hlabels⟩ := hs.perform (.pushLabel label []) _ s' hrun
  refine ⟨hs', hlabels.trans ?_⟩
  rw [hs.labels_eq]
  exact Enclosure.labelsOf_relabel (Scope.Tracker.enclosures_ne_nil hs.stack_ne_nil)

end Reading

namespace Analysis

open Reading (State)

theorem settled_startState (source : String) (o : Options) (known : KnownGlobals) :
    State.Settled (startState source o known) where
  toInOrder := startState_inOrder source o known
  lexed := ⟨.ofSource source, .refl⟩
  stacked := .start known _ o.module _
  records := .start _ _ _

end Analysis

end ScriptLint
