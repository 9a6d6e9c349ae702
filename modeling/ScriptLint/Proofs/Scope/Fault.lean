import ScriptLint.Proofs.Diagnostic.Told
import ScriptLint.Proofs.Scope.Stepwise
import ScriptLint.Proofs.Scope.Rest

/-! # Faults of references

There may be ground for a remark on a reference when it is resolved: it lies in the dead zone of its
binding, or outside the block that declares it, or it writes to what does not take it. Each ground
has a code of its own. What it depends on is settled by the time at which the reference is resolved
and does not change any more, but for the access, which may be set anew. A ground that does not look
at the access is a fault of the reference as it stands.
-/

namespace ScriptLint.Scope

namespace Action

variable {α β : Type} {s : Session} {post : α → Session → Prop}

/-- Whenever the action succeeds on the session, its answer and the session after it satisfy
`post`. -/
def Leads (action : Action α) (s : Session) (post : α → Session → Prop) : Prop :=
  ∀ a s', action.run.run s = (.ok a, s') → post a s'

namespace Leads

theorem mono {action : Action α} {post' : α → Session → Prop} (haction : action.Leads s post')
    (himp : ∀ a s', post' a s' → post a s') : action.Leads s post :=
  fun a s' hrun => himp a s' (haction a s' hrun)

theorem and {action : Action α} {post' : α → Session → Prop} (haction : action.Leads s post)
    (haction' : action.Leads s post') : action.Leads s fun a s' => post a s' ∧ post' a s' :=
  fun a s' hrun => ⟨haction a s' hrun, haction' a s' hrun⟩

theorem of_ensures {action : Action α} {post : α → Tracker → Prop}
    (haction : action.Ensures s.tracker post) : action.Leads s fun a s' => post a s'.tracker :=
  fun a s' hrun => haction s.sink a s' hrun

theorem pure {a : α} (hpost : post a s) : Leads (Pure.pure a : Action α) s post := by
  rintro a' s' ⟨⟩
  exact hpost

theorem bind {first : Action α} {next : α → Action β} {post : β → Session → Prop}
    (hfirst : first.Leads s fun a s' => (next a).Leads s' post) :
    (first >>= next).Leads s post := by
  intro b s' hrun
  rw [run_bind] at hrun
  rcases hmiddle : first.run.run s with ⟨reason | a, s''⟩ <;> rw [hmiddle] at hrun
  · cases hrun
  · exact hfirst a s'' hmiddle b s' hrun

theorem tracker {post : Tracker → Session → Prop} (hpost : post s.tracker s) :
    Leads tracker s post := by
  rintro a s' ⟨⟩
  exact hpost

theorem update {change : Tracker → Tracker} {post : Unit → Session → Prop}
    (hpost : post () { s with tracker := change s.tracker }) : (update change).Leads s post := by
  rintro a s' ⟨⟩
  exact hpost

theorem report {code : String} {position : Position} {arguments : List String} {scope : String}
    {hcode : Halt.IsRegular code} {post : Unit → Session → Prop}
    (hpost : post () { s with sink := (s.sink.report code position arguments scope).2 }) :
    (report code position arguments scope hcode).Leads s post := by
  intro a s' hrun
  rw [run_report] at hrun
  obtain ⟨-, rfl⟩ := Prod.mk.inj hrun
  exact hpost

theorem ite {c : Prop} [Decidable c] {first second : Action α} (hfirst : c → first.Leads s post)
    (hsecond : ¬ c → second.Leads s post) : (if c then first else second).Leads s post := by
  split
  next hc => exact hfirst hc
  next hc => exact hsecond hc

/-- What each round of a loop takes from the items that are left to those after it holds in the end
of none. -/
theorem forM (inv : List α → Session → Prop) {items : List α} {step : α → Action PUnit}
    (hstart : inv items s)
    (hstep : ∀ a rest s, inv (a :: rest) s → (step a).Leads s fun _ s' => inv rest s') :
    (items.forM step).Leads s fun _ s' => inv [] s' := by
  induction items generalizing s with
  | nil => exact .pure hstart
  | cons a rest ih => exact .bind ((hstep a rest s hstart).mono fun _ _ hrest => ih hrest)

end Leads

/-! ## Remarks -/

/-- The action leaves the tracker as it is, and of one code it reports new places. -/
def Remarks (code : String) (New : Nat × Nat → Prop) (action : Action Unit) (t : Tracker) : Prop :=
  ∀ sink, action.Leads ⟨t, sink⟩ fun _ s => s.tracker = t ∧ sink.Gains code New s.sink

namespace Remarks

variable {code : String} {New New' : Nat × Nat → Prop} {t : Tracker}

theorem congr {action : Action Unit} (haction : action.Remarks code New t)
    (hnew : ∀ place, New place ↔ New' place) : action.Remarks code New' t :=
  fun sink => (haction sink).mono fun _ _ h => ⟨h.1, h.2.congr hnew⟩

theorem pure : (Pure.pure () : Action Unit).Remarks code (fun _ => False) t :=
  fun sink => .pure ⟨rfl, .refl sink⟩

theorem report (code' : String) (position : Position) (arguments : List String) (scope : String)
    (hcode : Halt.IsRegular code') :
    (report code' position arguments scope hcode).Remarks code
      (fun place => code' = code ∧ position.place = place) t := by
  exact fun sink => .report ⟨rfl, .report sink code' position arguments scope⟩

theorem bind {first : Action Unit} {next : Unit → Action Unit} (hfirst : first.Remarks code New t)
    (hnext : (next ()).Remarks code New' t) :
    (first >>= next).Remarks code (fun place => New place ∨ New' place) t := by
  refine fun sink => .bind ((hfirst sink).mono ?_)
  rintro _ ⟨_, sink'⟩ ⟨rfl, hgains⟩
  exact (hnext sink').mono fun _ _ h => ⟨h.1, hgains.trans h.2⟩

theorem tracker_bind {next : Tracker → Action Unit} (hnext : (next t).Remarks code New t) :
    (tracker >>= next).Remarks code New t := fun sink => .bind (.tracker (hnext sink))

theorem ite {c : Prop} [Decidable c] {first second : Action Unit}
    (hfirst : c → first.Remarks code New t) (hsecond : ¬ c → second.Remarks code New' t) :
    (if c then first else second).Remarks code
      (fun place => c ∧ New place ∨ ¬ c ∧ New' place) t := by
  by_cases hc : c
  · rw [if_pos hc]
    exact (hfirst hc).congr (by simp [hc])
  · rw [if_neg hc]
    exact (hsecond hc).congr (by simp [hc])

end Remarks

/-- A code that is not among those that an action reports is spared. -/
theorem ReportsOnly.spares_sink {codes : List String} {action : Action α}
    (haction : ReportsOnly codes action) (hstepwise : action.Stepwise) {code : String}
    (hcode : code ∉ codes) (s : Session) :
    s.sink.Spares code (action.run.run s).2.sink := by
  obtain ⟨New, hgains⟩ := hstepwise.relates (R := fun a b => ∃ New, a.Gains code New b)
    (fun a => ⟨_, .refl a⟩) (fun ⟨_, hab⟩ ⟨_, hbc⟩ => ⟨_, hab.trans hbc⟩)
    (fun a code' position arguments scope => ⟨_, .report a code' position arguments scope⟩) s
  refine ⟨hgains.halted, hgains.shows, fun hb ha place => ?_⟩
  have htells := hgains.tells hb ha place
  refine ⟨fun ⟨d, hmem, hkey⟩ => ?_, fun h => htells.mpr (.inl (h.resolve_right id))⟩
  exact .inl ⟨d, haction.spares hcode s hmem (congrArg Prod.fst hkey), hkey⟩

/-- An action that does not report the code spares it. -/
theorem Leads.spares {codes : List String} {action : Action α} [haction : ReportsOnly codes action]
    [hstepwise : action.Stepwise] {code : String} (hcode : code ∉ codes) :
    action.Leads s fun _ s' => s.sink.Spares code s'.sink := by
  intro a s' hrun
  have hspares := haction.spares_sink hstepwise hcode s
  rwa [hrun] at hspares

variable {code : String} {t : Tracker}

/-- Remarks with other codes. -/
theorem Remarks.other (codes : List String) {action : Action Unit}
    [haction : ReportsOnly codes action] [hstepwise : action.Stepwise] (hcode : code ∉ codes)
    (hensures : action.Ensures t fun _ t' => t' = t) :
    action.Remarks code (fun _ => False) t :=
  fun sink => .and (.of_ensures (s := ⟨t, sink⟩) hensures) (.spares hcode)

/-! ## Frames -/

/-- The action changes nothing of the tracker but frames. -/
class ChangesFrames (action : Action α) : Prop where
  eq (s : Session) : ∃ frames, (action.run.run s).2.tracker = { s.tracker with frames }

namespace ChangesFrames

instance (a : α) : ChangesFrames (Pure.pure a : Action α) := ⟨fun _ => ⟨_, rfl⟩⟩

instance : ChangesFrames tracker := ⟨fun _ => ⟨_, rfl⟩⟩

instance (id : Nat) (change : Frame → Frame) : ChangesFrames (update (·.modifyFrame id change)) :=
  ⟨fun _ => ⟨_, rfl⟩⟩

instance (name : String) (ids : Tracker → List Nat) :
    ChangesFrames (update fun t =>
      (ids t).foldl (fun t id => t.modifyFrame id (·.hoist name)) t) := by
  have hframes (ids : List Nat) (t : Tracker) :
      ∃ frames, t.hoistAll name ids = { t with frames } := by
    induction ids generalizing t with
    | nil => exact ⟨_, rfl⟩
    | cons id ids ih => exact ih (t.modifyFrame id (·.hoist name))
  exact ⟨fun s => hframes (ids s.tracker) s.tracker⟩

instance (code : String) (position : Position) (arguments : List String) (scope : String)
    (hcode : Halt.IsRegular code) : ChangesFrames (report code position arguments scope hcode) :=
  ⟨fun s => by rw [run_report]; exact ⟨_, rfl⟩⟩

protected theorem bind {first : Action α} {next : α → Action β} (hfirst : ChangesFrames first)
    (hnext : ∀ a, ChangesFrames (next a)) : ChangesFrames (first >>= next) := by
  constructor
  intro s
  obtain ⟨frames, hmiddle⟩ := hfirst.eq s
  rw [run_bind]
  rcases hrun : first.run.run s with ⟨reason | a, s'⟩ <;> rw [hrun] at hmiddle
  · exact ⟨frames, hmiddle⟩
  · obtain ⟨frames', hlast⟩ := (hnext a).eq s'
    exact ⟨frames', by rw [hlast, hmiddle]⟩

instance {first : Action α} {next : α → Action β} [hfirst : ChangesFrames first]
    [hnext : ∀ a, ChangesFrames (next a)] : ChangesFrames (first >>= next) := .bind hfirst hnext

instance {c : Prop} [Decidable c] {first second : Action α} [hfirst : ChangesFrames first]
    [hsecond : ChangesFrames second] : ChangesFrames (if c then first else second) := by
  split <;> infer_instance

instance (name : String) (target : Nat) (position : Position) :
    ChangesFrames (checkNew name target position) := by
  unfold checkNew
  infer_instance

instance (target : Nat) (binding : Binding) : ChangesFrames (bindNew target binding) := by
  unfold bindNew
  infer_instance

instance (code name : String) (position : Position) (hcode : Halt.IsRegular code) :
    ChangesFrames (reject code name position hcode) := by
  unfold reject
  infer_instance

instance (name : String) (kind : BindingKind) (position : Position) :
    ChangesFrames (declareHoisted name kind position) := by
  refine .bind inferInstance fun t => ?_
  split
  · infer_instance
  · refine .bind inferInstance fun _ => ?_
    dsimp only
    split <;> infer_instance

instance (name : String) (kind : BindingKind) (position : Position) :
    ChangesFrames (declareLexical name kind position) := by
  refine .bind inferInstance fun t => ?_
  dsimp only
  split <;> infer_instance

instance (name : String) (position : Position) :
    ChangesFrames (declareBlockFunction name position) := by
  refine .bind inferInstance fun t => ?_
  dsimp only
  split <;> infer_instance

instance (name : String) (position : Position) (distinct : Bool) :
    ChangesFrames (declareParameter name position distinct) := by
  refine .bind inferInstance fun t => ?_
  dsimp only
  split <;> infer_instance

instance (name : String) (kind : BindingKind) (position : Position) :
    ChangesFrames (declare name kind position) := by
  unfold declare
  split <;> infer_instance

instance (b : Binding) (r : Reference) (scope : String) :
    ChangesFrames (remarkEarly b r scope) := by
  unfold remarkEarly
  infer_instance

instance (b : Binding) (r : Reference) (scope : String) :
    ChangesFrames (remarkWrite b r scope) := by
  unfold remarkWrite
  split <;> infer_instance

instance (b : Binding) (r : Reference) (scope : String) :
    ChangesFrames (remarkOutside b r scope) := by
  refine .bind inferInstance fun t => ?_
  dsimp only
  split <;> infer_instance

instance (frame : Nat) (b : Binding) (r : Reference) : ChangesFrames (resolveTo frame b r) := by
  unfold resolveTo
  infer_instance

end ChangesFrames

/-- The action leaves the rules as they are. -/
class KeepsRules (action : Action α) : Prop where
  rules (s : Session) : (action.run.run s).2.tracker.rules = s.tracker.rules

instance {action : Action α} [haction : ChangesFrames action] : KeepsRules action :=
  ⟨fun s => by rw [(haction.eq s).choose_spec]⟩

/-! ## Resolution -/

/-- All remarks on a reference that is resolved to a binding. -/
def remarkAll (b : Binding) (r : Reference) (scope : String) : Action Unit := do
  remarkEarly b r scope
  remarkWrite b r scope
  remarkOutside b r scope

end Action

/-! ## Grounds -/

/-- What gives ground for a remark on a reference when it is resolved to a binding. -/
structure Ground where
  code : String
  /-- Whether the rules ask for the remark. -/
  Counts : Rules → Prop
  /-- Whether a reference to a binding gives ground for it. -/
  Holds : Tracker → Binding → Reference → Prop
  remarked : ∀ {t : Tracker}, Counts t.rules → ∀ b r scope,
    (Action.remarkAll b r scope).Remarks code
      (fun place => Holds t b r ∧ r.position.place = place) t
  /-- Nothing else is remarked on with its code. -/
  elsewhere : code ∉ Action.ReportsOnly.declarationCodes ∧ code ∉ ["W020", "W117"] ∧ code ∉ ["W098"]
  /-- It depends on the declaration, on the reference and on the frames around it. -/
  settled : ∀ {t t' : Tracker} {b b' : Binding} {r r' : Reference},
    t'.path r.origin = t.path r.origin → b'.declaration = b.declaration →
    r'.position = r.position → r'.origin = r.origin → r'.crossedFunction = r.crossedFunction →
    r'.access = r.access → (Holds t' b' r' ↔ Holds t b r)

namespace Ground

open Scope.Action

/-- Resolving a reference to a binding tells its place if there is ground for it. -/
theorem resolveTo_leads (ground : Ground) {s : Session} (hcounts : ground.Counts s.tracker.rules)
    (f : Nat) (b : Binding) (r : Reference) :
    (resolveTo f b r).Leads s fun _ s' =>
      s'.tracker = s.tracker.modifyFrame f (·.modify b.name (·.touch r)) ∧
        s.sink.Gains ground.code
          (fun place => ground.Holds s.tracker b r ∧ r.position.place = place) s'.sink := by
  -- The reference that was found is noted in the binding, which is no matter.
  let t := s.tracker.modifyFrame f (·.modify b.name (·.touch r))
  have hrests : s.tracker.Rests t := .modifyFrame _ _ fun g => .modify g b.name fun _ => rfl
  have hremarked := ground.remarked (t := t) hcounts b r (t.functionNameOf r.origin) s.sink
  refine .bind (.update (.bind (.tracker ?_)))
  refine hremarked.mono fun _ s' h => ⟨h.1, h.2.congr fun place => ?_⟩
  exact and_congr_left' (ground.settled (hrests.path_eq _) rfl rfl rfl rfl rfl)

/-- A write to a binding whose kind does not take it, with the code of the remark on the kind. -/
def write (code : String) (hcode : code ∈ ["E013", "W021", "W022"]) : Ground where
  code
  Counts _ := True
  Holds _ b r := r.access.writes ∧ ∃ remark, b.writeRemark? = some remark ∧ remark.code = code
  remarked {t} _ b r scope := by
    have hother : code ∉ ["E056", "W003"] ∧ code ∉ ["W038"] := by
      revert code
      decide
    have hearly : (remarkEarly b r scope).Remarks code (fun _ => False) t :=
      .other ["E056", "W003"] hother.1 (remarkEarly_ensures rfl)
    have houtside : (remarkOutside b r scope).Remarks code (fun _ => False) t :=
      .other ["W038"] hother.2 (remarkOutside_ensures rfl)
    have hwrite : (remarkWrite b r scope).Remarks code
        (fun place => (r.access.writes ∧ ∃ remark, b.writeRemark? = some remark ∧
          remark.code = code) ∧ r.position.place = place) t := by
      unfold remarkWrite
      cases b.writeRemark? with
      | none => exact .congr .pure (by simp)
      | some remark =>
          refine (Remarks.ite (fun _ => .report _ _ _ _ _) fun _ => .pure).congr fun place => ?_
          simp [and_assoc]
    exact (hearly.bind (hwrite.bind houtside)).congr (by simp)
  elsewhere := by
    revert code
    decide
  settled {_ _ b b' r r'} _ hdeclared _ _ _ haccess := by
    have hremark : b'.writeRemark? = b.writeRemark? :=
      (congrArg Binding.writeRemark? hdeclared :)
    rw [haccess, hremark]

end Ground

/-! ## Faults -/

/-- A fault of references, with the code of the remark on it. -/
structure Fault where
  code : String
  /-- Whether the rules ask for remarks on it. -/
  Counts : Rules → Prop
  /-- Whether a reference to a binding is at fault. -/
  Holds : Tracker → Binding → Reference → Prop
  remarked : ∀ {t : Tracker}, Counts t.rules → ∀ b r scope,
    (Action.remarkAll b r scope).Remarks code
      (fun place => Holds t b r ∧ r.position.place = place) t
  /-- Nothing else is remarked on with its code. -/
  elsewhere : code ∉ Action.ReportsOnly.declarationCodes ∧ code ∉ ["W020", "W117"] ∧ code ∉ ["W098"]
  /-- It depends on the declaration, on the place of the reference and on the frames around it. -/
  settled : ∀ {t t' : Tracker} {b b' : Binding} {r r' : Reference},
    t'.path r.origin = t.path r.origin → b'.declaration = b.declaration →
    r'.position = r.position → r'.origin = r.origin → r'.crossedFunction = r.crossedFunction →
    (Holds t' b' r' ↔ Holds t b r)

namespace Fault

open Scope.Action

/-- A use in the dead zone of a binding. -/
def deadZone : Fault where
  code := "E056"
  Counts _ := True
  Holds _ b r := r.inDeadZone b
  remarked {t} _ b r scope := by
    have hearly : (remarkEarly b r scope).Remarks "E056"
        (fun place => r.inDeadZone b ∧ r.position.place = place) t :=
      .tracker_bind ((Remarks.ite (fun _ => .report _ _ _ _ _) fun _ => .ite (fun _ =>
        .report _ _ _ _ _) fun _ => .pure).congr (by simp))
    have hwrite : (remarkWrite b r scope).Remarks "E056" (fun _ => False) t :=
      .other ["E013", "W021", "W022"] (by decide) (remarkWrite_ensures rfl)
    have houtside : (remarkOutside b r scope).Remarks "E056" (fun _ => False) t :=
      .other ["W038"] (by decide) (remarkOutside_ensures rfl)
    exact (hearly.bind (hwrite.bind houtside)).congr (by simp)
  elsewhere := by decide
  settled {_ _ b b' r r'} _ hdeclared hposition _ hcrossed := by
    have hkind : b'.kind = b.kind := (congrArg Binding.kind hdeclared :)
    have hend : b'.initializedAt = b.initializedAt := (congrArg Binding.initializedAt hdeclared :)
    rw [Reference.inDeadZone, Reference.inDeadZone, hkind, hend, hposition, hcrossed]

/-- A use of a `var` outside the block that is taken for the one that declares it. -/
def outside : Fault where
  code := "W038"
  Counts rules := rules.funcscope = false
  Holds t b r := b.kind = .varName ∧ r.crossedFunction = false ∧
    ∃ block, b.block? = some block ∧ t.isWithin r.origin block = false
  remarked {t} hfuncscope b r scope := by
    have hearly : (remarkEarly b r scope).Remarks "W038" (fun _ => False) t :=
      .other ["E056", "W003"] (by decide) (remarkEarly_ensures rfl)
    have hwrite : (remarkWrite b r scope).Remarks "W038" (fun _ => False) t :=
      .other ["E013", "W021", "W022"] (by decide) (remarkWrite_ensures rfl)
    have houtside : (remarkOutside b r scope).Remarks "W038"
        (fun place => (b.kind = .varName ∧ r.crossedFunction = false ∧
          ∃ block, b.block? = some block ∧ t.isWithin r.origin block = false) ∧
          r.position.place = place) t := by
      refine .tracker_bind ?_
      cases hblock : b.block? with
      | none => exact .congr .pure (by simp)
      | some block =>
          refine (Remarks.ite (fun _ => .report _ _ _ _ _) fun _ => .pure).congr fun place => ?_
          simp [hfuncscope, and_assoc]
    exact (hearly.bind (hwrite.bind houtside)).congr (by simp)
  elsewhere := by decide
  settled {t t' b b' r r'} hpath hdeclared _ horigin hcrossed := by
    have hkind : b'.kind = b.kind := (congrArg Binding.kind hdeclared :)
    have hblock : b'.block? = b.block? := (congrArg Binding.block? hdeclared :)
    rw [hkind, hblock, horigin, hcrossed]
    unfold Tracker.isWithin
    rw [hpath]

/-- A fault is ground for a remark, whatever the access. -/
def ground (fault : Fault) : Ground where
  code := fault.code
  Counts := fault.Counts
  Holds := fault.Holds
  remarked := fault.remarked
  elsewhere := fault.elsewhere
  settled hpath hdeclared hposition horigin hcrossed _ :=
    fault.settled hpath hdeclared hposition horigin hcrossed

end Fault

end ScriptLint.Scope
