import ScriptLint.Proofs.Lexing.Issue
import ScriptLint.Proofs.Options.Tolerance
import ScriptLint.Proofs.Scope.Outline

/-! # Changes of the scopes

What a reader does to the scopes on its way, apart from reports: it opens frames, notes uses, and
keeps count of loops, labels and the like. Such a change sees neither names that are bound nor the
rules, and a place that it keeps for a later report is one that it was given.
-/

namespace ScriptLint.Scope

namespace Tracker

variable {c : Cursor} {t t' : Tracker}

/-- Every place that is kept for a later report is behind the cursor. -/
structure Anchored (c : Cursor) (t : Tracker) : Prop where
  bindings : ∀ i, ∀ b ∈ (t.frame i).bindings, c.Passes b.declaredAt
  references : ∀ i, c.Passes (t.reference i).position

/-- The tracker under the rules that a tolerant flag gives. -/
abbrev relax (flag? : Option Flag) (t : Tracker) : Tracker := t.setRules (t.rules.relax flag?)

/-! ## What does not depend on the rules -/

section

variable (t) (rules : Rules)

@[simp]
theorem setRules_rules : (t.setRules rules).rules = rules := rfl

@[simp]
theorem setRules_frame : (t.setRules rules).frame = t.frame := rfl

@[simp]
theorem setRules_reference : (t.setRules rules).reference = t.reference := rfl

@[simp]
theorem setRules_stack : (t.setRules rules).stack = t.stack := rfl

@[simp]
theorem setRules_currentId : (t.setRules rules).currentId = t.currentId := rfl

@[simp]
theorem setRules_known : (t.setRules rules).known = t.known := rfl

@[simp]
theorem setRules_exported : (t.setRules rules).exported = t.exported := rfl

theorem setRules_functionIds : (t.setRules rules).functionIds = t.functionIds :=
  upToFunction_congr fun _ _ => rfl

@[simp]
theorem setRules_functionId : (t.setRules rules).functionId = t.functionId :=
  congrArg (·.getLastD 0) (t.setRules_functionIds rules)

@[simp]
theorem setRules_innerIds : (t.setRules rules).innerIds = t.innerIds :=
  congrArg List.dropLast (t.setRules_functionIds rules)

@[simp]
theorem setRules_functionFrame : (t.setRules rules).functionFrame = t.functionFrame :=
  congrArg t.frame (t.setRules_functionId rules)

@[simp]
theorem setRules_functionName : (t.setRules rules).functionName = t.functionName :=
  congrArg Frame.name (t.setRules_functionFrame rules)

@[simp]
theorem setRules_isStrict : (t.setRules rules).isStrict = t.isStrict :=
  congrArg (List.any · fun id => (t.frame id).strict) (t.setRules_functionIds rules)

@[simp]
theorem setRules_path (i : Nat) : (t.setRules rules).path i = t.path i := path_congr fun _ _ => rfl

@[simp]
theorem setRules_functionNameOf (i : Nat) :
    (t.setRules rules).functionNameOf i = t.functionNameOf i := by
  unfold functionNameOf
  rw [setRules_path]
  rfl

@[simp]
theorem setRules_isWithin (i ancestor : Nat) :
    (t.setRules rules).isWithin i ancestor = t.isWithin i ancestor := by
  unfold isWithin
  rw [setRules_path]

@[simp]
theorem setRules_isShadowing (name : String) (target : Nat) :
    (t.setRules rules).isShadowing name target = t.isShadowing name target := by
  unfold isShadowing
  rw [setRules_path]
  rfl

end

theorem relax_redefinesGlobal (flag? : Option Flag) (t : Tracker) (name : String) (target : Nat) :
    (t.relax flag?).redefinesGlobal name target = t.redefinesGlobal name target := by
  unfold redefinesGlobal
  rw [setRules_rules, Rules.relax_edition]
  rfl

/-! ## What is kept of bindings and references -/

/-- All bindings and all references that are kept have a property. -/
structure Carries (P : Binding → Prop) (Q : Reference → Prop) (t : Tracker) : Prop where
  bindings : ∀ i, ∀ b ∈ (t.frame i).bindings, P b
  references : ∀ i, Q (t.reference i)

namespace Carries

variable {P : Binding → Prop} {Q : Reference → Prop}

/-- In the beginning nothing is kept. -/
theorem start (known : KnownGlobals) (rules : Rules) (module strict : Bool) (hQ : Q default) :
    (Tracker.start known rules module strict).Carries P Q where
  bindings i b hmem := by
    have hnone : ((Tracker.start known rules module strict).frame i).bindings = [] := by
      unfold Tracker.start
      cases module <;> rcases i with _ | _ | i <;> rfl
    rw [hnone] at hmem
    cases hmem
  references i := by
    have hnone : (Tracker.start known rules module strict).references = #[] := by
      unfold Tracker.start
      cases module <;> rfl
    rwa [Tracker.reference, hnone]

theorem modifyFrame (ht : t.Carries P Q) (i : Nat) {change : Frame → Frame}
    (hchange : ∀ f : Frame, (∀ b ∈ f.bindings, P b) → ∀ b ∈ (change f).bindings, P b) :
    (t.modifyFrame i change).Carries P Q := by
  refine ⟨fun j => ?_, ht.references⟩
  rw [frame_modifyFrame]
  split
  · exact hchange _ (ht.bindings i)
  · exact ht.bindings j

/-- A change that leaves the bindings of a frame alone. -/
theorem modifyFrame_same (ht : t.Carries P Q) (i : Nat) {change : Frame → Frame}
    (hchange : ∀ f : Frame, (change f).bindings = f.bindings) :
    (t.modifyFrame i change).Carries P Q := ht.modifyFrame i fun f hf => by rwa [hchange f]

theorem insert (ht : t.Carries P Q) (i : Nat) {b : Binding} (hb : P b) :
    (t.modifyFrame i (·.insert b)).Carries P Q :=
  ht.modifyFrame i fun f hf b' hmem => by
    rcases List.mem_append.mp hmem with hmem | hmem
    · exact hf b' hmem
    · rw [List.mem_singleton.mp hmem]
      exact hb

theorem modify (ht : t.Carries P Q) (i : Nat) (name : String) {change : Binding → Binding}
    (hchange : ∀ b, P b → P (change b)) :
    (t.modifyFrame i (·.modify name change)).Carries P Q :=
  ht.modifyFrame i fun f hf b' hmem => by
    unfold Frame.modify at hmem
    split at hmem
    · obtain ⟨k, hk, rfl⟩ := List.mem_iff_getElem.mp hmem
      rw [List.getElem_modify]
      split
      · exact hchange _ (hf _ (List.getElem_mem _))
      · exact hf _ (List.getElem_mem _)
    · exact hf b' hmem

theorem push (ht : t.Carries P Q) {f : Frame} (hf : f.bindings = []) :
    (t.push f).Carries P Q := by
  refine ⟨fun i => ?_, ht.references⟩
  rw [frame_push]
  split
  · simp [hf]
  · exact ht.bindings i

theorem of_frames_eq (ht : t.Carries P Q) (hframes : t'.frames = t.frames)
    (hreferences : t'.references = t.references) : t'.Carries P Q := by
  refine ⟨fun i => ?_, fun i => ?_⟩
  · rw [Tracker.frame, hframes]
    exact ht.bindings i
  · rw [Tracker.reference, hreferences]
    exact ht.references i

theorem modifyReference (ht : t.Carries P Q) (i : Nat) {change : Reference → Reference}
    (hchange : ∀ r : Reference, Q r → Q (change r)) : (t.modifyReference i change).Carries P Q := by
  refine ⟨ht.bindings, fun j => ?_⟩
  rw [reference_modifyReference]
  split
  · exact hchange _ (ht.references i)
  · exact ht.references j

theorem pushReference (ht : t.Carries P Q) {r : Reference} (hr : Q r) :
    Carries P Q { t with references := t.references.push r } := by
  refine ⟨ht.bindings, fun i => ?_⟩
  change Q ((t.references.push r).getD i default)
  rw [Array.getD_eq_getD_getElem?, Array.getElem?_push]
  split
  · exact hr
  · rw [← Array.getD_eq_getD_getElem?]
    exact ht.references i

theorem find? (ht : t.Carries P Q) {i : Nat} {name : String} {b : Binding}
    (hb : (t.frame i).find? name = some b) : P b := by
  obtain ⟨k, -, hk⟩ := Option.bind_eq_some_iff.mp hb
  exact ht.bindings i b (List.mem_of_getElem? hk)

end Carries

/-! ## Changes that keep places -/

theorem anchored_iff :
    t.Anchored c ↔ t.Carries (c.Passes ·.declaredAt) (c.Passes ·.position) :=
  ⟨fun h => ⟨h.bindings, h.references⟩, fun h => ⟨h.bindings, h.references⟩⟩

namespace Anchored

theorem modifyFrame (ht : t.Anchored c) (i : Nat) {change : Frame → Frame}
    (hchange : ∀ f : Frame, (∀ b ∈ f.bindings, c.Passes b.declaredAt) →
      ∀ b ∈ (change f).bindings, c.Passes b.declaredAt) :
    (t.modifyFrame i change).Anchored c :=
  anchored_iff.mpr ((anchored_iff.mp ht).modifyFrame i hchange)

/-- A change that leaves the bindings of a frame alone. -/
theorem modifyFrame_same (ht : t.Anchored c) (i : Nat) {change : Frame → Frame}
    (hchange : ∀ f : Frame, (change f).bindings = f.bindings) :
    (t.modifyFrame i change).Anchored c :=
  anchored_iff.mpr ((anchored_iff.mp ht).modifyFrame_same i hchange)

theorem insert (ht : t.Anchored c) (i : Nat) {b : Binding} (hb : c.Passes b.declaredAt) :
    (t.modifyFrame i (·.insert b)).Anchored c :=
  anchored_iff.mpr ((anchored_iff.mp ht).insert i hb)

/-- Of a changed binding only the place matters. -/
theorem modify (ht : t.Anchored c) (i : Nat) (name : String) {change : Binding → Binding}
    (hchange : ∀ b, c.Passes b.declaredAt → c.Passes (change b).declaredAt) :
    (t.modifyFrame i (·.modify name change)).Anchored c :=
  anchored_iff.mpr ((anchored_iff.mp ht).modify i name hchange)

theorem push (ht : t.Anchored c) {f : Frame} (hf : f.bindings = []) : (t.push f).Anchored c :=
  anchored_iff.mpr ((anchored_iff.mp ht).push hf)

theorem of_frames_eq (ht : t.Anchored c) (hframes : t'.frames = t.frames)
    (hreferences : t'.references = t.references) : t'.Anchored c :=
  anchored_iff.mpr ((anchored_iff.mp ht).of_frames_eq hframes hreferences)

theorem modifyReference (ht : t.Anchored c) (i : Nat) {change : Reference → Reference}
    (hchange : ∀ r : Reference, (change r).position = r.position) :
    (t.modifyReference i change).Anchored c :=
  anchored_iff.mpr ((anchored_iff.mp ht).modifyReference i fun r hr => hchange r ▸ hr)

theorem find? (ht : t.Anchored c) {i : Nat} {name : String} {b : Binding}
    (hb : (t.frame i).find? name = some b) : c.Passes b.declaredAt := (anchored_iff.mp ht).find? hb

end Anchored

/-! ## Changes by a reader -/

/-- A change that a reader makes on its way. It does not depend on names and rules, and does not
keep other places than those behind the cursor. -/
class Tame (c : Cursor) (change : Tracker → Tracker) : Prop where
  outline : ∀ {t t'}, t.SameOutline t' → (change t).SameOutline (change t')
  setRules : ∀ t rules, change (t.setRules rules) = (change t).setRules rules
  anchored : ∀ {t}, t.Anchored c → (change t).Anchored c

namespace Tame

/-- What does not see the rules does not change them. -/
theorem rules_eq {change : Tracker → Tracker} (hchange : Tame c change) (t : Tracker) :
    (change t).rules = t.rules := by
  have hrules := congrArg Tracker.rules (hchange.setRules t t.rules)
  exact hrules

/-- A change of what a reader keeps of the current function. -/
theorem modifyFunction {change : Frame → Frame}
    (houtline : ∀ f : Frame, (change f).outline = (change f.outline).outline)
    (hbindings : ∀ f : Frame, (change f).bindings = f.bindings) :
    Tame c (·.modifyFunction change) where
  outline h := h.congr_modifyFunction fun f f' hf => by rw [houtline f', hf, ← houtline f]
  setRules t rules := by
    simp only [Tracker.modifyFunction, setRules_functionId]
    rfl
  anchored ht := ht.modifyFrame_same _ hbindings

instance : Tame c (·.setStrict) := .modifyFunction (fun _ => rfl) fun _ => rfl

instance (label : Label) : Tame c (·.pushLabel label) := .modifyFunction (fun _ => rfl) fun _ => rfl

instance : Tame c (·.popLabel) := .modifyFunction (fun _ => rfl) fun _ => rfl

instance : Tame c (·.enterLoop) := .modifyFunction (fun _ => rfl) fun _ => rfl

instance : Tame c (·.exitLoop) := .modifyFunction (fun _ => rfl) fun _ => rfl

instance : Tame c (·.enterSwitch) := .modifyFunction (fun _ => rfl) fun _ => rfl

instance : Tame c (·.exitSwitch) := .modifyFunction (fun _ => rfl) fun _ => rfl

instance : Tame c (·.recordYield) := .modifyFunction (fun _ => rfl) fun _ => rfl

instance (kind : FrameKind) (start : Position) : Tame c (·.enterScope kind start) where
  outline {t t'} h := by
    unfold enterScope
    refine h.congr_push ?_
    simp only [h.currentId, h.functionName]
  setRules t rules := by
    simp only [enterScope, setRules_functionName]
    rfl
  anchored ht := ht.push rfl

instance (facts : FunctionFacts) (start : Position) : Tame c (·.enterFunction facts start) where
  outline {t t'} h := by
    unfold enterFunction
    refine h.congr_push ?_
    simp only [h.currentId, h.isStrict]
  setRules t rules := by
    simp only [enterFunction, setRules_isStrict]
    rfl
  anchored ht := ht.push rfl

theorem declareFunctionName (name : String) {position : Position} (hposition : c.Passes position) :
    Tame c (·.declareFunctionName name position) where
  outline h := by
    refine h.congr_modifyFunction fun f f' hf => ?_
    have hsame (f : Frame) : (if (f.find? name).isSome then f
        else f.insert { name, kind := .function, declaredAt := position, implicit := true }).outline
          = f.outline := by
      split <;> rfl
    rw [hsame, hsame, hf]
  setRules t rules := by
    simp only [Tracker.declareFunctionName, Tracker.modifyFunction, setRules_functionId]
    rfl
  anchored ht := by
    refine ht.modifyFrame _ fun f hf => ?_
    split
    · exact hf
    · intro b hmem
      rcases List.mem_append.mp hmem with hmem | hmem
      · exact hf b hmem
      · rw [List.mem_singleton.mp hmem]
        exact hposition

instance (name : String) (offset : Nat) : Tame c (·.markInitialized name offset) where
  outline {t t'} h := by
    -- What the end of a dead zone changes is nothing that an outline tells.
    have hsame (t : Tracker) : t.SameOutline (t.markInitialized name offset) := by
      unfold markInitialized
      split
      · exact .refl t
      · exact .modifyFrame t _ fun f => f.outline_modify name _
    exact ((hsame t).symm.trans h).trans (hsame t')
  setRules t rules := by
    unfold markInitialized
    rw [setRules_functionIds, setRules_frame]
    cases t.functionIds.find? fun id => ((t.frame id).find? name).isSome <;> rfl
  anchored {t} ht := by
    unfold markInitialized
    split
    · exact ht
    · refine ht.modify _ name fun b hb => ?_
      split <;> exact hb

theorem addReference (name : String) {position : Position} (access : Access)
    (hposition : c.Passes position) : Tame c (·.addReference name position access) where
  outline {t t'} h := by
    have hpush (r : Reference) : SameOutline { t with references := t.references.push r }
        { t' with references := t'.references.push r } :=
      ⟨h.stack, h.size, by simp only [Array.size_push, h.references], h.frame⟩
    dsimp only [Tracker.addReference]
    rw [h.currentId, h.references]
    exact (hpush _).congr_modifyFrame _ fun _ _ hf => hf
  setRules _ _ := rfl
  anchored ht :=
    anchored_iff.mpr (((anchored_iff.mp ht).pushReference (r := ⟨name, position, access, _, _⟩)
      hposition).modifyFrame_same _ fun _ => rfl)

instance (id : Nat) (access : Access) : Tame c (·.setAccess id access) where
  outline h := ⟨h.stack, h.size, by simp [setAccess, h.references], h.frame⟩
  setRules _ _ := rfl
  anchored ht := ht.modifyReference id fun _ => rfl

instance (name : String) : Tame c (·.markExported name) where
  outline {t t'} h := by
    have hsame (t : Tracker) : t.SameOutline (t.markExported name) := by
      unfold markExported
      split
      · exact .refl t
      · exact .of_frames_eq rfl rfl rfl
    exact ((hsame t).symm.trans h).trans (hsame t')
  setRules t rules := by
    change (if t.exported.contains name then _ else _) = Tracker.setRules rules (if _ then _ else _)
    split <;> rfl
  anchored {t} ht := by
    unfold markExported
    split
    · exact ht
    · exact ht.of_frames_eq rfl rfl

instance (name : String) (writable : Bool) : Tame c (·.addKnown name writable) where
  outline h := ⟨h.stack, h.size, h.references, h.frame⟩
  setRules _ _ := rfl
  anchored ht := ht.of_frames_eq rfl rfl

instance (name : String) : Tame c (·.removeKnown name) where
  outline h := ⟨h.stack, h.size, h.references, h.frame⟩
  setRules _ _ := rfl
  anchored ht := ht.of_frames_eq rfl rfl

end Tame

end Tracker

end ScriptLint.Scope
