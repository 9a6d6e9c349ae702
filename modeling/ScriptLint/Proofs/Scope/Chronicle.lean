import ScriptLint.Proofs.Scope.Finding

/-! # What operations add to a name

What the frames hold of the bindings of some kinds is the outcome of the operations so far. Each of
them adds something or nothing to what is known of a name in a frame; what is declared of other
kinds, and what is resolved, does not matter.
-/

namespace ScriptLint.Scope

/-- A value that bindings of some kinds have, but those of functions do not. -/
structure Aspect (α : Type) where
  Has : BindingKind → Prop
  value : Binding → α
  no_function : ¬ Has .function
  settled : ∀ {b b' : Binding}, b'.declaration = b.declaration → value b' = value b

variable {α : Type} {aspect : Aspect α}

namespace Aspect

/-- Of what a name is bound to before and after: a name is not lost, and a binding with the aspect
had it before, with the same value. -/
structure Keeps (aspect : Aspect α) (before after : Option Binding) : Prop where
  of_none : after = none → before = none
  of_some : ∀ b', after = some b' → aspect.Has b'.kind →
    ∃ b, before = some b ∧ aspect.Has b.kind ∧ aspect.value b = aspect.value b'

namespace Keeps

variable {before after : Option Binding} {f f' : Frame}

theorem refl (before : Option Binding) : aspect.Keeps before before :=
  ⟨id, fun b' h hkind => ⟨b', h, hkind, rfl⟩⟩

theorem of_eq (h : after = before) : aspect.Keeps before after := h ▸ .refl _

theorem trans {middle : Option Binding} (hfirst : aspect.Keeps before middle)
    (hsecond : aspect.Keeps middle after) : aspect.Keeps before after := by
  refine ⟨hfirst.of_none ∘ hsecond.of_none, fun b'' hsome hkind => ?_⟩
  obtain ⟨b', hsome', hkind', hvalue'⟩ := hsecond.of_some b'' hsome hkind
  obtain ⟨b, hsome'', hkind'', hvalue⟩ := hfirst.of_some b' hsome' hkind'
  exact ⟨b, hsome'', hkind'', hvalue.trans hvalue'⟩

theorem of_rests (hrests : f.Rests f') (name : String) :
    aspect.Keeps (f.find? name) (f'.find? name) := by
  refine ⟨hrests.find?_eq_none.mp, fun b' hsome hkind => ?_⟩
  cases hfind : f.find? name with
  | none => simp [hrests.find?_eq_none.mpr hfind] at hsome
  | some b =>
      obtain ⟨b'', hfind', hdeclared⟩ := hrests.exists_find? hfind
      obtain rfl : b' = b'' := Option.some.inj (hsome.symm.trans hfind')
      have hkind' : b.kind = b'.kind := (congrArg Binding.kind hdeclared :).symm
      exact ⟨b, rfl, hkind' ▸ hkind, (aspect.settled hdeclared).symm⟩

/-- A declaration of a kind without the aspect. -/
theorem insert (hf : f.Indexed) {b : Binding} (hnew : f.find? b.name = none)
    (hkind : ¬ aspect.Has b.kind) (name : String) :
    aspect.Keeps (f.find? name) ((f.insert b).find? name) := by
  rw [hf.find?_insert (by simp [Frame.binds, hnew])]
  split
  · refine ⟨fun h => absurd h (Option.some_ne_none b), fun b' h hkind' => ?_⟩
    exact absurd (Option.some.inj h ▸ hkind') hkind
  · exact .refl _

theorem modify (hf : f.Indexed) (name : String) {change : Binding → Binding}
    (hchange : ∀ b, f.find? name = some b → aspect.Has (change b).kind →
      aspect.Has b.kind ∧ aspect.value b = aspect.value (change b)) (name' : String) :
    aspect.Keeps (f.find? name') ((f.modify name change).find? name') := by
  rw [hf.find?_modify]
  split
  next heq =>
    subst heq
    refine ⟨Option.map_eq_none_iff.mp, fun b' hsome hkind => ?_⟩
    obtain ⟨b, hfind, rfl⟩ := Option.map_eq_some_iff.mp hsome
    exact ⟨b, hfind, hchange b hfind hkind⟩
  next => exact .refl _

end Keeps

end Aspect

namespace Tracker

variable {t t' : Tracker}

/-- All frames keep the aspect of all names. -/
def Retains (aspect : Aspect α) (t t' : Tracker) : Prop :=
  ∀ i name, aspect.Keeps ((t.frame i).find? name) ((t'.frame i).find? name)

theorem Retains.refl (t : Tracker) : t.Retains aspect t := fun _ _ => .refl _

theorem Retains.modifyFrame {i : Nat} {change : Frame → Frame} (hchange : ∀ name,
    aspect.Keeps ((t.frame i).find? name) ((change (t.frame i)).find? name)) :
    t.Retains aspect (t.modifyFrame i change) := by
  intro j name
  rw [frame_modifyFrame]
  split
  next h => exact h.1 ▸ hchange name
  next => exact .refl _

theorem Retains.push {f : Frame} (hempty : f.index = []) : t.Retains aspect (t.push f) := by
  intro i name
  refine .of_eq ?_
  rw [frame_push]
  split
  next heq =>
    rw [heq, t.frame_of_size_le (Nat.le_refl _), Frame.find?, hempty]
    rfl
  next => rfl

theorem declareFunctionName_retains (hindexed : ∀ i, (t.frame i).Indexed) (name : String)
    (position : Position) : t.Retains aspect (t.declareFunctionName name position) := by
  refine .modifyFrame fun name' => ?_
  split
  next => exact .refl _
  next hnone => exact .insert (hindexed _) (by simpa using hnone) aspect.no_function name'

end Tracker

/-- The reference is resolved to a binding of the frame that has the aspect, and stands in the same
function. -/
def Tracker.Uses (aspect : Aspect α) (t : Tracker) (id f : Nat) : Prop :=
  t.resolver? id = some f ∧ t.crosses id = false ∧
    ∃ b, (t.frame f).find? (t.reference id).name = some b ∧ aspect.Has b.kind

/-! ## Operations that keep an aspect -/

namespace Action

variable {t : Tracker}

theorem declareLexical_retains (hindexed : ∀ i, (t.frame i).Indexed) (name : String)
    {kind : BindingKind} (hkind : ¬ aspect.Has kind) (position : Position) :
    (declareLexical name kind position).Ensures t fun _ t' => t.Retains aspect t' := by
  refine declareLexical_ensures (fun _ _ _ => .modifyFrame ?_)
    (fun hnone _ => .modifyFrame ?_) fun _ _ => .refl t
  · exact .modify (hindexed _) name fun _ _ h => absurd h hkind
  · exact .insert (hindexed _) hnone hkind

theorem declareBlockFunction_retains (hindexed : ∀ i, (t.frame i).Indexed) (name : String)
    (position : Position) :
    (declareBlockFunction name position).Ensures t fun _ t' => t.Retains aspect t' :=
  declareBlockFunction_ensures (.refl t) fun hnone =>
    .modifyFrame (.insert (hindexed _) hnone aspect.no_function)

theorem declareParameter_retains (hindexed : ∀ i, (t.frame i).Indexed) (name : String)
    (hparameter : ¬ aspect.Has .parameter) (position : Position) (distinct : Bool) :
    (declareParameter name position distinct).Ensures t fun _ t' => t.Retains aspect t' := by
  refine declareParameter_ensures (fun _ _ _ => .modifyFrame ?_)
    (fun hnone => .modifyFrame ?_) fun _ _ _ => .refl t
  · exact .modify (hindexed _) name fun _ _ h => absurd h hparameter
  · exact .insert (hindexed _) hnone hparameter

theorem exitScope_retains : exitScope.Ensures t fun _ t' => t.Retains aspect t' :=
  exitScope_rests.mono fun _ _ hrests i => .of_rests (hrests.frame i)

theorem finish_retains : finish.Ensures t fun _ t' => t.Retains aspect t' := by
  refine .bind (.tracker (.forM (fun _ t' => t.Retains aspect t') (.refl t) ?_))
  intro _ _ t' hretains
  exact exitScope_retains.mono fun _ _ hretains' i name =>
    (hretains i name).trans (hretains' i name)

end Action

namespace Operation

/-- Whether the operation may declare something other than a function of a block, or end a dead
zone. -/
def affectsBindings : Operation → Bool
  | declare _ _ _ | declareParameter _ _ _ | markInitialized _ _ => true
  | _ => false

theorem perform_retains {t : Tracker} (hindexed : ∀ i, (t.frame i).Indexed) {operation : Operation}
    (hother : operation.affectsBindings = false) :
    operation.perform.Ensures t fun _ t' => t.Retains aspect t' := by
  have hfunction (change : Frame → Frame)
      (hchange : ∀ f name, (change f).find? name = f.find? name) :
      t.Retains aspect (t.modifyFunction change) := .modifyFrame fun name => .of_eq (hchange _ name)
  cases operation with
  | declare | declareParameter | markInitialized => cases hother
  | declareBlockFunction name position =>
      exact Action.declareBlockFunction_retains hindexed name position
  | exitScope => exact Action.exitScope_retains
  | enterScope kind start => exact .update (.push rfl)
  | enterFunction facts start => exact .update (.push rfl)
  | declareFunctionName name position =>
      exact .update (Tracker.declareFunctionName_retains hindexed name position)
  | addReference name position access =>
      refine .update fun i name' => .of_eq ?_
      exact Tracker.field_addReference (·.find? name') (fun _ _ => rfl) t name position access i
  | markExported name =>
      refine .update ?_
      unfold Tracker.markExported
      split <;> exact .refl _
  | setAccess | addKnown | removeKnown | setRules => exact .update (.refl _)
  | changeSink change =>
      rintro sink _ _ ⟨⟩
      exact .refl _
  | _ => exact .update (hfunction _ fun _ _ => rfl)

end Operation

/-! ## Entries -/

variable {β : Type}

/-- Something that is added to a name in a frame. -/
structure Entry (β : Type) where
  frame : Nat
  name : String
  value : β
deriving DecidableEq

/-- What was added to the names in the frames, the oldest first. -/
abbrev Entries (β : Type) := Nat → String → List β

def Entries.add (entries : Entries β) (entry : Entry β) : Entries β :=
  fun f name =>
    if f = entry.frame ∧ name = entry.name then entries f name ++ [entry.value]
    else entries f name

namespace Operation

/-- The entries with the one that an operation adds, if it adds one. -/
def addEntry (added? : Tracker → Operation → Option (Entry β)) (operation : Operation) (t : Tracker)
    (entries : Entries β) : Entries β :=
  match added? t operation with
  | some entry => entries.add entry
  | none => entries

/-- The entries with those that operations add in turn. -/
def addEntries (added? : Tracker → Operation → Option (Entry β)) :
    List Operation → Session → Entries β → Entries β
  | [], _, entries => entries
  | operation :: operations, s, entries =>
    addEntries added? operations (operation.perform.run.run s).2
      (operation.addEntry added? s.tracker entries)

variable {added? : Tracker → Operation → Option (Entry β)} {operation : Operation} {t : Tracker}
  {entries : Entries β}

theorem addEntry_of_some {entry : Entry β} (h : added? t operation = some entry) :
    operation.addEntry added? t entries = entries.add entry := by rw [addEntry, h]

theorem addEntry_of_none (h : added? t operation = none) :
    operation.addEntry added? t entries = entries := by rw [addEntry, h]

theorem addEntry_of_ite {c : Prop} [Decidable c] {entry : Entry β}
    (h : added? t operation = if c then some entry else none) :
    operation.addEntry added? t entries = if c then entries.add entry else entries := by
  rw [addEntry, h]
  by_cases hc : c <;> simp only [hc, if_true, if_false]

end Operation

namespace Tracker

variable {t : Tracker} {entries : Entries β} {Agree : Nat → Option Binding → List β → Prop}

/-- What the frames bind names to agrees with the entries. -/
def Tracks (Agree : Nat → Option Binding → List β → Prop) (t : Tracker) (entries : Entries β) :
    Prop :=
  ∀ f name, Agree f ((t.frame f).find? name) (entries f name)

/-- A change of one name in one frame. -/
theorem Tracks.modifyFrame {entries' : Entries β} (ht : t.Tracks Agree entries) {target : Nat}
    {name : String} (htarget : target < t.frames.size) {change : Frame → Frame}
    {after : Option Binding} (hchange : ∀ name', (change (t.frame target)).find? name' =
      if name' = name then after else (t.frame target).find? name')
    (hother : ∀ f name', ¬ (f = target ∧ name' = name) → entries' f name' = entries f name')
    (hnew : Agree target after (entries' target name)) :
    (t.modifyFrame target change).Tracks Agree entries' := by
  intro f name'
  rw [frame_modifyFrame]
  by_cases hplace : f = target ∧ name' = name
  · obtain ⟨rfl, rfl⟩ := hplace
    rwa [if_pos ⟨rfl, htarget⟩, hchange, if_pos rfl]
  · rw [hother f name' hplace]
    split
    next h =>
      obtain ⟨rfl, -⟩ := h
      rw [hchange, if_neg fun hname => hplace ⟨rfl, hname⟩]
      exact ht target name'
    next => exact ht f name'

/-- A change of one name in one frame, with an entry for it. -/
theorem Tracks.add (ht : t.Tracks Agree entries) {target : Nat} {name : String} {value : β}
    (htarget : target < t.frames.size) {change : Frame → Frame} {after : Option Binding}
    (hchange : ∀ name', (change (t.frame target)).find? name' =
      if name' = name then after else (t.frame target).find? name')
    (hnew : Agree target after (entries target name ++ [value])) :
    (t.modifyFrame target change).Tracks Agree (entries.add ⟨target, name, value⟩) := by
  refine ht.modifyFrame htarget hchange (fun f name' hplace => if_neg hplace) ?_
  rwa [Entries.add, if_pos ⟨rfl, rfl⟩]

end Tracker

/-- How the frames keep to what operations add. -/
structure Chronicle (added? : Tracker → Operation → Option (Entry β))
    (Agree : Nat → Option Binding → List β → Prop) : Prop where
  unbound : ∀ f, Agree f none []
  perform : ∀ {t : Tracker} {log : List Event} {entries : Entries β},
    Stage.Orderly ⟨t, log, none⟩ → t.stack ≠ [] → t.Tracks Agree entries →
    ∀ operation : Operation, operation.perform.Ensures t fun _ t' =>
      t'.Tracks Agree (operation.addEntry added? t entries)
  finish : ∀ {t : Tracker} {entries : Entries β}, t.Tracks Agree entries →
    Action.finish.Ensures t fun _ t' => t'.Tracks Agree entries

namespace Chronicle

open Stage Operation

variable {added? : Tracker → Operation → Option (Entry β)}
  {Agree : Nat → Option Binding → List β → Prop}

/-- The frames keep to the operations of a run. -/
theorem performAll (hentry : Chronicle added? Agree) {operations : List Operation} {s : Session}
    {log : List Event} {entries : Entries β} (hs : Orderly ⟨s.tracker, log, none⟩)
    (hopen : keepOpen s.tracker.stack.length operations) (hstack : s.tracker.stack ≠ [])
    (ht : s.tracker.Tracks Agree entries) :
    (performAll operations).Leads s fun _ s' =>
      s'.tracker.Tracks Agree (addEntries added? operations s entries) := by
  induction operations generalizing s log entries with
  | nil => exact .pure ht
  | cons operation operations ih =>
      refine .bind fun _ s' hrun => ?_
      obtain ⟨hpos, hrest⟩ := (Bool.and_eq_true _ _).mp hopen
      obtain ⟨log', hlog⟩ := operation.log_erases.exists_log hrun log
      obtain ⟨hsteps, hlength⟩ := operation.log_steps hstack s.sink _ _ hlog
      have htracks := hentry.perform hs hstack ht operation s.sink _ _ hrun
      have hstack' : s'.tracker.stack ≠ [] :=
        List.ne_nil_of_length_pos (hlength ▸ of_decide_eq_true hpos)
      have hlater := ih (hs.steps hsteps) (hlength ▸ hrest) hstack' htracks
      rwa [addEntries, hrun]

section

variable {known : KnownGlobals} {rules : Rules} {module strict : Bool} {sink : Sink}
  {operations : List Operation} {s : Session}

/-- After a run from the beginning of a program, the frames are what its operations say. -/
theorem performed (hentry : Chronicle added? Agree)
    (hopen : keepOpen (if module then 2 else 1) operations)
    (hrun : (Operation.performAll operations).run.run ⟨.start known rules module strict, sink⟩ =
      (.ok (), s)) :
    s.tracker.Tracks Agree
      (addEntries added? operations ⟨.start known rules module strict, sink⟩ fun _ _ => []) := by
  have hstart : (Tracker.start known rules module strict).Tracks Agree fun _ _ => [] := by
    intro f name
    have hnone : ((Tracker.start known rules module strict).frame f).find? name = none := by
      cases module <;> rcases f with _ | _ | f <;> rfl
    rw [hnone]
    exact hentry.unbound f
  have hstack : (Tracker.start known rules module strict).stack ≠ [] := by
    cases module <;> exact List.cons_ne_nil _ _
  have hopen := Tracker.length_start_stack known rules module strict ▸ hopen
  exact hentry.performAll (Stage.Sound.start known rules module strict).orderly hopen hstack hstart
    _ _ hrun

/-- So it is after the last operation. -/
theorem finished (hentry : Chronicle added? Agree)
    (hopen : keepOpen (if module then 2 else 1) operations)
    (hrun : (Operation.performAll operations >>= fun _ => Action.finish).run.run
      ⟨.start known rules module strict, sink⟩ = (.ok (), s)) :
    s.tracker.Tracks Agree
      (addEntries added? operations ⟨.start known rules module strict, sink⟩ fun _ _ => []) := by
  rw [Action.run_bind] at hrun
  rcases hmiddle : (Operation.performAll operations).run.run
    ⟨.start known rules module strict, sink⟩ with ⟨reason | ⟨⟩, s'⟩ <;> rw [hmiddle] at hrun
  · cases hrun
  · exact hentry.finish (hentry.performed hopen hmiddle) s'.sink _ _ hrun

end

end Chronicle

end ScriptLint.Scope
