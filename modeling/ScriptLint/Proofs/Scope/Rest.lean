import ScriptLint.Proofs.Scope.Step

/-! # Frames at rest

Opening and closing scopes declares nothing. What a frame says of its declarations is the same
before and after, whatever is found out about their uses, and a scope that was opened on the way has
no declarations at all. As long as the function stays open, the open frames of the function are some
of those that were open before and, inside them, new ones.

References stand where they were recorded, in that order. Of all operations only the recording of
another reference adds a place, behind all others; what is resolved keeps its place, and so does a
reference whose use is set anew.
-/

namespace ScriptLint.Scope

/-- The binding as it was declared, without what is known of its uses. -/
def Binding.declaration (b : Binding) : Binding := { b with used := false, deadZoneUse? := none }

namespace Frame

/-- What is declared under a name. -/
def declaration? (f : Frame) (name : String) : Option Binding :=
  (f.find? name).map Binding.declaration

/-- Nothing was declared between the two, and nothing else changed but uses and references. -/
structure Rests (f f' : Frame) : Prop where
  kind : f'.kind = f.kind
  parent? : f'.parent? = f.parent?
  strict : f'.strict = f.strict
  hoisted : f'.hoisted = f.hoisted
  declaration? : ∀ name, f'.declaration? name = f.declaration? name

namespace Rests

variable {f f' f'' : Frame}

theorem refl (f : Frame) : f.Rests f := ⟨rfl, rfl, rfl, rfl, fun _ => rfl⟩

theorem trans (hfirst : f.Rests f') (hsecond : f'.Rests f'') : f.Rests f'' where
  kind := hsecond.kind.trans hfirst.kind
  parent? := hsecond.parent?.trans hfirst.parent?
  strict := hsecond.strict.trans hfirst.strict
  hoisted := hsecond.hoisted.trans hfirst.hoisted
  declaration? name := (hsecond.declaration? name).trans (hfirst.declaration? name)

theorem modify (f : Frame) (name : String) {change : Binding → Binding}
    (hchange : ∀ b, (change b).declaration = b.declaration) : f.Rests (f.modify name change) := by
  cases hplace : f.index.lookup name with
  | none => simp only [Frame.modify, hplace, refl]
  | some place =>
      simp only [Frame.modify, hplace]
      refine ⟨rfl, rfl, rfl, rfl, fun name' => ?_⟩
      simp only [Frame.declaration?, find?]
      cases f.index.lookup name' with
      | none => rfl
      | some place' =>
          simp only [Option.bind_some, List.getElem?_modify]
          cases f.bindings[place']? with
          | none => rfl
          | some b =>
              by_cases heq : place = place' <;> simp [heq, hchange]

end Rests

theorem Rests.find?_eq_none {f f' : Frame} (hrests : f.Rests f') {name : String} :
    f'.find? name = none ↔ f.find? name = none := by
  simpa only [Frame.declaration?, Option.map_eq_none_iff] using
    (congrArg (· = none) (hrests.declaration? name)).to_iff

theorem Rests.exists_find? {f f' : Frame} (hrests : f.Rests f') {name : String} {b : Binding}
    (hfind : f.find? name = some b) :
    ∃ b', f'.find? name = some b' ∧ b'.declaration = b.declaration := by
  have hdeclared := hrests.declaration? name
  rw [Frame.declaration?, Frame.declaration?, hfind, Option.map_some] at hdeclared
  exact Option.map_eq_some_iff.mp hdeclared

/-- Nothing is declared in the frame, and no `var` comes to rest there. -/
structure IsBlank (f : Frame) : Prop where
  kind : f.kind.holdsVars = false
  hoisted : f.hoisted = []
  declaration? : ∀ name, f.declaration? name = none

theorem IsBlank.rests {f f' : Frame} (hf : f.IsBlank) (hrests : f.Rests f') : f'.IsBlank where
  kind := hrests.kind ▸ hf.kind
  hoisted := hrests.hoisted.trans hf.hoisted
  declaration? name := (hrests.declaration? name).trans (hf.declaration? name)

end Frame

namespace Tracker

variable {t t' t'' : Tracker}

/-- Nothing was declared between the two, and no frame was opened or closed. -/
structure Rests (t t' : Tracker) : Prop where
  stack : t'.stack = t.stack
  rules : t'.rules = t.rules
  size : t'.frames.size = t.frames.size
  frame : ∀ i, (t.frame i).Rests (t'.frame i)

namespace Rests

theorem of_frames_eq (hstack : t'.stack = t.stack) (hrules : t'.rules = t.rules)
    (hframes : t'.frames = t.frames) : t.Rests t' := by
  refine ⟨hstack, hrules, by rw [hframes], fun i => ?_⟩
  simp only [Tracker.frame, hframes, Frame.Rests.refl]

theorem refl (t : Tracker) : t.Rests t := of_frames_eq rfl rfl rfl

theorem trans (hfirst : t.Rests t') (hsecond : t'.Rests t'') : t.Rests t'' where
  stack := hsecond.stack.trans hfirst.stack
  rules := hsecond.rules.trans hfirst.rules
  size := hsecond.size.trans hfirst.size
  frame i := (hfirst.frame i).trans (hsecond.frame i)

theorem modifyFrame (t : Tracker) (i : Nat) {change : Frame → Frame}
    (hchange : ∀ f : Frame, f.Rests (change f)) : t.Rests (t.modifyFrame i change) := by
  refine ⟨rfl, rfl, modifyFrame_size t i change, fun j => ?_⟩
  rw [frame_modifyFrame]
  split
  next h => exact h.1 ▸ hchange _
  next => exact .refl _

theorem passOn (t : Tracker) (f id parent : Nat) : t.Rests (t.passOn f id parent) := by
  unfold Tracker.passOn
  refine .trans ?_ (.modifyFrame _ _ fun _ => ⟨rfl, rfl, rfl, rfl, fun _ => rfl⟩)
  split
  · exact .of_frames_eq rfl rfl rfl
  · exact .refl t

theorem path_eq (hrests : t.Rests t') (i : Nat) : t'.path i = t.path i :=
  path_congr fun j _ => (hrests.frame j).parent?

end Rests

end Tracker

/-! ## Closing a frame -/

namespace Action

variable {t : Tracker}

theorem resolveGlobal_rests (r : Reference) :
    (resolveGlobal r).Ensures t fun _ t' => t.Rests t' := by
  refine (resolveGlobal_ensures r).mono ?_
  rintro _ _ ⟨implied, rfl⟩
  exact .of_frames_eq rfl rfl rfl

theorem resolve_rests (f id : Nat) : (resolve f id).Ensures t fun _ t' => t.Rests t' :=
  resolve_ensures (fun b _ => .modifyFrame t f fun g => .modify g b.name fun _ => rfl)
    (fun parent _ _ => .passOn t f id parent) fun _ => .of_frames_eq rfl rfl rfl

theorem resolveAll_rests (f : Nat) : (resolveAll f).Ensures t fun _ t' => t.Rests t' := by
  refine .bind (.tracker (.bind (.update ?_)))
  apply Ensures.forM fun _ t' => t.Rests t'
  · exact .modifyFrame t f fun _ => ⟨rfl, rfl, rfl, rfl, fun _ => rfl⟩
  · intro id _ t' hrests
    exact (resolve_rests f id).mono fun _ _ => hrests.trans

theorem reportUnused_rests (f : Nat) : (reportUnused f).Ensures t fun _ t' => t.Rests t' := by
  refine (reportUnused_ensures f).mono ?_
  rintro _ _ ⟨unused, rfl⟩
  exact .of_frames_eq rfl rfl rfl

/-- Closing a frame takes it from the stack and declares nothing. -/
theorem exitScope_rests :
    exitScope.Ensures t fun _ t' => Tracker.Rests { t with stack := t.stack.tail } t' := by
  refine .bind (.tracker ?_)
  split
  next hstack =>
    refine .pure (.of_frames_eq ?_ rfl rfl)
    rw [hstack]
    rfl
  next f stack hstack =>
    have hstate (t : Tracker) (state : FrameState) :
        t.Rests (t.modifyFrame f fun g => { g with state }) :=
      .modifyFrame t f fun _ => ⟨rfl, rfl, rfl, rfl, fun _ => rfl⟩
    rw [hstack]
    refine .bind (.update (.bind ((resolveAll_rests f).mono fun _ t₁ hresolved => ?_)))
    refine .bind (.update ((reportUnused_rests f).mono fun _ t₂ hunused => ?_))
    exact (((hstate _ _).trans hresolved).trans (hstate t₁ _)).trans hunused

end Action

/-! ## The frames of the current function -/

namespace Tracker

variable {t t' : Tracker}

theorem upToFunction_congr {ids : List Nat}
    (hkind : ∀ i ∈ ids, (t'.frame i).kind = (t.frame i).kind) :
    t'.upToFunction ids = t.upToFunction ids := by
  induction ids with
  | nil => rfl
  | cons i ids ih =>
      rw [upToFunction, upToFunction, hkind i List.mem_cons_self,
        ih fun j hj => hkind j (List.mem_cons_of_mem i hj)]

theorem upToFunction_prefix (t : Tracker) (ids : List Nat) : t.upToFunction ids <+: ids := by
  induction ids with
  | nil => exact List.nil_prefix
  | cons i ids ih =>
      unfold upToFunction
      split
      · exact List.prefix_append [i] ids
      · exact (List.prefix_cons_inj i).mpr ih

theorem Grows.functionIds_eq (hgrows : t.Grows t') : t'.functionIds = t.functionIds := by
  rw [functionIds, hgrows.stack]
  exact upToFunction_congr fun i _ => (hgrows.frame i).kind

theorem Rests.functionIds_eq (hrests : t.Rests t') : t'.functionIds = t.functionIds := by
  rw [functionIds, hrests.stack]
  exact upToFunction_congr fun i _ => (hrests.frame i).kind

theorem functionIds_ne_nil (hstack : t.stack ≠ []) : t.functionIds ≠ [] :=
  upToFunction_ne_nil hstack

theorem functionIds_eq_append (hstack : t.stack ≠ []) :
    t.functionIds = t.innerIds ++ [t.functionId] := by
  have hids := functionIds_ne_nil hstack
  rw [functionId, innerIds, List.getLastD_eq_getLast?, List.getLast?_eq_some_getLast hids,
    Option.getD_some, List.dropLast_append_getLast hids]

theorem currentId_mem_functionIds (hstack : t.stack ≠ []) : t.currentId ∈ t.functionIds := by
  unfold functionIds currentId
  cases hcons : t.stack with
  | nil => exact absurd hcons hstack
  | cons i rest =>
      unfold upToFunction
      split <;> exact List.mem_cons_self

/-- The frames of the current function are the open ones that were opened with it or later. -/
theorem mem_functionIds_iff (ht : t.Arena) {i : Nat} (hstack : t.stack ≠ []) :
    i ∈ t.functionIds ↔ i ∈ t.stack ∧ t.functionId ≤ i := by
  obtain ⟨outer, houter⟩ := t.upToFunction_prefix t.stack
  change t.functionIds ++ outer = t.stack at houter
  have hsorted : t.stack.Pairwise (· > ·) := by
    obtain ⟨j, rest, hcons⟩ := List.exists_cons_of_ne_nil hstack
    rw [← ht.stack j rest hcons]
    exact t.path_pairwise j
  rw [← houter, functionIds_eq_append hstack] at hsorted ⊢
  simp only [List.pairwise_append, List.mem_append, List.mem_singleton] at hsorted ⊢
  grind

theorem functionIds_enterScope (ht : t.Arena) {kind : FrameKind} (hkind : kind.holdsVars = false)
    (start : Position) :
    (t.enterScope kind start).functionIds = t.frames.size :: t.functionIds := by
  have hframe (i : Nat) := t.frame_push
    { kind, parent? := some t.currentId, name := t.functionName, start,
      strict := kind = .classBody } i
  change upToFunction _ (t.frames.size :: t.stack) = _
  rw [upToFunction, enterScope, hframe, if_pos rfl, hkind]
  refine congrArg (t.frames.size :: ·) (upToFunction_congr fun i hi => ?_)
  rw [hframe, if_neg (Nat.ne_of_lt (ht.stack_lt i hi))]

/-- While more than the function itself is open, closing a frame leaves the others. -/
theorem functionIds_of_cons {f : Nat} {stack : List Nat} (hstack : t.stack = f :: stack)
    (hinner : 1 < t.functionIds.length) : t.functionIds = f :: t.upToFunction stack := by
  rw [functionIds, hstack, upToFunction] at hinner ⊢
  by_cases hkind : (t.frame f).kind.holdsVars <;> simp_all

end Tracker

/-! ## Opening and closing scopes -/

namespace Tracker

variable {t t' t'' : Tracker}

/-- What opening and closing scopes inside the current function leaves: the frames there were rest,
those opened since are blank, and the function is still open. -/
structure Roams (t t' : Tracker) : Prop where
  size_le : t.frames.size ≤ t'.frames.size
  frame : ∀ i < t.frames.size, (t.frame i).Rests (t'.frame i)
  blank : ∀ i, t.frames.size ≤ i → i < t'.frames.size → (t'.frame i).IsBlank
  functionIds : ∀ i ∈ t'.functionIds, i ∈ t.functionIds ∨ t.frames.size ≤ i
  functionId : t'.functionId = t.functionId

namespace Roams

theorem refl (t : Tracker) : t.Roams t :=
  ⟨Nat.le_refl _, fun i _ => .refl _, fun i hle hlt => by omega, fun i hi => .inl hi, rfl⟩

theorem rests (hroams : t.Roams t') (hrests : t'.Rests t'') : t.Roams t'' := by
  have hids := hrests.functionIds_eq
  refine ⟨hrests.size ▸ hroams.size_le, ?_, ?_, ?_, ?_⟩
  · intro i hi
    exact (hroams.frame i hi).trans (hrests.frame i)
  · intro i hle hlt
    exact (hroams.blank i hle (hrests.size ▸ hlt)).rests (hrests.frame i)
  · rw [hids]
    exact hroams.functionIds
  · rw [Tracker.functionId, hids]
    exact hroams.functionId

theorem enterScope (hroams : t.Roams t') (ht' : t'.Arena) (hstack : t'.stack ≠ [])
    {kind : FrameKind} (hkind : kind.holdsVars = false) (start : Position) :
    t.Roams (t'.enterScope kind start) := by
  have hids := functionIds_enterScope ht' hkind start
  have hsize : (t'.enterScope kind start).frames.size = t'.frames.size + 1 := Array.size_push _
  have hle := hroams.size_le
  have hframe (i : Nat) := t'.frame_push
    { kind, parent? := some t'.currentId, name := t'.functionName, start,
      strict := kind = .classBody } i
  refine ⟨by omega, ?_, ?_, ?_, ?_⟩
  · intro i hi
    rw [Tracker.enterScope, hframe, if_neg (by omega)]
    exact hroams.frame i hi
  · intro i hi hlt
    rw [Tracker.enterScope, hframe]
    split
    next => exact ⟨hkind, rfl, fun _ => rfl⟩
    next => exact hroams.blank i hi (by omega)
  · intro i hi
    rcases List.mem_cons.mp (hids ▸ hi) with rfl | hi
    · exact .inr hle
    · exact hroams.functionIds i hi
  · rw [← hroams.functionId, Tracker.functionId, hids, Tracker.functionId]
    obtain ⟨i, ids, hcons⟩ := List.exists_cons_of_ne_nil (functionIds_ne_nil hstack)
    simp [hcons]

/-- Closing a frame other than the function. -/
theorem tail (hroams : t.Roams t') {f : Nat} {stack : List Nat} (hstack : t'.stack = f :: stack)
    (hinner : 1 < t'.functionIds.length) : t.Roams { t' with stack } := by
  have hids : ({ t' with stack } : Tracker).functionIds = t'.upToFunction stack :=
    upToFunction_congr fun _ _ => rfl
  have hcons := functionIds_of_cons hstack hinner
  refine ⟨hroams.size_le, hroams.frame, hroams.blank, ?_, ?_⟩
  · intro i hi
    exact hroams.functionIds i (hcons ▸ List.mem_cons_of_mem f (hids ▸ hi))
  · rw [← hroams.functionId, Tracker.functionId, hids, Tracker.functionId, hcons]
    rw [hcons] at hinner
    cases hrest : t'.upToFunction stack with
    | nil => simp [hrest] at hinner
    | cons i ids => simp

end Roams

end Tracker

namespace Operation

/-- Whether the operation opens a scope inside the current function, or closes one. -/
def roams : Operation → Bool
  | enterScope kind _ => !kind.holdsVars
  | exitScope => true
  | _ => false

variable {t : Tracker}

/-- A step of a walk through scopes that stays inside the function. -/
theorem perform_roams {operation : Operation} (hroams : operation.roams) {t' : Tracker}
    (hsince : t.Roams t') (harena : t'.Arena) (hstack : t'.stack ≠ [])
    (hdepth : 0 < operation.depthAfter t'.functionIds.length) :
    operation.perform.Ensures t' fun _ t'' => t.Roams t'' ∧ t''.Arena ∧ t''.stack ≠ [] ∧
      t''.functionIds.length = operation.depthAfter t'.functionIds.length := by
  obtain ⟨f, stack, hcons⟩ := List.exists_cons_of_ne_nil hstack
  have hcurrent : t'.currentId = f := by rw [Tracker.currentId, hcons]; rfl
  cases operation <;> try cases hroams
  case enterScope kind start =>
    have hkind : kind.holdsVars = false := by simpa [roams] using hroams
    refine .update ⟨hsince.enterScope harena hstack hkind start, ?_, List.cons_ne_nil _ _, ?_⟩
    · exact harena.push hcons (congrArg some hcurrent)
    · rw [Tracker.functionIds_enterScope harena hkind start]
      rfl
  case exitScope =>
    have hinner : 1 < t'.functionIds.length := Nat.lt_of_sub_pos hdepth
    have hids := Tracker.functionIds_of_cons hcons hinner
    refine Action.exitScope_rests.mono fun _ t'' hrests => ?_
    rw [hcons, List.tail_cons] at hrests
    have hkept := (hsince.tail hcons hinner).rests hrests
    have hids' : t''.functionIds = t'.upToFunction stack :=
      hrests.functionIds_eq.trans (Tracker.upToFunction_congr fun _ _ => rfl)
    refine ⟨hkept, ?_, ?_, ?_⟩
    · refine harena.of_suffix hrests.size (fun i => (hrests.frame i).parent?) ?_
      rw [hrests.stack, hcons]
      exact List.suffix_cons f stack
    · rw [hrests.stack]
      rintro rfl
      simp [hids, Tracker.upToFunction] at hinner
    · rw [hids', hids]
      rfl

/-- A walk through scopes that stays inside the function. -/
theorem performAll_roams {walk : List Operation} (hroams : ∀ operation ∈ walk, operation.roams)
    (harena : t.Arena) (hstack : t.stack ≠ []) (hopen : keepOpen t.functionIds.length walk) :
    (performAll walk).Ensures t fun _ t' => t.Roams t' ∧ t'.Arena ∧ t'.stack ≠ [] := by
  refine (Action.Ensures.forM (fun walk t' => (∀ operation ∈ walk, operation.roams) ∧
    t.Roams t' ∧ t'.Arena ∧ t'.stack ≠ [] ∧ keepOpen t'.functionIds.length walk)
    ⟨hroams, .refl t, harena, hstack, hopen⟩ ?_).mono
    fun _ _ h => ⟨h.2.1, h.2.2.1, h.2.2.2.1⟩
  rintro operation rest t' ⟨hwalk, hsince, harena', hstack', hopen'⟩
  obtain ⟨hpos, hrest⟩ := (Bool.and_eq_true _ _).mp hopen'
  refine (perform_roams (hwalk operation List.mem_cons_self) hsince harena' hstack'
    (of_decide_eq_true hpos)).mono fun _ t'' h => ?_
  exact ⟨fun o ho => hwalk o (List.mem_cons_of_mem operation ho), h.1, h.2.1, h.2.2.1,
    h.2.2.2 ▸ hrest⟩

end Operation

end ScriptLint.Scope

/-! ## Places of references -/

namespace ScriptLint.Scope

namespace Tracker

variable {t t' : Tracker}

/-- The positions of the references in the order in which they were recorded. -/
def places (t : Tracker) : List Position := t.references.toList.map (·.position)

theorem places_modifyReference (t : Tracker) (id : Nat) {change : Reference → Reference}
    (hchange : ∀ r, (change r).position = r.position) :
    (t.modifyReference id change).places = t.places := by
  refine List.ext_getElem? fun i => ?_
  simp only [places, modifyReference, Array.toList_modify, List.getElem?_map, List.getElem?_modify]
  cases t.references.toList[i]? with
  | none => rfl
  | some r => by_cases h : id = i <;> simp [h, hchange]

theorem places_passOn (t : Tracker) (f id parent : Nat) :
    (t.passOn f id parent).places = t.places := by
  unfold passOn
  split
  · exact places_modifyReference t id fun _ => rfl
  · rfl

theorem places_addReference (t : Tracker) (name : String) (position : Position)
    (access : Access) : (t.addReference name position access).places = t.places ++ [position] := by
  simp [places, addReference, modifyFrame]

theorem Grows.places_eq (hgrows : t.Grows t') : t'.places = t.places := by
  rw [places, places, hgrows.references]

end Tracker

namespace Action

variable {t : Tracker}

theorem resolve_places (f id : Nat) :
    (resolve f id).Ensures t fun _ t' => t'.places = t.places :=
  resolve_ensures (fun _ _ => rfl) (fun parent _ _ => t.places_passOn f id parent) fun _ => rfl

theorem resolveAll_places (f : Nat) :
    (resolveAll f).Ensures t fun _ t' => t'.places = t.places := by
  refine .bind (.tracker (.bind (.update ?_)))
  apply Ensures.forM fun _ t' => t'.places = t.places
  · rfl
  · intro id _ t' hplaces
    exact (resolve_places f id).mono fun _ _ h => h.trans hplaces

theorem exitScope_places : exitScope.Ensures t fun _ t' => t'.places = t.places := by
  refine .bind (.tracker ?_)
  split
  next => exact .pure rfl
  next f stack _ =>
    refine .bind (.update (.bind ((resolveAll_places f).mono fun _ _ hplaces => ?_)))
    refine .bind (.update ((reportUnused_grows f).mono fun _ _ hgrows => ?_))
    exact hgrows.places_eq.trans hplaces

end Action

namespace Operation

variable {t : Tracker}

/-- The place that the operation adds, if it adds one. -/
def place? : Operation → Option Position
  | addReference _ position _ => some position
  | _ => none

/-- Only a new reference adds a place, and it does so behind all others. -/
theorem perform_places (operation : Operation) (hstack : t.stack ≠ []) :
    operation.perform.Ensures t fun _ t' =>
      t'.places = t.places ++ operation.place?.toList := by
  have hgrow {t' : Tracker} (hgrows : t.Grows t') : t'.places = t.places ++ [] := by
    rw [hgrows.places_eq, List.append_nil]
  have hsame {t' : Tracker} (hreferences : t'.references = t.references) :
      t'.places = t.places ++ [] := by
    rw [Tracker.places, hreferences, List.append_nil]
    rfl
  cases operation with
  | exitScope =>
      refine Action.exitScope_places.mono fun _ _ hplaces => ?_
      rw [hplaces]
      exact (List.append_nil _).symm
  | declare name kind position =>
      exact (Action.declare_grows hstack name kind position).mono fun _ _ => hgrow
  | declareBlockFunction name position =>
      exact (Action.declareBlockFunction_grows hstack name position).mono fun _ _ => hgrow
  | declareParameter name position distinct =>
      exact (Action.declareParameter_grows hstack name position distinct).mono fun _ _ => hgrow
  | markInitialized name offset =>
      exact .update (hgrow (Tracker.markInitialized_grows name offset))
  | addReference name position access =>
      exact .update (Tracker.places_addReference t name position access)
  | setAccess id access =>
      have hplaces : (t.modifyReference id ({ · with access })).places = t.places :=
        t.places_modifyReference id fun _ => rfl
      exact .update (hplaces.trans (List.append_nil _).symm)
  | markExported name =>
      refine .update (hsame ?_)
      unfold Tracker.markExported
      split <;> rfl
  | changeSink change =>
      rintro sink _ _ ⟨⟩
      exact hsame rfl
  | _ => exact .update (hsame rfl)

end Operation

end ScriptLint.Scope
