import ScriptLint.Proofs.Scope.Listing
import ScriptLint.Proofs.Scope.Note

/-! # Unused bindings

What is listed of a frame can be told from its final bindings, for once it is closed they stay as
they are. So the list of a run is that of all its frames in the order in which they were closed, and the
reports are the entries of the list. The rule that reports nothing lists what the one about the last
parameter does.
-/

namespace ScriptLint.Scope

variable {α β : Type}

/-! ## What stays of closed frames -/

namespace Tracker

variable {t t' t'' : Tracker}

theorem functionNameOf_eq_getD (t : Tracker) (i : Nat) : t.functionNameOf i =
    ((((t.path i).map t.frame).find? (·.kind.holdsVars)).map (·.name)).getD mainName := by
  unfold functionNameOf
  split
  next f hfound => simp [hfound]
  next hnone => simp [hnone]

/-- Frames are called what they were, and those that are not open have the bindings they had. -/
structure Stays (t t' : Tracker) : Prop where
  kind : ∀ i < t.frames.size, (t'.frame i).kind = (t.frame i).kind
  parent? : ∀ i < t.frames.size, (t'.frame i).parent? = (t.frame i).parent?
  name : ∀ i < t.frames.size, (t'.frame i).name = (t.frame i).name
  bindings : ∀ i < t.frames.size, i ∉ t.stack → (t'.frame i).bindings = (t.frame i).bindings

namespace Stays

theorem of_grows (hgrows : t.Grows t') (hname : ∀ i, (t'.frame i).name = (t.frame i).name) :
    t.Stays t' where
  kind i _ := (hgrows.frame i).kind
  parent? i _ := (hgrows.frame i).parent?
  name i _ := hname i
  bindings i _ hi := congrArg Frame.bindings (hgrows.frozen i hi)

theorem of_frames_eq (hframes : t'.frames = t.frames) : t.Stays t' := by
  have hframe (i : Nat) : t'.frame i = t.frame i := by rw [frame, frame, hframes]
  exact ⟨fun i _ => by rw [hframe], fun i _ => by rw [hframe], fun i _ => by rw [hframe],
    fun i _ _ => by rw [hframe]⟩

theorem push (t : Tracker) (f : Frame) : t.Stays (t.push f) := by
  have hframe (i : Nat) (hi : i < t.frames.size) : (t.push f).frame i = t.frame i := by
    rw [frame_push, if_neg (Nat.ne_of_lt hi)]
  exact ⟨fun i hi => by rw [hframe i hi], fun i hi => by rw [hframe i hi],
    fun i hi => by rw [hframe i hi], fun i hi _ => by rw [hframe i hi]⟩

/-- The function around a frame is called what it was. -/
theorem functionNameOf_eq (hstays : t.Stays t') {i : Nat} (hi : i < t.frames.size) :
    t'.functionNameOf i = t.functionNameOf i := by
  have hlt {j : Nat} (hj : j ≤ i) : j < t.frames.size := Nat.lt_of_le_of_lt hj hi
  have hpath : t'.path i = t.path i := path_congr fun j hj => hstays.parent? j (hlt hj)
  have hnames (ids : List Nat) (hids : ∀ j ∈ ids, j ≤ i) :
      ((ids.map t'.frame).find? (·.kind.holdsVars)).map (·.name) =
        ((ids.map t.frame).find? (·.kind.holdsVars)).map (·.name) := by
    induction ids with
    | nil => rfl
    | cons j ids ih =>
        have hj := hlt (hids j List.mem_cons_self)
        simp only [List.map_cons, List.find?_cons, hstays.kind j hj]
        split
        · exact congrArg some (hstays.name j hj)
        · exact ih fun k hk => hids k (List.mem_cons_of_mem j hk)
  rw [functionNameOf_eq_getD, functionNameOf_eq_getD, hpath,
    hnames _ fun j hj => le_of_mem_path hj]

theorem listed_eq (hstays : t.Stays t') {f : Nat} (hf : f < t.frames.size) (hclosed : f ∉ t.stack)
    (rule : UnusedRule) (exported : List String) :
    t'.listed rule exported f = t.listed rule exported f := by
  unfold listed
  rw [hstays.bindings f hf hclosed, hstays.functionNameOf_eq hf]

end Stays

end Tracker

namespace Action

variable {t : Tracker}

/-- To resolve the references of a frame changes no binding of another one. -/
theorem resolveAll_bindings (f : Nat) :
    (resolveAll f).Ensures t fun _ t' => ∀ i ≠ f, (t'.frame i).bindings = (t.frame i).bindings := by
  refine .bind (.tracker (.bind (.update ?_)))
  refine .forM (fun _ t' => ∀ i ≠ f, (t'.frame i).bindings = (t.frame i).bindings)
    (fun i _ => Tracker.field_modifyFrame Frame.bindings rfl i) fun id _ t' hsame => ?_
  refine resolve_ensures (fun b _ i hi => ?_) (fun parent _ _ i hi => ?_) fun _ => hsame
  · rw [Tracker.frame_modifyFrame, if_neg fun h => hi h.1.symm]
    exact hsame i hi
  · exact (Tracker.field_passOn Frame.bindings (fun _ _ => rfl) t' f id parent i).trans (hsame i hi)

/-- The list and the rule about it are only looked at when a frame is closed. -/
theorem Unlisting.ensures {action : Action α} (haction : Unlisting action) (t : Tracker) :
    action.Ensures t fun _ t' => t'.rules.unused = t.rules.unused ∧ t'.unused = t.unused := by
  intro sink a s hrun
  have hkeeps := haction.keeps ⟨t, sink⟩
  rwa [hrun] at hkeeps

end Action

namespace Tracker

variable {t t' : Tracker}

/-- What an operation that closes no frame does: it opens one at most. -/
structure Opens (t t' : Tracker) : Prop extends t.Stays t' where
  frames : (t'.stack = t.stack ∧ t'.frames.size = t.frames.size) ∨
    (t'.stack = t.frames.size :: t.stack ∧ t'.frames.size = t.frames.size + 1)

theorem Opens.of_grows (hgrows : t.Grows t') (hname : ∀ i, (t'.frame i).name = (t.frame i).name) :
    t.Opens t' := ⟨.of_grows hgrows hname, .inl ⟨hgrows.stack, hgrows.size⟩⟩

theorem Opens.of_frames_eq (hframes : t'.frames = t.frames) (hstack : t'.stack = t.stack) :
    t.Opens t' := ⟨.of_frames_eq hframes, .inl ⟨hstack, by rw [hframes]⟩⟩

end Tracker

namespace Operation

variable {t : Tracker}

theorem perform_opens {operation : Operation} (hopens : operation.opensOnly)
    (hstack : t.stack ≠ []) : operation.perform.Ensures t fun _ t' => t.Opens t' := by
  have hdeclare (action : Action Unit) [houtline : Action.KeepsOutline action]
      (hgrows : action.Ensures t fun _ t' => t.Grows t') :
      action.Ensures t fun _ t' => t.Opens t' :=
    (hgrows.and (houtline.ensures t)).mono fun _ _ h =>
      .of_grows h.1 fun i => Frame.field_eq (h.2.frame i) Frame.name
  have hfunction {change : Frame → Frame} (hchange : ∀ f : Frame, f.Grows (change f))
      (hname : ∀ f : Frame, (change f).name = f.name) : t.Opens (t.modifyFunction change) :=
    .of_grows (.modifyFunction hstack hchange) (Tracker.field_modifyFrame Frame.name (hname _))
  cases operation with
  | exitScope | setRules => cases hopens
  | enterScope | enterFunction => exact .update ⟨.push t _, .inr ⟨rfl, Array.size_push _⟩⟩
  | declare name kind position =>
      exact hdeclare (Action.declare name kind position)
        (Action.declare_grows hstack name kind position)
  | declareBlockFunction name position =>
      exact hdeclare (Action.declareBlockFunction name position)
        (Action.declareBlockFunction_grows hstack name position)
  | declareParameter name position distinct =>
      exact hdeclare (Action.declareParameter name position distinct)
        (Action.declareParameter_grows hstack name position distinct)
  | declareFunctionName name position =>
      refine .update
        (.of_grows (Tracker.declareFunctionName_grows hstack name position) fun i => ?_)
      refine Tracker.field_modifyFrame Frame.name ?_ i
      split <;> rfl
  | markInitialized name offset =>
      refine .update (.of_grows (Tracker.markInitialized_grows name offset) fun i => ?_)
      unfold Tracker.markInitialized
      split
      next => rfl
      next j _ =>
        refine Tracker.field_modifyFrame Frame.name ?_ i
        unfold Frame.modify
        split <;> rfl
  | addReference name position access =>
      have hfield {α : Type} (field : Frame → α)
          (hpending : ∀ (g : Frame) (pending : List Nat), field { g with pending } = field g)
          (i : Nat) := Tracker.field_addReference field hpending t name position access i
      refine .update ⟨⟨?_, ?_, ?_, ?_⟩, .inl ⟨rfl, t.addReference_size name position access⟩⟩
      · exact fun i _ => hfield Frame.kind (fun _ _ => rfl) i
      · exact fun i _ => hfield Frame.parent? (fun _ _ => rfl) i
      · exact fun i _ => hfield Frame.name (fun _ _ => rfl) i
      · exact fun i _ _ => hfield Frame.bindings (fun _ _ => rfl) i
  | markExported name =>
      refine .update ?_
      unfold Tracker.markExported
      split <;> exact .of_frames_eq rfl rfl
  | changeSink change =>
      rintro sink a s ⟨⟩
      exact .of_frames_eq rfl rfl
  | setStrict | pushLabel | popLabel | enterLoop | exitLoop | enterSwitch | exitSwitch
  | recordYield =>
      exact .update (hfunction (fun _ => .of_same rfl rfl rfl rfl rfl rfl) fun _ => rfl)
  | setAccess | addKnown | removeKnown => exact .update (.of_frames_eq rfl rfl)

end Operation

/-! ## Closing a frame -/

namespace Tracker

/-- What resolving the references of the innermost frame does, which is taken off the stack. -/
structure Leaves (t t' : Tracker) (stack : List Nat) : Prop extends t.Stays t' where
  stack : t'.stack = stack
  size : t'.frames.size = t.frames.size
  rule : t'.rules.unused = t.rules.unused
  unused : t'.unused = t.unused

/-- What is listed of a frame does not depend on the list. -/
theorem listed_with_unused (t : Tracker) (unused : List UnusedBinding) :
    ({ t with unused } : Tracker).listed = t.listed := by
  funext rule exported i
  exact congrArg (listedEntries rule exported (t.frame i).bindings)
    (t.relist_functionNameOf t.rules.unused unused i)

end Tracker

/-- Closing a frame lists and notes what is unused in it after its references are resolved. -/
theorem Noted.exitScope_leaves {t : Tracker} {notes : List Note} {f : Nat} {stack : List Nat}
    (hstack : t.stack = f :: stack) :
    Noted.exitScope.Ensures t notes fun _ t' notes' => ∃ t₁, t.Leaves t₁ stack ∧
      let new := t₁.listed t₁.rules.unused t₁.exported f
      t' = { t₁ with unused := t₁.unused ++ new } ∧
        notes' = notes ++ closing t₁.rules.unused t₁.exported f new := by
  refine .bind (.lift (.tracker ?_))
  rw [hstack]
  let t₀ := ({ t with stack } : Tracker).modifyFrame f fun g => { g with state := .closing }
  have hresolve := (Action.resolveAll_rests (t := t₀) f).and
    (((inferInstance : Action.KeepsOutline (Action.resolveAll f)).ensures t₀).and
      ((Action.resolveAll_bindings f).and
        ((inferInstance : Action.Unlisting (Action.resolveAll f)).ensures t₀)))
  refine .bind (.lift (.update (.bind (.lift (hresolve.mono fun _ t₁ h => ?_)))))
  obtain ⟨hrests, houtline, hbindings, hrule, hunused⟩ := h
  have hstate (t : Tracker) (state : FrameState) :
      t.SameOutline (t.modifyFrame f fun g => { g with state }) :=
    .modifyFrame t f fun _ => rfl
  have hsame := ((hstate { t with stack } .closing).trans houtline).trans (hstate t₁ .closed)
  refine .bind (.lift (.update ((Noted.reportUnused_ensures f).mono ?_)))
  rintro _ _ _ ⟨rfl, rfl⟩
  refine ⟨_, ⟨⟨fun i _ => Frame.field_eq (hsame.frame i) Frame.kind,
    fun i _ => Frame.field_eq (hsame.frame i) Frame.parent?,
    fun i _ => Frame.field_eq (hsame.frame i) Frame.name, fun i _ hi => ?_⟩,
    hrests.stack, ?_, hrule, hunused⟩, rfl, rfl⟩
  · have hne : i ≠ f := fun h => hi (by simp [hstack, h])
    exact ((Tracker.field_modifyFrame Frame.bindings rfl i).trans (hbindings i hne)).trans
      (Tracker.field_modifyFrame Frame.bindings rfl i)
  · simpa [t₀] using hrests.size

/-! ## Open and closed frames

Every frame is on the stack or was closed, once.
-/

namespace Tracker

variable {t t' : Tracker} {f : Nat} {stack closed : List Nat}

theorem not_mem_stack_of_closed (hframes : (t.stack ++ closed).Perm (List.range t.frames.size))
    (hf : f ∈ closed) : f < t.frames.size ∧ f ∉ t.stack := by
  refine ⟨List.mem_range.mp (hframes.mem_iff.mp (List.mem_append_right _ hf)), fun hstack => ?_⟩
  have hnodup := hframes.nodup_iff.mpr List.nodup_range
  exact (List.nodup_append.mp hnodup).2.2 f hstack f hf rfl

theorem Opens.perm_frames (hopens : t.Opens t')
    (hframes : (t.stack ++ closed).Perm (List.range t.frames.size)) :
    (t'.stack ++ closed).Perm (List.range t'.frames.size) := by
  rcases hopens.frames with ⟨hstack, hsize⟩ | ⟨hstack, hsize⟩
  · rw [hstack, hsize]
    exact hframes
  · rw [hstack, hsize, List.range_succ]
    exact (hframes.cons _).trans (List.perm_append_singleton _ _).symm

theorem Leaves.perm_frames (hleaves : t.Leaves t' stack) (hstack : t.stack = f :: stack)
    (hframes : (t.stack ++ closed).Perm (List.range t.frames.size)) :
    (t'.stack ++ (closed ++ [f])).Perm (List.range t'.frames.size) := by
  rw [hleaves.stack, hleaves.size, ← List.append_assoc]
  refine (List.perm_append_singleton _ _).trans ?_
  rw [← List.cons_append, ← hstack]
  exact hframes

end Tracker

/-! ## Whole runs -/

/-- The notes tell which frames were closed, and by their final bindings what is listed and what was
reported. -/
structure Lists (t : Tracker) (notes : List Note) : Prop where
  frames : (t.stack ++ (notes.filterMap Note.closing?).map (·.1)).Perm (List.range t.frames.size)
  unused : t.unused = (notes.filterMap Note.closing?).flatMap fun (f, exported) =>
    t.listed t.rules.unused exported f
  reported : notes.filterMap Note.report? =
    if t.rules.unused = .off then [] else t.unused.map (·.remark)

namespace Lists

variable {t t' : Tracker} {notes : List Note}

theorem closed (hs : Lists t notes) {f : Nat} {exported : List String}
    (hmem : (f, exported) ∈ notes.filterMap Note.closing?) : f < t.frames.size ∧ f ∉ t.stack :=
  Tracker.not_mem_stack_of_closed hs.frames (List.mem_map_of_mem hmem)

theorem unused_of_stays (hs : Lists t notes) (hstays : t.Stays t') :
    t.unused = (notes.filterMap Note.closing?).flatMap fun (f, exported) =>
      t'.listed t.rules.unused exported f := by
  rw [hs.unused]
  refine List.flatMap_congr fun ⟨f, exported⟩ hmem => ?_
  obtain ⟨hf, hclosed⟩ := hs.closed hmem
  exact (hstays.listed_eq hf hclosed _ _).symm

theorem of_opens (hs : Lists t notes) (hopens : t.Opens t')
    (hrule : t'.rules.unused = t.rules.unused) (hunused : t'.unused = t.unused) :
    Lists t' notes where
  frames := hopens.perm_frames hs.frames
  unused := by
    rw [hunused, hrule]
    exact hs.unused_of_stays hopens.toStays
  reported := by
    rw [hunused, hrule]
    exact hs.reported

/-- A frame that is taken off the stack, after which its unused bindings are listed and noted. -/
theorem close (hs : Lists t notes) {f : Nat} {stack : List Nat} (hstack : t.stack = f :: stack)
    (hleaves : t.Leaves t' stack) :
    let new := t'.listed t'.rules.unused t'.exported f
    Lists { t' with unused := t'.unused ++ new }
      (notes ++ Noted.closing t'.rules.unused t'.exported f new) := by
  intro new
  refine ⟨?_, ?_, ?_⟩
  · rw [List.filterMap_append, Noted.filterMap_closing?]
    rw [List.map_append]
    exact hleaves.perm_frames hstack hs.frames
  · rw [List.filterMap_append, Noted.filterMap_closing?, Tracker.listed_with_unused,
      List.flatMap_append]
    dsimp only
    rw [hleaves.rule, ← hs.unused_of_stays hleaves.toStays, hleaves.unused]
    simp [new, hleaves.rule]
  · rw [List.filterMap_append, Noted.filterMap_report?, hs.reported]
    dsimp only
    rw [hleaves.rule, hleaves.unused]
    split <;> simp

/-- Closing a frame adds what is listed of it to the list and to the reports. -/
theorem exitScope (hs : Lists t notes) : Noted.exitScope.Ensures t notes fun _ t' notes' =>
    Lists t' notes' ∧ t'.rules.unused = t.rules.unused ∧ t'.stack = t.stack.tail := by
  rcases hstack : t.stack with _ | ⟨f, stack⟩
  · refine .bind (.lift (.tracker ?_))
    rw [hstack]
    exact .pure ⟨hs, rfl, hstack⟩
  · refine (Noted.exitScope_leaves hstack).mono ?_
    rintro _ _ _ ⟨t₁, hleaves, rfl, rfl⟩
    exact ⟨hs.close hstack hleaves, hleaves.rule, hleaves.stack⟩

end Lists

/-! ## Two runs -/

/-- The rule that reports nothing lists what the one about the last parameter lists. -/
theorem listedEntries_off (exported : List String) (bindings : List Binding) (scope : String) :
    listedEntries .off exported bindings scope = listedEntries .lastParam exported bindings scope :=
  rfl

namespace Action

theorem reportUnused_lists (f : Nat) (t : Tracker) :
    (reportUnused f).Ensures t fun _ t' =>
      t' = { t with unused := t.unused ++ t.listed t.rules.unused t.exported f } := by
  intro sink a s hrun
  obtain ⟨notes, hnotes⟩ := (Noted.Erases.reportUnused f).exists_notes hrun []
  exact (Noted.reportUnused_ensures f sink _ _ hnotes).1

namespace Matched

theorem reportUnused (f : Nat) : Matched (reportUnused f) where
  run {t sink sink' a a' s s'} hoff hrun hrun' := by
    have hlisted : t.reporting.listed .lastParam t.exported f = t.listed .off t.exported f := by
      unfold Tracker.listed
      rw [listedEntries_off, Tracker.relist_functionNameOf]
      rfl
    have hs := reportUnused_lists f t sink a s hrun
    have hs' := reportUnused_lists f t.reporting sink' a' s' hrun'
    rw [hoff] at hs
    refine ⟨rfl, ?_, by rw [hs, ← hoff]⟩
    rw [hs', hs]
    exact congrArg (fun unused => t.relist .lastParam (t.unused ++ unused)) hlisted

theorem exitScope : Matched exitScope := by
  have hleave (f : Nat) (stack : List Nat) : Unlisting (Action.update fun t =>
      { t with stack }.modifyFrame f fun g => { g with state := .closing }) :=
    .update fun _ _ _ => rfl
  refine .look (fun _ => rfl) fun t => ?_
  split
  · exact .of_unlisting _
  · exact .bind (.of_unlisting _) fun _ => .bind (.of_unlisting _) fun _ =>
      .bind (.of_unlisting _) fun _ => .reportUnused _

theorem finish : Matched finish := .look (fun _ => rfl) fun _ => .forM fun _ _ => .exitScope

end Matched

end Action

namespace Operation

theorem perform_alike {operation : Operation} (hfixed : ∀ rules, operation ≠ .setRules rules) :
    Action.Matched operation.perform := by
  by_cases hopens : operation.opensOnly
  · have hunlisting := perform_unlisting hopens
    cases operation with
    | exitScope | setRules => cases hopens
    | changeSink change =>
        refine ⟨fun hoff hrun hrun' => ?_⟩
        cases hrun
        cases hrun'
        exact ⟨rfl, rfl, hoff⟩
    | declare name kind position => exact .of_unlisting (Action.declare name kind position)
    | declareBlockFunction name position =>
        exact .of_unlisting (Action.declareBlockFunction name position)
    | declareParameter name position distinct =>
        exact .of_unlisting (Action.declareParameter name position distinct)
    | _ => exact @Action.Matched.of_unlisting _ _ hunlisting (.update _)
  · cases operation with
    | exitScope => exact .exitScope
    | setRules rules => exact absurd rfl (hfixed rules)
    | _ => exact absurd rfl hopens

end Operation

/-! ## Runs -/

namespace Operation

variable {t : Tracker} {notes : List Note}

/-- Each operation leaves as many frames open as it should. -/
theorem perform_depth (operation : Operation) (hstack : t.stack ≠ []) :
    operation.perform.Ensures t fun _ t' =>
      t'.stack.length = operation.depthAfter t.stack.length := by
  intro sink a s hrun
  obtain ⟨log, hlog⟩ := operation.log_erases.exists_log hrun []
  exact (operation.log_steps hstack sink _ _ hlog).2

theorem noted_lists {operation : Operation} (hfixed : ∀ rules, operation ≠ .setRules rules)
    (hstack : t.stack ≠ []) (hs : Lists t notes) :
    operation.noted.Ensures t notes fun _ t' notes' =>
      Lists t' notes' ∧ t'.rules.unused = t.rules.unused ∧
        t'.stack.length = operation.depthAfter t.stack.length := by
  by_cases hopens : operation.opensOnly
  · have hperform := (perform_opens hopens hstack).and
      (((perform_unlisting hopens).ensures t).and (operation.perform_depth hstack))
    have hnoted : operation.noted = liftM operation.perform := by
        cases operation <;> first | rfl | cases hopens
    rw [hnoted]
    exact .lift (hperform.mono fun _ t' h => ⟨hs.of_opens h.1 h.2.1.1 h.2.1.2, h.2.1.1, h.2.2⟩)
  · cases operation with
    | exitScope =>
        refine hs.exitScope.mono fun _ t' _ h => ⟨h.1, h.2.1, ?_⟩
        rw [h.2.2, List.length_tail]
        rfl
    | setRules rules => exact absurd rfl (hfixed rules)
    | _ => exact absurd rfl hopens

theorem notedAll_lists {operations : List Operation}
    (hfixed : ∀ rules, .setRules rules ∉ operations) (hopen : keepOpen t.stack.length operations)
    (hstack : t.stack ≠ []) (hs : Lists t notes) :
    (notedAll operations).Ensures t notes fun _ t' notes' =>
      Lists t' notes' ∧ t'.rules.unused = t.rules.unused := by
  refine (Noted.Ensures.forM (fun operations t' notes' => Lists t' notes' ∧
    t'.rules.unused = t.rules.unused ∧ t'.stack ≠ [] ∧ keepOpen t'.stack.length operations ∧
      ∀ rules, .setRules rules ∉ operations) ⟨hs, rfl, hstack, hopen, hfixed⟩ ?_).mono
    fun _ _ _ h => ⟨h.1, h.2.1⟩
  rintro operation rest t' notes' ⟨hs', hrule, hstack', hopen', hfixed'⟩
  obtain ⟨hpos, hrest⟩ := (Bool.and_eq_true _ _).mp hopen'
  have hother : ∀ rules, operation ≠ .setRules rules := by
    rintro rules rfl
    exact hfixed' rules List.mem_cons_self
  refine (noted_lists hother hstack' hs').mono fun _ t'' notes'' h => ?_
  obtain ⟨hlists, hrule', hlength⟩ := h
  refine ⟨hlists, hrule'.trans hrule, ?_, hlength ▸ hrest,
    fun rules hmem => hfixed' rules (List.mem_cons_of_mem _ hmem)⟩
  exact List.ne_nil_of_length_pos (hlength ▸ of_decide_eq_true hpos)

end Operation

theorem Lists.finish {t : Tracker} {notes : List Note} (hs : Lists t notes) :
    Noted.finish.Ensures t notes fun _ t' notes' =>
      Lists t' notes' ∧ t'.rules.unused = t.rules.unused ∧ t'.stack = [] := by
  refine .bind (.lift (.tracker ?_))
  refine .forM (fun ids t' notes' => Lists t' notes' ∧ t'.rules.unused = t.rules.unused ∧
    t'.stack = ids) ⟨hs, rfl, rfl⟩ fun id ids t' notes' h => ?_
  exact h.1.exitScope.mono fun _ t'' notes'' h' =>
    ⟨h'.1, h'.2.1.trans h.2.1, by rw [h'.2.2, h.2.2]; rfl⟩

theorem Lists.start (known : KnownGlobals) (rules : Rules) (module strict : Bool) :
    Lists (.start known rules module strict) [] where
  frames := by
    cases module with
    | false => exact .refl _
    | true => exact .swap _ _ _
  unused := by cases module <;> rfl
  reported := by cases module <;> simp [Tracker.start, Tracker.push]

namespace Operation

open Action in
/-- In a run that comes to its end without new rules, the list of unused bindings is made of what
is listed of each frame when it is closed, and each frame is closed once. The reports that are made
of unused bindings are the entries of the list, unless the rule is off, under which the whole summary is
that of the rule about the last parameter. -/
theorem unused_listed_and_reported {known : KnownGlobals} {rules : Rules} {module strict : Bool}
    {sink : Sink} {operations : List Operation}
    (hopen : keepOpen (if module then 2 else 1) operations)
    (hfixed : ∀ rules, .setRules rules ∉ operations) :
    let start (rule : UnusedRule) : Session :=
      ⟨.start known { rules with unused := rule } module strict, sink⟩
    (∀ s s', (performAll operations >>= fun _ => finish).run.run (start .off) = (.ok (), s) →
      (performAll operations >>= fun _ => finish).run.run (start .lastParam) = (.ok (), s') →
      s'.tracker.summary = s.tracker.summary) ∧
    ∀ rule s, (performAll operations >>= fun _ => finish).run.run (start rule) = (.ok (), s) →
      ∃ notes, ((notedAll operations >>= fun _ => Noted.finish).run []).run.run (start rule) =
          (.ok ((), notes), s) ∧
        let closings := notes.filterMap Note.closing?
        (closings.map (·.1)).Perm (List.range s.tracker.frames.size) ∧
        s.tracker.summary.unused =
          closings.flatMap (fun (f, exported) => s.tracker.listed rule exported f) ∧
        (rule ≠ .off → notes.filterMap Note.report? =
          s.tracker.summary.unused.map (·.remark)) := by
  intro start
  have hrule (rule : UnusedRule) : (start rule).tracker.rules.unused = rule := by
    cases module <;> rfl
  refine ⟨fun s s' hrun hrun' => ?_, fun rule s hrun => ?_⟩
  · have hmatched : Matched (performAll operations >>= fun _ => finish) :=
      .bind (.forM fun operation hmem => perform_alike fun rules h => hfixed rules (h ▸ hmem))
        fun _ => .finish
    have hreporting : start .lastParam = ⟨(start .off).tracker.reporting, sink⟩ := by
      cases module <;> rfl
    rw [hreporting] at hrun'
    obtain ⟨-, htracker, -⟩ := hmatched.run (hrule .off) hrun hrun'
    rw [htracker]
    rfl
  · obtain ⟨notes, hnotes⟩ := Noted.Erases.exists_notes
      (.bind (.operations operations) fun _ => .finish) hrun []
    have hdepth : keepOpen (start rule).tracker.stack.length operations := by
      cases module <;> exact hopen
    have hstack : (start rule).tracker.stack ≠ [] := by cases module <;> exact List.cons_ne_nil _ _
    have hlists : (notedAll operations >>= fun _ => Noted.finish).Ensures (start rule).tracker []
        fun _ t notes => Lists t notes ∧ t.rules.unused = rule ∧ t.stack = [] :=
      .bind ((notedAll_lists hfixed hdepth hstack (.start ..)).mono fun _ _ _ h =>
        h.1.finish.mono fun _ _ _ h' => ⟨h'.1, (h'.2.1.trans h.2).trans (hrule rule), h'.2.2⟩)
    obtain ⟨hs, hsame, hclosed⟩ := hlists sink _ _ hnotes
    refine ⟨notes, hnotes, ?_, ?_, fun hon => ?_⟩
    · have hframes := hs.frames
      rwa [hclosed, List.nil_append] at hframes
    · exact hsame ▸ hs.unused
    · exact hs.reported.trans (if_neg (hsame ▸ hon))

/-- A function with three parameters, the second of which is used, and a variable that is not. -/
def threeParameters : List Operation :=
  [.enterFunction { name := "f" } ⟨1, 1, 0⟩, .declareParameter "a" ⟨1, 12, 11⟩ false,
    .declareParameter "b" ⟨1, 15, 14⟩ false, .declareParameter "c" ⟨1, 18, 17⟩ false,
    .declare "d" .varName ⟨1, 26, 25⟩, .addReference "b" ⟨1, 30, 29⟩ .read, .exitScope]

/-- The run of these operations under a rule. -/
def runThreeParameters (rule : UnusedRule) : Except Halt Unit × Session :=
  (performAll threeParameters >>= fun _ => Action.finish).run.run
    ⟨.start {} { Rules.ofOptions {} with unused := rule } false false, .start 50 1 (.ofList [])⟩

/-- The first parameter is listed under the strict rule only. -/
theorem listed_and_reported_threeParameters :
    (∀ rule, (runThreeParameters rule).1 = .ok ()) ∧
    (runThreeParameters .lastParam).2.tracker.summary =
      (runThreeParameters .off).2.tracker.summary ∧
    (runThreeParameters .strict).2.tracker.summary.unused.map (·.name) = ["a", "c", "d"] ∧
    (runThreeParameters .lastParam).2.tracker.summary.unused.map (·.name) = ["c", "d"] ∧
    (runThreeParameters .vars).2.tracker.summary.unused.map (·.name) = ["d"] ∧
    ∀ rule ≠ .off, ∃ notes, ((notedAll threeParameters >>= fun _ => Noted.finish).run []).run.run
        ⟨.start {} { Rules.ofOptions {} with unused := rule } false false,
          .start 50 1 (.ofList [])⟩ = (.ok ((), notes), (runThreeParameters rule).2) ∧
      notes.filterMap Note.report? =
        (runThreeParameters rule).2.tracker.summary.unused.map (·.remark) := by
  have hok (rule : UnusedRule) : (runThreeParameters rule).1 = .ok () := by
    cases rule <;> decide +kernel
  have hrun (rule : UnusedRule) :
      runThreeParameters rule = (.ok (), (runThreeParameters rule).2) := by
    rw [← hok rule, Prod.mk.eta]
  obtain ⟨hsame, hlisted⟩ := @unused_listed_and_reported {} (.ofOptions {}) false false
    (.start 50 1 (.ofList [])) threeParameters (by decide) (by simp [threeParameters])
  refine ⟨hok, hsame _ _ (hrun .off) (hrun .lastParam), by decide +kernel, by decide +kernel,
    by decide +kernel, fun rule hon => ?_⟩
  obtain ⟨notes, hnotes, -, -, hreported⟩ := hlisted rule _ (hrun rule)
  exact ⟨notes, hnotes, hreported hon⟩

end Operation

end ScriptLint.Scope
