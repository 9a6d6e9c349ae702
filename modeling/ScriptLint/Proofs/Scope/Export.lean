import ScriptLint.Proofs.Scope.Unused

/-! # Exported names

An exported name is not listed as unused. Which names are exported is looked at when a frame is
closed, whatever frame it is: an export exempts a name in every frame that is closed after it, and
in none that was closed before. The frames of the program itself are closed at its end, when all
exports are known.
-/

namespace ScriptLint.Scope

variable {α β : Type}

/-! ## Frames and exports in a run -/

/-- A frame that is closed, and the operations before that. -/
structure Closing where
  frame : Nat
  before : List Operation

namespace Operation

/-- Whether the operation exports a name. -/
def exportsName (name : String) : Operation → Bool
  | markExported name' => name = name'
  | _ => false

/-- Whether one of the operations exports a name. -/
def exports (operations : List Operation) (name : String) : Bool :=
  operations.any (·.exportsName name)

/-- The rule about unused bindings after an operation. -/
def ruleAfter (rule : UnusedRule) : Operation → UnusedRule
  | setRules rules => rules.unused
  | _ => rule

/-- The rule about unused bindings after operations. -/
def ruleAfterAll (rule : UnusedRule) (operations : List Operation) : UnusedRule :=
  operations.foldl ruleAfter rule

/-- The number of frames so far after an operation. -/
def sizeAfter (size : Nat) : Operation → Nat
  | enterScope _ _ | enterFunction _ _ => size + 1
  | _ => size

/-- The open frames after an operation, with `size` frames before. -/
def stackAfter (size : Nat) (stack : List Nat) : Operation → List Nat
  | enterScope _ _ | enterFunction _ _ => size :: stack
  | exitScope => stack.tail
  | _ => stack

/-- The frame that an operation closes, if it closes one. -/
def closed (stack : List Nat) (before : List Operation) : Operation → List Closing
  | exitScope => (stack.head?.map (⟨·, before⟩)).toList
  | _ => []

/-- The frames that are closed by operations and after the last one, in order. -/
def closings (size : Nat) (stack : List Nat) (before : List Operation) :
    List Operation → List Closing
  | [] => stack.map (⟨·, before⟩)
  | operation :: operations =>
    operation.closed stack before ++
      closings (operation.sizeAfter size) (operation.stackAfter size stack) (before ++ [operation])
        operations

theorem length_stackAfter (size : Nat) (stack : List Nat) (operation : Operation) :
    (operation.stackAfter size stack).length = operation.depthAfter stack.length := by
  cases operation <;> simp [stackAfter, depthAfter]

/-- A frame that is open all along is closed after all operations. -/
theorem mem_closings_of_keepOpen (size : Nat) (inner outer : List Nat) (f : Nat)
    (before : List Operation) {operations : List Operation}
    (hopen : keepOpen (inner.length + 1) operations) :
    ⟨f, before ++ operations⟩ ∈ closings size (inner ++ f :: outer) before operations := by
  induction operations generalizing size inner before with
  | nil => simp [closings]
  | cons operation operations ih =>
      obtain ⟨hpos, hrest⟩ := (Bool.and_eq_true _ _).mp hopen
      have hpos := of_decide_eq_true hpos
      -- What is inside the frame stays so, and is never all that is left.
      have hinner : ∃ inner', operation.stackAfter size (inner ++ f :: outer) =
          inner' ++ f :: outer ∧ inner'.length + 1 = operation.depthAfter (inner.length + 1) := by
        cases operation with
        | enterScope | enterFunction => exact ⟨size :: inner, rfl, rfl⟩
        | exitScope =>
            obtain _ | ⟨g, inner⟩ := inner
            · exact absurd hpos (Nat.lt_irrefl 0)
            · exact ⟨inner, rfl, rfl⟩
        | _ => exact ⟨inner, rfl, rfl⟩
      obtain ⟨inner', hstack, hlength⟩ := hinner
      rw [closings, hstack]
      refine List.mem_append_right _ ?_
      have hmem := ih (operation.sizeAfter size) inner' (before ++ [operation]) (hlength ▸ hrest)
      rwa [List.append_assoc] at hmem

end Operation

/-! ## What is listed of exported names -/

/-- An exported name is left out, and nothing else changes. -/
theorem Tracker.listed_eq_filter (t : Tracker) (rule : UnusedRule) (exported : List String)
    (f : Nat) :
    t.listed rule exported f =
      (t.listed rule [] f).filter fun entry => !exported.contains entry.name := by
  have hlisted (i : Fin (t.frame f).bindings.length) :
      IsListed rule exported (t.frame f).bindings i ↔
        ((t.frame f).bindings.get i).name ∉ exported ∧
          IsListed rule [] (t.frame f).bindings i := by
    simp only [IsListed, List.not_mem_nil, not_false_eq_true, true_and]
    tauto
  unfold listed listedEntries
  rw [List.filter_map, List.filter_filter]
  refine congrArg _ (List.filter_congr fun i _ => ?_)
  simp [hlisted]

namespace Action

/-- An action that exports no name. -/
class KeepsExported (action : Action α) : Prop where
  ensures : ∀ t, action.Ensures t fun _ t' => t'.exported = t.exported

namespace KeepsExported

instance (a : α) : KeepsExported (Pure.pure a : Action α) := ⟨fun _ => .pure rfl⟩

protected theorem bind {first : Action α} {next : α → Action β} (hfirst : KeepsExported first)
    (hnext : ∀ a, KeepsExported (next a)) : KeepsExported (first >>= next) :=
  ⟨fun t => .bind ((hfirst.ensures t).mono fun a _ h =>
    ((hnext a).ensures _).mono fun _ _ h' => h'.trans h)⟩

instance {first : Action α} {next : α → Action β} [hfirst : KeepsExported first]
    [hnext : ∀ a, KeepsExported (next a)] : KeepsExported (first >>= next) := .bind hfirst hnext

instance {c : Prop} [Decidable c] {first second : Action α} [hfirst : KeepsExported first]
    [hsecond : KeepsExported second] : KeepsExported (if c then first else second) := by
  split <;> infer_instance

instance {items : List α} {step : α → Action PUnit} [hstep : ∀ a, KeepsExported (step a)] :
    KeepsExported (items.forM step) := by
  induction items with
  | nil => exact inferInstanceAs (KeepsExported (Pure.pure () : Action PUnit))
  | cons a rest ih => exact .bind (hstep a) fun _ => ih

instance : KeepsExported tracker := ⟨fun _ => .tracker rfl⟩

theorem update {change : Tracker → Tracker} (hchange : ∀ t, (change t).exported = t.exported) :
    KeepsExported (update change) := ⟨fun t => .update (hchange t)⟩

instance (code : String) (position : Position) (arguments : List String) (scope : String)
    (hcode : Halt.IsRegular code) : KeepsExported (report code position arguments scope hcode) :=
  ⟨fun _ => .report rfl⟩

instance (i : Nat) (change : Frame → Frame) :
    KeepsExported (Action.update (·.modifyFrame i change)) := .update fun _ => rfl

instance (name : String) (target : Nat) (position : Position) :
    KeepsExported (checkNew name target position) := ⟨fun _ => checkNew_ensures rfl⟩

instance (target : Nat) (binding : Binding) : KeepsExported (bindNew target binding) := by
  unfold bindNew
  infer_instance

instance (code name : String) (position : Position) (hcode : Halt.IsRegular code) :
    KeepsExported (reject code name position hcode) := ⟨fun _ => reject_ensures rfl⟩

instance (name : String) : KeepsExported (Action.update fun t =>
    t.innerIds.foldl (fun t id => t.modifyFrame id (·.hoist name)) t) := by
  have hhoist (ids : List Nat) (t : Tracker) : (t.hoistAll name ids).exported = t.exported := by
    induction ids generalizing t with
    | nil => rfl
    | cons id ids ih => exact ih _
  exact .update fun t => hhoist t.innerIds t

instance (name : String) (kind : BindingKind) (position : Position) :
    KeepsExported (declareHoisted name kind position) := by
  unfold declareHoisted
  refine .bind inferInstance fun t => ?_
  split
  · infer_instance
  · refine .bind inferInstance fun _ => ?_
    dsimp only
    split <;> infer_instance

instance (name : String) (kind : BindingKind) (position : Position) :
    KeepsExported (declareLexical name kind position) := by
  unfold declareLexical
  refine .bind inferInstance fun t => ?_
  dsimp only
  split <;> infer_instance

instance (name : String) (position : Position) :
    KeepsExported (declareBlockFunction name position) := by
  unfold declareBlockFunction
  refine .bind inferInstance fun t => ?_
  dsimp only
  split <;> infer_instance

instance (name : String) (position : Position) (distinct : Bool) :
    KeepsExported (declareParameter name position distinct) := by
  unfold declareParameter
  refine .bind inferInstance fun t => ?_
  dsimp only
  split <;> infer_instance

instance (name : String) (kind : BindingKind) (position : Position) :
    KeepsExported (declare name kind position) := by
  unfold declare
  split <;> infer_instance

instance (frame : Nat) (b : Binding) (r : Reference) : KeepsExported (resolveTo frame b r) :=
  ⟨fun _ => resolveTo_ensures rfl⟩

instance (r : Reference) : KeepsExported (resolveGlobal r) := by
  have : KeepsExported (Action.update fun t =>
      { t with implied := addImplied r.name r.position.line t.implied }) := .update fun _ => rfl
  unfold resolveGlobal
  refine .bind inferInstance fun t => ?_
  dsimp only
  split <;> infer_instance

instance (frame id : Nat) : KeepsExported (resolve frame id) := by
  have : KeepsExported (Action.update
      (·.modifyReference id fun r => { r with crossedFunction := true })) := .update fun _ => rfl
  unfold resolve
  refine .bind inferInstance fun t => ?_
  dsimp only
  split <;> infer_instance

instance (frame : Nat) : KeepsExported (resolveAll frame) := by
  unfold resolveAll
  infer_instance

instance (frame : Nat) : KeepsExported (reportUnused frame) := by
  have (change : Tracker → List UnusedBinding) : KeepsExported (Action.update fun t =>
      { t with unused := change t }) := .update fun _ => rfl
  unfold reportUnused
  infer_instance

instance : KeepsExported exitScope := by
  have (f : Nat) (stack : List Nat) : KeepsExported (Action.update fun t =>
      { t with stack }.modifyFrame f fun g => { g with state := .closing }) := .update fun _ => rfl
  unfold exitScope
  refine .bind inferInstance fun t => ?_
  split <;> infer_instance

end KeepsExported

end Action

/-- What is known of the tracker after an action is known of it after the action with notes. -/
theorem Noted.Erases.ensures {noted : Noted α} {action : Action α} (hnoted : Erases noted action)
    {t : Tracker} {post : α → Tracker → Prop} (haction : action.Ensures t post)
    (notes : List Note) : noted.Ensures t notes fun a t' _ => post a t' := by
  rintro sink ⟨a, notes'⟩ s hrun
  refine haction sink a s ?_
  rw [← hnoted notes, map_eq_pure_bind, Action.run_bind, hrun]
  rfl

/-! ## What is listed in a run -/

namespace Tracker

variable {t t' : Tracker}

/-- What is listed of a closed frame: what would be without any exports, but for the names that were
exported before. -/
def listedAt (rule : UnusedRule) (t : Tracker) (c : Closing) : List UnusedBinding :=
  (t.listed (Operation.ruleAfterAll rule c.before) [] c.frame).filter fun entry =>
    !Operation.exports c.before entry.name

/-- What is reported of a closed frame: what is listed, unless the rule is off by then. -/
def reportedAt (rule : UnusedRule) (t : Tracker) (c : Closing) : List Diagnostic :=
  if Operation.ruleAfterAll rule c.before = .off then [] else (t.listedAt rule c).map (·.remark)

theorem Stays.listedAt_eq (hstays : t.Stays t') {c : Closing} (hframe : c.frame < t.frames.size)
    (hclosed : c.frame ∉ t.stack) (rule : UnusedRule) : t'.listedAt rule c = t.listedAt rule c := by
  rw [listedAt, hstays.listed_eq hframe hclosed]
  rfl

end Tracker

/-- The exports so far, the rule, and by the frames that were closed so far what is listed and what
was reported. -/
structure Exempts (rule : UnusedRule) (t : Tracker) (notes : List Note) (before : List Operation)
    (closed : List Closing) : Prop where
  exported : ∀ name, t.exported.contains name = Operation.exports before name
  current : t.rules.unused = Operation.ruleAfterAll rule before
  frames : (t.stack ++ closed.map (·.frame)).Perm (List.range t.frames.size)
  unused : t.unused = closed.flatMap (t.listedAt rule)
  reported : notes.filterMap Note.report? = closed.flatMap (t.reportedAt rule)

namespace Exempts

variable {rule : UnusedRule} {t t' : Tracker} {notes : List Note} {before before' : List Operation}
  {closed : List Closing}

theorem of_before (hs : Exempts rule t notes before closed)
    (hexports : ∀ name, Operation.exports before' name = Operation.exports before name)
    (hrule : Operation.ruleAfterAll rule before' = Operation.ruleAfterAll rule before) :
    Exempts rule t notes before' closed :=
  ⟨fun name => (hs.exported name).trans (hexports name).symm, hs.current.trans hrule.symm,
    hs.frames, hs.unused, hs.reported⟩

/-- What is listed of the frames that are closed stays as it is. -/
theorem listedAt_eq (hs : Exempts rule t notes before closed) (hstays : t.Stays t') {c : Closing}
    (hmem : c ∈ closed) : t'.listedAt rule c = t.listedAt rule c := by
  obtain ⟨hframe, hclosed⟩ :=
    Tracker.not_mem_stack_of_closed hs.frames (List.mem_map_of_mem hmem)
  exact hstays.listedAt_eq hframe hclosed rule

theorem flatMap_listedAt (hs : Exempts rule t notes before closed) (hstays : t.Stays t') :
    closed.flatMap (t'.listedAt rule) = closed.flatMap (t.listedAt rule) :=
  List.flatMap_congr fun _ hmem => hs.listedAt_eq hstays hmem

theorem flatMap_reportedAt (hs : Exempts rule t notes before closed) (hstays : t.Stays t') :
    closed.flatMap (t'.reportedAt rule) = closed.flatMap (t.reportedAt rule) :=
  List.flatMap_congr fun c hmem => by
    rw [Tracker.reportedAt, hs.listedAt_eq hstays hmem]
    rfl

/-- An operation that closes no frame. -/
theorem of_opens (hs : Exempts rule t notes before closed) (hopens : t.Opens t')
    (hexported : ∀ name, t'.exported.contains name = Operation.exports before' name)
    (hrule : t'.rules.unused = Operation.ruleAfterAll rule before')
    (hunused : t'.unused = t.unused) : Exempts rule t' notes before' closed where
  exported := hexported
  current := hrule
  frames := hopens.perm_frames hs.frames
  unused := by rw [hunused, hs.unused, hs.flatMap_listedAt hopens.toStays]
  reported := by rw [hs.reported, hs.flatMap_reportedAt hopens.toStays]

/-- Closing a frame lists what is not exported by then. -/
theorem exitScope (hs : Exempts rule t notes before closed) {f : Nat} {stack : List Nat}
    (hstack : t.stack = f :: stack) : Noted.exitScope.Ensures t notes fun _ t' notes' =>
      Exempts rule t' notes' before (closed ++ [⟨f, before⟩]) ∧ t'.stack = stack ∧
        t'.frames.size = t.frames.size := by
  have hkeeps := Noted.Erases.exitScope.ensures
    ((inferInstance : Action.KeepsExported Action.exitScope).ensures t) notes
  refine (Action.Ensures.and (Noted.exitScope_leaves hstack) hkeeps).mono ?_
  rintro ⟨⟨⟩, notes'⟩ _ ⟨⟨t₁, hleaves, rfl, hnotes⟩, hexported⟩
  obtain rfl : notes' = _ := hnotes
  replace hexported : t₁.exported = t.exported := hexported
  have hlisted : t₁.listed t₁.rules.unused t₁.exported f = t₁.listedAt rule ⟨f, before⟩ := by
    rw [t₁.listed_eq_filter, hleaves.rule, hs.current, hexported]
    exact List.filter_congr fun entry _ => by rw [hs.exported]
  have hlistedAt (unused : List UnusedBinding) :
      ({ t₁ with unused } : Tracker).listedAt rule = t₁.listedAt rule := by
    funext c
    rw [Tracker.listedAt, Tracker.listed_with_unused]
    rfl
  have hreportedAt (unused : List UnusedBinding) :
      ({ t₁ with unused } : Tracker).reportedAt rule = t₁.reportedAt rule := by
    funext c
    rw [Tracker.reportedAt, hlistedAt]
    rfl
  refine ⟨⟨?_, ?_, ?_, ?_, ?_⟩, hleaves.stack, hleaves.size⟩
  · exact fun name => (congrArg (List.contains · name) hexported).trans (hs.exported name)
  · exact hleaves.rule.trans hs.current
  · rw [List.map_append]
    exact hleaves.perm_frames hstack hs.frames
  · dsimp only
    rw [hlistedAt, List.flatMap_append, hs.flatMap_listedAt hleaves.toStays, ← hs.unused,
      hleaves.unused, hlisted, List.flatMap_singleton]
  · rw [List.filterMap_append, Noted.filterMap_report?, hreportedAt, List.flatMap_append,
      hs.flatMap_reportedAt hleaves.toStays, ← hs.reported, List.flatMap_singleton, hlisted,
      hleaves.rule, hs.current]
    rfl

end Exempts

namespace Operation

variable {rule : UnusedRule} {t : Tracker} {notes : List Note} {before : List Operation}
  {closed : List Closing}

/-- Only an export adds to the exported names. -/
theorem perform_exported {operation : Operation} (hopens : operation.opensOnly) :
    operation.perform.Ensures t fun _ t' => ∀ name,
      t'.exported.contains name = (t.exported.contains name || operation.exportsName name) := by
  have hkeeps (action : Action Unit) [haction : Action.KeepsExported action] :
      action.Ensures t fun _ t' => ∀ name,
        t'.exported.contains name = (t.exported.contains name || false) :=
    (haction.ensures t).mono fun _ _ h name => by rw [h, Bool.or_false]
  have hsame {change : Tracker → Tracker} (h : (change t).exported = t.exported) :
      (Action.update change).Ensures t fun _ t' => ∀ name,
        t'.exported.contains name = (t.exported.contains name || false) :=
    .update fun name => by rw [h, Bool.or_false]
  cases operation with
  | exitScope | setRules => cases hopens
  | markExported name =>
      refine .update fun name' => ?_
      unfold Tracker.markExported
      by_cases hmem : name ∈ t.exported <;> by_cases heq : name' = name <;>
        simp [exportsName, hmem, heq]
  | declare name kind position => exact hkeeps (Action.declare name kind position)
  | declareBlockFunction name position => exact hkeeps (Action.declareBlockFunction name position)
  | declareParameter name position distinct =>
      exact hkeeps (Action.declareParameter name position distinct)
  | markInitialized name offset =>
      refine hsame ?_
      unfold Tracker.markInitialized
      split <;> rfl
  | changeSink change =>
      rintro sink a s ⟨⟩ name
      exact (Bool.or_false _).symm
  | _ => exact hsame rfl

/-- What an operation that closes no frame and sets no rules does to the stack of open frames. -/
theorem perform_stack {operation : Operation} (hopens : operation.opensOnly)
    (hstack : t.stack ≠ []) : operation.perform.Ensures t fun _ t' => t.Opens t' ∧
      t'.stack = operation.stackAfter t.frames.size t.stack ∧
        t'.frames.size = operation.sizeAfter t.frames.size := by
  refine ((perform_opens hopens hstack).and (operation.perform_depth hstack)).mono
    fun _ t' h => ⟨h.1, ?_⟩
  obtain ⟨hframes, hdepth⟩ := h
  cases operation <;> rcases hframes.frames with h | h <;>
    simp_all [depthAfter, stackAfter, sizeAfter, opensOnly]

theorem exports_concat (before : List Operation) (operation : Operation) (name : String) :
    exports (before ++ [operation]) name = (exports before name || operation.exportsName name) := by
  simp [exports]

theorem ruleAfterAll_concat (rule : UnusedRule) (before : List Operation) (operation : Operation) :
    ruleAfterAll rule (before ++ [operation]) =
      operation.ruleAfter (ruleAfterAll rule before) := by
  simp [ruleAfterAll]

/-- What one operation lists and closes. -/
theorem noted_exempts (operation : Operation) (hstack : t.stack ≠ [])
    (hs : Exempts rule t notes before closed) :
    operation.noted.Ensures t notes fun _ t' notes' =>
      Exempts rule t' notes' (before ++ [operation])
          (closed ++ operation.closed t.stack before) ∧
        t'.stack = operation.stackAfter t.frames.size t.stack ∧
          t'.frames.size = operation.sizeAfter t.frames.size := by
  have hexports (hsame : ∀ name, operation.exportsName name = false) (name : String) :
      exports (before ++ [operation]) name = exports before name := by
    rw [exports_concat, hsame, Bool.or_false]
  by_cases hopens : operation.opensOnly
  · have hnoted : operation.noted = liftM operation.perform := by
      cases operation <;> first | rfl | cases hopens
    have hclosed : operation.closed t.stack before = [] := by
      cases operation <;> first | rfl | cases hopens
    have hrule (rule : UnusedRule) : operation.ruleAfter rule = rule := by
      cases operation <;> first | rfl | cases hopens
    have hperform := (perform_stack hopens hstack).and ((perform_exported hopens).and
      ((perform_unlisting hopens).ensures t))
    rw [hnoted, hclosed, List.append_nil]
    refine .lift (hperform.mono ?_)
    rintro _ t' ⟨⟨hopened, hstack', hsize⟩, hexported, hrule', hunused⟩
    refine ⟨hs.of_opens hopened (fun name => ?_) ?_ hunused, hstack', hsize⟩
    · rw [hexported, hs.exported, exports_concat]
    · rw [hrule', hs.current, ruleAfterAll_concat, hrule]
  · cases operation with
    | exitScope =>
        obtain ⟨f, stack, hcons⟩ := List.exists_cons_of_ne_nil hstack
        refine (hs.exitScope hcons).mono fun _ t' notes' h => ?_
        rw [hcons]
        exact ⟨h.1.of_before (hexports fun _ => rfl) (ruleAfterAll_concat ..), h.2⟩
    | setRules rules =>
        have hclosed : (setRules rules).closed t.stack before = [] := rfl
        rw [hclosed, List.append_nil]
        have hopened : t.Opens (t.setRules rules) := .of_frames_eq rfl rfl
        refine .lift (.update ⟨hs.of_opens hopened (fun name => ?_) ?_ rfl, rfl, rfl⟩)
        · exact (hs.exported name).trans (hexports (fun _ => rfl) name).symm
        · exact (ruleAfterAll_concat rule before (setRules rules)).symm
    | _ => exact absurd rfl hopens

theorem notedAll_exempts {operations : List Operation}
    (hopen : keepOpen t.stack.length operations) (hstack : t.stack ≠ [])
    (hs : Exempts rule t notes before closed) :
    (notedAll operations).Ensures t notes fun _ t' notes' => ∃ closed',
      Exempts rule t' notes' (before ++ operations) closed' ∧
        closed' ++ t'.stack.map (⟨·, before ++ operations⟩) =
          closed ++ closings t.frames.size t.stack before operations := by
  induction operations generalizing t notes before closed with
  | nil => exact .pure ⟨closed, by rwa [List.append_nil], by rw [List.append_nil]; rfl⟩
  | cons operation operations ih =>
      obtain ⟨hpos, hrest⟩ := (Bool.and_eq_true _ _).mp hopen
      refine .bind ((noted_exempts operation hstack hs).mono ?_)
      rintro _ t' notes' ⟨hs', hstack', hsize⟩
      have hlength : t'.stack.length = operation.depthAfter t.stack.length := by
        rw [hstack', length_stackAfter]
      have hnext := ih (hlength ▸ hrest)
        (List.ne_nil_of_length_pos (hlength ▸ of_decide_eq_true hpos)) hs'
      rw [closings, ← List.append_assoc closed, ← hstack', ← hsize]
      rwa [List.append_assoc] at hnext

end Operation

/-- The frames that are left are closed with all exports known. -/
theorem Exempts.finish {rule : UnusedRule} {t : Tracker} {notes : List Note}
    {before : List Operation} {closed : List Closing} (hs : Exempts rule t notes before closed) :
    Noted.finish.Ensures t notes fun _ t' notes' =>
      Exempts rule t' notes' before (closed ++ t.stack.map (⟨·, before⟩)) ∧ t'.stack = [] := by
  refine .bind (.lift (.tracker ?_))
  refine (Noted.Ensures.forM (fun ids t' notes' => t'.stack = ids ∧ ∃ closed',
    Exempts rule t' notes' before closed' ∧
      closed' ++ ids.map (⟨·, before⟩) = closed ++ t.stack.map (⟨·, before⟩))
    ⟨rfl, closed, hs, rfl⟩ ?_).mono ?_
  · rintro f ids t' notes' ⟨hstack, closed', hs', hclosed⟩
    refine (hs'.exitScope hstack).mono fun _ t'' notes'' h => ⟨h.2.1, _, h.1, ?_⟩
    rw [← hclosed, List.append_assoc]
    rfl
  · rintro _ t' notes' ⟨hstack, closed', hs', hclosed⟩
    rw [List.map_nil, List.append_nil] at hclosed
    exact ⟨hclosed ▸ hs', hstack⟩

theorem Exempts.start (known : KnownGlobals) (rules : Rules) (module strict : Bool) :
    Exempts rules.unused (.start known rules module strict) [] [] [] where
  exported _ := by cases module <;> rfl
  current := by cases module <;> rfl
  frames := (Lists.start known rules module strict).frames
  unused := by cases module <;> rfl
  reported := rfl

namespace Operation

/-- In a run that comes to its end, the unused bindings are those of its frames in the order in
which they were closed, each under the rule of that time, and with the names left out that were
exported before that, whatever kind of frame it is. The reports are the same, but for the frames
closed while the rule was off. The global frame is closed after all exports, and so is that of a
module which no operation closes. -/
theorem exported_exempts_later {known : KnownGlobals} {rules : Rules} {module strict : Bool}
    {sink : Sink} {operations : List Operation} {s : Session}
    (hopen : keepOpen (if module then 2 else 1) operations)
    (hrun : (performAll operations >>= fun _ => Action.finish).run.run
      ⟨.start known rules module strict, sink⟩ = (.ok (), s)) :
    ∃ notes, ((notedAll operations >>= fun _ => Noted.finish).run []).run.run
        ⟨.start known rules module strict, sink⟩ = (.ok ((), notes), s) ∧
      let start := Tracker.start known rules module strict
      let closed := closings start.frames.size start.stack [] operations
      s.tracker.unused = closed.flatMap (s.tracker.listedAt rules.unused) ∧
      notes.filterMap Note.report? = closed.flatMap (s.tracker.reportedAt rules.unused) ∧
      (closed.map (·.frame)).Perm (List.range s.tracker.frames.size) ∧
      ⟨0, operations⟩ ∈ closed ∧ (module → keepOpen 1 operations → ⟨1, operations⟩ ∈ closed) := by
  obtain ⟨notes, hnotes⟩ := Noted.Erases.exists_notes
    (.bind (.operations operations) fun _ => .finish) hrun []
  have hdepth : keepOpen (Tracker.start known rules module strict).stack.length operations := by
    cases module <;> exact hopen
  have hstack : (Tracker.start known rules module strict).stack ≠ [] := by
    cases module <;> exact List.cons_ne_nil _ _
  have hall : (notedAll operations >>= fun _ => Noted.finish).Ensures
      (.start known rules module strict) [] fun _ t notes =>
        Exempts rules.unused t notes operations
          (closings (Tracker.start known rules module strict).frames.size
            (Tracker.start known rules module strict).stack [] operations) ∧ t.stack = [] := by
    refine .bind ((notedAll_exempts hdepth hstack (.start known rules module strict)).mono ?_)
    rintro _ t notes ⟨closed, hs, hclosed⟩
    rw [List.nil_append, List.nil_append] at hclosed
    exact hclosed ▸ hs.finish
  obtain ⟨hs, hclosed⟩ := hall sink _ _ hnotes
  refine ⟨notes, hnotes, hs.unused, hs.reported, ?_, ?_, ?_⟩
  · have hframes := hs.frames
    rwa [hclosed, List.nil_append] at hframes
  · cases module with
    | false => exact mem_closings_of_keepOpen 1 [] [] 0 [] hopen
    | true => exact mem_closings_of_keepOpen 2 [1] [] 0 [] hopen
  · rintro rfl hkept
    exact mem_closings_of_keepOpen 2 [] [0] 1 [] hkept

/-- What happens in `function g() { var n; }`. -/
def innerVariable : List Operation :=
  [.declare "g" .function ⟨1, 10, 9⟩, .enterFunction { name := "g" } ⟨1, 11, 10⟩,
    .declare "n" .varName ⟨1, 20, 19⟩, .exitScope, .addReference "g" ⟨1, 26, 25⟩ .read]

/-- These operations, with the variable exported before or after them. -/
def exportedInnerVariable (early : Bool) : List Operation :=
  if early then .markExported "n" :: innerVariable else innerVariable ++ [.markExported "n"]

/-- The run of these operations. -/
def runInnerVariable (early : Bool) : Except Halt Unit × Session :=
  (performAll (exportedInnerVariable early) >>= fun _ => Action.finish).run.run
    ⟨.start {} { Rules.ofOptions {} with unused := .vars } false false, .start 50 1 (.ofList [])⟩

/-- The variable of the function is exempted by an export before it, but not by one behind it. -/
theorem exempts_later_innerVariable :
    (∀ early, (runInnerVariable early).1 = .ok () ∧
      (runInnerVariable early).2.tracker.unused =
        (closings 1 [0] [] (exportedInnerVariable early)).flatMap
          ((runInnerVariable early).2.tracker.listedAt .vars)) ∧
    (runInnerVariable true).2.tracker.unused = [] ∧
    (runInnerVariable false).2.tracker.unused = [⟨"n", .varName, ⟨1, 20, 19⟩, "g"⟩] := by
  refine ⟨fun early => ?_, by decide +kernel, by decide +kernel⟩
  have hok : (runInnerVariable early).1 = .ok () := by cases early <;> decide +kernel
  have hrun : (performAll (exportedInnerVariable early) >>= fun _ => Action.finish).run.run
      ⟨.start {} { Rules.ofOptions {} with unused := .vars } false false,
        .start 50 1 (.ofList [])⟩ = (.ok (), (runInnerVariable early).2) := by
    rw [← hok]
    rfl
  obtain ⟨-, -, hunused, -⟩ := exported_exempts_later (by cases early <;> decide) hrun
  exact ⟨hok, hunused⟩

end Operation

end ScriptLint.Scope
