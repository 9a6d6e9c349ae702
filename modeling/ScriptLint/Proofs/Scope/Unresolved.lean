import ScriptLint.Proofs.Diagnostic.Told
import ScriptLint.Proofs.Scope.Finding
import ScriptLint.Proofs.Scope.Implied
import ScriptLint.Proofs.Scope.Rest
import ScriptLint.Proofs.Scope.Unused

/-! # Uses of undeclared globals

A reference moves outwards until a frame binds its name. Only when the global frame closes, after all
others, it is known that none does. By then everything else is settled too: which globals are known,
what the rules are, and how each reference uses its variable. So the list of implied globals and the
reports that go with it can be told from what is left in the end.
-/

namespace ScriptLint.Scope

/-! ## Unresolved uses -/

namespace Tracker

/-- Whether a name is that of a known global, or of one that the language has in an edition. -/
def isPredefined (t : Tracker) (edition : Edition) (name : String) : Bool :=
  (t.known.writable? name <|> StandardGlobal.writable? name edition).isSome

/-- Those of some references that need a global which is not predefined. `typeof` needs none. -/
def needy (t : Tracker) (edition : Edition) (ids : List Nat) : List Reference :=
  (ids.map t.reference).filter fun r => r.access ≠ .typeOf && !t.isPredefined edition r.name

/-- The references that no frame binds and that need a global which is not predefined, in the order
in which they were recorded. -/
def unresolvedUses (t : Tracker) (edition : Edition) : List Reference :=
  t.needy edition ((List.range t.references.size).filter (t.resolver? · = none))

variable {t t' : Tracker} {edition : Edition}

theorem isPredefined_eq_false_iff {name : String} :
    t.isPredefined edition name = false ↔
      t.known.writable? name = none ∧ StandardGlobal.writable? name edition = none := by
  unfold isPredefined
  cases t.known.writable? name <;> simp

theorem mem_unresolvedUses_iff {r : Reference} :
    r ∈ t.unresolvedUses edition ↔ ∃ id < t.references.size, t.resolver? id = none ∧
      t.reference id = r ∧ r.access ≠ .typeOf ∧ t.known.writable? r.name = none ∧
      StandardGlobal.writable? r.name edition = none := by
  simp only [unresolvedUses, needy, List.mem_filter, List.mem_map, List.mem_range,
    Bool.and_eq_true, decide_eq_true_eq, Bool.not_eq_true', isPredefined_eq_false_iff]
  constructor
  · rintro ⟨⟨id, ⟨hid, hnone⟩, hr⟩, hneedy⟩
    exact ⟨id, hid, hnone, hr, hneedy⟩
  · rintro ⟨id, hid, hnone, hr, hneedy⟩
    exact ⟨⟨id, ⟨hid, hnone⟩, hr⟩, hneedy⟩

theorem unresolvedUses_sublist (t : Tracker) (edition : Edition) :
    (t.unresolvedUses edition).Sublist t.references.toList := by
  have hall : (List.range t.references.size).map t.reference = t.references.toList := by
    refine List.ext_getElem (by simp) fun i _ hi => ?_
    rw [Array.length_toList] at hi
    simp [reference, hi]
  rw [← hall]
  exact List.filter_sublist.trans (List.filter_sublist.map _)

/-- Those of some references that the global frame does not bind and that need a global which is not
predefined. -/
def missing (t : Tracker) (ids : List Nat) : List Reference :=
  t.needy t.rules.edition (ids.filter fun id => !(t.frame 0).binds (t.reference id).name)

@[simp]
theorem missing_nil (t : Tracker) : t.missing [] = [] := rfl

theorem missing_append (t : Tracker) (first second : List Nat) :
    t.missing (first ++ second) = t.missing first ++ t.missing second := by
  simp [missing, needy]

theorem Rests.missing_eq (hrests : t.Rests t') (hreferences : t'.references = t.references)
    (hknown : t'.known = t.known) (ids : List Nat) : t'.missing ids = t.missing ids := by
  have hreference : t'.reference = t.reference := by
    funext id
    rw [reference, reference, hreferences]
  have hbinds (name : String) : (t'.frame 0).binds name = (t.frame 0).binds name := by
    have hnone : (t'.frame 0).find? name = none ↔ (t.frame 0).find? name = none :=
      (hrests.frame 0).find?_eq_none
    rw [Frame.binds, Frame.binds, Bool.eq_iff_iff, Option.isSome_iff_ne_none,
      Option.isSome_iff_ne_none, Ne, Ne, hnone]
  simp only [missing, needy, isPredefined, hreference, hbinds, hknown, hrests.rules]

end Tracker

/-! ## Closing the global frame -/

/-- Between the two sessions the global frame resolves references, in order. -/
structure Session.Resolves (ids : List Nat) (s s' : Session) : Prop where
  rests : s.tracker.Rests s'.tracker
  references : s'.tracker.references = s.tracker.references
  known : s'.tracker.known = s.tracker.known
  implied : s'.tracker.implied = (s.tracker.missing ids).foldl
    (fun gs r => addImplied r.name r.position.line gs) s.tracker.implied
  sink : s.sink.Collects "W117"
    (if s.tracker.rules.undef then (s.tracker.missing ids).map (·.position) else []) s'.sink

namespace Session.Resolves

variable {ids ids' : List Nat} {s s' s'' : Session}

theorem refl (s : Session) : s.Resolves [] s :=
  ⟨.refl _, rfl, rfl, rfl, by
    rw [Tracker.missing_nil, List.map_nil, ite_self]
    exact .refl _⟩

theorem trans (hfirst : s.Resolves ids s') (hsecond : s'.Resolves ids' s'') :
    s.Resolves (ids ++ ids') s'' := by
  have hmissing := hfirst.rests.missing_eq hfirst.references hfirst.known ids'
  refine ⟨hfirst.rests.trans hsecond.rests, hsecond.references.trans hfirst.references,
    hsecond.known.trans hfirst.known, ?_, ?_⟩
  · rw [hsecond.implied, hmissing, hfirst.implied, s.tracker.missing_append, List.foldl_append]
  · have hsink := hfirst.sink.trans hsecond.sink
    rw [hmissing, hfirst.rests.rules] at hsink
    rw [s.tracker.missing_append, List.map_append]
    split <;> simp_all

/-- What changes neither the list nor what is told of undeclared globals. -/
theorem of_none (hrests : s.tracker.Rests s'.tracker)
    (hreferences : s'.tracker.references = s.tracker.references)
    (hknown : s'.tracker.known = s.tracker.known)
    (himplied : s'.tracker.implied = s.tracker.implied)
    (hsink : s.sink.Collects "W117" [] s'.sink) {ids : List Nat}
    (hmissing : s.tracker.missing ids = []) : s.Resolves ids s' :=
  ⟨hrests, hreferences, hknown, by rw [hmissing]; exact himplied, by
    rw [hmissing, List.map_nil, ite_self]
    exact hsink⟩

theorem modifyFrame (s : Session) {change : Frame → Frame}
    (hchange : ∀ f : Frame, f.Rests (change f)) :
    s.Resolves [] { s with tracker := s.tracker.modifyFrame 0 change } := by
  have hrests : s.tracker.Rests (s.tracker.modifyFrame 0 change) := .modifyFrame _ 0 hchange
  exact { refl s with rests := hrests, references := rfl, known := rfl }

end Session.Resolves

namespace Action

variable {α : Type} {s : Session}

/-- An action that does not report a code collects nothing with it. -/
theorem ReportsOnly.collects {codes : List String} {action : Action α}
    (haction : ReportsOnly codes action) (hsteps : action.Stepwise) {code : String}
    (hcode : code ∉ codes) (s : Session) :
    s.sink.Collects code [] (action.run.run s).2.sink := by
  obtain ⟨ps, hcollects⟩ := hsteps.relates (R := fun a b => ∃ ps, a.Collects code ps b)
    (fun a => ⟨_, .refl a⟩) (fun ⟨_, hab⟩ ⟨_, hbc⟩ => ⟨_, hab.trans hbc⟩)
    (fun a code' position arguments scope => ⟨_, .report a code' position arguments scope⟩) s
  exact hcollects.of_none fun d hmem hd => haction.spares hcode s hmem hd

theorem Leads.collects {codes : List String} {action : Action α}
    [haction : ReportsOnly codes action] [hsteps : action.Stepwise] {code : String}
    (hcode : code ∉ codes) : action.Leads s fun _ s' => s.sink.Collects code [] s'.sink := by
  intro a s' hrun
  have hcollects := haction.collects hsteps hcode s
  rwa [hrun] at hcollects

theorem ChangesFrames.leads {action : Action α} (haction : ChangesFrames action) (s : Session) :
    action.Leads s fun _ s' => ∃ frames, s'.tracker = { s.tracker with frames } := by
  intro a s' hrun
  have heq := haction.eq s
  rwa [hrun] at heq

/-- A reference that the global frame binds is not missing. -/
theorem resolveTo_resolves {id : Nat} {b : Binding}
    (hfind : (s.tracker.frame 0).find? (s.tracker.reference id).name = some b) :
    (resolveTo 0 b (s.tracker.reference id)).Leads s fun _ s' => s.Resolves [id] s' := by
  have hrests : (resolveTo 0 b (s.tracker.reference id)).Leads s fun _ s' =>
      s.tracker.Rests s'.tracker := by
    refine .of_ensures (resolveTo_ensures ?_)
    exact .modifyFrame _ 0 fun g => .modify g b.name fun _ => rfl
  have hframes := (inferInstance : ChangesFrames
    (resolveTo 0 b (s.tracker.reference id))).leads s
  have hcollects : (resolveTo 0 b (s.tracker.reference id)).Leads s fun _ s' =>
      s.sink.Collects "W117" [] s'.sink :=
    .collects (show "W117" ∉ bindingCodes by decide)
  refine (hrests.and (hframes.and hcollects)).mono fun _ s' h => ?_
  obtain ⟨hrests, ⟨frames, hframes⟩, hcollects⟩ := h
  have hmissing : s.tracker.missing [id] = [] := by
    simp [Tracker.missing, Tracker.needy, Frame.binds, hfind]
  exact .of_none hrests (by rw [hframes]) (by rw [hframes]) (by rw [hframes]) hcollects hmissing

/-- A reference that the global frame does not bind is missing if it needs a global that is not
predefined. -/
theorem resolveGlobal_resolves {id : Nat}
    (hnone : (s.tracker.frame 0).find? (s.tracker.reference id).name = none) :
    (resolveGlobal (s.tracker.reference id)).Leads s fun _ s' => s.Resolves [id] s' := by
  let r := s.tracker.reference id
  have hneedy : s.tracker.missing [id] = if r.access ≠ .typeOf &&
      !s.tracker.isPredefined s.tracker.rules.edition r.name then [r] else [] := by
    simp [Tracker.missing, Tracker.needy, Frame.binds, hnone, List.filter_cons, r]
  have hspared {s' : Session} (htracker : s'.tracker = s.tracker)
      (hsink : s.sink.Collects "W117" [] s'.sink) (hmissing : s.tracker.missing [id] = []) :
      s.Resolves [id] s' := by
    refine .of_none ?_ ?_ ?_ ?_ hsink hmissing <;> rw [htracker]
    exact .refl _
  refine .bind (.tracker ?_)
  dsimp only
  split
  next writable hpredefined =>
    have hmissing : s.tracker.missing [id] = [] := by
      rw [hneedy]
      simp [Tracker.isPredefined, hpredefined, r]
    have hother : s.sink.Collects "W117" [] _ :=
      .report s.sink "W020" r.position [] (s.tracker.functionNameOf r.origin)
    exact .ite (fun _ => .report (hspared rfl hother hmissing))
      fun _ => .pure (hspared rfl (.refl _) hmissing)
  next hunknown =>
    refine .ite (fun haccess => .bind (.update ?_)) fun haccess => .pure ?_
    · have hmissing : s.tracker.missing [id] = [r] := by
        rw [hneedy]
        simp [Tracker.isPredefined, hunknown, r, haccess]
      have hresolves {s' : Session} (htracker : s'.tracker =
          { s.tracker with implied := addImplied r.name r.position.line s.tracker.implied })
          (hsink : s.sink.Collects "W117"
            (if s.tracker.rules.undef then [r.position] else []) s'.sink) :
          s.Resolves [id] s' := by
        refine ⟨?_, ?_, ?_, ?_, by rw [hmissing]; exact hsink⟩ <;> rw [htracker]
        · exact .of_frames_eq rfl rfl rfl
        · rw [hmissing]
          rfl
      refine .ite (fun hundef => .report (hresolves rfl ?_)) fun hundef => .pure (hresolves rfl ?_)
      · rw [if_pos hundef]
        exact .report s.sink "W117" r.position [r.name] _
      · rw [if_neg hundef]
        exact .refl _
    · refine hspared rfl (.refl _) ?_
      rw [hneedy]
      simp [r, haccess]

/-- The global frame resolves a reference. -/
theorem resolve_resolves (hroot : (s.tracker.frame 0).parent? = none) (id : Nat) :
    (resolve 0 id).Leads s fun _ s' => s.Resolves [id] s' := by
  refine .bind (.tracker ?_)
  dsimp only
  split
  next hfind => exact resolveTo_resolves hfind
  next hparent => rw [hroot] at hparent; cases hparent
  next hnone hroot => exact resolveGlobal_resolves hnone

/-- The global frame resolves all references that have come to it. -/
theorem resolveAll_resolves (hroot : (s.tracker.frame 0).parent? = none) :
    (resolveAll 0).Leads s fun _ s' => s.Resolves (s.tracker.frame 0).pending.mergeSort s' := by
  refine .bind (.tracker (.bind (.update ?_)))
  -- What is done and what is left of the loop are all of them.
  refine (Leads.forM (fun rest s' => ∃ done,
    done ++ rest = (s.tracker.frame 0).pending.mergeSort ∧ s.Resolves done s') ⟨[], rfl, ?_⟩
    fun id rest s' h => ?_).mono fun _ s' h => ?_
  · exact .modifyFrame s fun _ => ⟨rfl, rfl, rfl, rfl, fun _ => rfl⟩
  · obtain ⟨done, hdone, hresolves⟩ := h
    have hroot' := ((hresolves.rests.frame 0).parent?).trans hroot
    refine (resolve_resolves hroot' id).mono fun _ s'' h => ⟨done ++ [id], ?_, hresolves.trans h⟩
    rw [← hdone, List.append_assoc]
    rfl
  · obtain ⟨done, hdone, hresolves⟩ := h
    rw [List.append_nil] at hdone
    exact hdone ▸ hresolves

/-- Closing the global frame, the last one, is to resolve the references that have come to it. -/
theorem exitScope_resolves (hroot : (s.tracker.frame 0).parent? = none)
    (hstack : s.tracker.stack = [0]) :
    exitScope.Leads s fun _ s' => Session.Resolves (s.tracker.frame 0).pending.mergeSort
      { s with tracker := { s.tracker with stack := [] } } s' := by
  have hstate (s : Session) (state : FrameState) :
      s.Resolves [] { s with tracker := s.tracker.modifyFrame 0 fun g => { g with state } } :=
    .modifyFrame s fun _ => ⟨rfl, rfl, rfl, rfl, fun _ => rfl⟩
  let s₁ : Session := { s with
    tracker := ({ s.tracker with stack := [] } : Tracker).modifyFrame 0
      fun g => { g with state := .closing } }
  have hpending : (s₁.tracker.frame 0).pending = (s.tracker.frame 0).pending :=
    Tracker.field_modifyFrame Frame.pending rfl 0
  have hroot' : (s₁.tracker.frame 0).parent? = none :=
    (Tracker.field_modifyFrame Frame.parent? rfl 0).trans hroot
  refine .bind (.tracker ?_)
  rw [hstack]
  refine .bind (.update (.bind ((resolveAll_resolves hroot').mono fun _ s₂ hresolves => ?_)))
  rw [hpending] at hresolves
  refine .bind (.update ?_)
  let s₃ : Session := { s₂ with
    tracker := s₂.tracker.modifyFrame 0 fun g => { g with state := .closed } }
  have hunused : (reportUnused 0).Leads s₃ fun _ s' => s₃.Resolves [] s' := by
    have hlisted := Leads.of_ensures (s := s₃)
      ((reportUnused_rests 0).and (reportUnused_lists 0 s₃.tracker))
    have hcollects : (reportUnused 0).Leads s₃ fun _ s' => s₃.sink.Collects "W117" [] s'.sink :=
      .collects (show "W117" ∉ ["W098"] by decide)
    refine (hlisted.and hcollects).mono fun _ s' h => ?_
    obtain ⟨⟨hrests, htracker⟩, hsink⟩ := h
    exact .of_none hrests (by rw [htracker]) (by rw [htracker]) (by rw [htracker]) hsink
      (Tracker.missing_nil _)
  refine hunused.mono fun _ s' h => ?_
  have hclosing := hstate { s with tracker := { s.tracker with stack := [] } } .closing
  have hall := ((hclosing.trans hresolves).trans (hstate s₂ .closed)).trans h
  rwa [List.append_nil, List.append_nil, List.nil_append] at hall

end Action

/-! ## What has come to the global frame -/

namespace Tracker

variable {t : Tracker}

/-- Where the search has come to the global frame, that one alone may still bind the name. -/
theorem Reached.resolver?_eq_none_iff {id : Nat} {crossed : Bool} (ht : t.Arena)
    (hindexed : ∀ i, (t.frame i).Indexed) (hreached : t.Reached id 0 crossed) :
    t.resolver? id = none ↔ (t.frame 0).binds (t.reference id).name = false := by
  obtain ⟨below, above, hpath, hbelow, -⟩ := hreached
  have hroot : t.path 0 = [0] := path_of_root ((ht.root 0 ht.size_pos).mpr rfl)
  obtain ⟨-, rfl⟩ := List.cons.inj ((path_of_path_eq_append hpath).symm.trans hroot)
  unfold resolver?
  simp only [← (hindexed _).binds_eq_any, hpath, List.find?_eq_none, Bool.not_eq_true]
  refine ⟨fun h => h 0 (List.mem_append_right _ List.mem_cons_self), fun h i hi => ?_⟩
  rcases List.mem_append.mp hi with hi | hi
  · exact (hbelow i hi).2
  · exact List.mem_singleton.mp hi ▸ h

end Tracker

namespace Stage.Sound

variable {t : Tracker} {log : List Event}

/-- When only the global frame is open, the references that no frame binds wait there. -/
theorem mem_pending_iff (hs : Sound ⟨t, log, none⟩) (hstack : t.stack = [0]) (id : Nat) :
    (id ∈ (t.frame 0).pending ∧ (t.frame 0).binds (t.reference id).name = false) ↔
      id < t.references.size ∧ t.resolver? id = none := by
  have hnone (hmem : id ∈ (t.frame 0).pending) :
      t.resolver? id = none ↔ (t.frame 0).binds (t.reference id).name = false :=
    (hs.placed.reached 0 id (.inl ⟨hstack ▸ List.mem_singleton_self 0, hmem⟩)).resolver?_eq_none_iff
      hs.orderly.arena hs.orderly.indexed
  constructor
  · rintro ⟨hmem, hbinds⟩
    refine ⟨hs.counted.lt_size (.inl ?_), (hnone hmem).mpr hbinds⟩
    exact WaitsIn.mem_waiting (.inl ⟨hstack ▸ List.mem_singleton_self 0, hmem⟩)
  · rintro ⟨hid, hunbound⟩
    rcases hs.counted.waits_or_resolved hs.orderly hid with ⟨-, i, hi, hcount, -⟩ | ⟨honce, -⟩
    · obtain rfl := List.mem_singleton.mp (hstack ▸ hi)
      have hmem : id ∈ (t.frame 0).pending := List.count_pos_iff.mp (hcount ▸ Nat.one_pos)
      exact ⟨hmem, (hnone hmem).mp hunbound⟩
    · -- What no frame binds is resolved when the global frame is left, and it is open.
      obtain ⟨event, hmem, hresolves⟩ := List.countP_pos_iff.mp (honce ▸ Nat.one_pos)
      have hevent := hs.placed.resolved_eq hs.orderly hmem hresolves
      rw [hevent, hunbound] at hmem
      have hleft := (hs.placed.settled id none _ hmem).2.1
      exact absurd (hstack ▸ List.mem_singleton_self 0) hleft

theorem missing_pending (hs : Sound ⟨t, log, none⟩) (hstack : t.stack = [0]) :
    t.missing (t.frame 0).pending.mergeSort = t.unresolvedUses t.rules.edition := by
  refine congrArg (t.needy t.rules.edition) ?_
  have hpending : (t.frame 0).pending.Nodup := by
    have hnodup := hs.counted.nodup
    simpa [waiting, Tracker.pending, hstack] using hnodup
  have hsorted : (t.frame 0).pending.mergeSort.Pairwise (· ≤ ·) := by
    have hle : (t.frame 0).pending.mergeSort.Pairwise fun a b => decide (a ≤ b) = true :=
      List.pairwise_mergeSort (by simp; omega) (by simp; omega) _
    simpa using hle
  have hfirst := hsorted.filter fun id => !(t.frame 0).binds (t.reference id).name
  have hsecond : ((List.range t.references.size).filter (t.resolver? · = none)).Pairwise (· ≤ ·) :=
    (List.pairwise_lt_range.imp Nat.le_of_lt).filter _
  refine List.Perm.eq_of_pairwise (fun _ _ _ _ => Nat.le_antisymm) hfirst hsecond ?_
  refine (List.perm_ext_iff_of_nodup ?_ ?_).mpr fun id => ?_
  · exact ((List.mergeSort_perm _ _).nodup_iff.mpr hpending).filter _
  · exact List.nodup_range.filter _
  · rw [List.mem_filter, List.mem_filter, (List.mergeSort_perm _ _).mem_iff, List.mem_range,
      Bool.not_eq_true', decide_eq_true_eq]
    exact hs.mem_pending_iff hstack id

end Stage.Sound

/-! ## Closing the other frames -/

/-- Nothing is known of undeclared globals yet. -/
structure Session.ImpliesNone (s : Session) : Prop where
  implied : s.tracker.implied = []
  untold : ∀ d ∈ s.sink.accepted, d.code ≠ "W117"

namespace Action

variable {α : Type} {s : Session}

/-- An action that neither adds to the list nor reports an undeclared global. -/
theorem ReportsOnly.impliesNone {codes : List String} {action : Action α}
    (haction : ReportsOnly codes action) (hcode : "W117" ∉ codes) (hs : s.ImpliesNone)
    (himplied : action.Leads s fun _ s' => s'.tracker.implied = s.tracker.implied) :
    action.Leads s fun _ s' => s'.ImpliesNone := by
  intro a s' hrun
  refine ⟨(himplied a s' hrun).trans hs.implied, fun d hmem hd => ?_⟩
  have hmem' : d ∈ (action.run.run s).2.sink.accepted := by rwa [hrun]
  exact hs.untold d (haction.spares hcode s hmem' hd) hd

/-- A frame other than the global one moves on what it does not bind. -/
theorem resolve_impliesNone {f parent : Nat} (hparent : (s.tracker.frame f).parent? = some parent)
    (hs : s.ImpliesNone) (id : Nat) : (resolve f id).Leads s fun _ s' => s'.ImpliesNone := by
  refine .bind (.tracker ?_)
  dsimp only
  split
  next b hfind =>
    have hreports : ReportsOnly bindingCodes (resolveTo f b (s.tracker.reference id)) :=
      inferInstance
    have hframes : ChangesFrames (resolveTo f b (s.tracker.reference id)) := inferInstance
    refine hreports.impliesNone (by decide) hs ((hframes.leads s).mono fun _ s' h => ?_)
    obtain ⟨frames, htracker⟩ := h
    rw [htracker]
  next =>
    exact .ite (fun _ => .bind (.update (.update ⟨hs.implied, hs.untold⟩)))
      fun _ => .update ⟨hs.implied, hs.untold⟩
  next hroot => rw [hparent] at hroot; cases hroot

/-- Closing a frame other than the global one implies nothing. -/
theorem exitScope_impliesNone {f parent : Nat} {stack : List Nat}
    (hstack : s.tracker.stack = f :: stack) (hparent : (s.tracker.frame f).parent? = some parent)
    (hs : s.ImpliesNone) :
    exitScope.Leads s fun _ s' => s'.ImpliesNone := by
  have hresolve {s : Session} (hparent : (s.tracker.frame f).parent? = some parent)
      (hs : s.ImpliesNone) : (resolveAll f).Leads s fun _ s' => s'.ImpliesNone := by
    refine .bind (.tracker (.bind (.update ?_)))
    refine .mono (.forM (fun _ s' => (s'.tracker.frame f).parent? = some parent ∧ s'.ImpliesNone)
      ⟨?_, hs.implied, hs.untold⟩ fun id rest s' h => ?_) fun _ s' h => h.2
    · exact (Tracker.field_modifyFrame Frame.parent? rfl f).trans hparent
    · refine .and ?_ (resolve_impliesNone h.1 h.2 id)
      refine .mono (.of_ensures (resolve_rests f id)) fun _ _ hrests => ?_
      exact (hrests.frame f).parent?.trans h.1
  refine .bind (.tracker ?_)
  rw [hstack]
  refine .bind (.update (.bind (.mono (hresolve ?_ ⟨hs.implied, hs.untold⟩) fun _ s₁ hs₁ => ?_)))
  · exact (Tracker.field_modifyFrame Frame.parent? rfl f).trans hparent
  · have hreports : ReportsOnly ["W098"] (reportUnused f) := inferInstance
    refine .bind (.update (hreports.impliesNone (by decide) ⟨hs₁.implied, hs₁.untold⟩ ?_))
    refine .mono (.of_ensures (reportUnused_lists f _)) fun _ _ htracker => ?_
    rw [htracker]

end Action

/-! ## Closing all frames -/

namespace Tracker

variable {t t' : Tracker}

/-- The tracker came about by steps of scope analysis. -/
def Traced (t : Tracker) : Prop := ∃ log, Stage.Sound ⟨t, log, none⟩

theorem Traced.start (known : KnownGlobals) (rules : Rules) (module strict : Bool) :
    (Tracker.start known rules module strict).Traced := ⟨[], .start known rules module strict⟩

theorem Traced.indexed (ht : t.Traced) (i : Nat) : (t.frame i).Indexed := by
  obtain ⟨log, hs⟩ := ht
  exact hs.orderly.indexed i

theorem Traced.arena (ht : t.Traced) : t.Arena := by
  obtain ⟨log, hs⟩ := ht
  exact hs.orderly.arena

/-- The frame around the innermost open one is the next on the stack. -/
theorem Arena.parent?_of_stack (ht : t.Arena) {f : Nat} {rest : List Nat}
    (hstack : t.stack = f :: rest) : (t.frame f).parent? = rest.head? := by
  have hlt : f < t.frames.size := ht.stack_lt f (hstack ▸ List.mem_cons_self)
  have hpath := (ht.stack f rest hstack).trans hstack
  cases hparent : (t.frame f).parent? with
  | none =>
      rw [path_of_root hparent] at hpath
      rw [← (List.cons.inj hpath).2]
      rfl
  | some parent =>
      rw [path_of_parent hparent (ht.parent_lt f hlt parent hparent)] at hpath
      rw [← (List.cons.inj hpath).2]
      rcases t.path_cases parent with h | ⟨_, -, -, h⟩ <;> rw [h] <;> rfl

/-- What is found out about uses has no effect on which of them are unresolved. -/
theorem unresolvedUses_congr (hframe : ∀ i, (t.frame i).Rests (t'.frame i))
    (hreferences : t'.references = t.references) (hknown : t'.known = t.known)
    (hindexed : ∀ i, (t.frame i).Indexed) (hindexed' : ∀ i, (t'.frame i).Indexed)
    (edition : Edition) :
    t'.unresolvedUses edition = t.unresolvedUses edition := by
  have hreference : t'.reference = t.reference := by
    funext id
    rw [reference, reference, hreferences]
  have hresolver : t'.resolver? = t.resolver? := by
    funext id
    unfold resolver?
    rw [hreference, path_congr fun i _ => (hframe i).parent?]
    refine congrArg (List.find? · _) (funext fun i => ?_)
    let name := (t.reference id).name
    have hnone : (t'.frame i).find? name = none ↔ (t.frame i).find? name = none :=
      (hframe i).find?_eq_none
    rw [← (hindexed i).binds_eq_any, ← (hindexed' i).binds_eq_any, Frame.binds, Frame.binds,
      Bool.eq_iff_iff, Option.isSome_iff_ne_none, Option.isSome_iff_ne_none, Ne, Ne, hnone]
  simp only [unresolvedUses, needy, isPredefined, hreference, hresolver, hreferences, hknown]

end Tracker

/-- The list of implied globals and the reports of undeclared ones are what is left to tell of the
references. -/
structure Session.Concluded (s : Session) : Prop where
  implied : s.tracker.implied = impliedBy (s.tracker.unresolvedUses s.tracker.rules.edition)
  undeclared : ∀ r ∈ s.tracker.unresolvedUses s.tracker.rules.edition,
    r.name ∉ (s.tracker.frame 0).bindings.map (·.name)
  collected : s.sink.isHalted = false → (s.sink.accepted.toList.map Diagnostic.key).Nodup →
    ((s.tracker.unresolvedUses s.tracker.rules.edition).map (·.position.place)).Nodup →
    s.sink.collected "W117" = if s.tracker.rules.undef then
      ((s.tracker.unresolvedUses s.tracker.rules.edition).map (·.position)).filter
        fun p => !s.sink.suppresses "W117" p.line
      else []

namespace Operation

variable {t : Tracker}

theorem perform_traced (operation : Operation) (hstack : t.stack ≠ []) (ht : t.Traced) :
    operation.perform.Ensures t fun _ t' => t'.Traced := by
  obtain ⟨log, hs⟩ := ht
  intro sink _ s hrun
  obtain ⟨log', hlog⟩ := operation.log_erases.exists_log hrun log
  exact ⟨log', hs.steps (operation.log_steps hstack sink _ _ hlog).1⟩

end Operation

namespace Action

variable {s : Session} {t : Tracker}

theorem exitScope_concludes (hstack : s.tracker.stack = [0]) (ht : s.tracker.Traced)
    (hnone : s.ImpliesNone) : exitScope.Leads s fun _ s' => s'.Concluded := by
  have hroot : (s.tracker.frame 0).parent? = none :=
    (ht.arena.root 0 ht.arena.size_pos).mpr rfl
  have hnonempty : s.tracker.stack ≠ [] := by simp [hstack]
  have htraced : exitScope.Leads s fun _ s' => s'.tracker.Traced :=
    .of_ensures (Operation.exitScope.perform_traced hnonempty ht)
  refine ((exitScope_resolves hroot hstack).and htraced).mono fun _ s' h => ?_
  obtain ⟨⟨hrests, hreferences, hknown, himplied, hsink⟩, ht'⟩ := h
  obtain ⟨log, hs⟩ := ht
  have hmissing := hs.missing_pending hstack
  have hrules : s'.tracker.rules = s.tracker.rules := hrests.rules
  have huses : s'.tracker.unresolvedUses s.tracker.rules.edition =
      s.tracker.unresolvedUses s.tracker.rules.edition :=
    Tracker.unresolvedUses_congr (t := s.tracker) hrests.frame hreferences hknown
      hs.orderly.indexed ht'.indexed _
  refine ⟨?_, ?_, ?_⟩ <;> rw [hrules, huses]
  · rw [himplied]
    change (s.tracker.missing _).foldl _ s.tracker.implied = _
    rw [hmissing, hnone.implied]
    rfl
  · intro r hr
    obtain ⟨id, hid, hunbound, rfl, -⟩ := Tracker.mem_unresolvedUses_iff.mp hr
    have hbinds := ((hs.mem_pending_iff hstack id).mpr ⟨hid, hunbound⟩).2
    have hbinds' : (s'.tracker.frame 0).binds (s.tracker.reference id).name = false := by
      rw [← Bool.not_eq_true, Frame.binds, Option.not_isSome_iff_eq_none] at hbinds ⊢
      exact (hrests.frame 0).find?_eq_none.mpr hbinds
    rw [(ht'.indexed 0).binds_eq_any] at hbinds'
    simpa using hbinds'
  · intro hopen hdistinct hplaces
    have huntold : s.sink.collected "W117" = [] := by
      refine List.map_eq_nil_iff.mpr (List.filter_eq_nil_iff.mpr fun d hmem hcode => ?_)
      exact hnone.untold d (Array.mem_toList_iff.mp hmem) (of_decide_eq_true hcode)
    change s.sink.Collects "W117" (if s.tracker.rules.undef then
      (s.tracker.missing _).map (·.position) else []) s'.sink at hsink
    rw [hmissing] at hsink
    have hcollected := hsink.collected hopen hdistinct
    rw [huntold, List.nil_append, ← hsink.suppresses_eq] at hcollected
    split at hcollected
    next hundef =>
      rw [if_pos hundef, hcollected (by rwa [List.map_map])]
      rfl
    next hundef =>
      rw [if_neg hundef]
      exact hcollected List.nodup_nil

/-- Closing all frames, the global one last, concludes the analysis of references. -/
theorem finish_concludes (hstack : s.tracker.stack ≠ []) (ht : s.tracker.Traced)
    (hnone : s.ImpliesNone) : finish.Leads s fun _ s' => s'.Concluded := by
  refine .bind (.tracker ?_)
  generalize hids : s.tracker.stack = ids
  induction ids generalizing s with
  | nil => exact absurd hids hstack
  | cons f rest ih =>
      have hlt : f < s.tracker.frames.size := ht.arena.stack_lt f (hids ▸ List.mem_cons_self)
      have hparent := ht.arena.parent?_of_stack hids
      rcases rest with _ | ⟨g, rest⟩
      · obtain rfl : f = 0 := (ht.arena.root f hlt).mp hparent
        exact .bind ((exitScope_concludes hids ht hnone).mono fun _ _ h => .pure h)
      · refine .bind (((exitScope_impliesNone hids hparent hnone).and (.of_ensures
          ((Operation.exitScope.perform_traced hstack ht).and exitScope_rests))).mono ?_)
        rintro _ s' ⟨hnone', ht', hrests⟩
        have hids' : s'.tracker.stack = g :: rest := by
          rw [hrests.stack, hids]
          rfl
        exact ih (by simp [hids']) ht' hnone' hids'

/-- Closing frames changes neither the rules nor the places of references. -/
theorem finish_keeps (t : Tracker) :
    finish.Ensures t fun _ t' => t'.rules = t.rules ∧ t'.places = t.places := by
  refine .bind (.tracker (.forM (fun _ t' => t'.rules = t.rules ∧ t'.places = t.places)
    ⟨rfl, rfl⟩ fun _ _ t' h => ?_))
  refine (exitScope_rests.and exitScope_places).mono fun _ t'' h' => ?_
  exact ⟨h'.1.rules.trans h.1, h'.2.trans h.2⟩

end Action

namespace Operation

variable {s : Session}

/-- As long as the global frame stays open and no change of the sink adds a report of an undeclared
global, nothing is known of these. -/
theorem perform_impliesNone {operation : Operation} (ht : s.tracker.Traced) (hs : s.ImpliesNone)
    (hopen : 0 < operation.depthAfter s.tracker.stack.length)
    (hsink : ∀ change, operation = changeSink change → ∀ d ∈ (change s.sink).accepted,
      d ∈ s.sink.accepted ∨ d.code ≠ "W117") :
    operation.perform.Leads s fun _ s' => s'.ImpliesNone := by
  have hdeclare (action : Action Unit) [hreports : Action.ReportsOnly
      Action.ReportsOnly.declarationCodes action] [hframes : Action.ChangesFrames action] :
      action.Leads s fun _ s' => s'.ImpliesNone := by
    refine hreports.impliesNone (by decide) hs ((hframes.leads s).mono fun _ s' h => ?_)
    obtain ⟨frames, htracker⟩ := h
    rw [htracker]
  cases operation with
  | exitScope =>
      change 0 < s.tracker.stack.length - 1 at hopen
      rcases hstack : s.tracker.stack with _ | ⟨f, _ | ⟨g, rest⟩⟩
      · simp [hstack] at hopen
      · simp [hstack] at hopen
      · exact Action.exitScope_impliesNone hstack (ht.arena.parent?_of_stack hstack) hs
  | declare name kind position => exact hdeclare (Action.declare name kind position)
  | declareBlockFunction name position => exact hdeclare (Action.declareBlockFunction name position)
  | declareParameter name position distinct =>
      exact hdeclare (Action.declareParameter name position distinct)
  | markInitialized name offset =>
      refine .update ⟨?_, hs.untold⟩
      unfold Tracker.markInitialized
      split <;> exact hs.implied
  | markExported name =>
      refine .update ⟨?_, hs.untold⟩
      unfold Tracker.markExported
      split <;> exact hs.implied
  | changeSink change =>
      rintro _ _ ⟨⟩
      refine ⟨hs.implied, fun d hmem => ?_⟩
      exact (hsink change rfl d hmem).elim (hs.untold d) id
  | _ => exact .update ⟨hs.implied, hs.untold⟩

end Operation

end ScriptLint.Scope
