import Mathlib.Data.List.Induction
import Mathlib.Data.List.Nodup
import ScriptLint.Scope.Resolve

/-! # The list of implied globals

Uses of globals are added to the list one by one, and a name or a line that is there already is not
added again. If the uses come in the order of the source, the names stand in the order of their first
use, and the lines of each increase.
-/

namespace ScriptLint.Scope

/-- The globals that are implied by uses. -/
def impliedBy (uses : List Reference) : List ImpliedGlobal :=
  uses.foldl (fun gs r => addImplied r.name r.position.line gs) []

theorem impliedBy_concat (uses : List Reference) (r : Reference) :
    impliedBy (uses ++ [r]) = addImplied r.name r.position.line (impliedBy uses) := by
  rw [impliedBy, List.foldl_append]
  rfl

/-! ## One use -/

/-- The global with a use on a line added. -/
def ImpliedGlobal.addLine (line : Nat) (g : ImpliedGlobal) : ImpliedGlobal :=
  if g.lines.contains line then g else { g with lines := g.lines ++ [line] }

@[simp]
theorem ImpliedGlobal.addLine_name (line : Nat) (g : ImpliedGlobal) :
    (g.addLine line).name = g.name := by
  unfold addLine
  split <;> rfl

theorem ImpliedGlobal.mem_addLine {line line' : Nat} {g : ImpliedGlobal} :
    line' ∈ (g.addLine line).lines ↔ line' ∈ g.lines ∨ line' = line := by
  unfold addLine
  split
  next h =>
    refine (or_iff_left_of_imp ?_).symm
    rintro rfl
    exact List.contains_iff_mem.mp h
  next => simp

variable {name : String} {line : Nat} {gs : List ImpliedGlobal}

/-- A new name comes last. -/
theorem addImplied_of_not_mem (hname : name ∉ gs.map (·.name)) :
    addImplied name line gs = gs ++ [⟨name, [line]⟩] := by
  induction gs with
  | nil => rfl
  | cons g gs ih =>
      obtain ⟨hne, hrest⟩ := not_or.mp (mt List.mem_cons.mpr hname)
      have hother : (g.name == name) = false := by simpa using Ne.symm hne
      rw [addImplied, hother, if_neg Bool.false_ne_true, ih hrest]
      rfl

/-- A name that is there gets the line in its place. -/
theorem addImplied_of_mem (hnodup : (gs.map (·.name)).Nodup) (hname : name ∈ gs.map (·.name)) :
    addImplied name line gs = gs.map fun g => if g.name = name then g.addLine line else g := by
  induction gs with
  | nil => cases hname
  | cons g gs ih =>
      obtain ⟨hnot, hnodup⟩ := List.nodup_cons.mp hnodup
      rw [addImplied, List.map_cons]
      by_cases heq : g.name = name
      · have hrest : gs.map (fun g => if g.name = name then g.addLine line else g) = gs.map id := by
          refine List.map_congr_left fun g' hmem => if_neg fun heq' => hnot ?_
          exact List.mem_map.mpr ⟨g', hmem, heq'.trans heq.symm⟩
        rw [if_pos (beq_iff_eq.mpr heq), if_pos heq, hrest, List.map_id]
        rfl
      · have hmem := (List.mem_cons.mp hname).resolve_left (Ne.symm heq)
        rw [if_neg (mt beq_iff_eq.mp heq), if_neg heq, ih hnodup hmem]

/-! ## All uses -/

/-- The uses come in the order of the source. -/
def InSourceOrder (uses : List Reference) : Prop :=
  uses.Pairwise fun r r' =>
    r.position.offset < r'.position.offset ∧ r.position.line ≤ r'.position.line

/-- Of one name there is a use in front of all uses of another. -/
def IsUsedBefore (uses : List Reference) (name name' : String) : Prop :=
  ∃ r ∈ uses, r.name = name ∧
    ∀ r' ∈ uses, r'.name = name' → r.position.offset < r'.position.offset

/-- The list of implied globals gives account of the uses: it has each name once, ordered by the
first use, with the lines of its uses, which increase. -/
structure AccountsFor (uses : List Reference) (gs : List ImpliedGlobal) : Prop where
  nodup : (gs.map (·.name)).Nodup
  ordered : (gs.map (·.name)).Pairwise (IsUsedBefore uses)
  mem_names : ∀ name, name ∈ gs.map (·.name) ↔ ∃ r ∈ uses, r.name = name
  increasing : ∀ g ∈ gs, g.lines.Pairwise (· < ·)
  mem_lines : ∀ g ∈ gs, ∀ line, line ∈ g.lines ↔
    ∃ r ∈ uses, r.name = g.name ∧ r.position.line = line

namespace AccountsFor

variable {uses : List Reference} {r : Reference}

theorem isUsedBefore_concat
    (hlast : ∀ r' ∈ uses, r'.position.offset < r.position.offset) {name name' : String}
    (h : IsUsedBefore uses name name') : IsUsedBefore (uses ++ [r]) name name' := by
  obtain ⟨r₀, hmem, hname, hfirst⟩ := h
  refine ⟨r₀, List.mem_append_left _ hmem, hname, fun r' hmem' hname' => ?_⟩
  rcases List.mem_append.mp hmem' with hmem' | hmem'
  · exact hfirst r' hmem' hname'
  · rw [List.mem_singleton.mp hmem']
    exact hlast r₀ hmem

theorem exists_mem_concat {p : Reference → Prop} :
    (∃ r' ∈ uses ++ [r], p r') ↔ (∃ r' ∈ uses, p r') ∨ p r := by
  simp [or_and_right, exists_or]

/-- One more use of a name that is listed. -/
theorem concat_of_mem (hs : AccountsFor uses gs)
    (hoffset : ∀ r' ∈ uses, r'.position.offset < r.position.offset)
    (hline : ∀ r' ∈ uses, r'.position.line ≤ r.position.line) (hmem : r.name ∈ gs.map (·.name)) :
    AccountsFor (uses ++ [r])
      (gs.map fun g => if g.name = r.name then g.addLine r.position.line else g) := by
  have hnames : (gs.map fun g => if g.name = r.name then g.addLine r.position.line else g).map
      (·.name) = gs.map (·.name) := by
    rw [List.map_map]
    refine List.map_congr_left fun g _ => ?_
    rw [Function.comp_apply]
    split
    · exact g.addLine_name _
    · rfl
  refine ⟨hnames ▸ hs.nodup, hnames ▸ hs.ordered.imp (isUsedBefore_concat hoffset), ?_, ?_, ?_⟩
  · intro name
    rw [hnames, hs.mem_names, exists_mem_concat]
    refine (or_iff_left_of_imp ?_).symm
    rintro rfl
    exact (hs.mem_names _).mp hmem
  · simp only [List.forall_mem_map]
    intro g hg
    split
    · unfold ImpliedGlobal.addLine
      split
      next => exact hs.increasing g hg
      next hnew =>
        refine List.pairwise_append.mpr ⟨hs.increasing g hg, List.pairwise_singleton _ _, ?_⟩
        simp only [List.mem_singleton]
        rintro line hmem _ rfl
        obtain ⟨r', hmem', -, rfl⟩ := (hs.mem_lines g hg line).mp hmem
        refine Nat.lt_of_le_of_ne (hline r' hmem') fun heq => hnew ?_
        exact heq ▸ List.contains_iff_mem.mpr hmem
    · exact hs.increasing g hg
  · simp only [List.forall_mem_map]
    intro g hg line
    rw [exists_mem_concat]
    split
    next heq =>
      rw [ImpliedGlobal.mem_addLine, hs.mem_lines g hg, g.addLine_name]
      simp [heq, eq_comm]
    next hne =>
      rw [hs.mem_lines g hg]
      exact (or_iff_left_of_imp fun h => absurd h.1.symm hne).symm

/-- The first use of a name. -/
theorem concat_of_not_mem (hs : AccountsFor uses gs)
    (hoffset : ∀ r' ∈ uses, r'.position.offset < r.position.offset)
    (hnew : r.name ∉ gs.map (·.name)) :
    AccountsFor (uses ++ [r]) (gs ++ [⟨r.name, [r.position.line]⟩]) := by
  have hunused : ∀ r' ∈ uses, r'.name ≠ r.name := fun r' hmem heq =>
    hnew ((hs.mem_names r.name).mpr ⟨r', hmem, heq⟩)
  refine ⟨?_, ?_, fun name => ?_, ?_, ?_⟩
  · rw [List.map_append]
    refine List.nodup_append.mpr ⟨hs.nodup, List.nodup_singleton _, ?_⟩
    rintro name hmem _ hmem' rfl
    obtain rfl := List.mem_singleton.mp hmem'
    exact hnew hmem
  · rw [List.map_append]
    refine List.pairwise_append.mpr ⟨hs.ordered.imp (isUsedBefore_concat hoffset),
      List.pairwise_singleton _ _, fun name hmem name' hmem' => ?_⟩
    obtain ⟨r₀, hmem₀, rfl⟩ := (hs.mem_names name).mp hmem
    obtain rfl := List.mem_singleton.mp hmem'
    refine ⟨r₀, List.mem_append_left _ hmem₀, rfl, fun r' hmem' hname => ?_⟩
    rcases List.mem_append.mp hmem' with hmem' | hmem'
    · exact absurd hname (hunused r' hmem')
    · exact List.mem_singleton.mp hmem' ▸ hoffset r₀ hmem₀
  · rw [List.map_append, List.mem_append, hs.mem_names, exists_mem_concat]
    simp [eq_comm]
  · intro g hg
    rcases List.mem_append.mp hg with hg | hg
    · exact hs.increasing g hg
    · rw [List.mem_singleton.mp hg]
      exact List.pairwise_singleton _ _
  · intro g hg line
    rw [exists_mem_concat]
    rcases List.mem_append.mp hg with hg | hg
    · rw [hs.mem_lines g hg]
      refine (or_iff_left_of_imp fun h => absurd ?_ hnew).symm
      exact h.1 ▸ List.mem_map_of_mem hg
    · rw [List.mem_singleton.mp hg]
      refine List.mem_singleton.trans (eq_comm.trans ⟨fun h => .inr ⟨rfl, h⟩, ?_⟩)
      rintro (⟨r', hmem, hname, -⟩ | ⟨-, hline⟩)
      · exact absurd hname (hunused r' hmem)
      · exact hline

end AccountsFor

/-- What uses imply gives account of them if they come in the order of the source. -/
theorem impliedBy_accountsFor {uses : List Reference} (huses : InSourceOrder uses) :
    AccountsFor uses (impliedBy uses) := by
  induction uses using List.reverseRecOn with
  | nil => exact ⟨List.nodup_nil, .nil, by simp [impliedBy], nofun, nofun⟩
  | append_singleton uses r ih =>
      obtain ⟨hrest, -, hlast⟩ := List.pairwise_append.mp huses
      have hoffset : ∀ r' ∈ uses, r'.position.offset < r.position.offset := fun r' hmem =>
        (hlast r' hmem r List.mem_cons_self).1
      have hs := ih hrest
      rw [impliedBy_concat]
      by_cases hmem : r.name ∈ (impliedBy uses).map (·.name)
      · rw [addImplied_of_mem hs.nodup hmem]
        exact hs.concat_of_mem hoffset (fun r' hmem => (hlast r' hmem r List.mem_cons_self).2) hmem
      · rw [addImplied_of_not_mem hmem]
        exact hs.concat_of_not_mem hoffset hmem

end ScriptLint.Scope
