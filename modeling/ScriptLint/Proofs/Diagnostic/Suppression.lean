import Mathlib.Data.List.Induction
import ScriptLint.Proofs.Diagnostic.History

/-! # What is dropped on a line

Toggles and the borders of ignored regions reach the sink in the order of their lines, but reports
do not: what is found out when a scope closes is about lines that lie far back. Whether a report is
dropped is nevertheless a matter of its code and its line. It is settled by what stands up to that
line, and nothing that comes later rewrites it, neither the end of a region that was open nor a
beginning inside one.
-/

namespace ScriptLint

namespace Sink

namespace Operation

/-- The line from which an operation changes what is dropped. -/
def filterLine? : Operation → Option Nat
  | toggle _ line _ | beginIgnore line | endIgnore line => some line
  | report _ _ _ _ | terminate _ _ _ | setLimit _ | ignoreLine _ => none

/-- What is dropped changes from line to line, without going back. -/
def InLineOrder (history : List Operation) : Prop :=
  (history.filterMap filterLine?).Pairwise (· ≤ ·)

instance (history : List Operation) : Decidable (InLineOrder history) :=
  inferInstanceAs (Decidable ((history.filterMap filterLine?).Pairwise (· ≤ ·)))

def toggle? : Operation → Option Toggle
  | toggle code line enabled => some ⟨code, line, enabled⟩
  | _ => none

/-- The line of a beginning or an end of a region, and whether it is a beginning. -/
def border? : Operation → Option (Nat × Bool)
  | beginIgnore line => some (line, true)
  | endIgnore line => some (line, false)
  | _ => none

/-- Whether a line is ignored: a region begins on it, or the newest of the borders before it is a
beginning. On the line of its end a region still counts. -/
def ignores (history : List Operation) (line : Nat) : Bool :=
  let borders := history.filterMap border?
  borders.contains (line, true) || (borders.filter (·.1 < line)).getLast?.any (·.2)

/-- Whether a report of a code on a line is dropped: the line is ignored, or the newest toggle of
the code up to the line, or without one the disabled codes, switch the code off. -/
def drops (disabled : Text.NameSet) (history : List Operation) (code : String) (line : Nat) :
    Bool :=
  ignores history line ||
    match ((history.filterMap toggle?).filter fun t => t.code == code && t.line ≤ line).getLast? with
    | some newest => !newest.enabled
    | none => disabled.contains code

end Operation

open Operation (InLineOrder)

theorem after_append (s : Sink) (before later : List Operation) :
    s.after (before ++ later) = (s.after before).after later := List.foldl_append

theorem after_concat (s : Sink) (history : List Operation) (operation : Operation) :
    s.after (history ++ [operation]) = (operation.run (s.after history)).2 :=
  after_append s history [operation]

theorem Operation.InLineOrder.of_append {before later : List Operation}
    (hordered : InLineOrder (before ++ later)) : InLineOrder before := by
  unfold InLineOrder at hordered ⊢
  rw [List.filterMap_append] at hordered
  exact (List.pairwise_append.mp hordered).1

/-- The line of the last operation is none before that of another one. -/
theorem Operation.InLineOrder.le_last {history : List Operation} {operation other : Operation}
    (hordered : InLineOrder (history ++ [operation])) {line line' : Nat}
    (hline : operation.filterLine? = some line) (hother : other ∈ history)
    (hline' : other.filterLine? = some line') : line' ≤ line := by
  unfold InLineOrder at hordered
  rw [List.filterMap_append] at hordered
  exact (List.pairwise_append.mp hordered).2.2 line' (List.mem_filterMap.mpr ⟨other, hother, hline'⟩)
    line (List.mem_filterMap.mpr ⟨operation, List.mem_singleton_self _, hline⟩)

/-! ## Toggles -/

namespace Operation

/-- An operation adds its toggle, if it is one, and leaves the disabled codes alone. -/
theorem run_toggles (operation : Operation) (s : Sink) :
    (operation.run s).2.toggles = operation.toggle?.toList ++ s.toggles ∧
      (operation.run s).2.disabled = s.disabled := by
  cases operation with
  | report code position arguments scope =>
      obtain ⟨_, _, hframe⟩ := report_frame s code position arguments scope
      rw [run, hframe]
      exact ⟨rfl, rfl⟩
  | terminate code position scope =>
      obtain ⟨_, hframe⟩ := terminate_frame s code position scope
      rw [run, hframe]
      exact ⟨rfl, rfl⟩
  | beginIgnore line =>
      obtain ⟨_, hframe⟩ := beginIgnore_frame s line
      rw [run, hframe]
      exact ⟨rfl, rfl⟩
  | endIgnore line =>
      obtain ⟨_, hframe⟩ := endIgnore_frame s line
      rw [run, hframe]
      exact ⟨rfl, rfl⟩
  | setLimit | toggle | ignoreLine => exact ⟨rfl, rfl⟩

end Operation

/-- The toggles of a history, the newest first. -/
theorem toggles_after (limit totalLines : Nat) (disabled : Text.NameSet) (history : List Operation) :
    ((start limit totalLines disabled).after history).toggles =
        (history.filterMap Operation.toggle?).reverse ∧
      ((start limit totalLines disabled).after history).disabled = disabled := by
  induction history using List.reverseRecOn with
  | nil => exact ⟨rfl, rfl⟩
  | append_singleton history operation ih =>
      obtain ⟨htoggles, hdisabled⟩ :=
        operation.run_toggles ((start limit totalLines disabled).after history)
      rw [after_concat, htoggles, hdisabled, ih.1, ih.2, List.filterMap_append]
      cases operation <;> exact ⟨by simp [Operation.toggle?], rfl⟩

/-! ## Regions -/

namespace Operation

theorem filterLine?_of_border? {operation : Operation} {line : Nat} {begins : Bool}
    (hborder : operation.border? = some (line, begins)) : operation.filterLine? = some line := by
  cases operation <;> cases hborder <;> rfl

/-- Up to the line of a new border, a line is ignored if it was or if the border begins on it. -/
theorem ignores_concat_of_le {history : List Operation} {operation : Operation} {line : Nat}
    {begins : Bool} (hborder : operation.border? = some (line, begins)) {line' : Nat}
    (hle : line' ≤ line) :
    ignores (history ++ [operation]) line' =
      (ignores history line' || (begins && line' == line)) := by
  have hfilter : [(line, begins)].filter (·.1 < line') = [] := by
    simp [Nat.not_lt.mpr hle]
  have hnew : [(line, begins)].contains (line', true) = (begins && line' == line) := by
    cases begins <;> simp [beq_eq_decide, eq_comm]
  simp only [ignores, List.filterMap_append, List.filterMap_cons, List.filterMap_nil, hborder,
    List.filter_append, hfilter, List.append_nil, List.contains_append, hnew]
  ac_rfl

/-- Behind the newest border, a line is ignored if that is a beginning. -/
theorem ignores_concat_of_lt {history : List Operation} {operation : Operation} {line : Nat}
    {begins : Bool} (hordered : InLineOrder (history ++ [operation]))
    (hborder : operation.border? = some (line, begins)) {line' : Nat} (hlt : line < line') :
    ignores (history ++ [operation]) line' = begins := by
  have hle : ∀ border ∈ history.filterMap border?, border.1 < line' := by
    rintro ⟨other, begins'⟩ hmem
    obtain ⟨earlier, hearlier, hother⟩ := List.mem_filterMap.mp hmem
    exact Nat.lt_of_le_of_lt (hordered.le_last (filterLine?_of_border? hborder) hearlier
      (filterLine?_of_border? hother)) hlt
  have hborders : (history ++ [operation]).filterMap border? =
      history.filterMap border? ++ [(line, begins)] := by
    simp [List.filterMap_append, hborder]
  have hall : ∀ border ∈ history.filterMap border? ++ [(line, begins)], border.1 < line' := by
    intro border hmem
    rcases List.mem_append.mp hmem with hmem | hmem
    · exact hle border hmem
    · rw [List.mem_singleton.mp hmem]
      exact hlt
  have hbegins : (history.filterMap border? ++ [(line, begins)]).contains (line', true) = false := by
    rw [List.contains_eq_mem, decide_eq_false_iff_not]
    exact fun hmem => Nat.lt_irrefl _ (hall _ hmem)
  have hfilter := List.filter_eq_self.mpr fun border hmem => decide_eq_true (hall border hmem)
  simp only [ignores, hborders, hbegins, hfilter, List.getLast?_concat, Option.any_some,
    Bool.false_or]

end Operation

/-- Whether there is a region that has not ended. -/
def isOpen (s : Sink) : Bool := s.regions.head?.any (·.last?.isNone)

theorem exists_regions_of_isOpen {s : Sink} (hopen : s.isOpen = true) :
    ∃ first rest, s.regions = ⟨first, none⟩ :: rest := by
  unfold isOpen at hopen
  rcases hregions : s.regions with _ | ⟨⟨first, last?⟩, rest⟩ <;> rw [hregions] at hopen
  · cases hopen
  · obtain rfl : last? = none := by simpa using hopen
    exact ⟨first, rest, rfl⟩

section

variable {s : Sink} {first : Nat} {rest : List IgnoredRegion} (line : Nat)

theorem beginIgnore_of_open (hregions : s.regions = ⟨first, none⟩ :: rest) :
    s.beginIgnore line = s := by
  unfold beginIgnore
  rw [hregions]

theorem beginIgnore_of_closed (hclosed : s.isOpen = false) :
    s.beginIgnore line = { s with regions := ⟨line, none⟩ :: s.regions } := by
  unfold beginIgnore
  split
  next hregions => simp [isOpen, hregions] at hclosed
  next => rfl

theorem endIgnore_of_open (hregions : s.regions = ⟨first, none⟩ :: rest) :
    s.endIgnore line = { s with regions := ⟨first, some line⟩ :: rest } := by
  unfold endIgnore
  rw [hregions]

theorem endIgnore_of_closed (hclosed : s.isOpen = false) : s.endIgnore line = s := by
  unfold endIgnore
  split
  next hregions => simp [isOpen, hregions] at hclosed
  next => rfl

end

/-- What the regions have to do with the borders so far: the newest region is open if the newest
border is a beginning, no other region is, and together they hold the ignored lines. -/
structure Bordered (history : List Operation) (s : Sink) : Prop where
  newest : s.isOpen = (history.filterMap Operation.border?).getLast?.any (·.2)
  closed : ∀ region ∈ s.regions.tail, region.last?.isSome
  first : ∀ region ∈ s.regions, .beginIgnore region.first ∈ history
  last : ∀ region ∈ s.regions, ∀ line ∈ region.last?, .endIgnore line ∈ history
  ignores : ∀ line, s.regions.any (·.contains line) = Operation.ignores history line

namespace Bordered

variable {history : List Operation} {s : Sink}

theorem of_same (hs : s.Bordered history) {operation : Operation}
    (hborder : operation.border? = none) {s' : Sink} (hregions : s'.regions = s.regions) :
    s'.Bordered (history ++ [operation]) := by
  have hborders : (history ++ [operation]).filterMap Operation.border? =
      history.filterMap Operation.border? := by
    simp [List.filterMap_append, hborder]
  refine ⟨?_, ?_, ?_, ?_, fun line => ?_⟩
  · rw [hborders, isOpen, hregions]
    exact hs.newest
  · rw [hregions]
    exact hs.closed
  · rw [hregions]
    exact fun region hmem => List.mem_append_left _ (hs.first region hmem)
  · rw [hregions]
    exact fun region hmem line hline => List.mem_append_left _ (hs.last region hmem line hline)
  · rw [hregions, hs.ignores, Operation.ignores, Operation.ignores, hborders]

theorem all_closed (hs : s.Bordered history) (hopen : s.isOpen = false) :
    ∀ region ∈ s.regions, region.last?.isSome := by
  intro region hmem
  rcases hregions : s.regions with _ | ⟨newest, rest⟩
  · simp [hregions] at hmem
  · rw [hregions] at hmem
    rcases List.mem_cons.mp hmem with rfl | hold
    · simpa [isOpen, hregions] using hopen
    · exact hs.closed region (by rwa [hregions])

/-- A closed region holds no line behind the newest border. -/
theorem not_contains (hs : s.Bordered history) {operation : Operation} {line : Nat}
    (hordered : InLineOrder (history ++ [operation])) (hline : operation.filterLine? = some line)
    {region : IgnoredRegion} (hmem : region ∈ s.regions) (hclosed : region.last?.isSome)
    {line' : Nat} (hlt : line < line') : region.contains line' = false := by
  obtain ⟨last, hlast⟩ := Option.isSome_iff_exists.mp hclosed
  have hle := hordered.le_last hline (hs.last region hmem last hlast) rfl
  simp only [IgnoredRegion.contains, hlast, Option.all_some, Bool.and_eq_false_iff,
    decide_eq_false_iff_not]
  omega

/-- The regions after a border, told up to its line and behind it. -/
theorem of_border (hs : s.Bordered history) {operation : Operation} {line : Nat} {begins : Bool}
    (hordered : InLineOrder (history ++ [operation]))
    (hborder : operation.border? = some (line, begins)) {s' : Sink} (hopen : s'.isOpen = begins)
    (hclosed : ∀ region ∈ s'.regions.tail, region.last?.isSome)
    (hfirst : ∀ region ∈ s'.regions, region ∈ s.regions ∨
      (.beginIgnore region.first : Operation) ∈ history ++ [operation])
    (hlast : ∀ region ∈ s'.regions, region ∈ s.regions ∨ ∀ last ∈ region.last?,
      (.endIgnore last : Operation) ∈ history ++ [operation])
    (hupTo : ∀ line' ≤ line, s'.regions.any (·.contains line') =
      (s.regions.any (·.contains line') || (begins && line' == line)))
    (hbehind : ∀ line', line < line' → s'.regions.any (·.contains line') = begins) :
    s'.Bordered (history ++ [operation]) where
  newest := by simp [hopen, List.filterMap_append, hborder]
  closed := hclosed
  first region hmem := (hfirst region hmem).elim
    (fun hold => List.mem_append_left _ (hs.first region hold)) id
  last region hmem last hmem' := (hlast region hmem).elim
    (fun hold => List.mem_append_left _ (hs.last region hold last hmem')) (· last hmem')
  ignores line' := by
    rcases Nat.lt_or_ge line line' with hlt | hle
    · rw [hbehind line' hlt, Operation.ignores_concat_of_lt hordered hborder hlt]
    · rw [hupTo line' hle, hs.ignores, Operation.ignores_concat_of_le hborder hle]

/-- Inside an open region a beginning changes nothing; otherwise it opens a region. -/
theorem beginIgnore (hs : s.Bordered history) {line : Nat}
    (hordered : InLineOrder (history ++ [.beginIgnore line])) :
    (s.beginIgnore line).Bordered (history ++ [.beginIgnore line]) := by
  cases hopen : s.isOpen with
  | true =>
      obtain ⟨first, rest, hregions⟩ := exists_regions_of_isOpen hopen
      have hfirst : first ≤ line :=
        hordered.le_last rfl (hs.first ⟨first, none⟩ (hregions ▸ List.mem_cons_self)) rfl
      rw [beginIgnore_of_open line hregions]
      refine hs.of_border hordered rfl hopen hs.closed (fun _ => .inl) (fun _ => .inl)
        (fun line' hle => ?_) fun line' hlt => ?_
      · -- The region that is open holds the line of the beginning already.
        by_cases heq : line' = line
        · simp [hregions, IgnoredRegion.contains, heq, hfirst]
        · simp [heq]
      · simp [hregions, IgnoredRegion.contains, Nat.le_trans hfirst (Nat.le_of_lt hlt)]
  | false =>
      rw [beginIgnore_of_closed line hopen]
      refine hs.of_border hordered rfl rfl (hs.all_closed hopen) (fun region hmem => ?_)
        (fun region hmem => ?_)
        (fun line' hle => ?_) fun line' hlt => ?_
      · rcases List.mem_cons.mp hmem with rfl | hold
        · exact .inr (List.mem_append_right _ (List.mem_singleton_self _))
        · exact .inl hold
      · rcases List.mem_cons.mp hmem with rfl | hold
        · exact .inr nofun
        · exact .inl hold
      · rw [List.any_cons, Bool.or_comm, Bool.true_and, IgnoredRegion.contains, Option.all_none,
          Bool.and_true, beq_eq_decide]
        congr 2
        exact propext ⟨fun hge => Nat.le_antisymm hle hge, fun heq => Nat.le_of_eq heq.symm⟩
      · simp [IgnoredRegion.contains, Nat.le_of_lt hlt]

/-- An end closes the region that is open; without one it changes nothing. -/
theorem endIgnore (hs : s.Bordered history) {line : Nat}
    (hordered : InLineOrder (history ++ [.endIgnore line])) :
    (s.endIgnore line).Bordered (history ++ [.endIgnore line]) := by
  cases hopen : s.isOpen with
  | true =>
      obtain ⟨first, rest, hregions⟩ := exists_regions_of_isOpen hopen
      have hclosed : ∀ region ∈ rest, region.last?.isSome := fun region hmem =>
        hs.closed region (by rwa [hregions])
      have hold : ∀ region ∈ rest, region ∈ s.regions := fun region hmem =>
        hregions ▸ List.mem_cons_of_mem _ hmem
      have hfirst := hs.first ⟨first, none⟩ (hregions ▸ List.mem_cons_self)
      rw [endIgnore_of_open line hregions]
      refine hs.of_border hordered rfl rfl hclosed (fun region hmem => ?_) (fun region hmem => ?_)
        (fun line' hle => ?_) fun line' hlt => ?_
      · rcases List.mem_cons.mp hmem with rfl | hmem
        · exact .inr (List.mem_append_left _ hfirst)
        · exact .inl (hold region hmem)
      · rcases List.mem_cons.mp hmem with rfl | hmem
        · refine .inr fun last hlast => ?_
          obtain rfl := Option.some.inj hlast
          exact List.mem_append_right _ (List.mem_singleton_self _)
        · exact .inl (hold region hmem)
      · simp [hregions, IgnoredRegion.contains, hle]
      · -- The region ends before the line, and so do all older ones.
        have hrest : rest.any (·.contains line') = false := by
          rw [List.any_eq_false]
          intro region hmem
          rw [hs.not_contains hordered rfl (hold region hmem) (hclosed region hmem) hlt]
          exact Bool.false_ne_true
        rw [List.any_cons, hrest]
        simp [IgnoredRegion.contains, Nat.not_le.mpr hlt]
  | false =>
      rw [endIgnore_of_closed line hopen]
      refine hs.of_border hordered rfl hopen hs.closed (fun _ => .inl) (fun _ => .inl)
        (fun line' hle => by simp) fun line' hlt => ?_
      rw [List.any_eq_false]
      intro region hmem
      rw [hs.not_contains hordered rfl hmem (hs.all_closed hopen region hmem) hlt]
      exact Bool.false_ne_true

end Bordered

theorem Operation.run_regions {operation : Operation} (hborder : operation.border? = none)
    (s : Sink) : (operation.run s).2.regions = s.regions := by
  cases operation with
  | beginIgnore | endIgnore => cases hborder
  | report code position arguments scope =>
      obtain ⟨_, _, hframe⟩ := report_frame s code position arguments scope
      rw [run, hframe]
  | terminate code position scope =>
      obtain ⟨_, hframe⟩ := terminate_frame s code position scope
      rw [run, hframe]
  | setLimit | toggle | ignoreLine => rfl

theorem Bordered.step {history : List Operation} {s : Sink} (hs : s.Bordered history)
    {operation : Operation} (hordered : InLineOrder (history ++ [operation])) :
    (operation.run s).2.Bordered (history ++ [operation]) := by
  cases operation with
  | beginIgnore line => exact hs.beginIgnore hordered
  | endIgnore line => exact hs.endIgnore hordered
  | report | terminate | setLimit | toggle | ignoreLine =>
      exact hs.of_same rfl (Operation.run_regions rfl s)

theorem bordered_after (limit totalLines : Nat) (disabled : Text.NameSet) {history : List Operation}
    (hordered : InLineOrder history) :
    ((start limit totalLines disabled).after history).Bordered history := by
  induction history using List.reverseRecOn with
  | nil => exact ⟨rfl, nofun, nofun, nofun, fun _ => rfl⟩
  | append_singleton history operation ih =>
      rw [after_concat]
      exact (ih hordered.of_append).step hordered

/-! ## Whole histories -/

/-- What is dropped after a history can be told from its toggles and borders. -/
theorem suppresses_after (limit totalLines : Nat) (disabled : Text.NameSet)
    {history : List Operation} (hordered : InLineOrder history) (code : String) (line : Nat) :
    ((start limit totalLines disabled).after history).suppresses code line =
      Operation.drops disabled history code line := by
  obtain ⟨htoggles, hdisabled⟩ := toggles_after limit totalLines disabled history
  rw [suppresses, (bordered_after limit totalLines disabled hordered).ignores, htoggles, hdisabled,
    ← List.head?_filter, List.filter_reverse, List.head?_reverse]
  rfl

/-- Operations on later lines do not count. -/
theorem Operation.drops_append (disabled : Text.NameSet) (before : List Operation)
    {later : List Operation} {line : Nat}
    (hlater : ∀ operation ∈ later, ∀ line' ∈ operation.filterLine?, line < line') (code : String) :
    drops disabled (before ++ later) code line = drops disabled before code line := by
  have hborders : ∀ border ∈ later.filterMap border?, line < border.1 := by
    rintro ⟨line', begins⟩ hmem
    obtain ⟨operation, hoperation, hborder⟩ := List.mem_filterMap.mp hmem
    exact hlater operation hoperation line' (filterLine?_of_border? hborder)
  have htoggles : ∀ newer ∈ later.filterMap toggle?, line < newer.line := by
    intro newer hmem
    obtain ⟨operation, hoperation, htoggle⟩ := List.mem_filterMap.mp hmem
    refine hlater operation hoperation newer.line ?_
    cases operation <;> cases htoggle
    rfl
  have hbegins : (later.filterMap border?).contains (line, true) = false := by
    rw [List.contains_eq_mem, decide_eq_false_iff_not]
    exact fun hmem => Nat.lt_irrefl _ (hborders _ hmem)
  have hbefore : (later.filterMap border?).filter (·.1 < line) = [] := by
    refine List.filter_eq_nil_iff.mpr fun border hmem => ?_
    simpa using Nat.le_of_lt (hborders border hmem)
  have hnewest : (later.filterMap toggle?).filter (fun t => t.code == code && t.line ≤ line) = [] := by
    refine List.filter_eq_nil_iff.mpr fun newer hmem => ?_
    simp [Nat.not_le.mpr (htoggles newer hmem)]
  simp only [drops, ignores, List.filterMap_append, List.contains_append, List.filter_append,
    hbegins, hbefore, hnewest, List.append_nil, Bool.or_false]

/-- Whether a report is dropped is settled by what stands up to its line: later toggles, beginnings
and ends of regions do not change it, even where they end a region that holds the line. It is the
newest toggle of the code up to the line that counts, and whether a region was open in front of the
line or is begun on it. -/
theorem suppression_settled (limit totalLines : Nat) (disabled : Text.NameSet)
    {before later : List Operation} (hordered : InLineOrder (before ++ later)) {line : Nat}
    (hlater : ∀ operation ∈ later, ∀ line' ∈ operation.filterLine?, line < line') (code : String) :
    let s := (start limit totalLines disabled).after before
    (s.after later).suppresses code line = s.suppresses code line ∧
      s.suppresses code line = Operation.drops disabled before code line := by
  intro s
  have hbefore : s.suppresses code line = Operation.drops disabled before code line :=
    suppresses_after limit totalLines disabled hordered.of_append code line
  refine ⟨?_, hbefore⟩
  rw [hbefore, ← after_append, suppresses_after limit totalLines disabled hordered,
    Operation.drops_append disabled before hlater]

/-- A region with a beginning inside it, and a code that is switched off above the line. -/
def openRegion : List Operation :=
  [.toggle "W117" 2 false, .beginIgnore 4, .report "W033" ⟨4, 9, 30⟩ [] "(main)", .beginIgnore 5]

/-- What ends the region and switches the code on again. -/
def closedRegion : List Operation := [.endIgnore 6, .toggle "W117" 7 true, .endIgnore 8]

/-- On the line between the two, any report is dropped for good; above it, those of the code are. -/
theorem suppression_settled_region :
    InLineOrder (openRegion ++ closedRegion) ∧
      (let s := (start 50 9 (.ofList [])).after openRegion
      (∀ code, (s.after closedRegion).suppresses code 5 = true) ∧
        (s.after closedRegion).suppresses "W117" 3 = true ∧
        (s.after closedRegion).suppresses "W030" 3 = false ∧
        (s.after closedRegion).suppresses "W117" 9 = false) := by
  have hordered : InLineOrder (openRegion ++ closedRegion) := by decide
  have hlater {line : Nat} (hline : line < 6) : ∀ operation ∈ closedRegion,
      ∀ line' ∈ operation.filterLine?, line < line' := by
    intro operation hmem line' hline'
    simp only [closedRegion, List.mem_cons, List.not_mem_nil, or_false] at hmem
    rcases hmem with rfl | rfl | rfl <;> cases hline' <;> omega
  have hsettled (code : String) {line : Nat} (hline : line < 6) :=
    suppression_settled 50 9 (.ofList []) hordered (hlater hline) code
  refine ⟨hordered, fun code => ?_, ?_, ?_, by decide +kernel⟩
  · rw [(hsettled code (by decide)).1, (hsettled code (by decide)).2]
    rfl
  · rw [(hsettled "W117" (by decide)).1]
    decide +kernel
  · rw [(hsettled "W030" (by decide)).1]
    decide +kernel

end Sink

end ScriptLint
