import Mathlib.Logic.Basic
import ScriptLint.Proofs.Diagnostic.History

/-! # Two sinks side by side

What a sink has in common with one that was given the same reports and the same comments, but has a
limit or disables one code more. As long as no comment interferes, the first holds the same up to
the report that reaches the limit, and the second holds the same without the code.
-/

namespace ScriptLint.Sink

/-! ## Growth -/

/-- What no operation takes back. -/
structure Grows (a b : Sink) : Prop where
  accepted : a.accepted.toList <+: b.accepted.toList
  ignoredLines : a.ignoredLines <:+ b.ignoredLines
  toggles : a.toggles <:+ b.toggles

namespace Grows

theorem refl (a : Sink) : a.Grows a :=
  ⟨List.prefix_rfl, List.suffix_rfl, List.suffix_rfl⟩

theorem trans {a b c : Sink} (hab : a.Grows b) (hbc : b.Grows c) : a.Grows c :=
  ⟨hab.accepted.trans hbc.accepted, hab.ignoredLines.trans hbc.ignoredLines,
    hab.toggles.trans hbc.toggles⟩

/-- The terminal diagnostic and the regions have no part in it. -/
theorem of_frame (a : Sink) (terminal? : Option Diagnostic) (regions : List IgnoredRegion) :
    a.Grows { a with terminal?, regions } :=
  ⟨List.prefix_rfl, List.suffix_rfl, List.suffix_rfl⟩

theorem filter {change : Sink → Sink} (hchange : Filter change) (a : Sink) :
    a.Grows (change a) := by
  cases hchange with
  | setLimit limit => exact ⟨List.prefix_rfl, List.suffix_rfl, List.suffix_rfl⟩
  | toggle code line enabled => exact ⟨List.prefix_rfl, List.suffix_rfl, List.suffix_cons _ _⟩
  | ignoreLine line => exact ⟨List.prefix_rfl, List.suffix_cons _ _, List.suffix_rfl⟩
  | beginIgnore line =>
      obtain ⟨regions, hframe⟩ := beginIgnore_frame a line
      rw [show (fun a => beginIgnore line a) a = _ from hframe]
      exact of_frame a _ regions
  | endIgnore line =>
      obtain ⟨regions, hframe⟩ := endIgnore_frame a line
      rw [show (fun a => endIgnore line a) a = _ from hframe]
      exact of_frame a _ regions

theorem terminate (a : Sink) (code : String) (position : Position) (scope : String) :
    a.Grows (a.terminate code position scope) := by
  obtain ⟨_, hframe⟩ := terminate_frame a code position scope
  exact hframe ▸ of_frame a _ _

theorem report (a : Sink) (code : String) (position : Position) (arguments : List String)
    (scope : String) : a.Grows (a.report code position arguments scope).2 := by
  by_cases hdropped : a.isHalted = true ∨ a.Drops { code, arguments, position, scope }
  · rw [report_of_dropped hdropped]
    exact .refl a
  · obtain ⟨hhalted, hdrops⟩ := not_or.mp hdropped
    have hopen : a.terminal? = none := by simpa [isHalted] using hhalted
    rw [report_of_accepted hopen hdrops]
    split <;> exact ⟨by simp, List.suffix_rfl, List.suffix_rfl⟩

end Grows

/-! ## A lower limit -/

/-- A change that lets the limit alone. -/
def KeepsLimit (change : Sink → Sink) : Prop :=
  ∀ (a : Sink) (limit : Nat), change (a.setLimit limit) = (change a).setLimit limit

theorem KeepsLimit.limit_eq {change : Sink → Sink} (hchange : KeepsLimit change) (a : Sink) :
    (change a).limit = a.limit := by
  -- Its own limit put back in, a sink is the same.
  have hsame : change a = (change a).setLimit a.limit := hchange a a.limit
  rw [hsame]
  rfl

/-- A sink without a limit, and one that was given the same but may hold fewer than `k`. -/
structure Limited (k : Nat) (a b : Sink) : Prop where
  eq : b = a.setLimit k
  unlimited : a.limit = 0
  below : a.accepted.size < k

/-- A sink without a limit, and one that was given the same until it held `k`. -/
structure Truncated (k : Nat) (a b : Sink) : Prop where
  accepted : b.accepted.toList = a.accepted.toList.take k
  reached : k ≤ a.accepted.size
  terminal : ∃ d, b.terminal? = some d ∧ d.code = Halt.tooManyErrors.code
  limit : b.limit = k
  ignoredLines : b.ignoredLines <:+ a.ignoredLines

theorem Truncated.grows {k : Nat} {a a' b : Sink} (hab : Truncated k a b) (ha : a.Grows a') :
    Truncated k a' b := by
  obtain ⟨rest, hrest⟩ := ha.accepted
  have hreached : k ≤ a.accepted.toList.length := hab.reached
  refine ⟨?_, ?_, hab.terminal, hab.limit, hab.ignoredLines.trans ha.ignoredLines⟩
  · rw [hab.accepted, ← hrest, List.take_append_of_le_length hreached]
  · rw [← Array.length_toList, ← hrest, List.length_append]
    omega

namespace Limited

variable {k : Nat} {a b : Sink}

theorem filter (hab : Limited k a b) {change : Sink → Sink} (hchange : Filter change)
    (hlimit : KeepsLimit change) : Limited k (change a) (change b) := by
  refine ⟨?_, ?_, ?_⟩
  · rw [hab.eq, hlimit]
  · rw [hlimit.limit_eq, hab.unlimited]
  · rw [(hchange.keeps a).2]
    exact hab.below

theorem terminate (hab : Limited k a b) (code : String) (position : Position) (scope : String) :
    Limited k (a.terminate code position scope) (b.terminate code position scope) := by
  obtain ⟨rfl, hunlimited, hbelow⟩ := hab
  have hcomm : (a.setLimit k).terminate code position scope =
      (a.terminate code position scope).setLimit k := by
    unfold Sink.terminate setLimit scannedPercent
    dsimp only
    split <;> rfl
  obtain ⟨_, hframe⟩ := terminate_frame a code position scope
  refine ⟨hcomm, ?_, ?_⟩
  · rw [hframe]
    exact hunlimited
  · rw [hframe]
    exact hbelow

/-- A report reaches both, or it is the last one that the limited sink takes. -/
theorem report (hab : Limited k a b) (code : String) (position : Position)
    (arguments : List String) (scope : String) :
    let result := a.report code position arguments scope
    let result' := b.report code position arguments scope
    (result'.1 = result.1 ∧ Limited k result.2 result'.2) ∨
      (result'.1 = .error .tooManyErrors ∧ Truncated k result.2 result'.2) := by
  obtain ⟨rfl, hunlimited, hbelow⟩ := hab
  intro result result'
  by_cases hdropped : a.isHalted = true ∨ a.Drops { code, arguments, position, scope }
  · have hresult : result = (.ok (), a) := report_of_dropped hdropped
    have hresult' : result' = (.ok (), a.setLimit k) := report_of_dropped hdropped
    rw [hresult, hresult']
    exact .inl ⟨rfl, rfl, hunlimited, hbelow⟩
  · obtain ⟨hhalted, hdrops⟩ := not_or.mp hdropped
    have hopen : a.terminal? = none := by simpa [isHalted] using hhalted
    have hresult := report_of_accepted hopen hdrops
    have hresult' := report_of_accepted (s := a.setLimit k) hopen hdrops
    rw [if_neg (by omega)] at hresult
    rw [show result = _ from hresult, show result' = _ from hresult']
    split
    next hreached =>
      have hsize : a.accepted.size + 1 = k := by
        have : k ≤ a.accepted.size + 1 := hreached.2
        omega
      refine .inr ⟨rfl, ?_, ?_, ⟨_, rfl, rfl⟩, rfl, List.suffix_rfl⟩
      · rw [List.take_of_length_le (by simp [hsize])]
        rfl
      · simp [hsize]
    next hfree =>
      have hsize : a.accepted.size + 1 < k := by
        have : ¬ (0 < k ∧ k ≤ a.accepted.size + 1) := hfree
        omega
      exact .inl ⟨rfl, rfl, hunlimited, by simpa using hsize⟩

end Limited

/-! ## One code less -/

/-- The sink that never had diagnostics of a code and takes none. -/
def without (code : String) (a : Sink) : Sink :=
  { a with
    accepted := a.accepted.filter (·.code != code)
    disabled := a.disabled.insert code }

/-- No toggle is about the code. -/
def Untoggled (code : String) (a : Sink) : Prop := ∀ toggle ∈ a.toggles, toggle.code ≠ code

theorem Untoggled.of_grows {code : String} {a a' : Sink} (ha' : a'.Untoggled code)
    (hgrows : a.Grows a') : a.Untoggled code :=
  fun toggle hmem => ha' toggle (hgrows.toggles.subset hmem)

theorem suppresses_without {code : String} {a : Sink} (ha : a.Untoggled code) (other : String)
    (line : Nat) :
    (a.without code).suppresses other line = (other == code || a.suppresses other line) := by
  unfold suppresses without
  dsimp only
  cases hfound : a.toggles.find? fun toggle => toggle.code == other && toggle.line ≤ line with
  | none =>
      dsimp only
      rw [Text.NameSet.contains_insert]
      cases a.regions.any (·.contains line) <;> cases other == code <;> rfl
  | some toggle =>
      -- The toggle is about the reported code, which is therefore another one.
      have hcode : toggle.code = other := by
        have := List.find?_some hfound
        simp only [Bool.and_eq_true, beq_iff_eq] at this
        exact this.1
      have hne : other ≠ code := hcode ▸ ha toggle (List.mem_of_find?_eq_some hfound)
      simp [hne]

/-- A report of the code itself is dropped by the one sink; any other is treated alike by both. -/
theorem drops_without {code : String} {a : Sink} (ha : a.Untoggled code) (d : Diagnostic) :
    (a.without code).Drops d ↔ d.code = code ∨ a.Drops d := by
  unfold Drops
  rw [suppresses_without ha, Bool.or_eq_true, beq_iff_eq, or_assoc]
  refine or_congr_right' fun hne => or_congr_right (exists_mem_filter_iff fun e hcode => ?_)
  simpa [hcode] using hne

/-- A sink without a limit, and one that was given the same but disables a code. -/
structure Filtered (code : String) (a b : Sink) : Prop where
  eq : b = a.without code
  unlimited : a.limit = 0
  untoggled : a.Untoggled code

/-- A change that switches no code of this name on or off. -/
def KeepsToggles (code : String) (change : Sink → Sink) : Prop :=
  ∀ a : Sink, a.Untoggled code → (change a).Untoggled code

namespace Filtered

variable {code : String} {a b : Sink}

theorem filter (hab : Filtered code a b) {change : Sink → Sink} (hchange : Filter change)
    (hlimit : KeepsLimit change) (htoggles : KeepsToggles code change) :
    Filtered code (change a) (change b) := by
  refine ⟨?_, ?_, htoggles a hab.untoggled⟩
  · rw [hab.eq]
    cases hchange with
    | setLimit | toggle | ignoreLine => rfl
    | beginIgnore line =>
        simp only [Sink.beginIgnore, without]
        split <;> rfl
    | endIgnore line =>
        simp only [Sink.endIgnore, without]
        split <;> rfl
  · rw [hlimit.limit_eq, hab.unlimited]

theorem terminate (hab : Filtered code a b) (reason : String) (position : Position)
    (scope : String) :
    Filtered code (a.terminate reason position scope) (b.terminate reason position scope) := by
  obtain ⟨rfl, hunlimited, huntoggled⟩ := hab
  have hcomm : (a.without code).terminate reason position scope =
      (a.terminate reason position scope).without code := by
    unfold Sink.terminate without scannedPercent
    dsimp only
    split <;> rfl
  obtain ⟨_, hframe⟩ := terminate_frame a reason position scope
  refine ⟨hcomm, ?_, ?_⟩
  · rw [hframe]
    exact hunlimited
  · rw [hframe]
    exact huntoggled

theorem report (hab : Filtered code a b) (other : String) (position : Position)
    (arguments : List String) (scope : String) :
    let result := a.report other position arguments scope
    let result' := b.report other position arguments scope
    result'.1 = result.1 ∧ Filtered code result.2 result'.2 := by
  obtain ⟨rfl, hunlimited, huntoggled⟩ := hab
  intro result result'
  let d : Diagnostic := { code := other, arguments, position, scope }
  by_cases hdropped : a.isHalted = true ∨ a.Drops d
  · have hdropped' : (a.without code).isHalted = true ∨ (a.without code).Drops d :=
      hdropped.imp_right fun hdrops => (drops_without huntoggled d).mpr (.inr hdrops)
    have hresult : result = (.ok (), a) := report_of_dropped hdropped
    have hresult' : result' = (.ok (), a.without code) := report_of_dropped hdropped'
    rw [hresult, hresult']
    exact ⟨rfl, rfl, hunlimited, huntoggled⟩
  · obtain ⟨hhalted, hdrops⟩ := not_or.mp hdropped
    have hopen : a.terminal? = none := by simpa [isHalted] using hhalted
    have hresult : result = (.ok (), { a with accepted := a.accepted.push d }) :=
      (report_of_accepted hopen hdrops).trans (if_neg (by omega))
    by_cases hcode : other = code
    · have hresult' : result' = (.ok (), a.without code) :=
        report_of_dropped (.inr ((drops_without huntoggled d).mpr (.inl hcode)))
      rw [hresult, hresult']
      refine ⟨rfl, ?_, hunlimited, huntoggled⟩
      simp [without, d, hcode]
    · have hdrops' : ¬ (a.without code).Drops d := by
        rw [drops_without huntoggled]
        exact not_or.mpr ⟨hcode, hdrops⟩
      have hresult' : result' =
          (.ok (), { a.without code with accepted := (a.without code).accepted.push d }) :=
        (report_of_accepted (s := a.without code) hopen hdrops').trans
          (if_neg (by simp [without, hunlimited]))
      rw [hresult, hresult']
      refine ⟨rfl, ?_, hunlimited, huntoggled⟩
      simp [without, d, hcode]

end Filtered

end ScriptLint.Sink
