import ScriptLint.Scope.Basic

/-! # What a flag tolerates

Most flags decide about the reports of a few codes and about nothing else. One value of such a flag
is the more tolerant one: with it these codes are not reported.
-/

namespace ScriptLint

/-- The codes whose reports a flag decides about. -/
def Flag.codes : Flag → List String
  | .asi => ["W033"]
  | .boss => ["W084"]
  | .debug => ["W087"]
  | .evil => ["W054", "W061", "W066"]
  | .expr => ["W030", "W031"]
  | .sub => ["W069"]
  | .withstmt => ["W085"]
  | .multistr => ["W043"]
  | .globalstrict => ["W097"]
  | .funcscope => ["W038"]
  | .eqeqeq => ["W116"]
  | .forin => ["W089"]
  | .nonbsp => ["W125"]
  | .undef => ["W117"]
  | .latedef => ["W003"]
  | .module | .lastsemic | .elision => []

/-- The value of a flag with which its codes are not reported. -/
def Flag.tolerant : Flag → Bool
  | .eqeqeq | .forin | .nonbsp | .undef | .latedef => false
  | _ => true

/-- The codes of reports that ask for a later edition. -/
abbrev editionCodes : List String := ["W104", "W119"]

/-- Codes about which no flag decides and which ask for no later edition. -/
abbrev plainCodes : List String :=
  ["E001", "E006", "E007", "E010", "E011", "E012", "E013", "E015", "E016", "E017", "E021", "E022",
    "E024", "E030", "E031", "E032", "E034", "E048", "E052", "E053", "E056", "E058", "E060", "E062",
    "E063", "E064", "E065", "E067", "E068", "E069", "E070", "E071", "W004", "W008", "W009", "W010",
    "W017", "W019", "W020", "W021", "W022", "W024", "W027", "W028", "W032", "W034", "W044", "W046",
    "W047", "W051", "W052", "W053", "W058", "W070", "W075", "W076", "W077", "W078", "W079", "W080",
    "W082", "W086", "W088", "W090", "W093", "W098", "W112", "W115", "W120", "W123", "W124", "W128",
    "W130", "W131", "W133", "W137", "W138", "W139", "W144"]

theorem Flag.not_mem_codes_of_plain (flag : Flag) : ∀ code ∈ plainCodes, code ∉ flag.codes := by
  cases flag <;> decide

theorem not_mem_editionCodes_of_plain : ∀ code ∈ plainCodes, code ∉ editionCodes := by decide

/-- The codes that are not reported once a flag, if there is one, is set to its tolerant value. -/
def Flag.spared (flag? : Option Flag) : List String := flag?.elim [] Flag.codes

namespace Flag

variable (flag? : Option Flag)

theorem not_mem_spared {code : String} (hcode : code ∈ plainCodes) : code ∉ spared flag? := by
  cases flag? with
  | none => exact List.not_mem_nil
  | some flag => exact flag.not_mem_codes_of_plain code hcode

theorem not_mem_spared_of_edition {code : String} (hcode : code ∈ editionCodes) :
    code ∉ spared flag? := by
  have hcodes : ∀ flag : Flag, ∀ code ∈ editionCodes, code ∉ flag.codes := by
    intro flag
    cases flag <;> decide
  cases flag? with
  | none => exact List.not_mem_nil
  | some flag => exact hcodes flag code hcode

/-- No two flags decide about the same code. -/
theorem mem_spared_iff {flag : Flag} {code : String} (hcode : code ∈ flag.codes) :
    code ∈ spared flag? ↔ flag? = some flag := by
  have hdisjoint : ∀ flag other : Flag, other ≠ flag → ∀ code ∈ flag.codes, code ∉ other.codes := by
    intro flag other
    cases flag <;> cases other <;> decide
  cases flag? with
  | none => simp [spared]
  | some other =>
      by_cases heq : other = flag
      · simp [spared, heq, hcode]
      · simp [spared, heq, hdisjoint flag other heq code hcode]

end Flag

namespace Options

/-- The options with a flag, if there is one, set to its tolerant value. A flag that decides about
no codes is left as it is. -/
def relax (flag? : Option Flag) (o : Options) : Options :=
  match flag? with
  | some flag => if flag.codes = [] then o else o.set flag flag.tolerant
  | none => o

section

variable (flag? : Option Flag) (o : Options)

@[simp]
theorem relax_edition : (o.relax flag?).edition = o.edition := by
  rcases flag? with _ | flag
  · rfl
  · cases flag <;> rfl

@[simp]
theorem relax_strict : (o.relax flag?).strict = o.strict := by
  rcases flag? with _ | flag
  · rfl
  · cases flag <;> rfl

@[simp]
theorem relax_maxErrors : (o.relax flag?).maxErrors = o.maxErrors := by
  rcases flag? with _ | flag
  · rfl
  · cases flag <;> rfl

@[simp]
theorem relax_maxDepth : (o.relax flag?).maxDepth = o.maxDepth := by
  rcases flag? with _ | flag
  · rfl
  · cases flag <;> rfl

@[simp]
theorem relax_module : (o.relax flag?).module = o.module := by
  rcases flag? with _ | flag
  · rfl
  · cases flag <;> rfl

@[simp]
theorem relax_lastsemic : (o.relax flag?).lastsemic = o.lastsemic := by
  rcases flag? with _ | flag
  · rfl
  · cases flag <;> rfl

@[simp]
theorem relax_elision : (o.relax flag?).elision = o.elision := by
  rcases flag? with _ | flag
  · rfl
  · cases flag <;> rfl

@[simp]
theorem relax_generatorSent : (o.relax flag?).generatorSent = o.generatorSent := by
  rcases flag? with _ | flag
  · rfl
  · cases flag <;> rfl

@[simp]
theorem relax_disabled : (o.relax flag?).disabled = o.disabled := by
  rcases flag? with _ | flag
  · rfl
  · cases flag <;> rfl

theorem get_relax {flag : Flag} (hflag : flag.codes ≠ []) :
    (o.relax flag?).get flag = if flag? = some flag then flag.tolerant else o.get flag := by
  rcases flag? with _ | other
  · simp [relax]
  · by_cases heq : other = flag
    · simp [relax, heq, hflag, get_set]
    · by_cases hother : other.codes = []
      · simp [relax, hother, heq]
      · simp [relax, hother, heq, get_set, Ne.symm heq]

/-- A flag that decides about a code, where its tolerant value is that it is set. -/
theorem not_get_relax {flag : Flag} (htolerant : flag.tolerant = true) {code : String}
    (hcode : code ∈ flag.codes) :
    (!(o.relax flag?).get flag) = (!o.get flag && decide (code ∉ Flag.spared flag?)) := by
  rw [get_relax flag? o (List.ne_nil_of_mem hcode)]
  simp only [Flag.mem_spared_iff flag? hcode]
  split <;> simp [*]

/-- A flag that decides about a code, where its tolerant value is that it is not set. -/
theorem get_relax_of_not_tolerant {flag : Flag} (htolerant : flag.tolerant = false) {code : String}
    (hcode : code ∈ flag.codes) :
    (o.relax flag?).get flag = (o.get flag && decide (code ∉ Flag.spared flag?)) := by
  rw [get_relax flag? o (List.ne_nil_of_mem hcode)]
  simp only [Flag.mem_spared_iff flag? hcode]
  split <;> simp [*]

end

end Options

namespace Scope.Rules

/-- The rules that the relaxed options give. -/
def relax (flag? : Option Flag) (rules : Rules) : Rules :=
  match flag? with
  | some .funcscope => { rules with funcscope := true }
  | some .undef => { rules with undef := false }
  | some .latedef => { rules with latedef := false }
  | _ => rules

theorem ofOptions_relax (flag? : Option Flag) (o : Options) :
    ofOptions (o.relax flag?) = (ofOptions o).relax flag? := by
  rcases flag? with _ | flag
  · rfl
  · cases flag <;> rfl

section

variable (flag? : Option Flag) (rules : Rules)

@[simp]
theorem relax_edition : (rules.relax flag?).edition = rules.edition := by
  unfold relax
  split <;> rfl

@[simp]
theorem relax_unused : (rules.relax flag?).unused = rules.unused := by
  unfold relax
  split <;> rfl

@[simp]
theorem relax_shadow : (rules.relax flag?).shadow = rules.shadow := by
  unfold relax
  split <;> rfl

theorem relax_latedef :
    (rules.relax flag?).latedef = (rules.latedef && flag? ≠ some .latedef) := by
  rcases flag? with _ | flag
  · simp [relax]
  · cases flag <;> simp [relax]

theorem relax_undef : (rules.relax flag?).undef = (rules.undef && flag? ≠ some .undef) := by
  rcases flag? with _ | flag
  · simp [relax]
  · cases flag <;> simp [relax]

theorem relax_funcscope :
    (rules.relax flag?).funcscope = (rules.funcscope || flag? = some .funcscope) := by
  rcases flag? with _ | flag
  · simp [relax]
  · cases flag <;> simp [relax]

end

end Scope.Rules

end ScriptLint
