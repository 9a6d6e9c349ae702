import Mathlib.Tactic.SplitIfs
import ScriptLint.Options.Reader
import ScriptLint.Options.Writer

/-! # Reading back written options

Members are read one by one, so a written configuration is read back member by member: each is
either taken over as it was or refused. The rules are where members are refused. They are written
by the keyword of the value, while reading knows the values that a flag gives by the flag alone.
So the words `off`, `required` and `allow` are written and not understood, and the first of them
in the order of the members is the error.
-/

namespace ScriptLint

namespace Text

theorem insertName_of_forall_lt {name : String} {names : List String}
    (hlast : ∀ m ∈ names, m < name) : insertName name names = names ++ [name] := by
  induction names with
  | nil => rfl
  | cons m ms ih =>
    obtain ⟨hm, hms⟩ := List.forall_mem_cons.mp hlast
    have hne : name ≠ m := fun heq => String.lt_irrefl m (heq ▸ hm)
    have hnot : ¬name < m := fun hlt => String.lt_irrefl m (String.lt_trans hm hlt)
    simp only [insertName, if_neg hnot, if_neg hne, ih hms, List.cons_append]

/-- Names that continue a set in ascending order are put behind its members. -/
theorem NameSet.toList_foldl_insert {names : List String} {s : NameSet}
    (hascending : (s.toList ++ names).Pairwise (· < ·)) :
    (names.foldl NameSet.insert s).toList = s.toList ++ names := by
  induction names generalizing s with
  | nil => simp
  | cons name names ih =>
    have hlast : ∀ m ∈ s.toList, m < name := fun m hm =>
      (List.pairwise_append.mp hascending).2.2 m hm name (by simp)
    have hinsert : (s.insert name).toList = s.toList ++ [name] := insertName_of_forall_lt hlast
    rw [List.foldl_cons, ih (by simpa [hinsert] using hascending), hinsert, List.append_assoc]
    rfl

theorem NameSet.ofList_toList (s : NameSet) : NameSet.ofList s.toList = s := by
  have h : (NameSet.ofList s.toList).toList = s.toList :=
    NameSet.toList_foldl_insert (s := .empty) s.ascending
  cases s
  cases hs : NameSet.ofList _
  simpa [hs] using h

end Text

/-! ## Rules -/

theorem StrictRule.ofChoice_keyword (rule : StrictRule) :
    StrictRule.ofChoice (.word rule.keyword) =
      if rule = .off ∨ rule = .required then .error (.badWord "strict" rule.keyword)
      else .ok rule := by
  cases rule <;> rfl

theorem UnusedRule.ofChoice_keyword (rule : UnusedRule) :
    UnusedRule.ofChoice (.word rule.keyword) =
      if rule = .off then .error (.badWord "unused" "off") else .ok rule := by
  cases rule <;> rfl

theorem ShadowRule.ofChoice_keyword (rule : ShadowRule) :
    ShadowRule.ofChoice (.word rule.keyword) =
      if rule = .allow then .error (.badWord "shadow" "allow") else .ok rule := by
  cases rule <;> rfl

namespace Options

open Text

/-! ## One member -/

/-- The options with the one of the given name as another configuration has it. -/
def adopt (source o : Options) (name : String) : Options :=
  match name with
  | "esversion" => { o with edition := source.edition }
  | "strict" => { o with strict := source.strict }
  | "maxerr" => { o with maxErrors := source.maxErrors }
  | "max_depth" => { o with maxDepth := source.maxDepth }
  | "unused" => { o with unused := source.unused }
  | "shadow" => { o with shadow := source.shadow }
  | "unstable" => { o with generatorSent := source.generatorSent }
  | "disabled" => { o with disabled := source.disabled }
  | _ =>
    match Flag.ofName? name with
    | some flag => o.set flag (source.get flag)
    | none => o

/-- Why the written form of an option is refused. -/
def refusal? (o : Options) (name : String) : Option OptionError :=
  match name with
  | "strict" =>
    if o.strict = .off ∨ o.strict = .required then some (.badWord "strict" o.strict.keyword)
    else none
  | "unused" => if o.unused = .off then some (.badWord "unused" "off") else none
  | "shadow" => if o.shadow = .allow then some (.badWord "shadow" "allow") else none
  | _ => none

theorem readNatural_natural {bound n : Nat} (h : n < bound) :
    readNatural bound (.natural n) = .ok n := by
  simp [readNatural, Json.natural, h]

theorem readEdition_number (e : Edition) : readEdition (.natural e.number) = .ok e := by
  cases e <;> rfl

theorem readStrings_list (names : List String) :
    readStrings (.list .string names) = .ok names := by
  have h : (names.map Json.string).mapM readString = Except.ok (ε := OptionError) names := by
    induction names with
    | nil => rfl
    | cons name names ih =>
      simp [List.mapM_cons, readString, ih, pure, bind, Except.pure, Except.bind]
  exact h

/-- What reading a member makes of the options: they adopt the written value, or it is refused. -/
def Taken (source o : Options) (member : String × Json) : Prop :=
  readField o member.1 member.2 =
    match source.refusal? member.1 with
    | some error => .error error
    | none => .ok (adopt source o member.1)

theorem taken_flag (source o : Options) (flag : Flag) :
    Taken source o (flag.name, .bool (source.get flag)) := by
  cases flag <;> rfl

theorem taken_strict (source o : Options) :
    Taken source o ("strict", .string source.strict.keyword) := by
  have hread : readField o "strict" (.string source.strict.keyword) = do
      return { o with strict := ← StrictRule.ofChoice (.word source.strict.keyword) } := rfl
  rw [Taken, hread, StrictRule.ofChoice_keyword, refusal?]
  split <;> rfl

theorem taken_unused (source o : Options) :
    Taken source o ("unused", .string source.unused.keyword) := by
  have hread : readField o "unused" (.string source.unused.keyword) = do
      return { o with unused := ← UnusedRule.ofChoice (.word source.unused.keyword) } := rfl
  rw [Taken, hread, UnusedRule.ofChoice_keyword, refusal?]
  split <;> rfl

theorem taken_shadow (source o : Options) :
    Taken source o ("shadow", .string source.shadow.keyword) := by
  have hread : readField o "shadow" (.string source.shadow.keyword) = do
      return { o with shadow := ← ShadowRule.ofChoice (.word source.shadow.keyword) } := rfl
  rw [Taken, hread, ShadowRule.ofChoice_keyword, refusal?]
  split <;> rfl

/-- Every written member is taken over as it was, or refused. -/
theorem taken_of_mem_write {source : Options} (hmax : source.maxErrors < countBound)
    (hdepth : source.maxDepth < countBound) {members : List (String × Json)}
    (hwrite : source.write = .object members) (o : Options) :
    ∀ member ∈ members, Taken source o member := by
  have edition : Taken source o ("esversion", .natural source.edition.number) := by
    have hread : readField o "esversion" (.natural source.edition.number) = do
        return { o with edition := ← readEdition (.natural source.edition.number) } := rfl
    rw [Taken, hread, readEdition_number]
    rfl
  have maxerr : Taken source o ("maxerr", .natural source.maxErrors) := by
    have hread : readField o "maxerr" (.natural source.maxErrors) = do
        return { o with maxErrors := ← readNatural countBound (.natural source.maxErrors) } := rfl
    rw [Taken, hread, readNatural_natural hmax]
    rfl
  have depth : Taken source o ("max_depth", .natural source.maxDepth) := by
    have hread : readField o "max_depth" (.natural source.maxDepth) = do
        return { o with maxDepth := ← readNatural countBound (.natural source.maxDepth) } := rfl
    rw [Taken, hread, readNatural_natural hdepth]
    rfl
  have unstable :
      Taken source o ("unstable", .object [("gensent", .bool source.generatorSent)]) := rfl
  have disabled : Taken source o ("disabled", .list .string source.disabled.toList) := by
    have hread : readField o "disabled" (.list .string source.disabled.toList) = do
        return { o with
          disabled := .ofList (← readStrings (.list .string source.disabled.toList)) } := rfl
    rw [Taken, hread, readStrings_list]
    simp only [Except.bind, bind, NameSet.ofList_toList]
    rfl
  cases hwrite
  simp only [List.forall_mem_cons]
  exact ⟨edition, taken_strict _ _, taken_flag _ _ .module, maxerr, depth, taken_flag _ _ .undef,
    taken_unused _ _, taken_flag _ _ .latedef, taken_shadow _ _, taken_flag _ _ .asi,
    taken_flag _ _ .boss, taken_flag _ _ .evil, taken_flag _ _ .debug, taken_flag _ _ .eqeqeq,
    taken_flag _ _ .forin, taken_flag _ _ .funcscope, taken_flag _ _ .globalstrict,
    taken_flag _ _ .multistr, taken_flag _ _ .nonbsp, taken_flag _ _ .lastsemic,
    taken_flag _ _ .expr, taken_flag _ _ .sub, taken_flag _ _ .elision, taken_flag _ _ .withstmt,
    unstable, disabled, nofun⟩

/-! ## All members -/

/-- Members that are taken over, or refused, one after the other: the first refusal is the error,
and without one the options have adopted every member. -/
theorem readFields_of_taken {source : Options} {members : List (String × Json)}
    (htaken : ∀ o, ∀ member ∈ members, Taken source o member) {o : Options} {seen : List String}
    (hnodup : (members.map (·.1)).Nodup) (hnew : ∀ name ∈ members.map (·.1), name ∉ seen) :
    readFields o seen members =
      match (members.map (·.1)).findSome? source.refusal? with
      | some error => .error error
      | none => .ok ((members.map (·.1)).foldl (adopt source) o) := by
  induction members generalizing o seen with
  | nil => rfl
  | cons member members ih =>
    obtain ⟨hfirst, hnodup⟩ := List.nodup_cons.mp hnodup
    obtain ⟨hmember, hnew⟩ := List.forall_mem_cons.mp hnew
    have hread : readField o member.1 member.2 = _ := htaken o member (by simp)
    unfold readFields
    rw [if_neg (by simpa using hmember), hread, List.map_cons, List.findSome?_cons,
      List.foldl_cons]
    cases source.refusal? member.1 with
    | some error => rfl
    | none =>
      refine ih (fun o m hm => htaken o m (List.mem_cons_of_mem _ hm)) hnodup fun name hname => ?_
      -- The name just read is none of those that follow.
      have hne : name ≠ member.1 := by
        rintro rfl
        exact hfirst hname
      split <;> simp [hne, hnew name hname]

theorem foldl_adopt_fieldNames (source o : Options) :
    fieldNames.foldl (adopt source) o = source := by
  cases source
  cases o
  simp [fieldNames, adopt, Flag.ofName?, Flag.all, Flag.name, set, get]

theorem findSome?_refusal?_fieldNames (o : Options) :
    fieldNames.findSome? o.refusal? =
      if o.strict = .off ∨ o.strict = .required then some (.badWord "strict" o.strict.keyword)
      else if o.unused = .off then some (.badWord "unused" "off")
      else if o.shadow = .allow then some (.badWord "shadow" "allow")
      else none := by
  simp only [fieldNames, List.findSome?, refusal?]
  split_ifs <;> rfl

/-- A configuration is read back from its written form as it was, provided that its rules are
written by words that reading knows; otherwise the first unknown word is the error. -/
theorem read_write {o : Options} (hmax : o.maxErrors < countBound)
    (hdepth : o.maxDepth < countBound) :
    read o.write =
      if o.strict = .off ∨ o.strict = .required then .error (.badWord "strict" o.strict.keyword)
      else if o.unused = .off then .error (.badWord "unused" "off")
      else if o.shadow = .allow then .error (.badWord "shadow" "allow")
      else .ok o := by
  obtain ⟨members, hwrite⟩ : ∃ members, o.write = .object members := ⟨_, rfl⟩
  have hnames : members.map (·.1) = fieldNames := by
    cases hwrite
    rfl
  have hread : readFields {} [] members = _ :=
    readFields_of_taken (taken_of_mem_write hmax hdepth hwrite) (by rw [hnames]; decide +kernel)
      (by simp)
  rw [hwrite]
  show readFields {} [] members = _
  rw [hread, hnames, foldl_adopt_fieldNames, findSome?_refusal?_fieldNames]
  split_ifs <;> rfl

/-- A configuration whose three rules have words of their own. -/
theorem read_write_implied :
    (50 < countBound ∧ 512 < countBound) ∧
      read (write
        { strict := .implied, unused := .lastParam, shadow := .outer, asi := true,
          disabled := .ofList ["W033", "E021"] }) =
      .ok
        { strict := .implied, unused := .lastParam, shadow := .outer, asi := true,
          disabled := .ofList ["W033", "E021"] } :=
  ⟨by decide, read_write (by decide) (by decide)⟩

end Options

end ScriptLint
