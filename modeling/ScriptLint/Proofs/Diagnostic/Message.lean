import ScriptLint.Halt
import ScriptLint.Message.Catalog

/-! # Messages and their arguments

A template has a place for each argument that its code takes, so a character that no template holds
is in a message exactly if one of the arguments brings it in. The arguments are put in one after the
other. This comes to the same as putting them in at once unless the first of two arguments has a
place for the second.
-/

namespace ScriptLint.Message

/-! ## The arguments of codes -/

/-- The codes that are reported without arguments. -/
abbrev bareCodes : List String :=
  ["E006", "E007", "E010", "E015", "E016", "E017", "E031", "E034", "E041", "E043", "E052", "E058",
    "E060", "E062", "E063", "E064", "E065", "E068", "E070", "E071", "E073", "W009", "W010", "W017",
    "W019", "W020", "W022", "W030", "W031", "W032", "W033", "W043", "W044", "W051", "W054", "W058",
    "W061", "W066", "W070", "W078", "W082", "W084", "W085", "W089", "W093", "W097", "W112", "W115",
    "W124", "W125", "W128", "W130", "W131", "W137", "W138", "W139"]

/-- The codes that are reported with one argument. -/
abbrev namingCodes : List String :=
  ["E011", "E012", "E013", "E022", "E024", "E030", "E032", "E048", "E053", "E067", "E069", "W003",
    "W004", "W008", "W024", "W034", "W038", "W046", "W047", "W052", "W053", "W069", "W077", "W079",
    "W080", "W086", "W088", "W090", "W098", "W117", "W120", "W123"]

/-- The codes that are reported with two arguments. -/
abbrev pairingCodes : List String :=
  ["E001", "E021", "E056", "W021", "W027", "W028", "W075", "W076", "W104", "W116", "W119", "W133",
    "W144"]

/-- The code is reported with such arguments. -/
inductive Takes (code : String) : List String → Prop
  | bare : code ∈ bareCodes → Takes code []
  | naming {a : String} : code ∈ namingCodes → Takes code [a]
  | pairing {a b : String} : code ∈ pairingCodes → Takes code [a, b]
  /-- An argument that the template has no place for. -/
  | unshown : code = "W087" → Takes code ["debugger"]

theorem takes_halt (reason : Halt) : Takes reason.code [] := .bare (by cases reason <;> decide)

/-! ## Places for arguments -/

/-- The placeholder of a letter. -/
def placeholder (letter : Char) : List Char := ['\x7b', letter, '\x7d']

/-- The text has a place for the argument of a letter. -/
def Places (letter : Char) (text : List Char) : Prop := placeholder letter <:+: text

instance (letter : Char) (text : List Char) : Decidable (Places letter text) :=
  inferInstanceAs (Decidable (_ <:+: _))

variable {letter other c : Char} {value text : List Char}

theorem mem_of_mem_fillLetter (hc : c ∈ fillLetter letter value text) : c ∈ text ∨ c ∈ value := by
  fun_induction fillLetter letter value text with
  | case1 => cases hc
  | case2 rest ih =>
      rcases List.mem_append.mp hc with hc | hc
      · exact .inr hc
      · exact (ih hc).imp (fun h => by simp [h]) id
  | case3 l rest _ ih | case4 l rest _ ih =>
      rcases List.mem_cons.mp hc with rfl | hc
      · exact .inl List.mem_cons_self
      · exact (ih hc).imp (List.mem_cons_of_mem _) id

/-- A character that placeholders do not have stays. -/
theorem mem_fillLetter_of_mem (hplace : c ∉ placeholder letter) (hc : c ∈ text) :
    c ∈ fillLetter letter value text := by
  fun_induction fillLetter letter value text with
  | case1 => cases hc
  | case2 rest ih =>
      have hrest : c ∈ rest := by
        rcases List.mem_append.mp (show c ∈ placeholder letter ++ rest from hc) with h | h
        · exact absurd h hplace
        · exact h
      exact List.mem_append_right _ (ih hrest)
  | case3 l rest _ ih | case4 l rest _ ih =>
      rcases List.mem_cons.mp hc with rfl | hc
      · exact List.mem_cons_self
      · exact List.mem_cons_of_mem _ (ih hc)

theorem fillLetter_cons (hc : c ≠ '\x7b') :
    fillLetter letter value (c :: text) = c :: fillLetter letter value text := by
  rw [fillLetter]
  rintro l rest rfl
  exact absurd rfl hc

/-- A place begins with the text, or it stands behind the first character. -/
theorem places_cons (htext : Places letter (c :: text)) :
    (∃ rest, c = '\x7b' ∧ text = letter :: '\x7d' :: rest) ∨ Places letter text := by
  rcases List.infix_cons_iff.mp htext with ⟨rest, hrest⟩ | htext
  · obtain ⟨rfl, rfl⟩ := List.cons.inj hrest
    exact .inl ⟨rest, rfl, rfl⟩
  · exact .inr htext

theorem Places.cons (c : Char) (htext : Places letter text) : Places letter (c :: text) :=
  List.infix_cons htext

theorem not_places_of_not_mem (hbrace : '\x7b' ∉ text) : ¬ Places letter text := fun htext =>
  hbrace (htext.subset List.mem_cons_self)

/-- At the first place for it an argument is put in, and what follows is filled likewise. -/
theorem Places.exists_first (htext : Places letter text) (value : List Char) :
    ∃ before after, text = before ++ (placeholder letter ++ after) ∧
      fillLetter letter value text = before ++ (value ++ fillLetter letter value after) := by
  fun_induction fillLetter letter value text with
  | case1 => simp [Places, placeholder] at htext
  | case2 rest ih => exact ⟨[], rest, rfl, rfl⟩
  | case3 l rest hne ih =>
      rcases places_cons htext with ⟨rest', -, hrest⟩ | htext
      · exact absurd (List.cons.inj hrest).1 hne
      · obtain ⟨before, after, htext, hfill⟩ := ih htext
        exact ⟨'\x7b' :: before, after, congrArg _ htext, congrArg _ hfill⟩
  | case4 c rest hnot ih =>
      rcases places_cons htext with ⟨rest', rfl, hrest⟩ | htext
      · exact absurd hrest (hnot _ _ rfl)
      · obtain ⟨before, after, htext, hfill⟩ := ih htext
        exact ⟨c :: before, after, congrArg _ htext, congrArg _ hfill⟩

theorem subset_fillLetter (htext : Places letter text) : value ⊆ fillLetter letter value text := by
  obtain ⟨before, after, -, hfill⟩ := htext.exists_first value
  rw [hfill]
  exact List.subset_append_of_subset_right _ (List.subset_append_left _ _)

theorem mem_fillLetter_iff (hplace : c ∉ placeholder letter) (htext : Places letter text) :
    c ∈ fillLetter letter value text ↔ c ∈ text ∨ c ∈ value :=
  ⟨mem_of_mem_fillLetter,
    fun h => h.elim (mem_fillLetter_of_mem hplace) (subset_fillLetter htext ·)⟩

/-- The places for other letters stay. -/
theorem Places.fillLetter (hne : other ≠ letter) (hletter : letter ≠ '\x7b')
    (hother : other ≠ '\x7b') (htext : Places other text) :
    Places other (fillLetter letter value text) := by
  fun_induction Message.fillLetter letter value text with
  | case1 => exact htext
  | case2 rest ih =>
      -- No place overlaps the one that is filled.
      have hrest : Places other rest := by
        rcases places_cons htext with ⟨rest', -, hrest⟩ | htext
        · exact absurd (List.cons.inj hrest).1.symm hne
        · rcases places_cons htext with ⟨rest', hbrace, -⟩ | htext
          · exact absurd hbrace hletter
          · rcases places_cons htext with ⟨rest', hbrace, -⟩ | htext
            · exact absurd hbrace (by decide)
            · exact htext
      exact (ih hrest).trans (List.suffix_append _ _).isInfix
  | case3 l rest hl ih =>
      rcases places_cons htext with ⟨rest', -, hrest⟩ | htext
      · obtain ⟨rfl, -⟩ := List.cons.inj hrest
        rw [fillLetter_cons hother, fillLetter_cons (by decide)]
        exact ⟨[], Message.fillLetter letter value rest, rfl⟩
      · exact (ih htext).cons _
  | case4 c rest hnot ih =>
      rcases places_cons htext with ⟨rest', rfl, hrest⟩ | htext
      · exact absurd hrest (hnot _ _ rfl)
      · exact (ih htext).cons _

/-- Where there is no place for it, an argument changes nothing. -/
theorem fillLetter_of_not_places (htext : ¬ Places letter text) :
    fillLetter letter value text = text := by
  fun_induction fillLetter letter value text with
  | case1 => rfl
  | case2 rest ih => exact absurd ⟨[], rest, rfl⟩ htext
  | case3 l rest _ ih | case4 l rest _ ih => rw [ih fun h => htext (h.cons _)]

/-- An argument that is longer than its place makes the text longer. -/
theorem length_fillLetter (htext : Places letter text) (hvalue : 3 < value.length) :
    text.length < (fillLetter letter value text).length := by
  have hle (text : List Char) : text.length ≤ (fillLetter letter value text).length := by
    fun_induction fillLetter letter value text <;> simp_all; omega
  obtain ⟨before, after, htext, hfill⟩ := htext.exists_first value
  have hafter := hle after
  rw [hfill, htext]
  simp only [placeholder, List.length_append, List.length_cons, List.length_nil]
  omega

/-! ## Filling at once -/

/-- Replace all placeholders at once, each by the text of its letter. -/
def fillAtOnce (values : List (Char × List Char)) : List Char → List Char
  | [] => []
  | '\x7b' :: l :: '\x7d' :: rest =>
    match values.lookup l with
    | some value => value ++ fillAtOnce values rest
    | none => '\x7b' :: fillAtOnce values (l :: '\x7d' :: rest)
  | c :: rest => c :: fillAtOnce values rest

/-- Replace the placeholders by the arguments, so that an argument that is put in stays as it is. -/
def fillTogether (template : String) (arguments : List String) : String :=
  String.ofList (fillAtOnce (letters.zip (arguments.map String.toList)) template.toList)

variable {values : List (Char × List Char)}

theorem fillAtOnce_nil (text : List Char) : fillAtOnce [] text = text := by
  fun_induction fillAtOnce [] text <;> simp_all

theorem fillAtOnce_single (text : List Char) :
    fillAtOnce [(letter, value)] text = fillLetter letter value text := by
  fun_induction fillLetter letter value text with
  | case1 => rfl
  | case2 rest ih => simp [fillAtOnce, ih]
  | case3 l rest hne ih => simp [fillAtOnce, List.lookup_cons, beq_eq_false_iff_ne.mpr hne, ih]
  | case4 c rest hnot ih =>
      rw [fillAtOnce, ih]
      exact hnot

/-- A letter without a place does not matter. -/
theorem fillAtOnce_cons_of_not_places (htext : ¬ Places letter text) :
    fillAtOnce ((letter, value) :: values) text = fillAtOnce values text := by
  fun_induction fillAtOnce values text with
  | case1 => rfl
  | case2 l rest value' hvalue ih =>
      have hne : l ≠ letter := fun heq => htext ⟨[], rest, heq ▸ rfl⟩
      have hrest : ¬ Places letter rest := fun h => htext (((h.cons _).cons _).cons _)
      simp [fillAtOnce, List.lookup_cons, beq_eq_false_iff_ne.mpr hne, hvalue, ih hrest]
  | case3 l rest hvalue ih =>
      have hne : l ≠ letter := fun heq => htext ⟨[], rest, heq ▸ rfl⟩
      simp [fillAtOnce, List.lookup_cons, beq_eq_false_iff_ne.mpr hne, hvalue,
        ih fun h => htext (h.cons _)]
  | case4 c rest hnot ih =>
      rw [fillAtOnce, ih fun h => htext (h.cons _)]
      exact hnot

theorem fillAtOnce_cons (hc : c ≠ '\x7b') :
    fillAtOnce values (c :: text) = c :: fillAtOnce values text := by
  rw [fillAtOnce]
  rintro l rest rfl
  exact absurd rfl hc

/-! ### Two arguments -/

section

variable {front rest : List Char}

theorem fillLetter_append (hfront : '\x7b' ∉ front) :
    fillLetter letter value (front ++ text) = front ++ fillLetter letter value text := by
  induction front with
  | nil => rfl
  | cons c front ih =>
      obtain ⟨hc, hfront⟩ := List.ne_and_not_mem_of_not_mem_cons hfront
      rw [List.cons_append, fillLetter_cons hc.symm, ih hfront, List.cons_append]

theorem fillAtOnce_append (hfront : '\x7b' ∉ front) :
    fillAtOnce values (front ++ text) = front ++ fillAtOnce values text := by
  induction front with
  | nil => rfl
  | cons c front ih =>
      obtain ⟨hc, hfront⟩ := List.ne_and_not_mem_of_not_mem_cons hfront
      rw [List.cons_append, fillAtOnce_cons hc.symm, ih hfront, List.cons_append]

/-- Where no place begins, the first character stays. -/
theorem fillLetter_of_not_prefix (htext : ¬ placeholder letter <+: c :: text) :
    fillLetter letter value (c :: text) = c :: fillLetter letter value text := by
  rw [fillLetter.eq_def]
  split
  next heq => cases heq
  next l rest heq =>
    obtain ⟨rfl, rfl⟩ := List.cons.inj heq
    refine if_neg ?_
    rintro rfl
    exact htext ⟨rest, rfl⟩
  next heq =>
    obtain ⟨rfl, rfl⟩ := List.cons.inj heq
    rfl

/-- No place reaches over a character that none has at such a point. -/
theorem fillLetter_fence (hletter : c ≠ letter) (hbrace : c ≠ '\x7d') (text rest : List Char) :
    fillLetter letter value (text ++ c :: rest) =
      fillLetter letter value text ++ fillLetter letter value (c :: rest) := by
  fun_induction fillLetter letter value text with
  | case1 => rfl
  | case2 text ih => simp [fillLetter, ih]
  | case3 l text hne ih => simpa [fillLetter, hne] using ih
  | case4 first text hnot ih =>
      rw [List.cons_append, fillLetter_of_not_prefix, ih, List.cons_append]
      rintro ⟨behind, hplace⟩
      obtain ⟨rfl, hletters⟩ := List.cons.inj hplace
      cases text with
      | nil => exact hletter (List.cons.inj hletters).1.symm
      | cons l text =>
          obtain ⟨rfl, hbraces⟩ := List.cons.inj hletters
          cases text with
          | nil => exact hbrace (List.cons.inj hbraces).1.symm
          | cons brace text =>
              obtain ⟨rfl, -⟩ := List.cons.inj hbraces
              exact hnot _ _ rfl rfl

end

/-! ## The templates -/

/-- What stands behind the first place of a text. -/
def behindPlace (text : List Char) : List Char := (text.dropWhile (· ≠ '\x7b')).drop 3

/-- The first place of a text is for the first argument and no other one is, and no place can begin
in an argument that is put in there and reach over what stands behind it. -/
structure Apart (text : List Char) : Prop where
  first : placeholder 'a' <+: text.dropWhile (· ≠ '\x7b')
  fence : (behindPlace text).head?.any (fun c => c ≠ 'b' && c ≠ '\x7d') = true
  rest : ¬ Places 'a' (behindPlace text)

instance (text : List Char) : Decidable (Apart text) :=
  decidable_of_iff (placeholder 'a' <+: text.dropWhile (· ≠ '\x7b') ∧
      (behindPlace text).head?.any (fun c => c ≠ 'b' && c ≠ '\x7d') = true ∧
      ¬ Places 'a' (behindPlace text))
    ⟨fun h => ⟨h.1, h.2.1, h.2.2⟩, fun h => ⟨h.first, h.fence, h.rest⟩⟩

theorem Apart.exists_eq {text : List Char} (h : Apart text) : ∃ front c rest,
    text = front ++ (placeholder 'a' ++ c :: rest) ∧ '\x7b' ∉ front ∧ c ≠ 'b' ∧ c ≠ '\x7d' ∧
      ¬ Places 'a' (c :: rest) := by
  obtain ⟨behind, hbehind⟩ := h.first
  have hrest : behindPlace text = behind := by
    rw [behindPlace, ← hbehind]
    rfl
  obtain ⟨c, hc, hfence⟩ := (Option.any_eq_true _ _).mp (hrest ▸ h.fence)
  obtain ⟨rest, rfl⟩ := List.head?_eq_some_iff.mp hc
  refine ⟨text.takeWhile (· ≠ '\x7b'), c, rest, ?_, fun hmem => ?_, ?_, ?_, hrest ▸ h.rest⟩
  · rw [hbehind, List.takeWhile_append_dropWhile]
  · simpa using List.all_eq_true.mp List.all_takeWhile _ hmem
  · simpa using (Bool.and_eq_true_iff.mp hfence).1
  · simpa using (Bool.and_eq_true_iff.mp hfence).2

/-- Where places are apart, the order of filling matters only to the places that the first argument
holds. -/
theorem Apart.exists_filled {text : List Char} (h : Apart text) (b : List Char) :
    ∃ before behind, ∀ a,
      fillAtOnce [('a', a), ('b', b)] text = before ++ (a ++ behind) ∧
      fillLetter 'b' b (fillLetter 'a' a text) = before ++ (fillLetter 'b' b a ++ behind) := by
  obtain ⟨front, c, rest, rfl, hfront, hletter, hbrace, hrest⟩ := h.exists_eq
  refine ⟨front, fillLetter 'b' b (c :: rest), fun a => ⟨?_, ?_⟩⟩
  · rw [fillAtOnce_append hfront]
    change front ++ (a ++ fillAtOnce [('a', a), ('b', b)] (c :: rest)) = _
    rw [fillAtOnce_cons_of_not_places hrest, fillAtOnce_single]
  · have hfirst : fillLetter 'a' a (placeholder 'a' ++ c :: rest) = a ++ c :: rest := by
      change a ++ fillLetter 'a' a (c :: rest) = _
      rw [fillLetter_of_not_places hrest]
    rw [fillLetter_append hfront, fillLetter_append hfront, hfirst,
      fillLetter_fence hletter hbrace]

/-- No line ends in a template, and it has a place for each argument that its code takes, and for no
other one. -/
structure Fits (entry : String × String) : Prop where
  line : '\n' ∉ entry.2.toList
  naming : entry.1 ∈ namingCodes → Places 'a' entry.2.toList
  pairing : entry.1 ∈ pairingCodes → Places 'a' entry.2.toList ∧ Places 'b' entry.2.toList
  first : Places 'a' entry.2.toList → entry.1 ∉ "W087" :: bareCodes
  second : Places 'b' entry.2.toList → entry.1 ∈ pairingCodes
  others : ¬ Places 'c' entry.2.toList ∧ ¬ Places 'd' entry.2.toList
  apart : entry.1 ∈ pairingCodes → Apart entry.2.toList

theorem fits_of_mem_catalog : ∀ entry ∈ catalog, Fits entry := by
  simp only [catalog, errorTemplates, warningTemplates, List.cons_append, List.nil_append,
    List.forall_mem_cons]
  repeat' apply And.intro
  all_goals
    first
    | exact List.forall_mem_nil _
    | (constructor <;> simp only [String.toList_append] <;>
        (repeat rw [String.toList_ofList]) <;> decide +kernel)

/-- Only a code with one argument may do with the template for codes that the catalog lacks. -/
theorem fits_template (code : String) : Fits (code, template code) := by
  unfold template
  cases htemplate : template? code with
  | some text =>
      obtain ⟨before, after, hcatalog, -⟩ := List.lookup_eq_some_iff.mp htemplate
      exact fits_of_mem_catalog _ (by simp [hcatalog])
  | none =>
      have hknown : ∀ code ∈ "W087" :: (bareCodes ++ pairingCodes), (template? code).isSome := by
        decide +kernel
      have hunknown (hcode : code ∈ "W087" :: (bareCodes ++ pairingCodes)) : False := by
        have hsome := hknown code hcode
        rw [htemplate] at hsome
        cases hsome
      have hline : '\n' ∉ "{a}".toList := by decide
      have hplace : Places 'a' "{a}".toList := by decide
      have hothers : ¬ Places 'b' "{a}".toList ∧ ¬ Places 'c' "{a}".toList ∧
          ¬ Places 'd' "{a}".toList := by decide
      have hpairing (hcode : code ∈ pairingCodes) : False :=
        hunknown (List.mem_cons_of_mem _ (List.mem_append_right _ hcode))
      refine ⟨hline, fun _ => hplace, fun hcode => (hpairing hcode).elim, fun _ hcode => ?_,
        fun hsecond => absurd hsecond hothers.1, hothers.2, fun hcode => (hpairing hcode).elim⟩
      rcases List.mem_cons.mp hcode with hcode | hcode
      · exact hunknown (List.mem_cons.mpr (.inl hcode))
      · exact hunknown (List.mem_cons_of_mem _ (List.mem_append_left _ hcode))

/-! ## Filled templates -/

/-- A line ends in a filled template exactly if one ends in an argument. -/
theorem newline_mem_fill_iff {code : String} {arguments : List String}
    (htakes : Takes code arguments) :
    '\n' ∈ (fill (template code) arguments).toList ↔ ∃ a ∈ arguments, '\n' ∈ a.toList := by
  obtain ⟨hline, hnaming, hpairing, -, -, -, -⟩ := fits_template code
  have hplace (letter : Char) (hletter : letter ≠ '\n') : '\n' ∉ placeholder letter := by
    simpa [placeholder] using hletter.symm
  cases htakes with
  | bare _ => simpa [fill] using hline
  | @naming a hcode =>
      have hfill : (fill (template code) [a]).toList =
          fillLetter 'a' a.toList (template code).toList := String.toList_ofList
      rw [hfill, mem_fillLetter_iff (hplace 'a' (by decide)) (hnaming hcode)]
      simp [hline]
  | @pairing a b hcode =>
      obtain ⟨hfirst, hsecond⟩ := hpairing hcode
      have hfill : (fill (template code) [a, b]).toList =
          fillLetter 'b' b.toList (fillLetter 'a' a.toList (template code).toList) :=
        String.toList_ofList
      have hstays : Places 'b' (fillLetter 'a' a.toList (template code).toList) :=
        hsecond.fillLetter (by decide) (by decide) (by decide)
      rw [hfill, mem_fillLetter_iff (hplace 'b' (by decide)) hstays,
        mem_fillLetter_iff (hplace 'a' (by decide)) hfirst]
      simp [hline]
  | unshown _ =>
      have hshown : '\n' ∉ "debugger".toList := by decide
      have hfill : (fill (template code) ["debugger"]).toList =
          fillLetter 'a' "debugger".toList (template code).toList := String.toList_ofList
      have hnone : '\n' ∉ fillLetter 'a' "debugger".toList (template code).toList := fun h =>
        (mem_of_mem_fillLetter h).elim hline hshown
      exact iff_of_false (hfill ▸ hnone) (by simp)

/-- A code that is reported with two arguments is reported in no other way. -/
theorem Takes.exists_pair {code : String} {arguments : List String} (htakes : Takes code arguments)
    (hcode : code ∈ pairingCodes) : ∃ a b, arguments = [a, b] := by
  have hother : ∀ code ∈ pairingCodes, code ∉ "W087" :: (bareCodes ++ namingCodes) := by
    decide +kernel
  refine Classical.byContradiction fun hnone => hother code hcode (List.mem_cons.mpr ?_)
  cases htakes with
  | bare hbare => exact .inr (List.mem_append_left _ hbare)
  | naming hnaming => exact .inr (List.mem_append_right _ hnaming)
  | @pairing a b _ => exact absurd ⟨a, b, rfl⟩ hnone
  | unshown hunshown => exact .inl hunshown

/-- Each place of a template has its argument. -/
theorem exists_argument {code : String} {arguments : List String} (htakes : Takes code arguments)
    {letter : Char} (hletter : letter ∈ letters) (hplace : Places letter (template code).toList) :
    ∃ a, (letter, a) ∈ letters.zip arguments := by
  have hfits := fits_template code
  rcases (by simpa [letters] using hletter : letter = 'a' ∨ letter = 'b' ∨ letter = 'c' ∨
    letter = 'd') with rfl | rfl | rfl | rfl
  · cases htakes with
    | bare hcode => exact absurd (List.mem_cons_of_mem _ hcode) (hfits.first hplace)
    | naming _ | pairing _ | unshown _ => exact ⟨_, List.mem_cons_self⟩
  · obtain ⟨a, b, rfl⟩ := htakes.exists_pair (hfits.second hplace)
    exact ⟨b, List.mem_cons_of_mem _ List.mem_cons_self⟩
  · exact absurd hplace hfits.others.1
  · exact absurd hplace hfits.others.2

/-- The second of two arguments is put into the first one before that stays as it is. -/
theorem fill_pairing {code : String} (hcode : code ∈ pairingCodes) (a b : String) :
    fill (template code) [a, b] =
      fillTogether (template code) [.ofList (fillLetter 'b' b.toList a.toList), b] := by
  obtain ⟨before, behind, hfilled⟩ := ((fits_template code).apart hcode).exists_filled b.toList
  unfold fill fillTogether
  rw [String.ofList_inj]
  simp only [List.map_cons, List.map_nil, String.toList_ofList]
  exact (hfilled _).2.trans (hfilled _).1.symm

/-- A message tells the first of two arguments. -/
theorem fillTogether_pairing_inj {code : String} (hcode : code ∈ pairingCodes) {a a' b : String} :
    fillTogether (template code) [a, b] = fillTogether (template code) [a', b] ↔ a = a' := by
  refine ⟨fun heq => ?_, fun heq => by rw [heq]⟩
  obtain ⟨before, behind, hfilled⟩ := ((fits_template code).apart hcode).exists_filled b.toList
  unfold fillTogether at heq
  have htexts := (hfilled a.toList).1.symm.trans <|
    (String.ofList_injective heq).trans (hfilled a'.toList).1
  rw [List.append_cancel_left_eq, List.append_cancel_right_eq] at htexts
  exact String.toList_injective htexts

/-- The arguments are put in as if at once where the first one has no place for the second one. -/
theorem fill_eq_fillTogether {code : String} {arguments : List String}
    (htakes : Takes code arguments)
    (hplaceless : ∀ a b, arguments = [a, b] → ¬ Places 'b' a.toList) :
    fill (template code) arguments = fillTogether (template code) arguments := by
  cases htakes with
  | bare _ => exact congrArg String.ofList (fillAtOnce_nil _).symm
  | naming _ | unshown _ => exact congrArg String.ofList (fillAtOnce_single _).symm
  | @pairing a b hcode =>
      rw [fill_pairing hcode, fillLetter_of_not_places (hplaceless a b rfl), String.ofList_toList]

end ScriptLint.Message
