import Mathlib.Data.List.TakeWhile
import ScriptLint.Directive

/-! # Directive comments read back

A directive comment can be laid out in many ways. Blanks may stand around it and around the colon of
an item, its keyword is followed by at least one of them, and two items are separated by any mix of
blanks and commas. None of this matters: the comment reads back to the items that were written.
-/

namespace ScriptLint.Directive

open Text (isBlank trim trimEnd)

/-! ## Layouts -/

/-- A text that can be a name or a value: it is not empty, and neither blanks nor commas nor colons
stand in it. -/
def IsWord (text : String) : Prop :=
  text.toList ≠ [] ∧ ∀ c ∈ text.toList, ¬ isSeparator c ∧ c ≠ ':'

instance (text : String) : Decidable (IsWord text) :=
  decidable_of_iff (text.toList ≠ [] ∧ text.toList.all fun c => !isSeparator c && c != ':')
    (by simp [IsWord])

/-- The ways to write an item. -/
inductive WritesItem : String × Option String → List Char → Prop
  | bare {name : String} : IsWord name → WritesItem (name, none) name.toList
  | valued {name value : String} {before after : List Char} : IsWord name → IsWord value →
      (∀ c ∈ before, isBlank c) → (∀ c ∈ after, isBlank c) →
      WritesItem (name, some value) (name.toList ++ (before ++ ':' :: (after ++ value.toList)))

/-- The ways to write a list of items. -/
inductive WritesItems : List (String × Option String) → List Char → Prop
  | last {item : String × Option String} {text : List Char} : WritesItem item text →
      WritesItems [item] text
  | more {item : String × Option String} {items : List (String × Option String)}
      {text separator rest : List Char} : WritesItem item text → separator ≠ [] →
      (∀ c ∈ separator, isSeparator c) → WritesItems items rest →
      WritesItems (item :: items) (text ++ (separator ++ rest))

/-- The keywords of directives that list items. -/
inductive Keyword where
  | jshint
  | jslint
  | global
  | globals
  | exported
deriving DecidableEq, Repr

namespace Keyword

/-- The keyword as it is written. -/
def text : Keyword → String
  | .jshint => "jshint"
  | .jslint => "jslint"
  | .global => "global"
  | .globals => "globals"
  | .exported => "exported"

/-- What a directive with the keyword is for. -/
def kind : Keyword → DirectiveKind
  | .jshint => .jshint
  | .jslint => .jslint
  | .global | .globals => .global
  | .exported => .exported

/-- Whether line comments carry directives with the keyword. -/
def inLines : Keyword → Bool
  | .jshint | .jslint => true
  | .global | .globals | .exported => false

theorem kindOf?_text (keyword : Keyword) (block : Bool) :
    kindOf? keyword.text block = if block || keyword.inLines then some keyword.kind else none := by
  cases keyword <;> cases block <;> rfl

theorem not_isBlank_text (keyword : Keyword) : ∀ c ∈ keyword.text.toList, ¬ isBlank c := by
  have hall : keyword.text.toList.all (fun c => !isBlank c) := by cases keyword <;> rfl
  simpa using hall

theorem head?_text (keyword : Keyword) :
    ∃ c rest, keyword.text.toList = c :: rest ∧ ¬ isBlank c ∧ c ≠ 'f' := by
  cases keyword <;> exact ⟨_, _, rfl, by decide, by decide⟩

end Keyword

/-- The ways to write a list of items in a comment behind a keyword. -/
inductive Writes (keyword : Keyword) (items : List (String × Option String)) : List Char → Prop
  | comment {lead gap body trail : List Char} : (∀ c ∈ lead, isBlank c) → gap ≠ [] →
      (∀ c ∈ gap, isBlank c) → WritesItems items body → (∀ c ∈ trail, isBlank c) →
      Writes keyword items (lead ++ (keyword.text.toList ++ (gap ++ (body ++ trail))))

/-! ## Blanks at the ends -/

theorem dropWhile_blanks {blanks : List Char} (hblanks : ∀ c ∈ blanks, isBlank c)
    (rest : List Char) : (blanks ++ rest).dropWhile isBlank = rest.dropWhile isBlank :=
  List.dropWhile_append_of_pos hblanks

/-- No blank stands at either end of the text. -/
structure Tight (text : List Char) : Prop where
  head : ∀ c ∈ text.head?, ¬ isBlank c
  last : ∀ c ∈ text.getLast?, ¬ isBlank c

theorem dropWhile_of_head {text : List Char} (hhead : ∀ c ∈ text.head?, ¬ isBlank c) :
    text.dropWhile isBlank = text := by
  cases text with
  | nil => rfl
  | cons c rest => exact List.dropWhile_cons_of_neg (hhead c rfl)

/-- Trimming takes the blanks around a text that has none at its ends, and no more. -/
theorem Tight.trim_eq {before text after : List Char} (htext : Tight text) (hne : text ≠ [])
    (hbefore : ∀ c ∈ before, isBlank c) (hafter : ∀ c ∈ after, isBlank c) :
    trim (before ++ (text ++ after)) = text := by
  have hfront : (before ++ (text ++ after)).dropWhile isBlank = text ++ after := by
    rw [dropWhile_blanks hbefore]
    refine dropWhile_of_head fun c hc => htext.head c ?_
    obtain ⟨c', rest, rfl⟩ := List.exists_cons_of_ne_nil hne
    exact hc
  have hback : (text ++ after).reverse.dropWhile isBlank = text.reverse := by
    rw [List.reverse_append, dropWhile_blanks fun c hc => hafter c (List.mem_reverse.mp hc)]
    exact dropWhile_of_head fun c hc => htext.last c (by rwa [List.head?_reverse] at hc)
  rw [trim, hfront, trimEnd, hback, List.reverse_reverse]

/-! ## Words -/

namespace IsWord

variable {text : String}

theorem not_isBlank (hword : IsWord text) {c : Char} (hc : c ∈ text.toList) : ¬ isBlank c :=
  fun hblank => (hword.2 c hc).1 (by simp [isSeparator, hblank])

theorem exists_cons (hword : IsWord text) :
    ∃ c rest, text.toList = c :: rest ∧ ¬ isBlank c ∧ c ≠ ':' := by
  obtain ⟨c, rest, htext⟩ := List.exists_cons_of_ne_nil hword.1
  have hc : c ∈ text.toList := htext ▸ List.mem_cons_self
  exact ⟨c, rest, htext, hword.not_isBlank hc, (hword.2 c hc).2⟩

theorem exists_concat (hword : IsWord text) :
    ∃ start c, text.toList = start ++ [c] ∧ ¬ isBlank c := by
  have htext : text.toList = text.toList.dropLast ++ [text.toList.getLast hword.1] :=
    (List.dropLast_concat_getLast hword.1).symm
  exact ⟨_, _, htext, hword.not_isBlank (List.getLast_mem hword.1)⟩

end IsWord

/-! ## Joining at colons -/

/-- What is neither a colon nor a blank is kept. -/
theorem joinColons_append {word : List Char} (hword : ∀ c ∈ word, ¬ isBlank c ∧ c ≠ ':')
    (rest : List Char) : joinColons (word ++ rest) = word ++ joinColons rest := by
  induction word with
  | nil => rfl
  | cons c word ih =>
      obtain ⟨hblank, hcolon⟩ := hword c List.mem_cons_self
      rw [List.cons_append, joinColons, if_neg hcolon, if_neg fun h => hblank h.1,
        ih fun c' hc' => hword c' (List.mem_cons_of_mem _ hc'), List.cons_append]

/-- The blanks on both sides of a colon are dropped. -/
theorem joinColons_colon {before after : List Char} (hbefore : ∀ c ∈ before, isBlank c)
    (hafter : ∀ c ∈ after, isBlank c) {rest : List Char}
    (hrest : ∀ c ∈ rest.head?, ¬ isBlank c) :
    joinColons (before ++ ':' :: (after ++ rest)) = ':' :: joinColons rest := by
  have hcolon : joinColons (':' :: (after ++ rest)) = ':' :: joinColons rest := by
    rw [joinColons, if_pos rfl, dropWhile_blanks hafter, dropWhile_of_head hrest]
  cases before with
  | nil => exact hcolon
  | cons c before =>
      have hdrop : (before ++ ':' :: (after ++ rest)).dropWhile isBlank =
          ':' :: (after ++ rest) := by
        rw [dropWhile_blanks fun c hc => hbefore c (List.mem_cons_of_mem _ hc)]
        exact List.dropWhile_cons_of_neg (by decide)
      have hblank : isBlank c := hbefore c List.mem_cons_self
      have hc : c ≠ ':' := by
        rintro rfl
        exact absurd hblank (by decide)
      rw [List.cons_append, joinColons, if_neg hc, hdrop, if_pos ⟨hblank, rfl⟩, hcolon]

/-- Behind separators no colon comes first, blanks aside, if none comes first behind them. -/
theorem head?_dropWhile_separators {separator rest : List Char}
    (hseparator : ∀ c ∈ separator, isSeparator c)
    (hrest : (rest.dropWhile isBlank).head? ≠ some ':') :
    ((separator ++ rest).dropWhile isBlank).head? ≠ some ':' := by
  induction separator with
  | nil => exact hrest
  | cons c separator ih =>
      by_cases hblank : isBlank c
      · rw [List.cons_append, List.dropWhile_cons_of_pos hblank]
        exact ih fun c' hc' => hseparator c' (List.mem_cons_of_mem _ hc')
      · rw [List.cons_append, List.dropWhile_cons_of_neg hblank, List.head?_cons]
        rintro ⟨⟩
        exact absurd (hseparator ':' List.mem_cons_self) (by decide)

/-- Separators that no colon follows are kept. -/
theorem joinColons_separators {separator rest : List Char}
    (hseparator : ∀ c ∈ separator, isSeparator c)
    (hrest : (rest.dropWhile isBlank).head? ≠ some ':') :
    joinColons (separator ++ rest) = separator ++ joinColons rest := by
  induction separator with
  | nil => rfl
  | cons c separator ih =>
      have htail : ∀ c' ∈ separator, isSeparator c' := fun c' hc' =>
        hseparator c' (List.mem_cons_of_mem _ hc')
      have hc : c ≠ ':' := by
        rintro rfl
        exact absurd (hseparator ':' List.mem_cons_self) (by decide)
      rw [List.cons_append, joinColons, if_neg hc,
        if_neg fun h => head?_dropWhile_separators htail hrest h.2, ih htail, List.cons_append]

/-! ## Splitting at separators -/

theorem splitItems_append {word : List Char} (hword : ∀ c ∈ word, ¬ isSeparator c)
    (front rest : List Char) :
    splitItems front (word ++ rest) = splitItems (word.reverse ++ front) rest := by
  induction word generalizing front with
  | nil => rfl
  | cons c word ih =>
      rw [List.cons_append, splitItems, if_neg (hword c List.mem_cons_self),
        ih fun c' hc' => hword c' (List.mem_cons_of_mem _ hc')]
      simp

theorem splitItems_separators {separator : List Char}
    (hseparator : ∀ c ∈ separator, isSeparator c) (rest : List Char) :
    splitItems [] (separator ++ rest) = splitItems [] rest := by
  induction separator with
  | nil => rfl
  | cons c separator ih =>
      rw [List.cons_append, splitItems, if_pos (hseparator c List.mem_cons_self)]
      exact ih fun c' hc' => hseparator c' (List.mem_cons_of_mem _ hc')

/-- A word is the only item of itself. -/
theorem splitItems_word {word : List Char} (hne : word ≠ []) (hword : ∀ c ∈ word, ¬ isSeparator c) :
    splitItems [] word = [word] := by
  have h := splitItems_append hword [] []
  rw [List.append_nil, List.append_nil] at h
  rw [h, splitItems, if_neg (by simpa using hne), List.reverse_reverse]

/-- A word that separators end is the next item. -/
theorem splitItems_word_separators {word separator : List Char} (hne : word ≠ [])
    (hword : ∀ c ∈ word, ¬ isSeparator c) (hsome : separator ≠ [])
    (hseparator : ∀ c ∈ separator, isSeparator c) (rest : List Char) :
    splitItems [] (word ++ (separator ++ rest)) = word :: splitItems [] rest := by
  obtain ⟨c, separator, rfl⟩ := List.exists_cons_of_ne_nil hsome
  rw [splitItems_append hword, List.append_nil, List.cons_append, splitItems,
    if_pos (hseparator c List.mem_cons_self), if_neg (by simpa using hne), List.reverse_reverse,
    splitItems_separators fun c' hc' => hseparator c' (List.mem_cons_of_mem _ hc')]

/-! ## Items -/

/-- An item in its plainest layout. -/
def plainItem : String × Option String → List Char
  | (name, none) => name.toList
  | (name, some value) => name.toList ++ ':' :: value.toList

namespace WritesItem

variable {item : String × Option String} {text : List Char}

/-- Joining at colons brings an item into its plainest layout and goes on behind it. -/
theorem joinColons_append (hitem : WritesItem item text) (rest : List Char) :
    joinColons (text ++ rest) = plainItem item ++ joinColons rest := by
  have hkept {word : String} (hword : IsWord word) (rest : List Char) :
      joinColons (word.toList ++ rest) = word.toList ++ joinColons rest :=
    Directive.joinColons_append (fun c hc => ⟨hword.not_isBlank hc, (hword.2 c hc).2⟩) rest
  cases hitem with
  | bare hname => exact hkept hname rest
  | valued hname hvalue hbefore hafter =>
      obtain ⟨c, cs, hcs, hc, -⟩ := hvalue.exists_cons
      have hhead : ∀ c' ∈ (cs.cons c ++ rest).head?, ¬ isBlank c' := by
        rintro c' ⟨⟩
        exact hc
      rw [List.append_assoc, List.append_assoc, List.cons_append, List.append_assoc, hkept hname,
        joinColons_colon hbefore hafter (hcs ▸ hhead), hkept hvalue]
      simp [plainItem]

/-- The plainest layout of an item is one word between separators. -/
theorem plainItem_word (hitem : WritesItem item text) :
    plainItem item ≠ [] ∧ ∀ c ∈ plainItem item, ¬ isSeparator c := by
  cases hitem with
  | bare hname => exact ⟨hname.1, fun c hc => (hname.2 c hc).1⟩
  | valued hname hvalue =>
      refine ⟨by simp [plainItem], fun c hc => ?_⟩
      rcases List.mem_append.mp hc with hc | hc
      · exact (hname.2 c hc).1
      · rcases List.mem_cons.mp hc with rfl | hc
        · decide
        · exact (hvalue.2 c hc).1

theorem splitItem_plainItem (hitem : WritesItem item text) : splitItem (plainItem item) = item := by
  have hcolon {word : String} (hword : IsWord word) : ∀ c ∈ word.toList, (c ≠ ':' : Bool) :=
    fun c hc => by simpa using (hword.2 c hc).2
  cases hitem with
  | @bare name hname =>
      have hdrop : name.toList.dropWhile (· ≠ ':') = [] :=
        List.dropWhile_eq_nil_iff.2 (hcolon hname)
      unfold splitItem plainItem
      simp only [hdrop, String.ofList_toList]
  | @valued name value _ _ hname =>
      have hdrop : (name.toList ++ ':' :: value.toList).dropWhile (· ≠ ':') =
          ':' :: value.toList := by
        rw [List.dropWhile_append_of_pos (hcolon hname)]
        exact List.dropWhile_cons_of_neg (by decide)
      have htake : (name.toList ++ ':' :: value.toList).takeWhile (· ≠ ':') = name.toList := by
        rw [List.takeWhile_append_of_pos (hcolon hname), List.takeWhile_cons_of_neg (by decide),
          List.append_nil]
      unfold splitItem plainItem
      simp only [hdrop, htake, String.ofList_toList]

theorem exists_cons (hitem : WritesItem item text) :
    ∃ c rest, text = c :: rest ∧ ¬ isBlank c ∧ c ≠ ':' := by
  cases hitem with
  | bare hname => exact hname.exists_cons
  | valued hname =>
      obtain ⟨c, rest, hname, hc⟩ := hname.exists_cons
      exact ⟨c, _, by rw [hname, List.cons_append], hc⟩

theorem exists_concat (hitem : WritesItem item text) :
    ∃ start c, text = start ++ [c] ∧ ¬ isBlank c := by
  cases hitem with
  | bare hname => exact hname.exists_concat
  | @valued name _ before after _ hvalue =>
      obtain ⟨start, c, hvalue, hc⟩ := hvalue.exists_concat
      exact ⟨name.toList ++ (before ++ ':' :: (after ++ start)), c, by simp [hvalue], hc⟩

end WritesItem

/-! ## Lists of items -/

namespace WritesItems

variable {items : List (String × Option String)} {text : List Char}

theorem exists_cons (hitems : WritesItems items text) :
    ∃ c rest, text = c :: rest ∧ ¬ isBlank c ∧ c ≠ ':' := by
  cases hitems with
  | last hitem => exact hitem.exists_cons
  | more hitem =>
      obtain ⟨c, rest, rfl, hc⟩ := hitem.exists_cons
      exact ⟨c, _, rfl, hc⟩

theorem exists_concat (hitems : WritesItems items text) :
    ∃ start c, text = start ++ [c] ∧ ¬ isBlank c := by
  induction hitems with
  | last hitem => exact hitem.exists_concat
  | @more _ _ text separator _ _ _ _ _ ih =>
      obtain ⟨start, c, rfl, hc⟩ := ih
      exact ⟨text ++ (separator ++ start), c, by simp, hc⟩

theorem tight (hitems : WritesItems items text) : Tight text where
  head := by
    obtain ⟨c, rest, rfl, hc, -⟩ := hitems.exists_cons
    rintro c' ⟨⟩
    exact hc
  last := by
    obtain ⟨start, c, rfl, hc⟩ := hitems.exists_concat
    intro c' hc'
    rw [List.getLast?_concat, Option.mem_some] at hc'
    exact hc' ▸ hc

theorem ne_nil (hitems : WritesItems items text) : text ≠ [] := by
  obtain ⟨c, rest, rfl, -⟩ := hitems.exists_cons
  exact List.cons_ne_nil c rest

/-- Joined at its colons and split at separators, the text falls into the items in their plainest
layout. -/
theorem splitItems_joinColons (hitems : WritesItems items text) :
    splitItems [] (joinColons text) = items.map plainItem := by
  induction hitems with
  | @last item text hitem =>
      obtain ⟨hne, hword⟩ := hitem.plainItem_word
      have h := hitem.joinColons_append []
      rw [List.append_nil, joinColons, List.append_nil] at h
      rw [h, splitItems_word hne hword]
      rfl
  | @more item items text separator rest hitem hsome hseparator hrest ih =>
      obtain ⟨hne, hword⟩ := hitem.plainItem_word
      have hhead : (rest.dropWhile isBlank).head? ≠ some ':' := by
        obtain ⟨c, cs, rfl, hblank, hcolon⟩ := hrest.exists_cons
        rw [List.dropWhile_cons_of_neg hblank]
        rintro ⟨⟩
        exact hcolon rfl
      rw [hitem.joinColons_append, joinColons_separators hseparator hhead,
        splitItems_word_separators hne hword hsome hseparator, ih, List.map_cons]

theorem map_splitItem (hitems : WritesItems items text) :
    (items.map plainItem).map splitItem = items := by
  induction hitems with
  | last hitem => rw [List.map_singleton, List.map_singleton, hitem.splitItem_plainItem]
  | more hitem _ _ _ ih => rw [List.map_cons, List.map_cons, hitem.splitItem_plainItem, ih]

/-- A directive whose body lists items has these items. -/
theorem items_eq (hitems : WritesItems items text) (kind : DirectiveKind) (position : Position) :
    Directive.items ⟨kind, String.ofList text, position⟩ = items := by
  have htrim : trim text = text := by
    have h : trim ([] ++ (text ++ [])) = text := hitems.tight.trim_eq hitems.ne_nil nofun nofun
    rwa [List.nil_append, List.append_nil] at h
  unfold Directive.items
  rw [String.toList_ofList, htrim, hitems.splitItems_joinColons, hitems.map_splitItem]

end WritesItems

/-! ## Comments -/

namespace Writes

variable {keyword : Keyword} {items : List (String × Option String)} {text : List Char}

/-- A comment with a keyword is not a fall-through remark. -/
theorem isFallsThrough_eq_false (htext : Writes keyword items text) :
    isFallsThrough text = false := by
  cases htext with
  | comment hlead =>
      obtain ⟨c, rest, hkeyword, hblank, hc⟩ := keyword.head?_text
      unfold isFallsThrough
      rw [dropWhile_blanks hlead, hkeyword, List.cons_append, List.dropWhile_cons_of_neg hblank]
      change Option.any _ (dropWord? ('f' :: _) (c :: _) >>= _) = false
      rw [dropWord?, if_neg hc.symm]
      rfl

/-- The header of the comment is its keyword, and the items are what else there is. -/
theorem exists_splitHeader? (htext : Writes keyword items text) :
    ∃ rest, splitHeader? text = some (keyword.text, rest) ∧ WritesItems items (trim rest) := by
  cases htext with
  | @comment lead gap body trail hlead hsome hgap hbody htrail =>
      obtain ⟨c, rest, hkeyword, hblank, -⟩ := keyword.head?_text
      obtain ⟨g, gap, rfl⟩ := List.exists_cons_of_ne_nil hsome
      have hstart : (lead ++ (keyword.text.toList ++ (g :: gap ++ (body ++ trail)))).dropWhile
          isBlank = keyword.text.toList ++ (g :: gap ++ (body ++ trail)) := by
        rw [dropWhile_blanks hlead, hkeyword, List.cons_append,
          List.dropWhile_cons_of_neg hblank]
      have hword : ∀ c ∈ keyword.text.toList, (!isBlank c) = true :=
        fun c hc => by simpa using keyword.not_isBlank_text c hc
      have hg : ¬ (!isBlank g) = true := by simpa using hgap g List.mem_cons_self
      refine ⟨g :: gap ++ (body ++ trail), ?_, ?_⟩
      · unfold splitHeader?
        simp only [hstart]
        rw [List.dropWhile_append_of_pos hword, List.takeWhile_append_of_pos hword,
          List.cons_append, List.dropWhile_cons_of_neg (p := (!isBlank ·)) hg,
          List.takeWhile_cons_of_neg (p := (!isBlank ·)) hg,
          List.append_nil, String.ofList_toList]
      · rwa [hbody.tight.trim_eq hbody.ne_nil hgap htrail]

end Writes

/-- A directive comment reads back to what it lists, whatever its layout. A block comment is a
directive of the kind that its keyword says with just the items that are written in it, in their
order. A line comment is the same directive if options are what it is about, and none otherwise. -/
theorem reads_back {keyword : Keyword} {items : List (String × Option String)} {text : List Char}
    (htext : Writes keyword items text) (position : Position) :
    ∃ d : Directive, d.kind = keyword.kind ∧ d.position = position ∧ d.items = items ∧
      ofComment? text true position = some d ∧
      ofComment? text false position = if keyword.inLines then some d else none := by
  obtain ⟨rest, hheader, hitems⟩ := htext.exists_splitHeader?
  have hread (block : Bool) : ofComment? text block position =
      if block || keyword.inLines then some ⟨keyword.kind, String.ofList (trim rest), position⟩
      else none := by
    unfold ofComment?
    rw [htext.isFallsThrough_eq_false, if_neg Bool.false_ne_true, hheader]
    change (kindOf? keyword.text block >>= fun _ => _) = _
    rw [keyword.kindOf?_text]
    split <;> rfl
  refine ⟨⟨keyword.kind, String.ofList (trim rest), position⟩, rfl, rfl,
    hitems.items_eq keyword.kind position, ?_, ?_⟩
  · simpa using hread true
  · simpa using hread false

/-- The items of a comment of three lines, one of them without a value in front of a colon that
belongs to the next. -/
theorem reads_back_lines :
    Writes .jshint [("undef", some "true"), ("-W117", none), ("esversion", some "6")]
      "\n jshint undef : true,\n -W117 ,esversion\n: 6 ".toList ∧
      ∃ d : Directive, d.kind = .jshint ∧ d.position = .start ∧
        d.items = [("undef", some "true"), ("-W117", none), ("esversion", some "6")] ∧
        ofComment? "\n jshint undef : true,\n -W117 ,esversion\n: 6 ".toList true .start = some d ∧
        ofComment? "\n jshint undef : true,\n -W117 ,esversion\n: 6 ".toList false .start =
          some d := by
  have hundef : WritesItem ("undef", some "true") "undef : true".toList :=
    @WritesItem.valued "undef" "true" [' '] [' '] (by decide +kernel) (by decide +kernel)
      (List.all_eq_true.mp rfl) (List.all_eq_true.mp rfl)
  have hcode : WritesItem ("-W117", none) "-W117".toList := .bare (by decide +kernel)
  have hversion : WritesItem ("esversion", some "6") "esversion\n: 6".toList :=
    @WritesItem.valued "esversion" "6" ['\n'] [' '] (by decide +kernel) (by decide +kernel)
      (List.all_eq_true.mp rfl) (List.all_eq_true.mp rfl)
  have hbody : WritesItems [("undef", some "true"), ("-W117", none), ("esversion", some "6")]
      "undef : true,\n -W117 ,esversion\n: 6".toList :=
    @WritesItems.more _ _ _ [',', '\n', ' '] _ hundef (by decide)
      (List.all_eq_true.mp rfl)
      (@WritesItems.more _ _ _ [' ', ','] _ hcode (by decide) (List.all_eq_true.mp rfl)
        (.last hversion))
  have htext : Writes .jshint
      [("undef", some "true"), ("-W117", none), ("esversion", some "6")]
      "\n jshint undef : true,\n -W117 ,esversion\n: 6 ".toList :=
    @Writes.comment _ _ ['\n', ' '] [' '] _ [' '] (List.all_eq_true.mp rfl)
      (by decide) (List.all_eq_true.mp rfl) hbody (List.all_eq_true.mp rfl)
  exact ⟨htext, reads_back htext .start⟩

end ScriptLint.Directive
