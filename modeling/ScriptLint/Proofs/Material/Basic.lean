import ScriptLint.Proofs.Diagnostic.Message
import ScriptLint.Proofs.Reading.Stepwise
import ScriptLint.Proofs.Scope.Stepwise

/-! # Texts and words

How texts are followed through steps, and the words that the analysis has of its own.
-/

/-! ## What reports are made of

A report shows texts: words of the analysis itself, and spellings and values of tokens. To tell what
can come to be shown, one has to follow these texts from the token to the report, through all that
is handed on from step to step and through what the scopes remember. Some of the texts are names: of
bindings, of labels, of features. What tokens, texts and names are meant is left open, so that the
way is followed only once.
-/

namespace ScriptLint

/-- The tokens that a parser may be given, the texts that reports may show, and those of the texts
that they may show in front of another one. -/
structure Material where
  token : Token → Prop
  text : String → Prop
  name : String → Prop

/-- Values that may carry tokens and texts, and what it means that all of these are of the
material. -/
class HasTexts (α : Type) where
  Made : Material → α → Prop

/-- Values of most kinds carry no texts. -/
instance (priority := low) noTexts {α : Type} : HasTexts α := ⟨fun _ _ => True⟩

namespace Material

/-- The tokens and the texts that a value carries are of the material. -/
class Made {α : Type} [HasTexts α] (m : Material) (a : α) : Prop where
  made : HasTexts.Made m a

/-- The text is a name of the material. -/
class Named (m : Material) (name : String) : Prop where
  named : m.name name

/-- The values whose tokens and texts are of a material. -/
abbrev Texts (α : Type) [HasTexts α] (m : Material) : Type := { a : α // HasTexts.Made m a }

variable {α β σ ε : Type} {m : Material}

instance (a : α) : @Made α noTexts m a := ⟨trivial⟩

instance [HasTexts α] (a : Texts α m) : Made m a.1 := ⟨a.2⟩

instance : HasTexts String := ⟨Material.text⟩

instance : HasTexts Token := ⟨Material.token⟩

instance [HasTexts α] : HasTexts (Option α) := ⟨fun m a? => ∀ a ∈ a?, HasTexts.Made m a⟩

instance [HasTexts α] : HasTexts (List α) := ⟨fun m as => ∀ a ∈ as, HasTexts.Made m a⟩

instance [HasTexts α] [HasTexts β] : HasTexts (α × β) :=
  ⟨fun m pair => HasTexts.Made m pair.1 ∧ HasTexts.Made m pair.2⟩

instance (a? : Option α) : @Made (Option α) (@instHasTextsOption α noTexts) m a? :=
  ⟨fun _ _ => trivial⟩

instance (as : List α) : @Made (List α) (@instHasTextsList α noTexts) m as :=
  ⟨fun _ _ => trivial⟩

section

variable [HasTexts α] [HasTexts β]

instance : Made m (none : Option α) := ⟨nofun⟩

instance (a : α) [h : Made m a] : Made m (some a) := ⟨by rintro _ ⟨⟩; exact h.made⟩

instance : Made m ([] : List α) := ⟨nofun⟩

instance (a : α) (as : List α) [ha : Made m a] [has : Made m as] : Made m (a :: as) :=
  ⟨fun _ hmem => (List.mem_cons.mp hmem).elim (fun heq => heq ▸ ha.made) (has.made _)⟩

instance (as bs : List α) [ha : Made m as] [hb : Made m bs] : Made m (as ++ bs) :=
  ⟨fun a hmem => (List.mem_append.mp hmem).elim (ha.made a) (hb.made a)⟩

instance (a? : Option α) [h : Made m a?] : Made m a?.toList :=
  ⟨fun a hmem => h.made a (Option.mem_toList.mp hmem)⟩

instance (as : List α) [h : Made m as] : Made m as.head? :=
  ⟨fun a hmem => h.made a (List.mem_of_head? hmem)⟩

instance (a? : Option α) (a : α) [ha? : Made m a?] [ha : Made m a] : Made m (a?.getD a) := by
  cases a? with
  | none => exact ha
  | some b => exact ⟨ha?.made b rfl⟩

instance (a? b? : Option α) [ha : Made m a?] [hb : Made m b?] : Made m (a? <|> b?) := by
  cases a? with
  | none => exact hb
  | some a => exact ha

instance (as : List α) (f : α → β) [has : Made m as] [hf : ∀ a : Texts α m, Made m (f a.1)] :
    Made m (as.map f) where
  made b hmem := by
    obtain ⟨a, ha, rfl⟩ := List.mem_map.mp hmem
    exact (hf ⟨a, has.made a ha⟩).made

instance (a? : Option α) (f : α → β) [ha : Made m a?] [hf : ∀ a : Texts α m, Made m (f a.1)] :
    Made m (a?.map f) where
  made b hmem := by
    obtain ⟨a, ha?, rfl⟩ := Option.map_eq_some_iff.mp hmem
    exact (hf ⟨a, ha.made a ha?⟩).made

instance {q : Prop} [Decidable q] (a b : α) [ha : Made m a] [hb : Made m b] :
    Made m (if q then a else b) := by
  split
  · exact ha
  · exact hb

end

/-! ## Steps -/

/-- A step that takes texts from what it is given and makes up none of its own but those of the
material: the state after it and its answer are made of the material if the state before it is. -/
class Keeps [HasTexts σ] [HasTexts α] (m : Material) (step : ExceptT ε (StateM σ) α) : Prop where
  state {s : σ} : HasTexts.Made m s → HasTexts.Made m (step.run.run s).2
  answer {s : σ} {a : α} : HasTexts.Made m s → (step.run.run s).1 = .ok a → HasTexts.Made m a

namespace Keeps

variable [HasTexts σ] [HasTexts α] [HasTexts β]

omit [HasTexts σ] [HasTexts α] [HasTexts β] in
theorem run_bind (first : ExceptT ε (StateM σ) α) (next : α → ExceptT ε (StateM σ) β) (s : σ) :
    (first >>= next).run.run s =
      match first.run.run s with
      | (.ok a, s') => (next a).run.run s'
      | (.error stop, s') => (.error stop, s') := by
  change (match first.run.run s with | (outcome, s') => ExceptT.bindCont next outcome s') = _
  rcases first.run.run s with ⟨_ | _, s'⟩ <;> rfl

instance (a : α) [ha : Made m a] : Keeps m (pure a : ExceptT ε (StateM σ) α) where
  state hs := hs
  answer := by
    rintro s _ hs ⟨⟩
    exact ha.made

/-- A step and what comes after it, of which only is asked what it does behind the step. -/
theorem bind_at {first : ExceptT ε (StateM σ) α} {next : α → ExceptT ε (StateM σ) β}
    (hfirst : Keeps m first)
    (hnext : ∀ {s s' : σ} (a : Texts α m), first.run.run s = (.ok a.1, s') →
      ∃ step : ExceptT ε (StateM σ) β,
        Keeps m step ∧ (next a.1).run.run s' = step.run.run s') :
    Keeps m (first >>= next) := by
  have hrest {s s' : σ} {a : α} (hs : HasTexts.Made m s) (hrun : first.run.run s = (.ok a, s')) :
      HasTexts.Made m s' ∧ ∃ step : ExceptT ε (StateM σ) β,
        Keeps m step ∧ (next a).run.run s' = step.run.run s' :=
    ⟨by simpa [hrun] using hfirst.state hs, hnext ⟨a, hfirst.answer hs (by rw [hrun])⟩ hrun⟩
  constructor
  · intro s hs
    rw [run_bind]
    rcases hrun : first.run.run s with ⟨stop | a, s'⟩
    · simpa [hrun] using hfirst.state hs
    · obtain ⟨hs', step, hkeeps, hstep⟩ := hrest hs hrun
      simpa [hstep] using hkeeps.state hs'
  · intro s b hs hb
    rw [run_bind] at hb
    rcases hrun : first.run.run s with ⟨stop | a, s'⟩ <;> rw [hrun] at hb
    · cases hb
    · obtain ⟨hs', step, hkeeps, hstep⟩ := hrest hs hrun
      exact hkeeps.answer hs' (hstep ▸ hb)

protected theorem bind {first : ExceptT ε (StateM σ) α} {next : α → ExceptT ε (StateM σ) β}
    (hfirst : Keeps m first) (hnext : ∀ a : Texts α m, Keeps m (next a.1)) :
    Keeps m (first >>= next) :=
  .bind_at hfirst fun a _ => ⟨next a.1, hnext a, rfl⟩

instance {first : ExceptT ε (StateM σ) α} {next : α → ExceptT ε (StateM σ) β}
    [hfirst : Keeps m first] [hnext : ∀ a : Texts α m, Keeps m (next a.1)] :
    Keeps m (first >>= next) := .bind hfirst hnext

instance ite {q : Prop} [Decidable q] {first second : ExceptT ε (StateM σ) α}
    [hfirst : Keeps m first] [hsecond : Keeps m second] :
    Keeps m (if q then first else second) := by
  split <;> infer_instance

/-- A step that is left out or taken, with what comes after it. -/
theorem iteThen {q : Prop} [Decidable q] {first : ExceptT ε (StateM σ) Unit}
    {next : Unit → ExceptT ε (StateM σ) β} (hfirst : Keeps m first)
    (hnext : ∀ u, Keeps m (next u)) : Keeps m (if q then first >>= next else next ()) := by
  split
  · exact .bind hfirst fun u => hnext u.1
  · exact hnext ()

instance get : Keeps m (get : ExceptT ε (StateM σ) σ) where
  state hs := hs
  answer := by
    rintro s _ hs ⟨⟩
    exact hs

/-- A change of the state. -/
theorem change {change : σ → σ} (hchange : ∀ {s}, HasTexts.Made m s → HasTexts.Made m (change s)) :
    Keeps m (modify change : ExceptT ε (StateM σ) Unit) where
  state hs := hchange hs
  answer _ _ := trivial

/-- An early end. -/
theorem stop (stop : ε) : Keeps m (throw stop : ExceptT ε (StateM σ) α) where
  state hs := hs
  answer _ := nofun

theorem congr {step step' : ExceptT ε (StateM σ) α} (heq : ∀ s, step.run.run s = step'.run.run s)
    (hstep : Keeps m step') : Keeps m step where
  state hs := heq _ ▸ hstep.state hs
  answer hs ha := hstep.answer hs (heq _ ▸ ha)

omit [HasTexts α] in
theorem forM_of_mem {items : List α} {step : α → ExceptT ε (StateM σ) PUnit}
    (hstep : ∀ a ∈ items, Keeps m (step a)) : Keeps m (items.forM step) := by
  induction items with
  | nil => exact inferInstanceAs (Keeps m (pure _))
  | cons a rest ih =>
      exact .bind (hstep a List.mem_cons_self) fun _ =>
        ih fun b hmem => hstep b (List.mem_cons_of_mem a hmem)

instance {items : List α} {step : α → ExceptT ε (StateM σ) PUnit}
    [hitems : Made m items] [hstep : ∀ a : Texts α m, Keeps m (step a.1)] :
    Keeps m (items.forM step) :=
  .forM_of_mem fun a hmem => hstep ⟨a, hitems.made a hmem⟩

instance {item? : Option α} {step : α → ExceptT ε (StateM σ) PUnit} [hitem : Made m item?]
    [hstep : ∀ a : Texts α m, Keeps m (step a.1)] : Keeps m (item?.forM step) := by
  cases item? with
  | none => exact inferInstanceAs (Keeps m (pure _))
  | some a => exact hstep ⟨a, hitem.made a rfl⟩

end Keeps

end Material

end ScriptLint

/-! ## Words and codes

The words that the analysis has of its own, and with which arguments it reports each of its codes.
-/

namespace ScriptLint

/-! ## Codes -/

namespace Message

/-- A code that is reported with such arguments. -/
class Formed (code : String) (arguments : List String) : Prop where
  takes : Takes code arguments

instance (code : String) [h : Scope.Listed code bareCodes] : Formed code [] := ⟨.bare h.mem⟩

instance (code a : String) [h : Scope.Listed code namingCodes] : Formed code [a] := ⟨.naming h.mem⟩

instance (code a b : String) [h : Scope.Listed code pairingCodes] : Formed code [a, b] :=
  ⟨.pairing h.mem⟩

instance : Formed "W087" ["debugger"] := ⟨.unshown rfl⟩

end Message

open Message (Formed Takes)

/-! ## Words -/

/-- The words of the analysis, apart from the names of features. -/
abbrev ownWords : List String :=
  ["", "(", ")", ":", ";", "=>", "]", "\x7b", "\x7d", "===", "!==", "while", "as", "from", "meta",
    "sent", "target", "case", "catch", "(string)", "super", "throw", "break", "continue", "return",
    "default", "debugger", "Class", "Const", "Let", "Import", "Export", "ignore", "use strict",
    "key", "getter", "setter", "(computed)", "in", "of", "var", "let", "const", "function",
    "param", "class", "exception", "import", "export", "more than one ForBinding",
    "initializer is forbidden", "function.sent", "gensent", "new.target", "import.meta",
    "function*", "\\", "3", "5", "6", "7", "8", "9", "10", "11", "12", "13"]

/-- The names of features that editions introduced. -/
abbrev featureNames : List String :=
  ["Class properties", "Class static blocks", "Private class members",
    "Trailing comma in arguments lists", "Trailing comma in function parameters",
    "arrow function syntax (=>)", "async functions", "asynchronous iteration",
    "computed property names", "concise methods", "default parameters", "destructuring assignment",
    "destructuring binding", "dynamic import", "for of", "object rest property",
    "object short notation", "object spread property", "optional catch binding", "rest parameter",
    "spread operator", "template literal syntax", "generator methods", "Unicode RegExp flag",
    "Sticky RegExp flag", "DotAll RegExp flag", "RegExp indices flag", "Exponentiation operator",
    "Optional chaining", "Nullish Coalescing", "Logical assignment", "operator",
    "Octal integer literal", "Binary integer literal", "BigInt", "Numeric separators",
    "Unicode code point escapes"]

/-- The words of jumps, behind which nothing is reached. -/
abbrev jumpWords : List String := ["break", "continue", "return", "throw"]

/-! ## Reports -/

namespace Material

/-- Of two arguments the first one is a name, but for the code that tells what a jump leaves
unreached. -/
def Leads (m : Material) (code : String) (arguments : List String) : Prop :=
  ∀ a b, arguments = [a, b] → m.name a ∨ code = "W027" ∧ b ∈ jumpWords

/-- A code and arguments of which the first one may lead. -/
class Led (m : Material) (code : String) (arguments : List String) : Prop where
  leads : m.Leads code arguments

variable {m : Material}

instance (code : String) : Led m code [] := ⟨nofun⟩

instance (code a : String) : Led m code [a] := ⟨by rintro _ _ ⟨⟩⟩

instance (code a b : String) [h : Named m a] : Led m code [a, b] :=
  ⟨by rintro _ _ ⟨⟩; exact .inl h.named⟩

instance (a b : String) [h : Scope.Listed b jumpWords] : Led m "W027" [a, b] :=
  ⟨by rintro _ _ ⟨⟩; exact .inr ⟨rfl, h.mem⟩⟩

end Material

/-- A diagnostic has arguments such as its code takes, and these are texts of the material. -/
instance : HasTexts Diagnostic :=
  ⟨fun m d => Takes d.code d.arguments ∧ HasTexts.Made m d.arguments ∧ m.Leads d.code d.arguments⟩

instance : HasTexts LexicalIssue where
  Made m issue := Takes issue.code issue.arguments ∧ HasTexts.Made m issue.arguments ∧
    m.Leads issue.code issue.arguments

instance : HasTexts Directive := ⟨fun m d => HasTexts.Made m d.items⟩

namespace Material

/-- A material with the words of the analysis and all that tokens have to show, to which parsers
keep when they take tokens. The words of the analysis are names, and so are those of tokens. -/
class Lawful (m : Material) : Prop where
  shown {name : String} : m.name name → m.text name
  own : ∀ word ∈ ownWords, m.name word
  feature : ∀ name ∈ featureNames, m.name name
  bound {t : Token} : m.token t → t.isPropertyName → m.name t.name
  raw {t : Token} : m.token t → m.text t.raw
  display {t : Token} : m.token t → m.text t.display
  name {t : Token} : m.token t → m.text t.name
  issues {t : Token} : m.token t → HasTexts.Made m t.issues
  directives {t : Token} : m.token t → HasTexts.Made m t.directives
  next {t : Token} : m.token t → m.token (Token.next t.stop)
  rescanRegexp {t : Token} : m.token t → Reading.isSlash t → m.token t.rescanRegexp
  rescanTemplate {t : Token} : m.token t → t.isPunctuator "\x7d" → m.token t.rescanTemplate

variable {m : Material} [hm : m.Lawful]

instance (priority := low) named (name : String) [h : Named m name] : Made m name :=
  ⟨hm.shown h.named⟩

instance (priority := low) ownWord (word : String) [h : Scope.Listed word ownWords] :
    Named m word := ⟨hm.own word h.mem⟩

instance (priority := low) featureName (name : String) [h : Scope.Listed name featureNames] :
    Named m name := ⟨hm.feature name h.mem⟩

instance {q : Prop} [Decidable q] (a b : String) [Named m a] [Named m b] :
    Named m (if q then a else b) := by
  split <;> infer_instance

instance (edition : Edition) : Named m (toString edition.number) :=
  ⟨hm.own _ (by cases edition <;> decide)⟩

instance (kind : Scope.BindingKind) : Named m kind.word := ⟨hm.own _ (by cases kind <;> decide)⟩

instance (use : Reading.KeyUse) : Named m use.word := ⟨hm.own _ (by cases use <;> decide)⟩

instance (iteration : Reading.Iteration) : Named m iteration.word :=
  ⟨hm.own _ (by cases iteration <;> decide)⟩

instance (id : String) : Named m (Reading.operatorFeature id) := by
  constructor
  unfold Reading.operatorFeature
  split <;> exact hm.feature _ (by decide)

section

variable {t : Token} (ht : m.token t) {text : String}
include ht

theorem text_of_identifier (hlexeme : t.lexeme = .identifier text) : m.text text := by
  simpa [Token.name, hlexeme] using hm.name ht

theorem text_of_keyword (hlexeme : t.lexeme = .keyword text) : m.text text := by
  simpa [Token.name, hlexeme] using hm.name ht

theorem text_of_privateName (hlexeme : t.lexeme = .privateName text) : m.text text := by
  simpa [Token.name, hlexeme] using hm.name ht

theorem text_of_string (hlexeme : t.lexeme = .string text) : m.text text := by
  simpa [Token.display, hlexeme] using hm.display ht

end

section

variable (t : Token) [ht : Made m t]

instance : Made m t.raw := ⟨hm.raw ht.made⟩

instance : Made m t.display := ⟨hm.display ht.made⟩

instance : Made m t.name := ⟨hm.name ht.made⟩

instance : Made m t.issues := ⟨hm.issues ht.made⟩

instance : Made m t.directives := ⟨hm.directives ht.made⟩

instance : Made m (Token.next t.stop) := ⟨hm.next ht.made⟩

end

end Material

end ScriptLint
