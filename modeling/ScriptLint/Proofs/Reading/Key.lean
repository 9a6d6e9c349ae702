import ScriptLint.Proofs.Analysis.Lockstep
import ScriptLint.Proofs.Invariant.Space
import ScriptLint.Proofs.Lexing.Count
import ScriptLint.Proofs.Reading.FallThrough
import ScriptLint.Proofs.Reading.Unspoken

/-! # Repeated keys and setters without getters

What an object literal reports of its keys is about the first tokens of its properties. Between two
steps all such reports are about tokens that were taken, and those made since some earlier step are
about tokens from there on. So what literals inside of the values report is about other places, and
at the end of a literal it is told of a property that it repeats its key, or that it is a setter
without a getter, exactly if the keys of the literal say so.
-/

set_option synthInstance.maxSize 4096

namespace ScriptLint

/-- Two places that the lexer comes past are different. -/
theorem Cursor.Passes.place_ne {source : String} {p q : Position}
    (hp : (Cursor.ofSource source).Passes p) (hq : (Cursor.ofSource source).Passes q)
    (hlt : p.offset < q.offset) : p.place ≠ q.place := by
  intro heq
  have hline : p.line = q.line := congrArg Prod.fst heq
  have hcolumn : p.column = q.column := congrArg Prod.snd heq
  rcases hp.countedIn.line_lt_or hq.countedIn hlt with hlt | ⟨-, hlt⟩ <;> omega

/-! ## Where keys are reported -/

namespace Reading

open Scope (Operation)
open Scope.Action (scopeCodes)

variable {α : Type} {codes : List String} {s s' s₀ : State}

/-- The program is being read, and what is told of keys was told before or is about tokens of the
source that were taken, from the start on. -/
structure KeysTold (source : String) (told : Array Diagnostic) (start : Nat)
    (bs : List Bracket) (s : State) : Prop extends InOrder [] bs s where
  within : s.Within (.ofSource source)
  lexed : s.Lexed
  start_le : start ≤ s.lookahead.position.offset
  keys : ∀ d ∈ s.session.sink.accepted, d.code ∈ keyCodes → d ∈ told ∨
    start ≤ d.position.offset ∧ d.position.offset < s.lookahead.position.offset ∧
      (Cursor.ofSource source).Passes d.position

namespace KeysTold

variable {source : String} {told : Array Diagnostic} {start : Nat} {bs bs' : List Bracket}

/-- Nothing more is told of keys. -/
theorem of_without (hs : KeysTold source told start bs s) (horder : InOrder [] bs' s')
    (hwithin : s'.Within (.ofSource source)) (hlexed : s'.Lexed)
    (hle : s.lookahead.position.offset ≤ s'.lookahead.position.offset)
    (hwithout : s.session.sink.Without keyCodes s'.session.sink) :
    KeysTold source told start bs' s' where
  toInOrder := horder
  within := hwithin
  lexed := hlexed
  start_le := Nat.le_trans hs.start_le hle
  keys d hmem hcode := by
    rcases hwithout d hmem with hold | hother
    · exact (hs.keys d hold hcode).imp_right fun h =>
        ⟨h.1, Nat.lt_of_lt_of_le h.2.1 hle, h.2.2⟩
    · exact absurd hcode hother

theorem of_attends (hs : KeysTold source told start bs s) (hattends : s.Attends codes s')
    (hcodes : ∀ code ∈ codes, code ∉ keyCodes) : KeysTold source told start bs s' := by
  refine hs.of_without (hs.toInOrder.of_attends hattends) ⟨?_, ?_⟩ ?_ ?_ (hattends.without hcodes)
  · exact hattends.lookahead ▸ hs.within.lookahead
  · exact hattends.consumed ▸ hs.within.consumed
  · rw [State.Lexed, hattends.lookahead]
    exact hs.lexed
  · rw [hattends.lookahead]

theorem behind (hs : KeysTold source told start bs s) :
    KeysTold source told start bs s.behind := by
  refine hs.of_without hs.toInOrder.behind ⟨?_, fun t hmem => ?_⟩ (hs.lexed.imp fun _ => .next) ?_
    (.refl _)
  · exact (Token.next_behind _).of_reaches hs.within.lookahead.stop
  · rcases List.mem_cons.mp hmem with rfl | hmem
    · exact hs.within.lookahead
    · exact hs.within.consumed t hmem
  · exact Nat.le_trans hs.ready.offset_le_stop (Token.offset_le_next s.lookahead.stop)

theorem advance (hs : KeysTold source told start bs s) :
    Leads Reading.advance s fun _ s' => KeysTold source told start bs s' := by
  have hissues : ∀ issue ∈ s.lookahead.issues, issue.code ∈ tokenCodes := fun issue hmem =>
    List.mem_append_right _ (List.mem_map_of_mem (hs.within.lookahead.issues issue hmem).kind)
  exact (advance_attends (List.subset_append_left _ _) hissues).mono fun _ _ hattends =>
    hs.behind.of_attends hattends (by decide)

/-- The next token is read again in its place. -/
theorem of_lookahead (hs : KeysTold source told start bs s) {t : Token} (hready : t.Within s.size)
    (hposition : t.position = s.lookahead.position) (hbehind : t.Behind (.ofSource source))
    (hlexed : State.Lexed { s with lookahead := t }) :
    KeysTold source told start bs { s with lookahead := t } :=
  hs.of_without (hs.toInOrder.of_lookahead hready hposition) ⟨hbehind, hs.within.consumed⟩ hlexed
    (Nat.le_of_eq (by rw [hposition])) (.refl _)

theorem rescanTemplate (hs : KeysTold source told start bs s)
    (hbrace : s.lookahead.isPunctuator "\x7d") :
    Leads Reading.rescanTemplate s fun _ s' => KeysTold source told start bs s' := by
  refine .bind ?_
  rintro _ _ ⟨⟩
  refine .bind ?_
  rintro _ _ ⟨⟩
  have hpiece := hs.of_lookahead (Token.Within.rescanTemplate hs.ready hbrace) rfl
    hs.within.lookahead.rescanTemplate (hs.lexed.imp fun _ hleads => hleads.template hbrace)
  have hfatal : Attends [] checkFatal := .checkFatal
  exact (hfatal.leads _).mono fun _ _ hattends => hpiece.of_attends hattends nofun

theorem perform (hs : KeysTold source told start bs s) {operation : Operation}
    (hturns : operation.Turns bs bs') :
    Leads (inScopes operation.perform) s fun _ s' => KeysTold source told start bs' s' := by
  intro _ s' hrun
  have horder := hs.toInOrder.perform hturns _ s' hrun
  rw [run_inScopes] at hrun
  obtain ⟨-, rfl⟩ := Prod.mk.inj hrun
  refine hs.of_without horder ⟨hs.within.lookahead, hs.within.consumed⟩ hs.lexed (Nat.le_refl _) ?_
  exact fun d hmem => (hturns.reports.2.mem s.session d hmem).imp_right
    ((by decide : ∀ code ∈ scopeCodes, code ∉ keyCodes) d.code)

theorem report (hs : KeysTold source told start bs s) {code : String} (hcode : code ∉ keyCodes)
    (position : Position) (arguments : List String) (hregular : Halt.IsRegular code) :
    Leads (Reading.report code position arguments hregular) s fun _ s' =>
      KeysTold source told start bs s' := by
  have hreport : Attends [code] (Reading.report code position arguments hregular) :=
    .report List.mem_cons_self position arguments hregular
  exact (hreport.leads s).mono fun _ s' hattends =>
    hs.of_attends hattends fun code' hmem => List.mem_singleton.mp hmem ▸ hcode

/-- Of a place that reading has passed, a key may be reported. -/
theorem reportKey {s₀ : State} (hs₀ : KeysTold source told start bs s₀)
    (hs : KeysTold source told start bs s)
    (hlt : s₀.lookahead.position.offset < s.lookahead.position.offset) {code : String}
    (arguments : List String) (hregular : Halt.IsRegular code) :
    Leads (Reading.report code s₀.lookahead.position arguments hregular) s fun _ s' =>
      KeysTold source told start bs s' := by
  intro _ s' hrun
  have hreport : Attends [code] (Reading.report code s₀.lookahead.position arguments hregular) :=
    .report List.mem_cons_self s₀.lookahead.position arguments hregular
  have horder := hs.toInOrder.of_attends (hreport.leads s _ s' hrun)
  obtain ⟨scope, rfl⟩ := report_leads s _ s' hrun
  refine ⟨horder, ⟨hs.within.lookahead, hs.within.consumed⟩, hs.lexed, hs.start_le,
    fun d hmem hcode => ?_⟩
  rcases Sink.mem_report_accepted hmem with hmem | rfl
  · exact hs.keys d hmem hcode
  · exact .inr ⟨hs₀.start_le, hlt, hs₀.within.lookahead.start.passes⟩

instance (source : String) (told : Array Diagnostic) (start : Nat) :
    Invariant.Lawful (KeysTold source told start) where
  adjust depth inExcluded exports hs :=
    ⟨⟨hs.ready, hs.opened, hs.ordered, hs.before, hs.taken⟩,
      ⟨hs.within.lookahead, hs.within.consumed⟩, hs.lexed, hs.start_le, hs.keys⟩
  report position arguments hcode hlisted hs :=
    hs.report ((by decide : ∀ code ∈ grammarCodes, code ∉ keyCodes) _ hlisted) position arguments
      hcode
  reportKey arguments hcode _ hs₀ hs hlt := hs₀.reportKey hs hlt arguments hcode
  perform hturns hs := hs.perform hturns
  advance hs := hs.advance
  rescanRegexp hslash hs :=
    hs.of_lookahead (Token.Within.rescanRegexp hs.ready hslash) rfl hs.within.lookahead.rescanRegexp
      (hs.lexed.imp fun _ hleads => hleads.regexp hslash)
  rescanTemplate hbrace hs := hs.rescanTemplate hbrace
  inOrder hs := hs.toInOrder
  record {_ s p} name access hs hoffers := by
    intro _ s' hrun
    have horder := hoffers.record name access _ s' hrun
    cases hrun
    exact hs.of_without horder ⟨hs.within.lookahead, hs.within.consumed⟩ hs.lexed (Nat.le_refl _)
      (.refl _)

/-- What was told of keys by now is all that may have been told before the next token. -/
theorem restart (hs : KeysTold source told start bs s) {told' : Array Diagnostic}
    (htold : ∀ d ∈ s.session.sink.accepted, d.code ∈ keyCodes → d ∈ told') :
    KeysTold source told' s.lookahead.position.offset bs s where
  toInOrder := hs.toInOrder
  within := hs.within
  lexed := hs.lexed
  start_le := Nat.le_refl _
  keys d hmem hcode := .inl (htold d hmem hcode)

theorem passes (hs : KeysTold source told start bs s) :
    (Cursor.ofSource source).Passes s.lookahead.position := hs.within.lookahead.start.passes

/-- What is told of the key at some place was told before, or the place is between the start and the
next token. -/
theorem told_or (hs : KeysTold source told start bs s) {code : String} (hcode : code ∈ keyCodes)
    {p : Position} (hp : (Cursor.ofSource source).Passes p)
    (htells : s.session.sink.Tells code p.place) :
    (∃ d ∈ told, d.key = (code, p.place)) ∨
      start ≤ p.offset ∧ p.offset < s.lookahead.position.offset := by
  obtain ⟨d, hmem, hkey⟩ := htells
  obtain ⟨rfl, hplace⟩ : d.code = code ∧ d.position.place = p.place := Prod.mk.inj hkey
  refine (hs.keys d hmem hcode).imp (fun hmem => ⟨d, hmem, hkey⟩) fun ⟨hle, hlt, hpasses⟩ => ?_
  have hoffset : d.position.offset = p.offset := by
    rcases Nat.lt_trichotomy d.position.offset p.offset with hlt | heq | hlt
    · exact absurd hplace (hpasses.place_ne hp hlt)
    · exact heq
    · exact absurd hplace.symm (hp.place_ne hpasses hlt)
  exact hoffset ▸ ⟨hle, hlt⟩

/-- Nothing was told of the key that the next token may be. -/
theorem untold (hs : KeysTold source #[] 0 bs s) {code : String} (hcode : code ∈ keyCodes) :
    ¬ s.session.sink.Tells code s.lookahead.position.place := by
  intro htells
  rcases hs.told_or hcode hs.passes htells with ⟨d, hmem, -⟩ | ⟨-, hlt⟩
  · exact Array.not_mem_empty d hmem
  · exact absurd hlt (Nat.lt_irrefl _)

/-- Of places in front of the start no more is told. -/
theorem tells (hs : KeysTold source s₀.session.sink.accepted start bs s) {code : String}
    (hcode : code ∈ keyCodes) {p : Position} (hp : (Cursor.ofSource source).Passes p)
    (hlt : p.offset < start) (htells : s.session.sink.Tells code p.place) :
    s₀.session.sink.Tells code p.place :=
  (hs.told_or hcode hp htells).resolve_right fun h => absurd hlt (Nat.not_lt.mpr h.1)

end KeysTold

theorem startState_keysTold (source : String) (o : Options) (known : KnownGlobals) :
    KeysTold source #[] 0 [] (Analysis.startState source o known) where
  toInOrder := Analysis.startState_inOrder source o known
  within := Analysis.startState_within source o known
  lexed := ⟨.ofSource source, .refl⟩
  start_le := Nat.zero_le _
  keys d hmem := absurd hmem (Array.not_mem_empty d)

/-! ## Keys of properties -/

variable {ps : List KeyedProperty} {source : String} {bs : List Bracket} {fuel : Nat}

theorem modifiers_avoid : Avoids keyCodes modifiers := by
  have hadvance : Avoids keyCodes advance := .advance (by decide)
  have hpeek : Avoids keyCodes peek := .look fun _ => rfl
  have hbefore (edition : Edition) : Avoids keyCodes (isBefore edition) := .look fun _ => rfl
  have hreport (code : String) (hcode : code ∉ keyCodes) (position : Position)
      (arguments : List String) (hregular : Halt.IsRegular code) :
      Avoids keyCodes (report code position arguments hregular) :=
    .report hcode position arguments hregular
  have hedition (feature : String) (since : Edition) (position : Position) :
      Avoids keyCodes (requireEdition feature since position) := by
    have hissue : Avoids keyCodes (reportIssue (.gated feature since position)) :=
      hreport "W119" (by decide) _ _ _
    unfold requireEdition
    infer_instance
  have hmodern (feature : String) (position : Position) :
      Avoids keyCodes (requireModern feature position) := by
    have := hreport "W104" (by decide)
    unfold requireModern
    infer_instance
  have hword : Avoids keyCodes modifierWord := by
    have := hreport "E034" (by decide)
    refine .bind inferInstance fun t => ?_
    split <;> infer_instance
  unfold modifiers
  infer_instance

/-- Up to a key that is known, no key is reported. -/
theorem propertyHead_without (hs : s.Lexed) :
    Leads (propertyHead (productions fuel)) s fun head s' =>
      head.2.isSome → s.session.sink.Without keyCodes s'.session.sink := by
  have hadvance : Avoids keyCodes advance := .advance (by decide)
  have hreserved (name : String) (position : Position) :
      Avoids keyCodes (reportReserved name position) := .report (by decide) _ _ _
  have htold {key? : Reading (Option String)} (hkey : Avoids keyCodes key?) {s : State}
      (hs : s.Lexed) : Leads key? s fun key? s' =>
        key?.isSome → s.session.sink.Without keyCodes s'.session.sink :=
    (hkey.leads hs).mono fun _ _ h _ => h.2
  have hnone {first : Reading Unit} {s : State} : Leads (do first; pure none) s
      fun (key? : Option String) s' =>
        key?.isSome → s.session.sink.Without keyCodes s'.session.sink :=
    .after fun _ _ => .pure fun hkey => absurd hkey Bool.false_ne_true
  have hkey {s : State} (hs : s.Lexed) : Leads (propertyKey (productions fuel)) s fun key? s' =>
      key?.isSome → s.session.sink.Without keyCodes s'.session.sink := by
    refine .bind ?_
    rintro _ _ ⟨⟩
    split
    case h_7 => exact .ite (fun _ => hnone) fun _ => hnone
    all_goals exact htold inferInstance hs
  refine .bind fun m s₁ hrun => .bind fun key? s₂ hrun' => .pure fun hsome => ?_
  obtain ⟨hs₁, hwithout⟩ := modifiers_avoid.leads hs m s₁ hrun
  exact hwithout.trans (hkey hs₁ key? s₂ hrun' hsome)

theorem propertyPart_stepwise (fuel : Nat) (first : Token) :
    Stepwise (propertyPart (productions fuel) first) := by
  have := productions_stepwise fuel
  have hrest (m : Modifiers) (key? : Option String) :
      Steady 0 (propertyRest (productions fuel) first m key?) := by
    unfold propertyRest
    cases key? <;> infer_instance
  have hhead : Steady 0 (propertyHead (productions fuel)) := by
    unfold propertyHead
    infer_instance
  refine .of_steady (n := 0) ?_
  unfold propertyPart
  infer_instance

/-- An entry tells of its key if that is a repetition, unless the line is switched off. -/
theorem recordKey_tells (hopen : s.session.sink.isHalted = false) (keys : KeyTable)
    (p : KeyedProperty) :
    Leads (recordKey keys p.key p.use p.position) s fun _ s' => ∀ code place,
      s'.session.sink.Tells code place ↔ s.session.sink.Tells code place ∨
        code = "W075" ∧ place = p.position.place ∧ keys.IsRepetition p ∧
          s.session.sink.suppresses "W075" p.position.line = false := by
  rw [recordKey_eq]
  refine .bind fun _ s' hrun => .pure ?_
  revert hrun
  split
  next hrepeats =>
    intro hrun code place
    obtain ⟨scope, rfl⟩ := report_leads s _ s' hrun
    rw [Sink.tells_report_iff hopen, eq_comm (a := code), eq_comm (a := place)]
    simp only [hrepeats, true_and]
  next hfresh =>
    rintro ⟨⟩ code place
    exact (or_iff_left fun h => hfresh h.2.2.1).symm

/-- What has something in front of it and behind it in a longer list is the last or was there. -/
theorem concat_eq_append_cons {ps earlier later : List KeyedProperty} {p q : KeyedProperty}
    (h : ps ++ [p] = earlier ++ q :: later) :
    ps = earlier ∧ p = q ∨ ∃ later', ps = earlier ++ q :: later' := by
  cases later using List.reverseRecOn with
  | nil =>
      obtain ⟨hearlier, hlast⟩ := List.append_inj' h rfl
      exact .inl ⟨hearlier, List.singleton_inj.mp hlast⟩
  | append_singleton later q' _ =>
      have hsplit : ps ++ [p] = (earlier ++ q :: later) ++ [q'] := by simpa using h
      exact .inr ⟨later, (List.append_inj' hsplit rfl).1⟩

/-- Some properties of an object literal were read, and the keys that are told are those that they
repeat. -/
structure Entered (source : String) (bs : List Bracket) (ps : List KeyedProperty) (s : State) :
    Prop where
  told : KeysTold source #[] 0 bs s
  records : s.session.sink.Records none
  placed : ∀ p ∈ ps, (Cursor.ofSource source).Passes p.position ∧
    p.position.offset < s.lookahead.position.offset
  ordered : ps.Pairwise (·.position.offset < ·.position.offset)
  repeated : ∀ earlier p later, ps = earlier ++ p :: later →
    (s.session.sink.Tells "W075" p.position.place ↔
      p.Repeats (unrepeated earlier) ∧ p.silenced = false)
  unclosed : ∀ p ∈ ps, ¬ s.session.sink.Tells "W078" p.position.place

namespace Entered

/-- Reading on, nothing more is told of the properties that are behind. -/
theorem leads {step : Reading α} (hs : Entered source bs ps s) (hstepwise : Stepwise step)
    (hstep : ∀ told start, KeysTold source told start bs s →
      Leads step s fun _ s' => KeysTold source told start bs s') :
    Leads step s fun _ s' => Entered source bs ps s' := by
  intro a s' hrun
  have hsince := hstep _ _ (hs.told.restart fun _ hmem _ => hmem) a s' hrun
  have hgrows := hstepwise.grows s
  have hrecords := hstepwise.leads_records hs.records a s' hrun
  rw [hrun] at hgrows
  have htells {code : String} (hcode : code ∈ keyCodes) {p : KeyedProperty} (hmem : p ∈ ps) :
      s'.session.sink.Tells code p.position.place ↔ s.session.sink.Tells code p.position.place :=
    ⟨hsince.tells hcode (hs.placed p hmem).1 (hs.placed p hmem).2, fun h => h.grows hgrows⟩
  refine ⟨hstep _ _ hs.told a s' hrun, hrecords, fun p hmem => ?_, hs.ordered, ?_, ?_⟩
  · exact (hs.placed p hmem).imp_right fun hlt => Nat.lt_of_lt_of_le hlt hsince.start_le
  · rintro earlier p later rfl
    rw [htells (by decide) (by simp)]
    exact hs.repeated earlier p later rfl
  · intro p hmem htold
    exact hs.unclosed p hmem ((htells (by decide) hmem).mp htold)

theorem upheld {step : Reading α} (hs : Entered source bs ps s) (hstepwise : Stepwise step)
    (hstep : ∀ told start, Upholds (KeysTold source told start) bs step bs) :
    Leads step s fun _ s' => Entered source bs ps s' :=
  hs.leads hstepwise fun told start h => (hstep told start).leads h

/-- Behind a property that has a key, nothing was told of it yet. -/
theorem propertyPart (hs : Entered source bs ps s) :
    Leads (propertyPart (productions fuel) s.lookahead) s fun part s' => Entered source bs ps s' ∧
      ∀ key use, part = .keyed key use →
        s.lookahead.position.offset < s'.lookahead.position.offset ∧
          ∀ code ∈ keyCodes, ¬ s'.session.sink.Tells code s.lookahead.position.place := by
  have huphold (told : Array Diagnostic) (start : Nat) :
      (productions fuel).Upholds (KeysTold source told start) := productions_uphold fuel
  have hpart (told : Array Diagnostic) (start : Nat) (h : KeysTold source told start bs s) :=
    Upholds.propertyPart_leads (productions fuel) h
  have hlt := (hpart #[] 0 hs.told).mono fun _ _ h => h.2.2
  have hentered := hs.leads (propertyPart_stepwise fuel s.lookahead) fun told start h =>
    (hpart told start h).mono fun _ _ h => h.1
  have huntold : Leads (Reading.propertyPart (productions fuel) s.lookahead) s fun part s' =>
      ∀ key use, part = .keyed key use →
        ∀ code ∈ keyCodes, ¬ s'.session.sink.Tells code s.lookahead.position.place := by
    refine .ite (fun _ => Upholds.earlyEnd_leads) fun _ => .ite (fun _ => ?_) fun _ => ?_
    · exact .after fun _ _ => .after fun _ _ => .after fun _ _ => .pure nofun
    · refine .bind fun head s₁ hrun => ?_
      have hwithout := propertyHead_without hs.told.lexed head s₁ hrun
      obtain ⟨hs₁, -, htaken, hoffers⟩ :=
        Upholds.propertyHead_leads (productions fuel) hs.told head s₁ hrun
      intro part s₂ hrun' key use hkeyed code hcode htells
      have hkey := (Upholds.propertyRest_leads (productions fuel) hs₁ hoffers part s₂ hrun').2.2
        key use hkeyed
      have hsince := hs₁.restart fun d hmem hlisted =>
        (hwithout hkey d hmem).resolve_right fun h => h hlisted
      have hs₂ := (Upholds.propertyRest_leads (productions fuel) hsince hoffers part s₂ hrun').1
      exact hs.told.untold hcode (hs₂.tells hcode hs.told.passes (htaken hkey) htells)
  exact hentered.and fun part s' hrun key use hkeyed =>
    ⟨hlt part s' hrun key use hkeyed, huntold part s' hrun key use hkeyed⟩

/-- The key of a property is entered once the property has been read. -/
theorem enterProperty {key : String} {use : KeyUse} (hs₀ : Entered source bs ps s₀)
    (hs : Entered source bs ps s)
    (hlt : s₀.lookahead.position.offset < s.lookahead.position.offset)
    (huntold : ∀ code ∈ keyCodes, ¬ s.session.sink.Tells code s₀.lookahead.position.place) :
    Leads (enterProperty ps key use s₀.lookahead) s fun qs s' => Entered source bs qs s' := by
  refine .bind ?_
  rintro _ _ ⟨⟩
  let p : KeyedProperty := ⟨key, use, s₀.lookahead.position,
    s.session.sink.suppresses "W075" s₀.lookahead.position.line⟩
  refine .bind fun keys s' hrun => .pure ?_
  have hpassed : Invariant.Passed (KeysTold source #[] 0) bs p.position s :=
    ⟨s₀, hs₀.told, rfl, hlt⟩
  obtain ⟨⟨htold, hlookahead⟩, -⟩ :=
    Upholds.recordKey_leads (.ofProperties ps) key use hs.told hpassed _ s' hrun
  have htells := recordKey_tells hs.records.isHalted_eq_false (.ofProperties ps) p _ s' hrun
  have hsteady : Steady 0 (recordKey (.ofProperties ps) key use p.position) := inferInstance
  have hrecords := (Stepwise.of_steady hsteady).leads_records hs.records _ s' hrun
  have hearlier {q : KeyedProperty} (hmem : q ∈ ps) : q.position.place ≠ p.position.place :=
    (hs.placed q hmem).1.place_ne hs₀.told.passes (hs₀.placed q hmem).2
  refine ⟨htold, hrecords, ?_, ?_, ?_, ?_⟩
  · intro q hmem
    rw [hlookahead]
    rcases List.mem_append.mp hmem with hmem | hmem
    · exact hs.placed q hmem
    · obtain rfl := List.mem_singleton.mp hmem
      exact ⟨hs₀.told.passes, hlt⟩
  · refine List.pairwise_append.mpr ⟨hs.ordered, List.pairwise_singleton _ _, ?_⟩
    intro q hmem q' hmem'
    obtain rfl := List.mem_singleton.mp hmem'
    exact (hs₀.placed q hmem).2
  · intro earlier q later heq
    rw [htells]
    rcases concat_eq_append_cons heq with ⟨rfl, rfl⟩ | ⟨later', rfl⟩
    · rw [KeyTable.isRepetition_ofProperties, or_iff_right (huntold "W075" (by decide))]
      simp [p]
    · rw [or_iff_left fun h => hearlier (by simp) h.2.1]
      exact hs.repeated earlier q later' rfl
  · intro q hmem htold
    have htold := ((htells _ _).mp htold).resolve_right fun h => absurd h.1 (by decide)
    rcases List.mem_append.mp hmem with hmem | hmem
    · exact hs.unclosed q hmem htold
    · obtain rfl := List.mem_singleton.mp hmem
      exact huntold "W078" (by decide) htold

theorem listedProperty (hs : Entered source bs ps s) :
    Leads (listedProperty (productions fuel) ps) s fun r s' => Entered source bs r.state s' := by
  refine .bind ?_
  rintro _ _ ⟨⟩
  refine .bind fun part s₁ hrun => ?_
  obtain ⟨hs₁, hkeyed⟩ := hs.propertyPart part s₁ hrun
  cases part with
  | unkeyed => exact .pure hs₁
  | broken => exact .pure hs₁
  | keyed key use =>
      obtain ⟨hlt, huntold⟩ := hkeyed key use rfl
      exact .bind fun qs s₂ hrun => .pure (hs.enterProperty hs₁ hlt huntold qs s₂ hrun)

/-- Between the braces of a literal, the keys are told that are repeated. -/
theorem literalProperties (hs : Entered source bs [] s) :
    Leads (literalProperties (productions fuel)) s (Entered source bs) := by
  have hset (excluded : Bool) : Stepwise (setInExcluded excluded) :=
    Steady.setInExcluded_stepwise excluded
  have hcomma (ps : List KeyedProperty) (s : State) (comma : Position)
      (hs : Entered source bs ps s) : Leads (advance >>= fun _ => propertyComma {} comma) s
        fun _ s' => Entered source bs ps s' :=
    hs.upheld (.of_steady (n := 0) inferInstance) fun _ _ => inferInstance
  refine .bind ?_
  rintro _ _ ⟨⟩
  refine .bind fun _ s₁ hrun => .bind fun ps s₂ hrun' => .bind fun _ s₃ hrun'' => .pure ?_
  have hlist : Leads (commaList "\x7d" [] (Reading.listedProperty (productions fuel))
      fun _ => propertyComma {}) s₁ (Entered source bs) :=
    commaList_leads hcomma (fun _ _ hs => hs.listedProperty)
      (hs.upheld (hset false) (fun _ _ => inferInstance) _ s₁ hrun)
  exact (hlist ps s₂ hrun').upheld (hset _) (fun _ _ => inferInstance) _ s₃ hrun''

/-- Two properties at one place are the same. -/
theorem eq_of_place (hs : Entered source bs ps s) {p q : KeyedProperty} (hp : p ∈ ps) (hq : q ∈ ps)
    (hplace : p.position.place = q.position.place) : p = q := by
  have hdistinct : (ps.map (·.position.place)).Nodup :=
    List.pairwise_map.mpr <| hs.ordered.imp_of_mem fun hp hq hlt =>
      (hs.placed _ hp).1.place_ne (hs.placed _ hq).1 hlt
  exact List.inj_on_of_nodup_map hdistinct hp hq hplace

end Entered

/-- Setters are told of, but for those on lines that are switched off. -/
theorem reportSetters_tells {setters : List BoundName} (hs : s.session.sink.Records none) :
    Leads (setters.forM fun b => report "W078" b.position []) s fun _ s' =>
      s'.session.sink.suppresses = s.session.sink.suppresses ∧ ∀ code place,
        s'.session.sink.Tells code place ↔ s.session.sink.Tells code place ∨
          code = "W078" ∧ ∃ b ∈ setters, b.position.place = place ∧
            s.session.sink.suppresses "W078" b.position.line = false := by
  induction setters generalizing s with
  | nil => exact .pure ⟨rfl, fun code place => by simp⟩
  | cons b rest ih =>
      have hsteady : Steady 0 (report "W078" b.position []) := inferInstance
      refine .bind fun _ s₁ hrun => ?_
      have hrecords := (Stepwise.of_steady hsteady).leads_records hs _ s₁ hrun
      refine (ih hrecords).mono fun _ s₂ ⟨hsuppresses, htells⟩ => ?_
      obtain ⟨scope, rfl⟩ := report_leads s _ s₁ hrun
      obtain ⟨_, _, hframe⟩ := s.session.sink.report_frame "W078" b.position [] scope
      have hsame : (s.session.sink.report "W078" b.position [] scope).2.suppresses =
          s.session.sink.suppresses := by
        rw [hframe]
        rfl
      refine ⟨hsuppresses.trans hsame, fun code place => ?_⟩
      rw [htells, Sink.tells_report_iff hs.isHalted_eq_false, hsame, eq_comm (a := "W078"),
        or_assoc]
      simp only [List.exists_mem_cons_iff, and_or_left]

/-- Behind the closing brace, a literal tells of the setters that its keys leave without getters. -/
theorem Entered.objectLiteral (hs : Entered source bs [] s) :
    Leads (objectLiteral (productions fuel)) s fun _ s' => ∃ ps s₁ s₂,
      (advance >>= fun _ => Reading.literalProperties (productions fuel)).run.run s = (.ok ps, s₁) ∧
      Entered source bs ps s₂ ∧
      s'.session.sink.suppresses = s₂.session.sink.suppresses ∧ ∀ code place,
        s'.session.sink.Tells code place ↔ s₂.session.sink.Tells code place ∨
          code = "W078" ∧ ∃ b ∈ (KeyTable.ofProperties ps).lonelySetters,
            b.position.place = place ∧
              s₂.session.sink.suppresses "W078" b.position.line = false := by
  have hadvance : Steady 0 advance := inferInstance
  have hclose : Steady 0 (expectPunctuator "\x7d") := inferInstance
  rw [objectLiteral_eq]
  refine .bind ?_
  rintro _ _ ⟨⟩
  refine .bind fun _ s₁ hrun => .bind fun ps s₂ hrun' => .bind fun _ s₃ hrun'' =>
    .bind fun _ s₄ hreports => .pure ⟨ps, s₂, s₃, ?_, ?_⟩
  · rw [run_bind, hrun]
    exact hrun'
  · have hs₁ := hs.upheld (.of_steady hadvance) (fun _ _ => inferInstance) _ s₁ hrun
    have hs₂ := hs₁.literalProperties ps s₂ hrun'
    have hs₃ := hs₂.upheld (.of_steady hclose) (fun _ _ => inferInstance) _ s₃ hrun''
    exact ⟨hs₃, reportSetters_tells hs₃.records _ s₄ hreports⟩

/-- In an object literal that is read to its end, a property is told to repeat its key exactly if
the properties in front of it that have the key and do not repeat it are some, and not just one
accessor of the opposite kind. And a property is told to be a setter without a getter exactly if it
is a setter, no getter of the literal has its key, and the first property with the key is a setter
as well: one behind a value, a method or a short notation is passed over. Both hold wherever the
reports are not switched off. -/
theorem keys_told {e : Expression} (hs : KeysTold source #[] 0 bs s)
    (hrecords : s.session.sink.Records none)
    (hrun : (objectLiteral (productions fuel)).run.run s = (.ok e, s')) :
    ∃ ps s₁, (advance >>= fun _ => literalProperties (productions fuel)).run.run s = (.ok ps, s₁) ∧
      (∀ earlier p later, ps = earlier ++ p :: later →
        (s'.session.sink.Tells "W075" p.position.place ↔
          p.Repeats (unrepeated earlier) ∧ p.silenced = false)) ∧
      ∀ p ∈ ps, (s'.session.sink.Tells "W078" p.position.place ↔
        p.IsLonely ps ∧ s'.session.sink.suppresses "W078" p.position.line = false) := by
  have hstart : Entered source bs [] s :=
    ⟨hs, hrecords, by simp, .nil, fun earlier p later heq => by simp at heq, by simp⟩
  obtain ⟨ps, s₁, s₂, hlisted, hs₂, hsuppresses, htells⟩ := hstart.objectLiteral e s' hrun
  refine ⟨ps, s₁, hlisted, fun earlier p later heq => ?_, fun p hp => ?_⟩
  · rw [htells, or_iff_left fun h => absurd h.1 (by decide)]
    exact hs₂.repeated earlier p later heq
  · rw [htells, or_iff_right (hs₂.unclosed p hp), hsuppresses,
      KeyTable.lonelySetters_ofProperties]
    constructor
    · rintro ⟨-, b, hmem, hplace, hshown⟩
      obtain ⟨q, hq, rfl⟩ := List.mem_map.mp hmem
      obtain ⟨hq, hlonely⟩ := List.mem_filter.mp hq
      obtain rfl := hs₂.eq_of_place hq hp hplace
      exact ⟨of_decide_eq_true hlonely, hshown⟩
    · rintro ⟨hlonely, hshown⟩
      exact ⟨rfl, p.bound, List.mem_map_of_mem (List.mem_filter.mpr ⟨hp, decide_eq_true hlonely⟩),
        rfl, hshown⟩

/-- The setter behind a value repeats its key and is told for that only, the other one for the
getter that it wants. -/
theorem keys_told_behind_value :
    let source := "\x7ba:1,set a(v)\x7b\x7d,set b(w)\x7b\x7d\x7d"
    let s := Analysis.startState source {} {}
    let s' := s.after (objectLiteral (productions 9))
    KeysTold source #[] 0 [] s ∧ s.session.sink.Records none ∧
      ((objectLiteral (productions 9)).run.run s).1.map (·.kind) = .ok .object ∧
      (s'.session.sink.Tells "W075" (1, 6) ∧ ¬ s'.session.sink.Tells "W078" (1, 6)) ∧
      (¬ s'.session.sink.Tells "W075" (1, 17) ∧ s'.session.sink.Tells "W078" (1, 17)) := by
  intro source s s'
  have hs : KeysTold source #[] 0 [] s := startState_keysTold source {} {}
  have hrecords : s.session.sink.Records none := .start _ _ _
  have hok : ((objectLiteral (productions 9)).run.run s).1.map (·.kind) = .ok .object := by
    decide +kernel
  refine ⟨hs, hrecords, hok, ?_⟩
  obtain ⟨e, he⟩ : ∃ e, ((objectLiteral (productions 9)).run.run s).1 = .ok e := by
    cases hresult : ((objectLiteral (productions 9)).run.run s).1 with
    | error stop =>
        rw [hresult] at hok
        cases hok
    | ok e => exact ⟨e, rfl⟩
  obtain ⟨ps, s₁, hrun, hrepeated, hlonely⟩ := keys_told hs hrecords (State.run_eq_after he)
  let a : KeyedProperty := ⟨"a", .data, ⟨1, 2, 1⟩, false⟩
  let setA : KeyedProperty := ⟨"a", .setter, ⟨1, 6, 5⟩, false⟩
  let setB : KeyedProperty := ⟨"b", .setter, ⟨1, 17, 16⟩, false⟩
  have hps : ((advance >>= fun _ => literalProperties (productions 9)).run.run s).1 =
      .ok [a, setA, setB] := by decide +kernel
  rw [hrun] at hps
  obtain rfl : ps = [a, setA, setB] := Except.ok.inj hps
  have hshown : s'.session.sink.suppresses "W078" 1 = false := by decide +kernel
  refine ⟨⟨(hrepeated [a] setA [setB] rfl).mpr (by decide), fun htold => ?_⟩,
    fun htold => ?_, (hlonely setB (by simp)).mpr ⟨by decide, hshown⟩⟩
  · exact absurd ((hlonely setA (by simp)).mp htold).1 (by decide)
  · exact absurd ((hrepeated [a, setA] setB [] rfl).mp htold).1 (by decide)

end Reading

end ScriptLint
