import ScriptLint.Proofs.Reading.Stepwise
import ScriptLint.Proofs.Scope.Twin

/-! # Two runs in lockstep

Two runs over the same source, under options that are not quite the same, are compared step by step.
They consume the same tokens and open the same scopes; what their options, scopes and sinks have to
do with each other is left open. The places that are handed from step to step are places of the
source, so wherever a report is made, it is about one of these.
-/

namespace ScriptLint.Reading

open Scope (Session Tracker)

variable {α β : Type}

/-! ## Places that are handed on -/

/-- Values that may carry places of a source, and what it means that all of these are behind a
cursor. -/
class HasPlaces (α : Type) where
  Behind : Cursor → α → Prop

/-- Values of most kinds carry no places. -/
instance (priority := low) noPlaces : HasPlaces α := ⟨fun _ _ => True⟩

/-- The places that a value carries are behind the cursor. -/
class Behind [HasPlaces α] (c : Cursor) (a : α) : Prop where
  behind : HasPlaces.Behind c a

/-- The values whose places are behind a cursor. -/
abbrev Places (α : Type) [HasPlaces α] (c : Cursor) : Type := { a : α // HasPlaces.Behind c a }

variable {c : Cursor}

instance (a : α) : @Behind α noPlaces c a := ⟨trivial⟩

instance [HasPlaces α] (a : Places α c) : Behind c a.1 := ⟨a.2⟩

instance : HasPlaces Position := ⟨Cursor.Passes⟩

instance : HasPlaces Token := ⟨Token.Behind⟩

instance [HasPlaces α] : HasPlaces (Option α) := ⟨fun c a? => ∀ a ∈ a?, HasPlaces.Behind c a⟩

instance [HasPlaces α] : HasPlaces (List α) := ⟨fun c as => ∀ a ∈ as, HasPlaces.Behind c a⟩

instance [HasPlaces α] [HasPlaces β] : HasPlaces (Round α β) where
  Behind c
    | .again state => HasPlaces.Behind c state
    | .done answer => HasPlaces.Behind c answer

section

variable [HasPlaces α] [HasPlaces β]

instance : Behind c (none : Option α) := ⟨nofun⟩

instance (a : α) [h : Behind c a] : Behind c (some a) := ⟨by rintro _ ⟨⟩; exact h.behind⟩

instance : Behind c ([] : List α) := ⟨nofun⟩

instance (as bs : List α) [ha : Behind c as] [hb : Behind c bs] : Behind c (as ++ bs) :=
  ⟨fun a hmem => (List.mem_append.mp hmem).elim (ha.behind a) (hb.behind a)⟩

instance (a : α) [h : Behind c a] : Behind c [a] :=
  ⟨fun a' hmem => by rw [List.mem_singleton.mp hmem]; exact h.behind⟩

instance (a? : Option α) [h : Behind c a?] : Behind c a?.toList :=
  ⟨fun a hmem => h.behind a (Option.mem_toList.mp hmem)⟩

instance (a? b? : Option α) [ha : Behind c a?] [hb : Behind c b?] : Behind c (a? <|> b?) := by
  cases a? with
  | none => exact hb
  | some a => exact ha

instance (state : α) [h : Behind c state] : Behind c (Round.again state : Round α β) := ⟨h.behind⟩

instance (answer : β) [h : Behind c answer] : Behind c (Round.done answer : Round α β) :=
  ⟨h.behind⟩

end

instance (t : Token) [h : Behind c t] : Behind c t.position := ⟨h.behind.start.passes⟩

instance (t : Token) [h : Behind c t] : Behind c (Token.next t.stop) :=
  ⟨(Token.next_behind t.stop).of_reaches h.behind.stop⟩

/-! ## States -/

namespace State

/-- The directive comments that a run has come across: those in front of the consumed tokens and of
the next one. -/
def comments (s : State) : List Directive := (s.lookahead :: s.consumed).flatMap Token.directives

/-- The tokens are those of the source that begins at the cursor. -/
structure Within (c : Cursor) (s : State) : Prop where
  lookahead : s.lookahead.Behind c
  consumed : ∀ t ∈ s.consumed, t.Behind c

theorem Within.previous {s : State} (hs : s.Within c) : s.previous.Behind c := by
  unfold State.previous
  cases hconsumed : s.consumed with
  | nil => exact hs.lookahead
  | cons t rest => exact hs.consumed t (hconsumed ▸ List.mem_cons_self)

end State

/-- A run goes on over the source: no comment that it came across is forgotten, and the places that
it hands on are behind the cursor. -/
structure Proceeds [HasPlaces α] (c : Cursor) (s : State) (result : Except Stop α × State) : Prop
    where
  comments : s.comments ⊆ result.2.comments
  within : result.2.Within c
  answer : ∀ a, result.1 = .ok a → HasPlaces.Behind c a

theorem Proceeds.of_same [HasPlaces α] {s : State} {result : Except Stop α × State}
    (hs : s.Within c) (hlookahead : result.2.lookahead = s.lookahead)
    (hconsumed : result.2.consumed = s.consumed)
    (hanswer : ∀ a, result.1 = .ok a → HasPlaces.Behind c a) : Proceeds c s result where
  comments := by
    unfold State.comments
    rw [hlookahead, hconsumed]
    exact List.Subset.refl _
  within := ⟨hlookahead ▸ hs.lookahead, hconsumed ▸ hs.consumed⟩
  answer := hanswer

theorem Proceeds.bind [HasPlaces α] [HasPlaces β] {first : Reading α} {next : α → Reading β}
    {s : State} (hfirst : Proceeds c s (first.run.run s))
    (hnext : ∀ a : Places α c, ∀ {t : State}, t.Within c → Proceeds c t ((next a.1).run.run t)) :
    Proceeds c s ((first >>= next).run.run s) := by
  obtain ⟨hcomments, hwithin, hanswer⟩ := hfirst
  rw [run_bind]
  generalize first.run.run s = result at hcomments hwithin hanswer
  rcases result with ⟨stop | a, t⟩
  · exact ⟨hcomments, hwithin, nofun⟩
  · have hrest := hnext ⟨a, hanswer a rfl⟩ hwithin
    exact ⟨fun d hmem => hrest.comments (hcomments hmem), hrest.within, hrest.answer⟩

/-! ## Pairs of runs -/

/-- What two runs over a source have in common: where the source begins, which comments may be in
it, and what the options and the sessions have to do with each other. -/
structure Pairing where
  start : Cursor
  allows : Directive → Prop
  options : Options → Options → Prop
  session : Session → Session → Prop

namespace Pairing

/-- The two states are the same but for the options and the sessions. -/
structure Relates (p : Pairing) (s s' : State) : Prop where
  options : p.options s.options s'.options
  session : p.session s.session s'.session
  within : s.Within p.start
  consumed : s'.consumed = s.consumed
  lookahead : s'.lookahead = s.lookahead
  depth : s'.depth = s.depth
  inExcluded : s'.inExcluded = s.inExcluded
  exports : s'.exports = s.exports
  size : s'.size = s.size

/-- The two results are the same but for the options and the sessions. -/
structure Agree (p : Pairing) (result result' : Except Stop α × State) : Prop where
  outcome : result'.1 = result.1
  state : p.Relates result.2 result'.2

theorem Relates.previous {p : Pairing} {s s' : State} (h : p.Relates s s') :
    s'.previous = s.previous := by
  rw [State.previous, h.consumed, h.lookahead]
  rfl

theorem Relates.with_session {p : Pairing} {s s' : State} (h : p.Relates s s')
    {session session' : Session} (hsession : p.session session session') :
    p.Relates { s with session } { s' with session := session' } :=
  ⟨h.options, hsession, ⟨h.within.lookahead, h.within.consumed⟩, h.consumed, h.lookahead, h.depth,
    h.inExcluded, h.exports, h.size⟩

/-- Two actions do the same in sessions that belong together. -/
structure Together (p : Pairing) (action action' : Scope.Action α) : Prop where
  run : ∀ {s s' : Session}, p.session s s' → (action'.run.run s').1 = (action.run.run s).1 ∧
    p.session (action.run.run s).2 (action'.run.run s').2

end Pairing

/-- A step of reading does the same in both runs, as long as only allowed comments come up. -/
class Lockstep [HasPlaces α] (p : Pairing) (step : Reading α) : Prop where
  proceeds : ∀ {s : State}, s.Within p.start → Proceeds p.start s (step.run.run s)
  run : ∀ {s s' : State}, p.Relates s s' → (∀ d ∈ (step.run.run s).2.comments, p.allows d) →
    p.Agree (step.run.run s) (step.run.run s')

namespace Lockstep

variable {p : Pairing} [HasPlaces α] [HasPlaces β]

/-- A step that takes no tokens and does not look at the comments. -/
theorem of_same {step : Reading α}
    (hlookahead : ∀ s, (step.run.run s).2.lookahead = s.lookahead)
    (hconsumed : ∀ s, (step.run.run s).2.consumed = s.consumed)
    (hanswer : ∀ {s : State} {a}, s.Within p.start → (step.run.run s).1 = .ok a →
      HasPlaces.Behind p.start a)
    (hrun : ∀ {s s'}, p.Relates s s' → p.Agree (step.run.run s) (step.run.run s')) :
    Lockstep p step where
  proceeds hs := .of_same hs (hlookahead _) (hconsumed _) fun _ => hanswer hs
  run h _ := hrun h

protected theorem pure (a : α) [ha : Behind p.start a] : Lockstep p (Pure.pure a : Reading α) :=
  .of_same (fun _ => rfl) (fun _ => rfl) (fun _ heq => by cases heq; exact ha.behind)
    fun h => ⟨rfl, h⟩

protected theorem bind {first : Reading α} {next : α → Reading β} (hfirst : Lockstep p first)
    (hnext : ∀ a : Places α p.start, Lockstep p (next a.1)) : Lockstep p (first >>= next) where
  proceeds hs := (hfirst.proceeds hs).bind fun a _ => (hnext a).proceeds
  run {s s'} h hallowed := by
    obtain ⟨hcomments, hwithin, hanswer⟩ := hfirst.proceeds h.within
    have hagree := hfirst.run h
    rw [run_bind] at hallowed ⊢
    rw [run_bind]
    rcases hrun : first.run.run s with ⟨stop | a, t⟩ <;>
      rw [hrun] at hcomments hwithin hanswer hagree hallowed
    · obtain ⟨houtcome, hstate⟩ := hagree hallowed
      rcases hrun' : first.run.run s' with ⟨stop' | a', t'⟩ <;> rw [hrun'] at houtcome hstate <;>
        cases houtcome
      exact ⟨rfl, hstate⟩
    · -- What the first step comes across is not forgotten by the second.
      have hrest := hnext ⟨a, hanswer a rfl⟩
      obtain ⟨houtcome, hstate⟩ :=
        hagree fun d hmem => hallowed d ((hrest.proceeds hwithin).comments hmem)
      rcases hrun' : first.run.run s' with ⟨stop' | a', t'⟩ <;> rw [hrun'] at houtcome hstate <;>
        cases houtcome
      exact hrest.run hstate hallowed

instance (a : α) [Behind p.start a] : Lockstep p (Pure.pure a : Reading α) := .pure a

instance {first : Reading α} {next : α → Reading β} [hfirst : Lockstep p first]
    [hnext : ∀ a : Places α p.start, Lockstep p (next a.1)] : Lockstep p (first >>= next) :=
  .bind hfirst hnext

instance ite {q : Prop} [Decidable q] {first second : Reading α} [hfirst : Lockstep p first]
    [hsecond : Lockstep p second] : Lockstep p (if q then first else second) := by
  split <;> infer_instance

/-- A step that is left out or taken, with what comes after it. -/
theorem iteThen {q : Prop} [Decidable q] {first : Reading Unit} {next : Unit → Reading β}
    (hfirst : Lockstep p first) (hnext : ∀ u, Lockstep p (next u)) :
    Lockstep p (if q then first >>= next else next ()) := by
  split
  · exact .bind hfirst fun u => hnext u.1
  · exact hnext ()

/-- A step that is left out or taken, as the answer to a question says, with what comes after it. -/
theorem askThen {γ : Type} {ask : Reading γ} {q : γ → Prop} [∀ a, Decidable (q a)]
    {first : γ → Reading Unit} {next : Unit → Reading β}
    (hfirst : Lockstep p (ask >>= fun a => if q a then first a else Pure.pure ()))
    (hnext : ∀ u, Lockstep p (next u)) :
    Lockstep p (ask >>= fun a => if q a then first a >>= next else next ()) := by
  have hsame : (ask >>= fun a => if q a then first a >>= next else next ()) =
      (ask >>= fun a => if q a then first a else Pure.pure ()) >>= next := by
    rw [bind_assoc]
    refine congrArg (ask >>= ·) (funext fun a => ?_)
    split
    · rfl
    · rw [pure_bind]
  rw [hsame]
  exact .bind hfirst fun u => hnext u.1

omit [HasPlaces α] in
theorem forM_of_mem {items : List α} {step : α → Reading PUnit}
    (hstep : ∀ a ∈ items, Lockstep p (step a)) : Lockstep p (items.forM step) := by
  induction items with
  | nil => exact .pure _
  | cons a rest ih =>
      exact .bind (hstep a List.mem_cons_self) fun _ =>
        ih fun a' hmem => hstep a' (List.mem_cons_of_mem a hmem)

instance forM {items : List α} {step : α → Reading PUnit} [hitems : Behind p.start items]
    [hstep : ∀ a : Places α p.start, Lockstep p (step a.1)] : Lockstep p (items.forM step) :=
  .forM_of_mem fun a hmem => hstep ⟨a, hitems.behind a hmem⟩

instance optionForM {item? : Option α} {step : α → Reading PUnit} [hitem : Behind p.start item?]
    [hstep : ∀ a : Places α p.start, Lockstep p (step a.1)] : Lockstep p (item?.forM step) := by
  cases item? with
  | none => exact .pure _
  | some a => exact hstep ⟨a, hitem.behind a rfl⟩

/-! ## What is known -/

/-- Looking at what both states have in common. -/
theorem observe {next : State → Reading α}
    (hshared : ∀ {s s'}, p.Relates s s' → next s' = next s)
    (hnext : ∀ s : State, s.Within p.start → Lockstep p (next s)) : Lockstep p (get >>= next) where
  proceeds {s} hs := (hnext s hs).proceeds hs
  run {s s'} h hallowed := by
    change p.Agree ((next s).run.run s) ((next s').run.run s')
    rw [hshared h]
    exact (hnext s h.within).run h hallowed

instance token : Lockstep p token :=
  .observe (fun h => by rw [h.lookahead]) fun s hs =>
    have : Behind p.start s.lookahead := ⟨hs.lookahead⟩
    .pure _

instance previous : Lockstep p previous :=
  .observe (fun h => by rw [h.previous]) fun s hs =>
    have : Behind p.start s.previous := ⟨hs.previous⟩
    .pure _

instance (q : String) : Lockstep p (atPunctuator q) := by
  unfold atPunctuator
  infer_instance

instance (word : String) : Lockstep p (atKeyword word) := by
  unfold atKeyword
  infer_instance

instance (word : String) : Lockstep p (atWord word) := by
  unfold atWord
  infer_instance

instance : Lockstep p peek := by
  unfold peek
  infer_instance

instance : Lockstep p peekSecond := by
  unfold peekSecond
  infer_instance

/-! ## Bounds and loops -/

instance (excluded : Bool) : Lockstep p (setInExcluded excluded) :=
  .of_same (fun _ => rfl) (fun _ => rfl) (fun _ _ => trivial)
    fun h => ⟨rfl, h.options, h.session, ⟨h.within.lookahead, h.within.consumed⟩, h.consumed,
      h.lookahead, h.depth, rfl, h.exports, h.size⟩

instance {step : Reading α} [Lockstep p step] : Lockstep p (allowingIn step) :=
  .observe (fun h => by rw [h.inExcluded]) fun _ _ => inferInstance

instance {step : Reading α} [Lockstep p step] : Lockstep p (excludingIn step) := by
  unfold excludingIn
  infer_instance

theorem outOfFuel : Lockstep p (throw .outOfFuel : Reading α) :=
  .of_same (fun _ => rfl) (fun _ => rfl) (fun _ => nofun) fun h => ⟨rfl, h⟩

theorem iterate {round : α → Reading (Round α β)}
    (hround : ∀ state : Places α p.start, Lockstep p (round state.1)) (fuel : Nat) (state : α)
    [hstate : Behind p.start state] : Lockstep p (iterate round fuel state) := by
  induction fuel generalizing state with
  | zero => exact .outOfFuel
  | succ fuel ih =>
      unfold Reading.iterate
      refine .bind (hround ⟨state, hstate.behind⟩) fun r => ?_
      rcases r with ⟨state | answer, hr⟩
      · have : Behind p.start state := ⟨hr⟩
        exact ih state
      · have : Behind p.start answer := ⟨hr⟩
        exact .pure answer

instance {state : α} {round : α → Reading (Round α β)} [Behind p.start state]
    [hround : ∀ state : Places α p.start, Lockstep p (round state.1)] :
    Lockstep p (repeatFrom state round) :=
  .observe (fun h => by rw [h.size, h.lookahead]) fun _ _ => .iterate hround _ state

instance {round : Reading Bool} [Lockstep p round] : Lockstep p (repeatWhile round) := by
  unfold repeatWhile
  infer_instance

end Lockstep

end ScriptLint.Reading
