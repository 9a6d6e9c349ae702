import Mathlib.Data.List.Induction
import ScriptLint.Reading.Object

/-! # Properties and their keys

What is entered into the table of an object literal are the properties that have a key, in order. The
table says of a key what the properties with it are that do not repeat it; these are none, one, or a
getter and a setter. A property repeats its key unless it is the first with it or the other accessor
of one. So a setter is without a getter if the first property with its key is a setter and none is a
getter: behind a value of the same key it is passed over.
-/

namespace ScriptLint.Reading

/-- A property of an object literal that has a key. -/
structure KeyedProperty where
  key : String
  use : KeyUse
  position : Position
  /-- Whether repeated keys are switched off on its line once it has been read. -/
  silenced : Bool
deriving Repr, DecidableEq

/-- The accessor that goes with another one. -/
def KeyUse.opposite? : KeyUse → Option KeyUse
  | .getter => some .setter
  | .setter => some .getter
  | .data | .pair => none

/-- What properties use a key for, in order. -/
def usesOf (key : String) (ps : List KeyedProperty) : List KeyUse :=
  (ps.filter (·.key = key)).map (·.use)

namespace KeyedProperty

/-- Behind properties that do not repeat their keys, this one does: some of them have its key, and
they are not just one accessor of the opposite kind. -/
def Repeats (p : KeyedProperty) (earlier : List KeyedProperty) : Prop :=
  usesOf p.key earlier ≠ [] ∧ usesOf p.key earlier ≠ p.use.opposite?.toList

instance (p : KeyedProperty) (earlier : List KeyedProperty) : Decidable (p.Repeats earlier) :=
  inferInstanceAs (Decidable (_ ∧ _))

/-- Among all properties of the literal, this is a setter, the first with its key is one as well, and
no getter has the key. -/
def IsLonely (p : KeyedProperty) (ps : List KeyedProperty) : Prop :=
  p.use = .setter ∧ (usesOf p.key ps).head? = some .setter ∧ .getter ∉ usesOf p.key ps

instance (p : KeyedProperty) (ps : List KeyedProperty) : Decidable (p.IsLonely ps) :=
  inferInstanceAs (Decidable (_ ∧ _ ∧ _))

/-- The place and the key, as the table remembers setters. -/
def bound (p : KeyedProperty) : BoundName := ⟨p.key, p.position⟩

end KeyedProperty

/-- The properties that do not repeat their keys. -/
def unrepeated (ps : List KeyedProperty) : List KeyedProperty :=
  ps.foldl (fun earlier p => if p.Repeats earlier then earlier else earlier ++ [p]) []

/-- What the table says of a key, from the uses of it that do not repeat it. -/
def KeyUse.joined : List KeyUse → Option KeyUse
  | [] => none
  | [use] => some use
  | _ :: _ :: _ => some .pair

namespace KeyTable

/-- The table with one more use of a key in it, unless that repeats the key. -/
def addUse (keys : KeyTable) (key : String) (use : KeyUse) : KeyTable :=
  match keys.use? key with
  | none => keys.put key use
  | some earlier =>
    match earlier.join? use with
    | some joined => keys.put key joined
    | none => keys

/-- The table with one more property in it. -/
def enter (keys : KeyTable) (p : KeyedProperty) : KeyTable :=
  if p.use = .setter then (keys.addUse p.key p.use).addSetter p.key p.position
  else keys.addUse p.key p.use

/-- The property repeats its key, as the table sees it. -/
def IsRepetition (keys : KeyTable) (p : KeyedProperty) : Prop :=
  (keys.use? p.key).map (·.join? p.use) = some none

instance (keys : KeyTable) (p : KeyedProperty) : Decidable (keys.IsRepetition p) :=
  inferInstanceAs (Decidable (_ = _))

/-- The table of some properties. -/
def ofProperties (ps : List KeyedProperty) : KeyTable := ps.foldl enter {}

end KeyTable

/-! ## Uses of keys -/

variable {key : String} {p : KeyedProperty} {ps qs : List KeyedProperty}

theorem usesOf_append (key : String) (ps qs : List KeyedProperty) :
    usesOf key (ps ++ qs) = usesOf key ps ++ usesOf key qs := by
  rw [usesOf, List.filter_append, List.map_append]
  rfl

@[simp]
theorem usesOf_singleton_self (p : KeyedProperty) : usesOf p.key [p] = [p.use] := by
  simp [usesOf]

theorem usesOf_singleton_of_ne (hkey : p.key ≠ key) : usesOf key [p] = [] := by
  simp [usesOf, hkey]

theorem unrepeated_concat (ps : List KeyedProperty) (p : KeyedProperty) :
    unrepeated (ps ++ [p]) =
      if p.Repeats (unrepeated ps) then unrepeated ps else unrepeated ps ++ [p] := by
  rw [unrepeated, List.foldl_append]
  rfl

theorem unrepeated_sublist (ps : List KeyedProperty) : (unrepeated ps).Sublist ps := by
  induction ps using List.reverseRecOn with
  | nil => exact List.Sublist.refl _
  | append_singleton ps p ih =>
      rw [unrepeated_concat]
      split
      · exact ih.trans (List.sublist_append_left ps [p])
      · exact ih.append_right [p]

theorem usesOf_unrepeated_concat_of_ne (hkey : p.key ≠ key) :
    usesOf key (unrepeated (ps ++ [p])) = usesOf key (unrepeated ps) := by
  rw [unrepeated_concat]
  split
  · rfl
  · rw [usesOf_append, usesOf_singleton_of_ne hkey, List.append_nil]

/-- The uses of a key that do not repeat it are there as soon as the key is used, and they are just a
setter if the first use is one and none is a getter. -/
theorem usesOf_unrepeated (key : String) (ps : List KeyedProperty) :
    (usesOf key (unrepeated ps) = [] ↔ usesOf key ps = []) ∧
      (usesOf key (unrepeated ps) = [.setter] ↔
        (usesOf key ps).head? = some .setter ∧ .getter ∉ usesOf key ps) := by
  induction ps using List.reverseRecOn with
  | nil => simp [unrepeated, usesOf]
  | append_singleton ps p ih =>
      by_cases hkey : p.key = key
      case neg =>
        rwa [usesOf_unrepeated_concat_of_ne hkey, usesOf_append, usesOf_singleton_of_ne hkey,
          List.append_nil]
      subst hkey
      obtain ⟨hnone, hsetter⟩ := ih
      have hsubset : usesOf p.key (unrepeated ps) ⊆ usesOf p.key ps :=
        (((unrepeated_sublist ps).filter _).map _).subset
      rw [unrepeated_concat, usesOf_append p.key ps, usesOf_singleton_self]
      split
      next hrepeats =>
        -- The key was used before, and what it was used for is not what this use goes with.
        have hused : usesOf p.key ps ≠ [] := mt hnone.mpr hrepeats.1
        have hother : usesOf p.key (unrepeated ps) = [.setter] → p.use ≠ .getter := by
          intro heq huse
          refine hrepeats.2 ?_
          rw [heq, huse]
          rfl
        refine ⟨by simp [hrepeats.1], ?_⟩
        rw [List.head?_append, Option.or_of_isSome (List.isSome_head?.mpr hused)]
        constructor
        · intro heq
          obtain ⟨hhead, hgetter⟩ := hsetter.mp heq
          refine ⟨hhead, fun hmem => ?_⟩
          rcases List.mem_append.mp hmem with hmem | hmem
          · exact hgetter hmem
          · exact hother heq (List.mem_singleton.mp hmem).symm
        · rintro ⟨hhead, hgetter⟩
          exact hsetter.mpr ⟨hhead, fun hmem => hgetter (List.mem_append_left _ hmem)⟩
      next hfresh =>
        rw [usesOf_append, usesOf_singleton_self]
        refine ⟨by simp, ?_⟩
        by_cases hfirst : usesOf p.key (unrepeated ps) = []
        · rw [hfirst, hnone.mp hfirst]
          cases p.use <;> simp
        · -- A getter and a setter by now.
          have hopposite : usesOf p.key (unrepeated ps) = p.use.opposite?.toList := by
            by_contra hne
            exact hfresh ⟨hfirst, hne⟩
          rw [hopposite] at hsubset hfirst ⊢
          cases huse : p.use <;> simp_all [KeyUse.opposite?]

/-! ## The table -/

namespace KeyUse

theorem joined_concat (uses : List KeyUse) (use : KeyUse) :
    some (((joined uses).map fun earlier => (earlier.join? use).getD earlier).getD use) =
      joined (if uses ≠ [] ∧ uses ≠ use.opposite?.toList then uses else uses ++ [use]) := by
  match uses with
  | [] => rfl
  | [earlier] => cases earlier <;> cases use <;> rfl
  | earlier :: next :: rest => cases use <;> simp [joined, join?, opposite?]

theorem joined_repeats (uses : List KeyUse) (use : KeyUse) :
    (joined uses).map (·.join? use) = some none ↔
      uses ≠ [] ∧ uses ≠ use.opposite?.toList := by
  match uses with
  | [] => simp [joined]
  | [earlier] => cases earlier <;> cases use <;> simp [joined, join?, opposite?]
  | earlier :: next :: rest => cases use <;> simp [joined, join?, opposite?]

theorem joined_eq_setter (uses : List KeyUse) : joined uses = some .setter ↔ uses = [.setter] := by
  match uses with
  | [] => simp [joined]
  | [earlier] => simp [joined]
  | earlier :: next :: rest => simp [joined]

end KeyUse

namespace KeyTable

@[simp]
theorem use?_put (keys : KeyTable) (key key' : String) (use : KeyUse) :
    (keys.put key use).use? key' = if key' = key then some use else keys.use? key' := by
  unfold use? put
  rw [List.lookup_cons]
  by_cases hkey : key' = key
  · simp [hkey]
  · rw [beq_false_of_ne hkey, if_neg hkey]
    dsimp only
    induction keys.uses with
    | nil => rfl
    | cons entry rest ih =>
        obtain ⟨other, use'⟩ := entry
        by_cases hother : other = key
        · have hne : key' ≠ other := hother ▸ hkey
          rw [List.filter_cons_of_neg (by simp [hother]), ih, List.lookup_cons,
            beq_false_of_ne hne]
        · rw [List.filter_cons_of_pos (by simp [hother]), List.lookup_cons, List.lookup_cons, ih]

@[simp]
theorem use?_addSetter (keys : KeyTable) (name key : String) (position : Position) :
    (keys.addSetter name position).use? key = keys.use? key := rfl

theorem use?_addUse (keys : KeyTable) (key key' : String) (use : KeyUse) :
    (keys.addUse key use).use? key' =
      if key' = key then
        some (((keys.use? key).map fun earlier => (earlier.join? use).getD earlier).getD use)
      else keys.use? key' := by
  unfold addUse
  split
  next hnone =>
    rw [use?_put, hnone]
    rfl
  next earlier hearlier =>
    split
    next joined hjoined =>
      rw [use?_put, hearlier, Option.map_some, hjoined]
      rfl
    next hrepeated =>
      rw [hearlier, Option.map_some, hrepeated]
      split
      next hkey =>
        rw [hkey, hearlier]
        rfl
      next => rfl

theorem setters_addUse (keys : KeyTable) (key : String) (use : KeyUse) :
    (keys.addUse key use).setters = keys.setters := by
  unfold addUse
  split
  · rfl
  · split <;> rfl

theorem use?_enter (keys : KeyTable) (p : KeyedProperty) (key : String) :
    (keys.enter p).use? key = (keys.addUse p.key p.use).use? key := by
  unfold enter
  split <;> rfl

theorem setters_enter (keys : KeyTable) (p : KeyedProperty) :
    (keys.enter p).setters = if p.use = .setter then p.bound :: keys.setters else keys.setters := by
  unfold enter
  split
  · rw [addSetter, setters_addUse]
    rfl
  · exact setters_addUse keys p.key p.use

theorem ofProperties_concat (ps : List KeyedProperty) (p : KeyedProperty) :
    ofProperties (ps ++ [p]) = (ofProperties ps).enter p := by
  rw [ofProperties, List.foldl_append]
  rfl

/-- The table knows of a key what the properties with it come to that do not repeat it. -/
theorem use?_ofProperties (key : String) (ps : List KeyedProperty) :
    (ofProperties ps).use? key = KeyUse.joined (usesOf key (unrepeated ps)) := by
  induction ps using List.reverseRecOn with
  | nil => rfl
  | append_singleton ps p ih =>
      rw [ofProperties_concat, use?_enter, use?_addUse]
      split
      next hkey =>
        subst hkey
        rw [ih, unrepeated_concat, KeyUse.joined_concat]
        by_cases hrepeats : p.Repeats (unrepeated ps)
        · rw [if_pos hrepeats]
          exact congrArg KeyUse.joined (if_pos hrepeats)
        · rw [if_neg hrepeats, usesOf_append, usesOf_singleton_self]
          exact congrArg KeyUse.joined (if_neg hrepeats)
      next hkey => rw [ih, usesOf_unrepeated_concat_of_ne (Ne.symm hkey)]

theorem isRepetition_ofProperties (ps : List KeyedProperty) (p : KeyedProperty) :
    (ofProperties ps).IsRepetition p ↔ p.Repeats (unrepeated ps) := by
  unfold IsRepetition KeyedProperty.Repeats
  rw [use?_ofProperties]
  exact KeyUse.joined_repeats _ p.use

theorem reverse_setters_ofProperties (ps : List KeyedProperty) :
    (ofProperties ps).setters.reverse = (ps.filter (·.use = .setter)).map (·.bound) := by
  induction ps using List.reverseRecOn with
  | nil => rfl
  | append_singleton ps p ih =>
      rw [ofProperties_concat, setters_enter, List.filter_append, List.map_append, ← ih]
      by_cases huse : p.use = .setter <;> simp [huse]

/-- The setters that are reported in the end. -/
theorem lonelySetters_ofProperties (ps : List KeyedProperty) :
    (ofProperties ps).lonelySetters = (ps.filter (·.IsLonely ps)).map (·.bound) := by
  unfold lonelySetters
  rw [reverse_setters_ofProperties, List.filter_map, List.filter_filter]
  congr 1
  refine List.filter_congr fun p _ => ?_
  have hsetter : (ofProperties ps).use? p.key = some .setter ↔
      (usesOf p.key ps).head? = some .setter ∧ .getter ∉ usesOf p.key ps := by
    rw [use?_ofProperties, KeyUse.joined_eq_setter, (usesOf_unrepeated p.key ps).2]
  apply Bool.eq_iff_iff.mpr
  simp only [Function.comp_apply, KeyedProperty.bound, hsetter, Bool.and_eq_true,
    decide_eq_true_eq]
  exact and_comm

end KeyTable

/-! ## Reading properties -/

variable {α β σ τ : Type}

/-- What a property means for the table of keys. -/
inductive PropertyPart where
  | keyed (key : String) (use : KeyUse)
  /-- Something is spread, or the key is computed or missing. -/
  | unkeyed
  /-- The property cannot be told apart from what follows it. -/
  | broken
deriving Repr, DecidableEq

/-- A property up to its key. -/
def propertyHead (self : Productions) : Reading (Modifiers × Option String) := do
  let m ← modifiers
  let key? ← propertyKey self
  pure (m, key?)

/-- A property behind its key. -/
def propertyRest (self : Productions) (first : Token) (m : Modifiers) (key? : Option String) :
    Reading PropertyPart := do
  if ← propertyValue self first m key? then
    match key? with
    | none => pure .unkeyed
    | some key => pure (.keyed key (.ofAccessor m.accessor?))
  else pure .broken

/-- A property that begins with the token, without its entry into the table. -/
def propertyPart (self : Productions) (first : Token) : Reading PropertyPart := do
  if first.isEnd then earlyEnd
  else if first.isPunctuator "..." then
    requireEdition "object spread property" .es2018 first.position
    advance
    let _ ← self.element
    pure .unkeyed
  else
    let head ← propertyHead self
    propertyRest self first head.1 head.2

/-- Nothing comes after an early end. -/
theorem earlyEnd_bind (next : α → Reading β) : earlyEnd >>= next = earlyEnd := by
  unfold earlyEnd halt
  simp only [bind_assoc]
  rfl

/-- A property, and then its entry. -/
theorem objectProperty_eq (self : Productions) (keys : KeyTable) :
    objectProperty self keys = (do
      let first ← token
      match ← propertyPart self first with
      | .keyed key use => return .again (← recordKey keys key use first.position)
      | .unkeyed => pure (.again keys)
      | .broken => pure (.done keys)) := by
  unfold objectProperty propertyPart propertyHead propertyRest
  refine congrArg (token >>= ·) (funext fun first => ?_)
  split
  · rw [earlyEnd_bind]
  · split
    · simp only [bind_assoc, pure_bind]
    · simp only [bind_assoc, pure_bind]
      refine congrArg (modifiers >>= ·) (funext fun m => ?_)
      refine congrArg (propertyKey self >>= ·) (funext fun key? => ?_)
      refine congrArg (propertyValue self first m key? >>= ·) (funext fun told => ?_)
      cases told with
      | false => rfl
      | true => cases key? <;> rfl

/-- An entry reports the property if it repeats its key. -/
theorem recordKey_eq (keys : KeyTable) (p : KeyedProperty) :
    recordKey keys p.key p.use p.position =
      (if keys.IsRepetition p then report "W075" p.position [p.use.word, p.key] else pure ()) >>=
        fun _ => pure (keys.enter p) := by
  unfold recordKey KeyTable.enter KeyTable.addUse
  cases hused : keys.use? p.key with
  | none =>
      have hfresh : ¬ keys.IsRepetition p := by simp [KeyTable.IsRepetition, hused]
      simp only [if_neg hfresh, pure_bind]
  | some earlier =>
      have hrepeats : keys.IsRepetition p ↔ earlier.join? p.use = none := by
        simp [KeyTable.IsRepetition, hused]
      cases hjoined : earlier.join? p.use with
      | none => simp only [hjoined, if_pos (hrepeats.mpr hjoined), pure_bind]
      | some joined =>
          have hfresh : ¬ keys.IsRepetition p := by simp [hrepeats, hjoined]
          simp only [hjoined, if_neg hfresh, pure_bind]

/-- A property that begins with the token is entered behind others. -/
def enterProperty (ps : List KeyedProperty) (key : String) (use : KeyUse) (first : Token) :
    Reading (List KeyedProperty) := do
  let silenced := (← get).session.sink.suppresses "W075" first.position.line
  let _ ← recordKey (.ofProperties ps) key use first.position
  pure (ps ++ [⟨key, use, first.position, silenced⟩])

/-- A property, with the ones before it at hand in place of the table. -/
def listedProperty (self : Productions) (ps : List KeyedProperty) :
    Reading (Round (List KeyedProperty) (List KeyedProperty)) := do
  let first ← token
  match ← propertyPart self first with
  | .keyed key use => return .again (← enterProperty ps key use first)
  | .unkeyed => pure (.again ps)
  | .broken => pure (.done ps)

/-- The properties of an object literal that have a key, up to the closing brace. -/
def literalProperties (self : Productions) : Reading (List KeyedProperty) :=
  allowingIn (commaList "\x7d" [] (listedProperty self) fun _ => propertyComma {})

/-- The table answers to the properties that were entered. -/
theorem recordKey_ofProperties (ps : List KeyedProperty) (key : String) (use : KeyUse)
    (first : Token) :
    recordKey (.ofProperties ps) key use first.position =
      KeyTable.ofProperties <$> enterProperty ps key use first := by
  have hentry (silenced : Bool) :
      KeyTable.ofProperties <$> (do
        let _ ← recordKey (.ofProperties ps) key use first.position
        pure (ps ++ [⟨key, use, first.position, silenced⟩])) =
      recordKey (.ofProperties ps) key use first.position := by
    have hrecord := recordKey_eq (.ofProperties ps) ⟨key, use, first.position, silenced⟩
    dsimp only at hrecord
    rw [hrecord, map_bind, bind_assoc]
    simp only [pure_bind, map_pure, KeyTable.ofProperties_concat]
  unfold enterProperty
  rw [map_bind]
  simp only [hentry]
  rfl

/-- What a round does, with another kind of state. -/
def Round.map (f : σ → τ) : Round σ σ → Round τ τ
  | .again state => .again (f state)
  | .done state => .done (f state)

theorem iterate_map {f : σ → τ} {round : σ → Reading (Round σ σ)}
    {round' : τ → Reading (Round τ τ)} (hround : ∀ a, round' (f a) = Round.map f <$> round a)
    (fuel : Nat) (a : σ) : iterate round' fuel (f a) = f <$> iterate round fuel a := by
  induction fuel generalizing a with
  | zero => rfl
  | succ fuel ih =>
      rw [iterate, iterate, hround, map_eq_pure_bind, map_bind, bind_assoc]
      refine congrArg (round a >>= ·) (funext fun r => ?_)
      rw [pure_bind]
      cases r with
      | again b => exact ih b
      | done b => exact (map_pure f b).symm

theorem commaList_map {f : σ → τ} {closer : String} {item : σ → Reading (Round σ σ)}
    {item' : τ → Reading (Round τ τ)} {afterComma : σ → Position → Reading Unit}
    {afterComma' : τ → Position → Reading Unit}
    (hitem : ∀ a, item' (f a) = Round.map f <$> item a)
    (hcomma : ∀ a comma, afterComma' (f a) comma = afterComma a comma) (a : σ) :
    commaList closer (f a) item' afterComma' = f <$> commaList closer a item afterComma := by
  have hround (a : σ) : commaRound closer item' afterComma' (f a) =
      Round.map f <$> commaRound closer item afterComma a := by
    unfold commaRound
    rw [map_bind]
    refine congrArg (atPunctuator closer >>= ·) (funext fun closes => ?_)
    cases closes with
    | true => rfl
    | false =>
        dsimp only
        rw [if_neg Bool.false_ne_true, if_neg Bool.false_ne_true, hitem, map_bind,
          map_eq_pure_bind, bind_assoc]
        refine congrArg (item a >>= ·) (funext fun r => ?_)
        rw [pure_bind]
        cases r with
        | done b => rfl
        | again b =>
            dsimp only [Round.map]
            rw [map_bind]
            refine congrArg (atPunctuator "," >>= ·) (funext fun comes => ?_)
            cases comes with
            | false => rfl
            | true => simp [hcomma, Round.map]
  unfold commaList repeatFrom
  rw [map_bind]
  exact congrArg (get >>= ·) (funext fun s => iterate_map hround _ a)

theorem objectLiteral_eq (self : Productions) : objectLiteral self = (do
    let position := (← token).position
    advance
    let ps ← literalProperties self
    expectPunctuator "\x7d"
    (KeyTable.ofProperties ps).lonelySetters.forM fun b => report "W078" b.position []
    pure { kind := .object, position }) := by
  have hproperty (ps : List KeyedProperty) : objectProperty self (.ofProperties ps) =
      Round.map .ofProperties <$> listedProperty self ps := by
    rw [objectProperty_eq, listedProperty, map_bind]
    refine congrArg (token >>= ·) (funext fun first => ?_)
    rw [map_bind]
    refine congrArg (propertyPart self first >>= ·) (funext fun part => ?_)
    cases part with
    | keyed key use =>
        dsimp only
        rw [recordKey_ofProperties, map_bind, map_eq_pure_bind, bind_assoc]
        simp only [pure_bind, map_pure, Round.map]
    | unkeyed => rfl
    | broken => rfl
  have hlist : commaList "\x7d" (.ofProperties []) (objectProperty self) propertyComma =
      KeyTable.ofProperties <$>
        commaList "\x7d" [] (listedProperty self) fun _ => propertyComma {} :=
    commaList_map hproperty (fun _ _ => rfl) []
  have hproperties : allowingIn (commaList "\x7d" {} (objectProperty self) propertyComma) =
      KeyTable.ofProperties <$> literalProperties self := by
    have hempty : ({} : KeyTable) = .ofProperties [] := rfl
    rw [hempty, hlist, literalProperties, allowingIn, allowingIn]
    simp only [map_eq_pure_bind, bind_assoc, pure_bind]
  rw [objectLiteral, hproperties]
  simp only [map_eq_pure_bind, bind_assoc, pure_bind]

end ScriptLint.Reading
