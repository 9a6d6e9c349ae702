/-! # Sets of names

A finite set of strings as the strictly ascending list of its members, in the order of their code
points. Two sets with the same members are equal, and the list is the order in which a set is
written.
-/

namespace ScriptLint.Text

/-- Put a name into an ascending list, unless it is there. -/
def insertName (name : String) : List String → List String
  | [] => [name]
  | m :: ms =>
    if name < m then name :: m :: ms
    else if name = m then m :: ms
    else m :: insertName name ms

theorem mem_insertName {name x : String} {ms : List String} :
    x ∈ insertName name ms ↔ x = name ∨ x ∈ ms := by
  induction ms with
  | nil => simp [insertName]
  | cons m ms ih =>
    unfold insertName
    split
    · simp
    · split
      · next _ heq => simp [heq]
      · simp only [List.mem_cons, ih]
        constructor
        · rintro (h | h | h) <;> simp [h]
        · rintro (h | h | h) <;> simp [h]

theorem pairwise_insertName {name : String} {ms : List String} (hms : ms.Pairwise (· < ·)) :
    (insertName name ms).Pairwise (· < ·) := by
  induction ms with
  | nil => simp [insertName]
  | cons m ms ih =>
    obtain ⟨hhead, htail⟩ := List.pairwise_cons.mp hms
    unfold insertName
    split
    · next hlt =>
      refine List.pairwise_cons.mpr ⟨?_, hms⟩
      intro x hx
      rcases List.mem_cons.mp hx with rfl | hx
      · exact hlt
      · exact String.lt_trans hlt (hhead x hx)
    · split
      · exact hms
      · next hnot hne =>
        refine List.pairwise_cons.mpr ⟨?_, ih htail⟩
        intro x hx
        rcases mem_insertName.mp hx with rfl | hx
        · exact Decidable.by_contra fun hgt =>
            hne (String.le_antisymm (String.not_lt.mp hgt) (String.not_lt.mp hnot))
        · exact hhead x hx

/-- A set of names. -/
structure NameSet where
  toList : List String
  ascending : toList.Pairwise (· < ·)
deriving DecidableEq

namespace NameSet

def empty : NameSet := ⟨[], .nil⟩

instance : Inhabited NameSet := ⟨empty⟩
instance : Repr NameSet := ⟨fun s n => reprPrec s.toList n⟩

def insert (s : NameSet) (name : String) : NameSet :=
  ⟨insertName name s.toList, pairwise_insertName s.ascending⟩

def ofList (names : List String) : NameSet := names.foldl insert empty

def insertAll (s : NameSet) (names : List String) : NameSet := names.foldl insert s

def contains (s : NameSet) (name : String) : Bool := s.toList.contains name

theorem contains_insert (s : NameSet) (name x : String) :
    (s.insert name).contains x = (x == name || s.contains x) := by
  simp only [contains, insert]
  rw [Bool.eq_iff_iff]
  simp [mem_insertName]

end NameSet

end ScriptLint.Text
