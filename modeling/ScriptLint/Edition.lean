/-! # Language editions

The editions of the language that a source may target, oldest first. Every edition from the third
one on has a short number; those from 2015 on may also be named by their year.
-/

namespace ScriptLint

/-- A supported edition. -/
inductive Edition where
  | es3
  | es5
  | es2015
  | es2016
  | es2017
  | es2018
  | es2019
  | es2020
  | es2021
  | es2022
deriving Repr, DecidableEq

namespace Edition

/-- An unspecified target is the fifth edition. -/
instance : Inhabited Edition := ⟨es5⟩

/-- Every supported edition, oldest first. -/
def all : List Edition :=
  [es3, es5, es2015, es2016, es2017, es2018, es2019, es2020, es2021, es2022]

/-- The short number, as messages print it. -/
def number : Edition → Nat
  | es3 => 3
  | es5 => 5
  | es2015 => 6
  | es2016 => 7
  | es2017 => 8
  | es2018 => 9
  | es2019 => 10
  | es2020 => 11
  | es2021 => 12
  | es2022 => 13

/-- The year that names the edition, where one does. -/
def year? : Edition → Option Nat
  | es3 | es5 => none
  | e => some (e.number + 2009)

/-- The edition that a short number or a year names. -/
def ofNumber? (n : Nat) : Option Edition :=
  all.find? fun e => e.number == n || e.year? == some n

/-- Whether `a` is an older edition than `b` or the same one. -/
protected def le (a b : Edition) : Prop := a.number ≤ b.number

/-- Whether `a` is an older edition than `b`. -/
protected def lt (a b : Edition) : Prop := a.number < b.number

instance : LE Edition := ⟨Edition.le⟩
instance : LT Edition := ⟨Edition.lt⟩
instance (a b : Edition) : Decidable (a ≤ b) := inferInstanceAs (Decidable (a.number ≤ b.number))
instance (a b : Edition) : Decidable (a < b) := inferInstanceAs (Decidable (a.number < b.number))

/-- Whether the edition is that of 2015 or a later one. -/
def isModern (e : Edition) : Bool := es2015 ≤ e

/-- The name that is shown to a reader. -/
def label (e : Edition) : String := s!"ES{e.number}"

/-- An edition is found again by its short number. -/
theorem ofNumber?_number (e : Edition) : ofNumber? e.number = some e := by cases e <;> decide

end Edition

end ScriptLint
