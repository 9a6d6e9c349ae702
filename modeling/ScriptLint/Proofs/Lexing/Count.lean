import ScriptLint.Proofs.Lexing.Issue
import ScriptLint.Text.Basic

/-! # Counting lines and columns

The line and the column of a place can be told by counting over the whole text: the line ends in
front of it, and the characters since the last of them. A cursor that moves on from character to
character counts the same, and so does the count of all lines of a text beforehand.
-/

namespace ScriptLint

namespace Text

/-- Whether the character with an index ends a line: LF, U+2028, U+2029, or a CR that no LF
follows. -/
def endsLine (text : List Char) (i : Nat) : Bool :=
  text[i]? = some '\n' || text[i]? = some '\u2028' || text[i]? = some '\u2029' ||
    (text[i]? = some '\r' && text[i + 1]? ≠ some '\n')

/-- The number of the line in which the text goes on after its first `n` characters. -/
def lineAt (text : List Char) (n : Nat) : Nat := (List.range n).countP (endsLine text) + 1

/-- The column at which the text goes on after its first `n` characters. -/
def columnAt (text : List Char) (n : Nat) : Nat :=
  ((List.range n).reverse.takeWhile fun i => !endsLine text i).length + 1

theorem lineAt_succ (text : List Char) (n : Nat) :
    lineAt text (n + 1) = lineAt text n + if endsLine text n then 1 else 0 := by
  rw [lineAt, lineAt, List.range_succ, List.countP_append, List.countP_singleton]
  omega

theorem columnAt_succ (text : List Char) (n : Nat) :
    columnAt text (n + 1) = if endsLine text n then 1 else columnAt text n + 1 := by
  rw [columnAt, columnAt, List.range_succ, List.reverse_append, List.reverse_singleton,
    List.singleton_append, List.takeWhile_cons]
  cases endsLine text n <;> simp

/-- Further on in a text the line is a later one, or it is the same and the column is greater. -/
theorem lineAt_lt_or (text : List Char) {m n : Nat} (hmn : m < n) :
    lineAt text m < lineAt text n ∨
      lineAt text m = lineAt text n ∧ columnAt text m < columnAt text n := by
  induction n, hmn using Nat.le_induction with
  | base =>
      rw [lineAt_succ, columnAt_succ]
      split
      · exact .inl (Nat.lt_succ_self _)
      · exact .inr ⟨rfl, Nat.lt_succ_self _⟩
  | succ n _ ih =>
      rw [lineAt_succ, columnAt_succ]
      split <;> omega

end Text

namespace Cursor

variable {c d : Cursor} {text cs : List Char} {n : Nat}

/-- The cursor stands after the first `n` characters of the text, and counts them. -/
structure Counts (text : List Char) (n : Nat) (c : Cursor) : Prop where
  rest : c.rest = text.drop n
  line : c.position.line = Text.lineAt text n
  column : c.position.column = Text.columnAt text n

theorem counts_ofSource (source : String) : (ofSource source).Counts source.toList 0 :=
  ⟨rfl, rfl, rfl⟩

/-- The next character ends a line for the cursor if it does so in the text. -/
theorem endsLine_iff {ch : Char} {rest : List Char} (hrest : ch :: rest = text.drop n) :
    Text.endsLine text n = true ↔
      ch = '\n' ∨ ch = '\u2028' ∨ ch = '\u2029' ∨ (ch = '\r' ∧ rest.head? ≠ some '\n') := by
  have hfirst : text[n]? = some ch := by rw [← List.head?_drop, ← hrest]; rfl
  have hsecond : text[n + 1]? = rest.head? := by
    rw [← List.head?_drop, ← List.tail_drop, ← hrest]
    rfl
  simp [Text.endsLine, hfirst, hsecond, or_assoc]

theorem Reads.counts (hcd : c.Reads cs d) (hc : c.Counts text n) :
    d.Counts text (n + cs.length) := by
  induction hcd generalizing n with
  | nil => exact hc
  | @cons ch rest cs position d _ ih =>
      have hline := hc.line
      have hcolumn := hc.column
      have hafter : position.after ch rest.head? =
          if Text.endsLine text n then ⟨position.line + 1, 1, position.offset + ch.utf8Size⟩
          else ⟨position.line, position.column + 1, position.offset + ch.utf8Size⟩ := by
        simp only [Position.after, endsLine_iff hc.rest]
      have hnext : Counts text (n + 1) ⟨rest, position.after ch rest.head?⟩ := by
        refine ⟨?_, ?_, ?_⟩
        · rw [← List.tail_drop, ← hc.rest]
          rfl
        · rw [hafter, Text.lineAt_succ, ← hline]
          split <;> rfl
        · rw [hafter, Text.columnAt_succ, ← hcolumn]
          split <;> rfl
      rw [List.length_cons, Nat.add_comm cs.length, ← Nat.add_assoc]
      exact ih hnext

/-- The lines that a cursor has counted and the line ends to come are always the same number. -/
theorem Reads.line_add (hcd : c.Reads cs d) :
    d.position.line + Text.lineEnds d.rest = c.position.line + Text.lineEnds c.rest := by
  induction hcd with
  | nil => rfl
  | @cons ch rest cs position d _ ih =>
      rw [ih, Text.lineEnds, Position.after]
      split
      · exact Nat.add_right_comm position.line 1 (Text.lineEnds rest)
      · rfl

/-- At the end of the text all lines are counted. -/
theorem lineAt_length (source : String) :
    Text.lineAt source.toList source.toList.length = Text.lineCount source.toList := by
  have hreads := reads_skipWhile (fun _ => true) (ofSource source)
  have hall : (ofSource source).rest.takeWhile (fun _ => true) = source.toList := by
    simp [ofSource]
  rw [hall] at hreads
  have hcounts := hreads.counts (counts_ofSource source)
  have hlines := hreads.line_add
  rw [Nat.zero_add] at hcounts
  rw [hcounts.rest, hcounts.line, List.drop_length] at hlines
  exact hlines.trans (Nat.add_comm 1 _)

end Cursor

/-- The position stands between two characters of the source, or at one of its ends, and its line
and column are the ones that counting comes to. -/
structure Position.CountedIn (source : String) (p : Position) : Prop where
  counted : ∃ before after : String, source = before ++ after ∧ p.offset = before.utf8ByteSize ∧
    p.line = Text.lineAt source.toList before.length ∧
    p.column = Text.columnAt source.toList before.length
  offset_le : p.offset ≤ source.utf8ByteSize
  line_pos : 1 ≤ p.line
  line_le : p.line ≤ Text.lineCount source.toList

theorem Cursor.Passes.countedIn {source : String} {p : Position}
    (hp : (Cursor.ofSource source).Passes p) : p.CountedIn source := by
  obtain ⟨d, ⟨cs, hreads⟩, rfl⟩ := hp
  have hcounts := hreads.counts (counts_ofSource source)
  rw [Nat.zero_add] at hcounts
  have hsource : source = String.ofList cs ++ String.ofList d.rest := by
    rw [← String.ofList_append, ← hreads.rest_eq]
    exact String.ofList_toList.symm
  have hoffset : d.position.offset = (String.ofList cs).utf8ByteSize := by
    rw [hreads.offset_eq, utf8ByteSize_ofList]
    exact Nat.zero_add _
  have hlength : (String.ofList cs).length = cs.length := String.length_ofList
  refine ⟨⟨_, _, hsource, hoffset, ?_, ?_⟩, ?_, ?_, ?_⟩
  · rw [hlength, hcounts.line]
  · rw [hlength, hcounts.column]
  · rw [hoffset, hsource, String.utf8ByteSize_append]
    exact Nat.le_add_right _ _
  · rw [hcounts.line]
    exact Nat.le_add_left 1 _
  · have hlines := hreads.line_add
    change _ = 1 + Text.lineEnds source.toList at hlines
    rw [Text.lineCount]
    omega

/-- Of two positions in a source the one with the smaller offset is on an earlier line, or on the
same line in front of the other. -/
theorem Position.CountedIn.line_lt_or {source : String} {p q : Position} (hp : p.CountedIn source)
    (hq : q.CountedIn source) (hpq : p.offset < q.offset) :
    p.line < q.line ∨ p.line = q.line ∧ p.column < q.column := by
  obtain ⟨before, after, hsource, hoffset, hline, hcolumn⟩ := hp.counted
  obtain ⟨before', after', hsource', hoffset', hline', hcolumn'⟩ := hq.counted
  have hlt : before.length < before'.length := by
    by_contra hle
    have hall : before.toList <+: source.toList := by
      rw [hsource, String.toList_append]
      exact List.prefix_append _ _
    have hall' : before'.toList <+: source.toList := by
      rw [hsource', String.toList_append]
      exact List.prefix_append _ _
    have hprefix : before'.toList <+: before.toList := by
      refine List.prefix_of_prefix_length_le hall' hall ?_
      rw [String.length_toList, String.length_toList]
      exact Nat.le_of_not_lt hle
    obtain ⟨rest, hrest⟩ := hprefix
    have hbefore : before = before' ++ String.ofList rest := by
      apply String.toList_injective
      simpa using hrest.symm
    rw [hoffset, hoffset', hbefore, String.utf8ByteSize_append] at hpq
    omega
  rw [hline, hcolumn, hline', hcolumn']
  exact Text.lineAt_lt_or _ hlt

end ScriptLint
