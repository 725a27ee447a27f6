/-
  Texts of one line, and texts made of lines.

  A text is of one line if no line end stands in it.  Numbers are, having digits and a few marks only; and so is
  every quoted text, whatever was quoted: a line end is escaped, other escapes have none, and what stands for
  itself is no line end.

  A text that is made by ending each of some lines with a line end can be cut into these lines again, and has as
  many line ends as there are lines, provided that each line is of one line.
-/
import LuaBytecode.Proofs.Number.Text
import LuaBytecode.Text.Quoted

namespace LuaBytecode

open Numeral

/-- No line end stands in the text. -/
def OneLine (s : String) : Prop := '\n' ∉ s.toList

instance : DecidablePred OneLine := fun s => inferInstanceAs (Decidable ('\n' ∉ s.toList))

section OneLine

variable {s t : String}

/-- Texts of one line make one when joined. -/
@[simp] theorem oneLine_append : OneLine (s ++ t) ↔ OneLine s ∧ OneLine t := by
  unfold OneLine
  rw [String.toList_append, List.mem_append, not_or]

theorem oneLine_join {parts : List String} (h : ∀ part ∈ parts, OneLine part) : OneLine (String.join parts) := by
  unfold OneLine
  rw [String.toList_join, List.mem_flatMap]
  rintro ⟨part, hpart, hmem⟩
  exact h part hpart hmem

/-! ## Numbers -/

@[simp] theorem oneLine_naturalText (n : Nat) : OneLine (naturalText n) := by
  unfold OneLine
  rw [toList_naturalText]
  exact (isDigits_toDigits n).not_mem (by decide)

@[simp] theorem oneLine_integerText (n : Int) : OneLine (integerText n) :=
  not_mem_integerText n (by decide) (by decide)

/-- The text of a double is a numeral, or one of three words. -/
@[simp] theorem oneLine_text (f : Binary64) : OneLine (Value.numeral.text f) := by
  intro hmem
  rw [NumeralStyle.text] at hmem
  cases hnan : f.isNaN with
  | true =>
    have htext : Value.numeral.textOf (f.shortest Value.numeral.tie) f = "nan" := by
      rw [NumeralStyle.textOf, hnan]
      rfl
    rw [htext] at hmem
    exact absurd hmem (by decide)
  | false =>
    cases hfinite : f.isFinite with
    | true =>
      -- the text reads back, and no text with a line end reads as a numeral
      obtain ⟨-, d, hd, -⟩ :=
        Value.exists_signed?_textOf hfinite (Binary64.within_shortest f Value.numeral.tie)
      rw [signed?_eq_none hmem (by decide) (by decide) (by decide) (by decide)] at hd
      cases hd
    | false =>
      rw [Value.toList_textOf_infinite _ hnan hfinite] at hmem
      split at hmem
      · exact absurd hmem (by decide)
      · exact absurd hmem (by decide)

/-! ## Quoted texts -/

/-- Digits are digits, in any base. -/
theorem exists_digitChar_of_mem_toDigits {c : Char} {base n : Nat} (hbase : 1 < base) (h : c ∈ Nat.toDigits base n) :
    ∃ d < base, c = Nat.digitChar d := by
  induction n using Nat.strong_induction_on with
  | _ n ih =>
    -- one digit, or the digits of the quotient and a last one
    rcases lt_or_ge n base with hlt | hge
    · rw [Nat.toDigits_of_lt_base hlt] at h
      exact ⟨n, hlt, List.mem_singleton.1 h⟩
    · rw [Nat.toDigits_of_base_le hbase hge, List.mem_append] at h
      rcases h with h | h
      · exact ih (n / base) (Nat.div_lt_self (by omega) hbase) h
      · exact ⟨n % base, Nat.mod_lt n (by omega), List.mem_singleton.1 h⟩

/-- A line end is no hexadecimal digit. -/
theorem newline_not_mem_hexDigits (n : Nat) : '\n' ∉ Quoted.hexDigits n := by
  intro hmem
  obtain ⟨d, hd, heq⟩ := exists_digitChar_of_mem_toDigits (by decide) hmem
  have hne : ∀ d < 16, '\n' ≠ Nat.digitChar d := by decide
  exact hne d hd heq

/-- A line end is escaped, and no other character is written with one. -/
theorem newline_not_mem_encodeChar (c : Char) : '\n' ∉ Quoted.encodeChar c := by
  unfold Quoted.encodeChar
  split_ifs with hzero htab hreturn hnewline hquote hbackslash hformless
  · decide
  · decide
  · decide
  · decide
  · decide
  · decide
  · -- spelt out by its code point
    have hdigits : '\n' ∉ Quoted.hexDigits c.toNat := newline_not_mem_hexDigits c.toNat
    simpa using hdigits
  · -- written as itself
    intro hmem
    exact hnewline (List.mem_singleton.1 hmem).symm

/-- **A quoted text is of one line**, whatever is quoted. -/
@[simp] theorem oneLine_encode (s : String) : OneLine (Quoted.encode s) := by
  unfold OneLine Quoted.encode
  rw [String.toList_ofList]
  intro hmem
  rcases List.mem_cons.1 hmem with h | hmem
  · exact absurd h (by decide)
  · rcases List.mem_append.1 hmem with hmem | hmem
    · obtain ⟨c, -, hc⟩ := List.mem_flatMap.1 hmem
      exact newline_not_mem_encodeChar c hc
    · exact absurd hmem (by decide)

end OneLine

/-! ## Lines -/

section Lines

variable {ls : List String}

/-- Ending every piece with a mark is parting the pieces, and a last empty one, by it. -/
theorem flatMap_append_mark {α : Type} (mark : α) (pieces : List (List α)) :
    pieces.flatMap (· ++ [mark]) = [mark].intercalate (pieces ++ [[]]) := by
  induction pieces with
  | nil => rfl
  | cons piece rest ih =>
    rw [List.flatMap_cons, ih, List.cons_append, List.intercalate_cons_of_ne_nil (by simp)]

/-- As characters, each line has its line end behind it. -/
theorem toList_join_lines (ls : List String) :
    (String.join (ls.map fun l => l ++ "\n")).toList = (ls.map String.toList).flatMap (· ++ ['\n']) := by
  rw [String.toList_join, List.flatMap_map, List.flatMap_map]
  simp

/-- **The lines of a text can be cut out of it**; nothing follows the last line end. -/
theorem splitOn_join_lines (h : ∀ l ∈ ls, OneLine l) :
    (String.join (ls.map fun l => l ++ "\n")).toList.splitOn '\n' = ls.map String.toList ++ [[]] := by
  rw [toList_join_lines, flatMap_append_mark]
  apply List.splitOn_intercalate
  · intro piece hpiece
    rcases List.mem_append.1 hpiece with hpiece | hpiece
    · obtain ⟨l, hl, rfl⟩ := List.mem_map.1 hpiece
      exact h l hl
    · rw [List.mem_singleton.1 hpiece]
      exact List.not_mem_nil
  · simp

/-- A text has as many line ends as lines. -/
theorem count_join_lines (h : ∀ l ∈ ls, OneLine l) :
    (String.join (ls.map fun l => l ++ "\n")).toList.count '\n' = ls.length := by
  rw [toList_join_lines]
  induction ls with
  | nil => rfl
  | cons l ls ih =>
    obtain ⟨hl, hls⟩ := List.forall_mem_cons.1 h
    rw [List.map_cons, List.flatMap_cons, List.count_append, List.count_append, List.count_eq_zero_of_not_mem hl,
      ih hls, List.length_cons]
    simp [Nat.add_comm]

end Lines

end LuaBytecode
