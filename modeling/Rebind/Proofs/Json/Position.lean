import Rebind.Json.Fault
import Rebind.Proofs.Json.Prefix

/-!
# What a position says

A line and a column are a number of bytes, told for people. `Denotes` says so
without going through the text character by character: it only counts line
breaks among the bytes before the place, and the bytes behind the last one. No
two places of a text have the same line and column, and the line and column of
a place do not depend on what stands behind it.
-/

namespace Rebind.Json

/-- The byte of a line break. -/
def lineBreak : UInt8 := 10

theorem lineBreak_not_mem {a : Char} (ha : a ≠ '\n') :
    lineBreak ∉ String.utf8EncodeChar a := by
  have hval : a.toNat ≠ 10 := fun h => ha (Char.ext (UInt32.toNat_inj.mp h))
  intro hmem
  revert hmem
  fun_cases String.utf8EncodeChar a with
  | case1 v hle =>
      have hlow : a.toNat ≤ 0x7f := hle
      simp [v, lineBreak, ← UInt8.toNat_inj]
      omega
  | case2 v | case3 v | case4 v =>
      simp [v, lineBreak, ← UInt8.toNat_inj]
      omega

namespace Position

/-- The position of a place with these bytes before it. -/
def behind (bs : List UInt8) : Position :=
  ⟨1 + bs.count lineBreak, (bs.reverse.takeWhile (· ≠ lineBreak)).length⟩

/-- A position is that of the place with so many bytes of the text before it. -/
def Denotes (p : Position) (text : String) (n : Nat) : Prop :=
  n ≤ text.utf8ByteSize ∧ p = behind (text.toUTF8.data.toList.take n)

/-- Bytes without a line break are on the same line. -/
theorem behind_append {bs bs' : List UInt8} (h : lineBreak ∉ bs') :
    behind (bs ++ bs') = ⟨(behind bs).line, (behind bs).column + bs'.length⟩ := by
  have hall : ∀ b ∈ bs'.reverse, decide (b ≠ lineBreak) = true := by
    intro b hb
    exact decide_eq_true (fun heq => h (heq ▸ List.mem_reverse.mp hb))
  simp only [behind, List.count_append, List.count_eq_zero_of_not_mem h, List.reverse_append,
    List.takeWhile_append_of_pos hall, List.length_append, List.length_reverse]
  rw [Nat.add_zero, Nat.add_comm bs'.length]

theorem behind_lineBreak (bs : List UInt8) :
    behind (bs ++ [lineBreak]) = ⟨(behind bs).line + 1, 0⟩ := by
  simp [behind, List.count_append, Nat.add_assoc]

theorem advance_behind (bs : List UInt8) (a : Char) :
    (behind bs).advance a = behind (bs ++ String.utf8EncodeChar a) := by
  by_cases ha : a = '\n'
  · subst ha
    exact (behind_lineBreak bs).symm
  · rw [behind_append (lineBreak_not_mem ha), String.length_utf8EncodeChar, advance, if_neg ha]

theorem forward_behind (bs : List UInt8) (n : Nat) (s : List Char) :
    (behind bs).forward n s = behind (bs ++ (bytes s).take n) := by
  induction s generalizing bs n with
  | nil => simp [forward]
  | cons a s ih =>
      have hlength := String.length_utf8EncodeChar a
      rw [forward, bytes_cons, List.take_append, hlength]
      split
      · next hle =>
          rw [advance_behind, ih, List.append_assoc,
            List.take_of_length_le (l := String.utf8EncodeChar a) (by omega)]
      · next hlt =>
          have hbreak : lineBreak ∉ (String.utf8EncodeChar a).take n := by
            intro hmem
            by_cases ha : a = '\n'
            · subst ha
              -- a line break is one byte, so none of it has been passed
              obtain rfl : n = 0 := Nat.lt_one_iff.mp (Nat.lt_of_not_le hlt)
              cases hmem
            · exact lineBreak_not_mem ha (List.mem_of_mem_take hmem)
          rw [Nat.sub_eq_zero_of_le (by omega), List.take_zero, List.append_nil,
            behind_append hbreak, List.length_take, hlength, Nat.min_eq_left (by omega)]

theorem ofOffset_eq (text : String) (n : Nat) :
    ofOffset text n = behind ((bytes text.toList).take n) :=
  forward_behind [] n text.toList

/-- The position of a place does not depend on what stands behind it. -/
theorem ofOffset_of_take {text text' : String} {n m : Nat} (hle : m ≤ n)
    (h : text'.toUTF8.data.toList.take n = text.toUTF8.data.toList.take n) :
    ofOffset text' m = ofOffset text m := by
  rw [toList_data_toUTF8, toList_data_toUTF8] at h
  rw [ofOffset_eq, ofOffset_eq, ← Nat.min_eq_left hle, ← List.take_take, h, List.take_take]

theorem eq_of_behind_take_of_le {bs : List UInt8} {n m : Nat} (hle : n ≤ m)
    (hm : m ≤ bs.length) (h : behind (bs.take n) = behind (bs.take m)) : n = m := by
  have hsplit : bs.take m = bs.take n ++ (bs.take m).drop n := by
    rw [← Nat.min_eq_left hle, ← List.take_take, Nat.min_eq_left hle, List.take_append_drop]
  rw [hsplit] at h
  -- between the two places there is no line break, since they are on the same line
  have hbreak : lineBreak ∉ (bs.take m).drop n := by
    have hline := congrArg Position.line h
    simp only [behind, List.count_append] at hline
    exact List.count_eq_zero.mp (by omega)
  have hcolumn := congrArg Position.column h
  rw [behind_append hbreak] at hcolumn
  simp only [List.length_drop, List.length_take] at hcolumn
  omega

/-- Two places with the same position are the same place. -/
theorem eq_of_behind_take {bs : List UInt8} {n m : Nat} (hn : n ≤ bs.length) (hm : m ≤ bs.length)
    (h : behind (bs.take n) = behind (bs.take m)) : n = m := by
  rcases Nat.le_total n m with hle | hle
  · exact eq_of_behind_take_of_le hle hm h
  · exact (eq_of_behind_take_of_le hle hn h.symm).symm

theorem denotes_ofOffset_iff {text : String} {n m : Nat} (hn : n ≤ text.utf8ByteSize) :
    (ofOffset text n).Denotes text m ↔ m = n := by
  rw [Denotes, ofOffset_eq, toList_data_toUTF8]
  refine ⟨fun h => ?_, fun h => ?_⟩
  · obtain ⟨hm, hbehind⟩ := h
    rw [← length_bytes_toList] at hn hm
    exact (eq_of_behind_take hn hm hbehind).symm
  · subst h
    exact ⟨hn, rfl⟩

end Position

end Rebind.Json
