import Rebind.Json.Reader

/-!
# Texts that begin with the same bytes

A fault is placed by bytes, so what is known of a text up to a fault is a
number of bytes, and the last of them may be inside a character. Characters
that end before the last known byte are the same in every text that begins with
these bytes. Of the one in which the known bytes end no more can be said than
that it takes several bytes in either text: a character of one byte is known as
soon as its byte is.
-/

namespace Rebind.Json

/-- The bytes of a text. -/
def bytes (s : List Char) : List UInt8 :=
  s.flatMap String.utf8EncodeChar

@[simp] theorem bytes_nil : bytes [] = [] := rfl

@[simp] theorem bytes_cons (a : Char) (s : List Char) :
    bytes (a :: s) = String.utf8EncodeChar a ++ bytes s := rfl

theorem toList_data_toUTF8 (text : String) : text.toUTF8.data.toList = bytes text.toList := by
  rw [String.toUTF8_eq_toByteArray, ← String.utf8Encode_toList]
  simp [List.utf8Encode, bytes]

theorem length_bytes_toList (text : String) :
    (bytes text.toList).length = text.utf8ByteSize := by
  rw [← toList_data_toUTF8, Array.length_toList]
  exact String.size_toByteArray

theorem bytes_append (s t : List Char) : bytes (s ++ t) = bytes s ++ bytes t :=
  List.flatMap_append

theorem length_le_length_bytes (s : List Char) : s.length ≤ (bytes s).length := by
  induction s with
  | nil => exact Nat.le_refl _
  | cons a s ih =>
      have := a.utf8Size_pos
      simp
      omega

/-- All texts that begin with the same `n` bytes begin with the same characters, as far as these
bytes are enough for them. -/
theorem append_of_take_bytes {n : Nat} {s t u : List Char}
    (h : (bytes (s ++ t)).take n = (bytes u).take n) (hle : (bytes s).length ≤ n) :
    ∃ u', u = s ++ u' ∧
      (bytes t).take (n - (bytes s).length) = (bytes u').take (n - (bytes s).length) := by
  have htake : ∀ w, (bytes s ++ w).take n = bytes s ++ w.take (n - (bytes s).length) := by
    intro w
    rw [List.take_append, List.take_of_length_le hle]
  rw [bytes_append, htake] at h
  have hencode : s.utf8Encode ++
      ((bytes t).take (n - (bytes s).length) ++ (bytes u).drop n).toByteArray = u.utf8Encode := by
    rw [List.utf8Encode, ← List.toByteArray_append, ← List.append_assoc]
    show ((bytes s ++ _) ++ _).toByteArray = _
    rw [h, List.take_append_drop]
    rfl
  obtain ⟨u', rfl⟩ := List.isPrefix_of_utf8Encode_append_eq_utf8Encode _ hencode
  rw [bytes_append, htake] at h
  exact ⟨u', rfl, List.append_cancel_left h⟩

/-- A character of several bytes. -/
def IsWide (a : Char) : Prop :=
  0x80 ≤ a.toNat

theorem IsWide.ne {a b : Char} (ha : IsWide a) (hb : ¬ IsWide b) : a ≠ b :=
  fun h => hb (h ▸ ha)

theorem not_wide_of_isBlank {a : Char} (h : Cursor.isBlank a = true) : ¬ IsWide a := by
  simp only [Cursor.isBlank, Bool.or_eq_true, beq_iff_eq] at h
  rcases h with ((rfl | rfl) | rfl) | rfl <;> simp [IsWide]

theorem not_wide_of_isDigit {a : Char} (h : a.isDigit = true) : ¬ IsWide a := by
  simp only [Char.isDigit, Bool.and_eq_true, decide_eq_true_eq, UInt32.le_iff_toNat_le] at h
  exact Nat.not_le_of_lt (Nat.lt_of_le_of_lt h.2 (by decide))

theorem IsWide.not_isBlank {a : Char} (h : IsWide a) : ¬ Cursor.isBlank a = true :=
  fun hblank => not_wide_of_isBlank hblank h

theorem IsWide.not_isDigit {a : Char} (h : IsWide a) : ¬ a.isDigit = true :=
  fun hdigit => not_wide_of_isDigit hdigit h

theorem utf8Size_of_not_wide {a : Char} (h : ¬ IsWide a) : a.utf8Size = 1 := by
  rw [Char.utf8Size_eq_one_iff, UInt32.le_iff_toNat_le]
  exact Nat.le_of_lt_succ (Nat.lt_of_not_le h)

namespace Cursor

/-- Where the text ends. -/
def limit (c : Cursor) : Nat :=
  c.offset + (bytes c.rest).length

/-- Two cursors stand at the same place, and the text behind them is the same up to the byte `n`. -/
def Agree (n : Nat) (c c' : Cursor) : Prop :=
  c'.offset = c.offset ∧
    (bytes c.rest).take (n - c.offset) = (bytes c'.rest).take (n - c.offset)

theorem offset_le_limit (c : Cursor) : c.offset ≤ c.limit :=
  Nat.le_add_right ..

theorem offset_le_blame (c : Cursor) : c.offset ≤ c.blame := by
  unfold blame
  split <;> omega

theorem blame_le_limit (c : Cursor) : c.blame ≤ c.limit := by
  unfold blame limit
  split
  · omega
  · next a s hrest =>
      have := a.utf8Size_pos
      simp [hrest]
      omega

theorem limit_advance (c : Cursor) : c.advance.limit = c.limit := by
  unfold advance
  split
  · rfl
  · next a s hrest => simp [limit, hrest, Nat.add_assoc]

variable {n : Nat} {c c' : Cursor}

theorem Agree.symm (h : c.Agree n c') : c'.Agree n c := by
  obtain ⟨hoffset, hbytes⟩ := h
  exact ⟨hoffset.symm, by rw [hoffset, hbytes]⟩

/-- Characters that end before the byte `n` come next in both texts. -/
theorem Agree.append (h : c.Agree n c') {s t : List Char} (hrest : c.rest = s ++ t)
    (hle : c.offset + (bytes s).length ≤ n) :
    ∃ t', c'.rest = s ++ t' ∧
      Agree n ⟨c.offset + (bytes s).length, t⟩ ⟨c'.offset + (bytes s).length, t'⟩ := by
  obtain ⟨hoffset, hbytes⟩ := h
  rw [hrest] at hbytes
  obtain ⟨t', ht', htake⟩ := append_of_take_bytes hbytes (by omega)
  refine ⟨t', ht', by rw [hoffset], ?_⟩
  show (bytes t).take (n - (c.offset + (bytes s).length)) = _
  rwa [Nat.sub_add_eq]

theorem Agree.cons (h : c.Agree n c') {a : Char} {s : List Char} (hrest : c.rest = a :: s)
    (hle : c.offset + a.utf8Size ≤ n) :
    ∃ t, c'.rest = a :: t ∧ c.advance.Agree n c'.advance := by
  obtain ⟨t, ht, hagree⟩ := h.append (s := [a]) hrest (by simpa using hle)
  exact ⟨t, ht, by simpa [advance, hrest, ht] using hagree⟩

theorem Agree.nil (h : c.Agree n c') (hlt : c.offset < n) (hrest : c.rest = []) :
    c'.rest = [] := by
  obtain ⟨-, hbytes⟩ := h
  rw [hrest, bytes_nil, List.take_nil, eq_comm, List.take_eq_nil_iff] at hbytes
  cases hc' : c'.rest with
  | nil => rfl
  | cons a s =>
      rw [hc', bytes_cons] at hbytes
      simp at hbytes
      omega

/-- Texts that are the same up to a byte behind the end of one of them are the same. -/
theorem Agree.eq_of_limit_lt (h : c.Agree n c') (hlt : c.limit < n) : c' = c := by
  obtain ⟨t, ht, hagree⟩ := h.append (List.append_nil c.rest).symm (Nat.le_of_lt hlt)
  have ht' : t = [] := hagree.nil hlt rfl
  subst ht'
  obtain ⟨offset, rest⟩ := c
  obtain ⟨offset', rest'⟩ := c'
  obtain rfl : offset' = offset := h.1
  simpa using ht

theorem Agree.ne_nil (h : c.Agree n c') (hlt : c.offset < n) (hrest : c.rest ≠ []) :
    c'.rest ≠ [] :=
  fun hnil => hrest (h.symm.nil (h.1 ▸ hlt) hnil)

theorem Agree.blame_eq (h : c.Agree n c') (hlt : c.offset < n) : c'.blame = c.blame := by
  cases hc : c.rest with
  | nil => simp [blame, hc, h.nil hlt hc, h.1]
  | cons a s =>
      obtain ⟨b, t, hc'⟩ := List.exists_cons_of_ne_nil (h.ne_nil hlt (by simp [hc]))
      simp [blame, hc, hc', h.1]

/-- If a byte is known, it is known what comes next, or that it is a character of several bytes. -/
theorem Agree.head (h : c.Agree n c') (hlt : c.offset < n) :
    c'.rest.head? = c.rest.head? ∨
      ∃ a b, c.rest.head? = some a ∧ c'.rest.head? = some b ∧ IsWide a ∧ IsWide b := by
  cases hc : c.rest with
  | nil => exact .inl (by rw [h.nil hlt hc])
  | cons a s =>
      by_cases ha : IsWide a
      · obtain ⟨b, t, hc'⟩ := List.exists_cons_of_ne_nil (h.ne_nil hlt (by simp [hc]))
        rw [hc']
        by_cases hb : IsWide b
        · exact .inr ⟨a, b, rfl, rfl, ha, hb⟩
        · have hsize := utf8Size_of_not_wide hb
          have hoffset := h.1
          obtain ⟨_, hrest, -⟩ := h.symm.cons hc' (by omega)
          rw [hc] at hrest
          exact .inl (by simp [(List.cons.inj hrest).1])
      · have hsize := utf8Size_of_not_wide ha
        obtain ⟨t, hc', -⟩ := h.cons hc (by omega)
        exact .inl (by simp [hc'])

/-! ## Whole texts -/

theorem limit_start (text : String) : (start text).limit = text.utf8ByteSize := by
  rw [limit, start, length_bytes_toList, Nat.zero_add]

theorem agree_start {text text' : String}
    (h : text'.toUTF8.data.toList.take n = text.toUTF8.data.toList.take n) :
    (start text).Agree n (start text') := by
  rw [toList_data_toUTF8, toList_data_toUTF8] at h
  exact ⟨rfl, h.symm⟩

end Cursor

end Rebind.Json
