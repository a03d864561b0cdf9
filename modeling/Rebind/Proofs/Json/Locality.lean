import Rebind.Json.Scalar
import Rebind.Proofs.Json.Prefix
import Rebind.Proofs.Json.StringLiteral

/-!
# How far a reader looks ahead

Reading is one pass, and it looks no further than at the byte behind the point
that it has come to. So what comes of it, a value or a fault, is settled by the
text up to that point and one byte more: every text that begins like this comes
to the same, whatever stands behind. `LocalAt` says this of one cursor. It is
kept by putting readers together, since they only go forward: a reader that
comes to its point has passed the points of those before it.

The one thing to take care of is a character of several bytes of which only the
first is known. A reader that looks at it has to go the same way for all of
them, or to step over the character before it can come to an end.
-/

namespace Rebind.Json

/-- Whether the text ends where something was due. -/
def Cause.endsText : Cause → Bool
  | .endOfValue | .endOfList | .endOfObject | .endOfString => true
  | _ => false

namespace Reader

variable {α β σ : Type}

/-- The point that reading has come to: the rest that is left, or the fault. -/
def place : Except Fault (α × Cursor) → Nat
  | .ok (_, d) => d.offset
  | .error f => f.offset

/-- What is left is the rest of the same text, which ends at `limit`. A fault is in the text, and at
its end if that is what is wrong. -/
def Inside (limit : Nat) : Except Fault (α × Cursor) → Prop
  | .ok (_, d) => d.limit = limit
  | .error f => f.offset ≤ limit ∧ (f.cause.endsText = true → f.offset = limit)

/-- The second reading comes to the same as the first. What they leave is the same up to the
byte `n`. -/
def Repeats (n : Nat) : Except Fault (α × Cursor) → Except Fault (α × Cursor) → Prop
  | .ok (a, d), result => ∃ d', result = .ok (a, d') ∧ d.Agree n d'
  | .error f, result => result = .error f

/-- What comes of a reader at a cursor is settled by the text up to there and one byte more. -/
structure LocalAt (r : Reader α) (c : Cursor) : Prop where
  le_place : c.offset ≤ place (r.run c)
  inside : Inside c.limit (r.run c)
  repeats : ∀ n c', c.Agree n c' → place (r.run c) < n → Repeats n (r.run c) (r.run c')

variable {r : Reader α} {c : Cursor}

theorem localAt_pure (a : α) (c : Cursor) : (pure a : Reader α).LocalAt c where
  le_place := Nat.le_refl _
  inside := rfl
  repeats _ c' hagree _ := ⟨c', rfl, hagree⟩

theorem localAt_fail {cause : Cause} (h : cause.endsText = false) (c : Cursor) :
    (fail cause : Reader α).LocalAt c where
  le_place := Nat.le_refl _
  inside := ⟨c.offset_le_limit, fun hends => by simp [h] at hends⟩
  repeats _ c' hagree _ := by simp [Repeats, hagree.1]

theorem localAt_fail_end {cause : Cause} {c : Cursor} (h : c.rest.head? = none) :
    (fail cause : Reader α).LocalAt c where
  le_place := Nat.le_refl _
  inside := ⟨c.offset_le_limit, fun _ => by simp [Cursor.limit, List.head?_eq_none_iff.mp h]⟩
  repeats _ c' hagree _ := by simp [Repeats, hagree.1]

theorem localAt_of_ok {a : α} {d : Cursor} (hrun : r.run c = .ok (a, d)) (hle : c.offset ≤ d.offset)
    (hlimit : d.limit = c.limit)
    (h : ∀ n c', c.Agree n c' → d.offset < n → ∃ d', r.run c' = .ok (a, d') ∧ d.Agree n d') :
    r.LocalAt c := by
  refine ⟨?_, ?_, fun n c' hagree hlt => ?_⟩
  · rw [hrun]
    exact hle
  · rw [hrun]
    exact hlimit
  · rw [hrun] at hlt ⊢
    exact h n c' hagree hlt

theorem localAt_of_error {f : Fault} (hrun : r.run c = .error f) (hle : c.offset ≤ f.offset)
    (hinside : f.offset ≤ c.limit ∧ (f.cause.endsText = true → f.offset = c.limit))
    (h : ∀ n c', c.Agree n c' → f.offset < n → r.run c' = .error f) : r.LocalAt c := by
  refine ⟨?_, ?_, fun n c' hagree hlt => ?_⟩
  · rw [hrun]
    exact hle
  · rw [hrun]
    exact hinside
  · rw [hrun] at hlt ⊢
    exact h n c' hagree hlt

theorem LocalAt.bind {f : α → Reader β} (hr : r.LocalAt c)
    (hf : ∀ a d, r.run c = .ok (a, d) → (f a).LocalAt d) : (r >>= f).LocalAt c := by
  obtain ⟨hle, hinside, hrepeats⟩ := hr
  cases hrun : r.run c with
  | error e =>
      rw [hrun] at hle hinside hrepeats
      refine localAt_of_error (by rw [run_bind, hrun]) hle hinside fun n c' hagree hlt => ?_
      have hrun' : r.run c' = .error e := hrepeats n c' hagree hlt
      rw [run_bind, hrun']
  | ok p =>
      obtain ⟨a, d⟩ := p
      have hbind : (r >>= f).run c = (f a).run d := by rw [run_bind, hrun]
      obtain ⟨hle', hinside', hrepeats'⟩ := hf a d hrun
      rw [hrun] at hle hinside hrepeats
      have hlimit : d.limit = c.limit := hinside
      refine ⟨by rw [hbind]; exact Nat.le_trans hle hle', by rw [hbind, ← hlimit]; exact hinside',
        fun n c' hagree hlt => ?_⟩
      rw [hbind] at hlt ⊢
      -- the point that the first reader has come to lies before the one behind it
      obtain ⟨d', hrun', hagree'⟩ := hrepeats n c' hagree (Nat.lt_of_le_of_lt hle' hlt)
      rw [run_bind, hrun']
      exact hrepeats' n d' hagree' hlt

theorem LocalAt.map {f : α → β} (hr : r.LocalAt c) :
    (r >>= fun a => (pure (f a) : Reader β)).LocalAt c :=
  hr.bind fun a d _ => localAt_pure (f a) d

/-! ## Looking at a character -/

/-- A reader may look at the next character if it goes on in the same way as soon as one byte of
the text is. -/
theorem localAt_peek_bind_of {f : Option Char → Reader β} (h : (f c.rest.head?).LocalAt c)
    (hsame : ∀ n c', c.Agree n c' → c.offset < n → f c'.rest.head? = f c.rest.head?) :
    (peek >>= f).LocalAt c := by
  refine ⟨h.le_place, h.inside, fun n c' hagree hlt => ?_⟩
  have hf := hsame n c' hagree (Nat.lt_of_le_of_lt h.le_place hlt)
  show Repeats n ((f c.rest.head?).run c) ((f c'.rest.head?).run c')
  rw [hf]
  exact h.repeats n c' hagree hlt

/-- It is enough that it goes the same way, `wide`, for all characters of several bytes. -/
theorem localAt_peek_bind {f : Option Char → Reader β} (wide : Reader β)
    (hwide : ∀ a, IsWide a → f (some a) = wide) (h : (f c.rest.head?).LocalAt c) :
    (peek >>= f).LocalAt c := by
  refine localAt_peek_bind_of h fun n c' hagree hlt => ?_
  rcases hagree.head hlt with heq | ⟨a, b, ha, hb, hwa, hwb⟩
  · rw [heq]
  · rw [ha, hb, hwide a hwa, hwide b hwb]

/-- Or that the next character is of one byte. -/
theorem localAt_peek_bind_of_not_wide {f : Option Char → Reader β}
    (hnot : ∀ a, c.rest.head? = some a → ¬ IsWide a) (h : (f c.rest.head?).LocalAt c) :
    (peek >>= f).LocalAt c := by
  refine localAt_peek_bind_of h fun n c' hagree hlt => ?_
  rcases hagree.head hlt with heq | ⟨a, b, ha, -, hwa, -⟩
  · rw [heq]
  · exact absurd hwa (hnot a ha)

theorem localAt_failNext {cause : Cause} (h : cause.endsText = false) (c : Cursor) :
    (failNext cause : Reader α).LocalAt c := by
  refine ⟨c.offset_le_blame, ⟨c.blame_le_limit, fun hends => by simp [h] at hends⟩,
    fun n c' hagree hlt => ?_⟩
  have hblame := hagree.blame_eq (Nat.lt_of_le_of_lt c.offset_le_blame hlt)
  simp [Repeats, hblame]

theorem localAt_skip (c : Cursor) : skip.LocalAt c where
  le_place := by
    show c.offset ≤ c.advance.offset
    unfold Cursor.advance
    split <;> simp
  inside := c.limit_advance
  repeats n c' hagree := by
    intro (hlt : c.advance.offset < n)
    refine ⟨c'.advance, rfl, ?_⟩
    cases hrest : c.rest with
    | nil =>
        have hadvance : c.advance = c := by simp [Cursor.advance, hrest]
        rw [hadvance] at hlt ⊢
        simpa [Cursor.advance, hagree.nil hlt hrest] using hagree
    | cons a s =>
        obtain ⟨t, -, hadvance⟩ := hagree.cons hrest (by
          simpa [Cursor.advance, hrest] using Nat.le_of_lt hlt)
        exact hadvance

theorem localAt_skip_bind {f : Unit → Reader β} (h : (f ()).LocalAt c.advance) :
    (skip >>= f).LocalAt c :=
  (localAt_skip c).bind fun _ d hd => by
    obtain ⟨-, rfl⟩ := Prod.mk.inj (Except.ok.inj hd)
    exact h

/-- A character that is stepped over may be any. -/
theorem localAt_peek_skip_bind {f : Option Char → Reader β} {g : Reader β} {a : Char}
    (hhead : c.rest.head? = some a) (hf : f (some a) = skip >>= fun _ => g)
    (h : g.LocalAt c.advance) : (peek >>= f).LocalAt c := by
  have hrun : ∀ c' : Cursor, c'.rest.head? = some a →
      (peek >>= f).run c' = (skip >>= fun _ => g).run c' := by
    intro c' hc'
    show (f c'.rest.head?).run c' = _
    rw [hc', hf]
  have hskip : (skip >>= fun _ => g).LocalAt c := localAt_skip_bind h
  have hle : c.advance.offset ≤ place ((skip >>= fun _ => g).run c) := h.le_place
  obtain ⟨s, hrest⟩ := List.head?_eq_some_iff.mp hhead
  refine ⟨by rw [hrun c hhead]; exact hskip.le_place, by rw [hrun c hhead]; exact hskip.inside,
    fun n c' hagree hlt => ?_⟩
  rw [hrun c hhead] at hlt ⊢
  obtain ⟨t, hrest', -⟩ := hagree.cons hrest (by
    simp only [Cursor.advance, hrest] at hle
    omega)
  rw [hrun c' (by simp [hrest'])]
  exact hskip.repeats n c' hagree hlt

/-- Nor does it matter whether it is stepped over. -/
theorem localAt_ite_skip {f : Unit → Reader β} {p : Prop} [Decidable p]
    (h : ∀ d, (f ()).LocalAt d) (c : Cursor) : (if p then skip >>= f else f ()).LocalAt c := by
  split
  · exact localAt_skip_bind (h c.advance)
  · exact h c

/-! ## Words, blanks and digits

The loops are readers that look at the next character, and come back to
themselves behind it. -/

/-- A reader that comes back to itself does so in front of a shorter text. -/
theorem localAt_of_shorter {r : σ → Reader α}
    (h : ∀ s c, (∀ s' d, d.rest.length < c.rest.length → (r s').LocalAt d) → (r s).LocalAt c)
    (s : σ) (c : Cursor) : (r s).LocalAt c := by
  induction hn : c.rest.length using Nat.strong_induction_on generalizing s c with
  | _ n ih =>
  subst hn
  exact h s c fun s' d hlt => ih _ hlt s' d rfl

theorem length_advance_lt_of_head? {a : Char} (h : c.rest.head? = some a) :
    c.advance.rest.length < c.rest.length := by
  refine Cursor.length_advance_lt fun hnil => ?_
  rw [hnil] at h
  cases h

theorem localAt_word (w : List Char) (hw : ∀ a ∈ w, ¬ IsWide a) (c : Cursor) :
    (word w).LocalAt c := by
  induction w generalizing c with
  | nil => exact localAt_pure () c
  | cons a w ih =>
      obtain ⟨ha, hw⟩ := List.forall_mem_cons.mp hw
      refine localAt_peek_bind (failNext .brokenWord) (fun b hb => ?_) ?_
      · simp [hb.ne ha]
      · split
        · next h => exact localAt_fail_end h
        · split
          · exact localAt_skip_bind (ih hw _)
          · exact localAt_failNext rfl c

theorem skipBlanks_eq :
    skipBlanks = do
      match ← peek with
      | none => return ()
      | some a =>
          if Cursor.isBlank a then
            skip
            skipBlanks
          else return () := by
  refine eq_of_run fun ⟨n, t⟩ => ?_
  cases t with
  | nil => rfl
  | cons a t =>
      simp only [run_bind, run_peek, run_skipBlanks, List.head?_cons]
      split
      · next ha =>
          have hsize := utf8Size_of_not_wide (not_wide_of_isBlank ha)
          simp [run_bind, Cursor.skipBlanks, Cursor.advance, ha, hsize]
          omega
      · next ha => simp [Cursor.skipBlanks, ha]

theorem localAt_skipBlanks (c : Cursor) : skipBlanks.LocalAt c := by
  refine localAt_of_shorter (r := fun _ : Unit => skipBlanks) (fun _ c ih => ?_) () c
  show skipBlanks.LocalAt c
  rw [skipBlanks_eq]
  refine localAt_peek_bind (pure ()) (fun a ha => ?_) ?_
  · simp [ha.not_isBlank]
  · split
    · exact localAt_pure () c
    · next a h =>
        split
        · exact localAt_skip_bind (ih () _ (length_advance_lt_of_head? h))
        · exact localAt_pure () c

theorem localAt_skipBlanks_bind {f : Unit → Reader β}
    (h : ∀ d, (f ()).LocalAt d) : (skipBlanks >>= f).LocalAt c :=
  (localAt_skipBlanks c).bind fun _ d _ => h d

theorem skipDigits_eq :
    skipDigits = do
      match ← peek with
      | none => return 0
      | some a =>
          if a.isDigit then
            skip
            return (← skipDigits) + 1
          else return 0 := by
  refine eq_of_run fun ⟨n, t⟩ => ?_
  cases t with
  | nil => rfl
  | cons a t =>
      simp only [run_bind, run_peek, List.head?_cons]
      split
      · next ha =>
          have hsize := utf8Size_of_not_wide (not_wide_of_isDigit ha)
          simp [run_bind, skipDigits, Cursor.advance, ha, hsize]
          omega
      · next ha => simp [skipDigits, ha]

theorem localAt_skipDigits (c : Cursor) : skipDigits.LocalAt c := by
  refine localAt_of_shorter (r := fun _ : Unit => skipDigits) (fun _ c ih => ?_) () c
  show skipDigits.LocalAt c
  rw [skipDigits_eq]
  refine localAt_peek_bind (pure 0) (fun a ha => ?_) ?_
  · simp [ha.not_isDigit]
  · split
    · exact localAt_pure 0 c
    · next a h =>
        split
        · exact localAt_skip_bind (ih () _ (length_advance_lt_of_head? h)).map
        · exact localAt_pure 0 c

theorem digitsBelow_eq (limit n : Nat) :
    digitsBelow limit n = do
      match ← peek with
      | none => return (n, 0)
      | some a =>
          if a.isDigit ∧ n * 10 + (a.toNat - '0'.toNat) < limit then
            skip
            let (m, count) ← digitsBelow limit (n * 10 + (a.toNat - '0'.toNat))
            return (m, count + 1)
          else return (n, 0) := by
  refine eq_of_run fun ⟨k, t⟩ => ?_
  cases t with
  | nil => rfl
  | cons a t =>
      simp only [run_bind, run_peek, List.head?_cons]
      split
      · next ha =>
          have hsize := utf8Size_of_not_wide (not_wide_of_isDigit ha.1)
          simp only [run_bind, run_skip, run_pure, digitsBelow, gatherDigits, if_pos ha,
            Cursor.advance, hsize]
          rw [show ∀ count, k + (count + 1) = k + 1 + count by omega]
      · next ha => simp only [digitsBelow, gatherDigits, if_neg ha, run_pure, Nat.add_zero]

theorem localAt_digitsBelow (limit n : Nat) (c : Cursor) : (digitsBelow limit n).LocalAt c := by
  refine localAt_of_shorter (r := digitsBelow limit) (fun n c ih => ?_) n c
  rw [digitsBelow_eq]
  refine localAt_peek_bind (pure (n, 0)) (fun a ha => ?_) ?_
  · simp [ha.not_isDigit]
  · split
    · exact localAt_pure _ c
    · next a h =>
        split
        · exact localAt_skip_bind (ih _ _ (length_advance_lt_of_head? h)).map
        · exact localAt_pure _ c

/-! ## Strings -/

theorem not_wide_of_hexDigit? {a : Char} {d : Nat} (h : hexDigit? a = some d) : ¬ IsWide a := by
  simp only [hexDigit?, Char.le_def, UInt32.le_iff_toNat_le, Char.toNat_val] at h
  unfold IsWide
  split at h
  · next hr => have : a.toNat ≤ 57 := hr.2; omega
  · split at h
    · next hr => have : a.toNat ≤ 102 := hr.2; omega
    · split at h
      · next hr => have : a.toNat ≤ 70 := hr.2; omega
      · cases h

theorem length_bytes_of_hexDigits {s : List Char} {ds : List Nat}
    (h : List.Forall₂ HexDigit s ds) : (bytes s).length = ds.length := by
  induction h with
  | nil => rfl
  | cons hd _ ih =>
      have hsize := utf8Size_of_not_wide (not_wide_of_hexDigit? (hexDigit?_eq_some.mpr hd))
      simp [ih, hsize, Nat.add_comm]

theorem byteLength_eq (s : List Char) : byteLength s = (bytes s).length := by
  induction s with
  | nil => rfl
  | cons a s ih => simp [byteLength, ← ih]

theorem codeUnit?_of_agree {n k : Nat} {c c' : Cursor} (hagree : c.Agree n c')
    (hle : c.offset + 4 ≤ n) (h : codeUnit? c.rest = some k) :
    codeUnit? c'.rest = some k ∧
      Cursor.Agree n ⟨c.offset + 4, c.rest.drop 4⟩ ⟨c'.offset + 4, c'.rest.drop 4⟩ := by
  have hunit := codeUnit?_eq_some.mp h
  have hbytes : (bytes (c.rest.take 4)).length = 4 := length_bytes_of_hexDigits hunit
  obtain ⟨t, ht, hagree'⟩ :=
    hagree.append (List.take_append_drop 4 c.rest).symm (by rw [hbytes]; exact hle)
  rw [hbytes] at hagree'
  rw [ht, codeUnit?_eq_some, List.take_left' hunit.length_eq, List.drop_left' hunit.length_eq]
  exact ⟨hunit, hagree'⟩

/-- Fewer than four bytes among the first four characters are all there are. -/
theorem take_eq_self_of_byteLength_lt {s : List Char} (h : byteLength (s.take 4) < 4) :
    s.take 4 = s := by
  have hle := length_le_length_bytes (s.take 4)
  rw [byteLength_eq] at h
  rw [List.length_take] at hle
  exact List.take_of_length_le (by omega)

/-- Texts that agree up to a byte behind the next four agree on whether these spell a code unit. -/
theorem codeUnit?_eq_none_of_agree {n : Nat} {c c' : Cursor} (hagree : c.Agree n c')
    (hle : c.offset + 4 ≤ n) (h : codeUnit? c.rest = none) : codeUnit? c'.rest = none := by
  cases hunit : codeUnit? c'.rest with
  | none => rfl
  | some k =>
      have hoffset := hagree.1
      have := (codeUnit?_of_agree hagree.symm (by omega) hunit).1
      rw [h] at this
      cases this

/-- Nor does one of them end before that. -/
theorem not_short_of_agree {n : Nat} {c c' : Cursor} (hagree : c.Agree n c')
    (hlt : c.offset + 4 < n) (h : ¬ byteLength (c.rest.take 4) < 4) :
    ¬ byteLength (c'.rest.take 4) < 4 := by
  intro hshort
  have hoffset := hagree.1
  have hends : c'.limit < n := by
    have hall := take_eq_self_of_byteLength_lt hshort
    rw [byteLength_eq, hall] at hshort
    rw [Cursor.limit]
    omega
  rw [← hagree.symm.eq_of_limit_lt hends] at hshort
  exact h hshort

theorem localAt_codeUnit (c : Cursor) : codeUnit.LocalAt c := by
  have hlimit : c.limit = c.offset + (bytes (c.rest.take 4)).length +
      (bytes (c.rest.drop 4)).length := by
    rw [Cursor.limit, Nat.add_assoc, ← List.length_append, ← bytes_append, List.take_append_drop]
  cases hunit : codeUnit? c.rest with
  | some k =>
      have hrun : codeUnit.run c = .ok (k, ⟨c.offset + 4, c.rest.drop 4⟩) := by
        simp only [codeUnit, hunit]
      have hbytes : (bytes (c.rest.take 4)).length = 4 :=
        length_bytes_of_hexDigits (codeUnit?_eq_some.mp hunit)
      refine localAt_of_ok hrun (Nat.le_add_right ..) (by rw [hlimit, hbytes]; rfl)
        fun n c' hagree hlt => ?_
      obtain ⟨hunit', hagree'⟩ := codeUnit?_of_agree hagree (Nat.le_of_lt hlt) hunit
      exact ⟨_, by simp only [codeUnit, hunit'], hagree'⟩
  | none =>
      by_cases hshort : byteLength (c.rest.take 4) < 4
      · have hall := take_eq_self_of_byteLength_lt hshort
        have hrun : codeUnit.run c = .error ⟨.endOfString, c.limit⟩ := by
          simp only [codeUnit, hunit, if_pos hshort]
          rw [hall, byteLength_eq, Cursor.limit]
        refine localAt_of_error hrun c.offset_le_limit ⟨Nat.le_refl _, fun _ => rfl⟩
          fun n c' hagree hlt => ?_
        rw [hagree.eq_of_limit_lt hlt, hrun]
      · have hrun : codeUnit.run c = .error ⟨.brokenEscape, c.offset + 4⟩ := by
          simp only [codeUnit, hunit, if_neg hshort]
        have hle : c.offset + 4 ≤ c.limit := by
          rw [byteLength_eq] at hshort
          omega
        refine localAt_of_error hrun (Nat.le_add_right ..) ⟨hle, fun hends => by cases hends⟩
          fun n c' hagree hlt => ?_
        have hunit' := codeUnit?_eq_none_of_agree hagree (Nat.le_of_lt hlt) hunit
        have hshort' := not_short_of_agree hagree hlt hshort
        simp only [codeUnit, hunit', if_neg hshort', hagree.1]

theorem localAt_trailingHalf (c : Cursor) : trailingHalf.LocalAt c := by
  refine localAt_peek_bind (failNext .halfPair) (fun a ha => ?_) ?_
  · split <;> simp_all [IsWide]
  · split
    · next h => exact localAt_fail_end h
    · refine localAt_skip_bind (localAt_peek_bind (failNext .halfPair) (fun a ha => ?_) ?_)
      · split <;> simp_all [IsWide]
      · split
        · next h => exact localAt_fail_end h
        · refine localAt_skip_bind ((localAt_codeUnit _).bind fun n d _ => ?_)
          split
          · exact localAt_pure n d
          · exact localAt_fail rfl d
        · exact localAt_failNext rfl _
    · exact localAt_failNext rfl c

theorem escaped?_of_wide {a : Char} (h : IsWide a) : escaped? a = none := by
  unfold escaped?
  split <;> simp_all [IsWide]

theorem localAt_escapeSequence (c : Cursor) : escapeSequence.LocalAt c := by
  refine localAt_peek_bind (failNext .brokenEscape) (fun a ha => ?_) ?_
  · have hescaped := escaped?_of_wide ha
    split <;> simp_all [IsWide]
  · split
    · next h => exact localAt_fail_end h
    · refine localAt_skip_bind ((localAt_codeUnit _).bind fun n d _ => ?_)
      split
      · exact localAt_fail rfl d
      · split
        · exact (localAt_trailingHalf d).map
        · exact localAt_pure _ d
    · split
      · exact localAt_skip_bind (localAt_pure _ _)
      · exact localAt_failNext rfl c

theorem localAt_body (c : Cursor) : body.LocalAt c := by
  refine localAt_of_shorter (r := fun _ : Unit => body) (fun _ c ih => ?_) () c
  show body.LocalAt c
  rw [body_eq]
  cases hhead : c.rest.head? with
  | none =>
      refine localAt_peek_bind_of_not_wide (fun a ha => by simp [hhead] at ha) ?_
      rw [hhead]
      exact localAt_fail_end hhead
  | some a =>
      have hlt := length_advance_lt_of_head? hhead
      by_cases hquote : a = '"'
      · exact localAt_peek_skip_bind hhead (if_pos hquote) (localAt_pure [] _)
      · by_cases hslash : a = '\\'
        · refine localAt_peek_skip_bind hhead ((if_neg hquote).trans (if_pos hslash)) ?_
          refine (localAt_escapeSequence _).bind fun b d hd => (ih () d ?_).map
          exact Nat.lt_of_le_of_lt (escapeSequence.length_le hd) hlt
        · by_cases hcontrol : a.toNat < 0x20
          · refine localAt_peek_bind_of_not_wide (fun b hb => ?_) ?_
            · obtain rfl : a = b := by simpa [hhead] using hb
              exact Nat.not_le_of_lt (Nat.lt_trans hcontrol (by decide))
            · rw [hhead]
              simp only [if_neg hquote, if_neg hslash, if_pos hcontrol]
              exact localAt_failNext rfl c
          · exact localAt_peek_skip_bind hhead
              ((if_neg hquote).trans ((if_neg hslash).trans (if_neg hcontrol))) (ih () _ hlt).map

theorem localAt_stringLiteral (c : Cursor) : stringLiteral.LocalAt c :=
  localAt_skip_bind (localAt_body _).map

/-! ## Numerals -/

theorem localAt_wholePart (c : Cursor) : wholePart.LocalAt c := by
  refine localAt_peek_bind (failNext .brokenNumber) (fun a ha => ?_) ?_
  · have hdigit := ha.not_isDigit
    split <;> simp_all [IsWide]
  · split
    · next h => exact localAt_fail_end h
    · refine localAt_skip_bind (localAt_peek_bind (pure (0, 0)) (fun a ha => ?_) ?_)
      · simp [ha.not_isDigit]
      · split
        · split
          · exact localAt_failNext rfl _
          · exact localAt_pure _ _
        · exact localAt_pure _ _
    · split
      · exact (localAt_digitsBelow _ _ c).bind fun _ d _ => (localAt_skipDigits d).map
      · exact localAt_failNext rfl c

theorem localAt_digitDue (c : Cursor) :
    (do
      match ← peek with
      | none => fail .endOfValue
      | some _ => failNext .brokenNumber : Reader α).LocalAt c := by
  refine localAt_peek_bind (failNext .brokenNumber) (fun _ _ => rfl) ?_
  split
  · next h => exact localAt_fail_end h
  · exact localAt_failNext rfl c

theorem localAt_fraction? (n : Nat) (c : Cursor) : (fraction? n).LocalAt c := by
  refine localAt_peek_bind (pure none) (fun a ha => ?_) ?_
  · split <;> simp_all [IsWide]
  · split
    · refine localAt_skip_bind ((localAt_digitsBelow _ _ _).bind fun p d _ => ?_)
      refine (localAt_skipDigits d).bind fun dropped d' _ => ?_
      split
      · exact localAt_digitDue d'
      · exact localAt_pure _ d'
    · exact localAt_pure none c

theorem localAt_exponentDigits (negative : Bool) (significand : Nat) (c : Cursor) :
    (exponentDigits negative significand).LocalAt c := by
  refine (localAt_digitsBelow _ _ c).bind fun ⟨e, count⟩ d _ => ?_
  show LocalAt (if count = 0 then _ else _) d
  split
  · exact localAt_digitDue d
  · refine localAt_peek_bind
      (pure (.finite (if negative then -(e : Int) else e))) (fun a ha => ?_) ?_
    · simp [ha.not_isDigit]
    · split
      · split
        · split
          · exact localAt_failNext rfl d
          · exact (localAt_skipDigits d).map
        · exact localAt_pure _ d
      · exact localAt_pure _ d

theorem localAt_exponent? (significand : Nat) (c : Cursor) :
    (exponent? significand).LocalAt c := by
  have hdigits := fun negative d => (localAt_exponentDigits negative significand d).map (f := some)
  refine localAt_peek_bind (pure none) (fun a ha => ?_) ?_
  · split <;> simp_all [IsWide]
  · split
    case h_1 | h_2 =>
      refine localAt_skip_bind (localAt_peek_bind
        (do return some (← exponentDigits false significand)) (fun a ha => ?_) ?_)
      · split <;> simp_all [IsWide]
      · split
        · exact localAt_skip_bind (hdigits false _)
        · exact localAt_skip_bind (hdigits true _)
        · exact hdigits false _
    · exact localAt_pure none c

theorem localAt_real (negative : Bool) (significand : Nat) (e : Exponent) (c : Cursor) :
    (real negative significand e).LocalAt c := by
  cases e with
  | vanishing => exact (localAt_pure _ c).map
  | finite e =>
      simp only [real]
      cases shiftDecimal (Float.ofScientific significand false 0) e with
      | some x => exact (localAt_pure _ c).map
      | none => exact (localAt_fail rfl c).map

theorem localAt_number (c : Cursor) : number.LocalAt c := by
  refine localAt_peek_bind_of ?_ fun n c' hagree hlt => ?_
  · refine localAt_ite_skip (fun d => ?_) c
    refine (localAt_wholePart d).bind fun ⟨n, dropped⟩ d' _ => ?_
    refine (localAt_fraction? n d').bind fun fraction d'' _ => ?_
    refine (localAt_exponent? _ d'').bind fun exponent e _ => ?_
    split
    · split
      · exact localAt_pure _ e
      · exact localAt_real _ _ _ e
    · exact localAt_real _ _ _ e
    · exact localAt_real _ _ _ e
    · exact localAt_real _ _ _ e
  · have hsign : (c'.rest.head? == some '-') = (c.rest.head? == some '-') := by
      rcases hagree.head hlt with heq | ⟨a, b, ha, hb, hwa, hwb⟩
      · rw [heq]
      · have hminus : ¬ IsWide '-' := by simp [IsWide]
        simp [ha, hb, hwa.ne hminus, hwb.ne hminus]
    simp only [hsign]

/-! ## Values of one kind -/

theorem localAt_found (c : Cursor) : found.LocalAt c := by
  refine localAt_peek_bind (failNext .valueDue) (fun a ha => ?_) ?_
  · have hdigit := ha.not_isDigit
    have hminus : a ≠ '-' := ha.ne (by simp [IsWide])
    split <;> simp_all [IsWide]
  · split
    · exact (localAt_word _ (by simp [IsWide]) c).map
    · exact (localAt_word _ (by simp [IsWide]) c).map
    · exact (localAt_word _ (by simp [IsWide]) c).map
    · exact (localAt_stringLiteral c).map
    · exact localAt_pure _ c
    · exact localAt_pure _ c
    · split
      · exact (localAt_number c).map
      · exact localAt_failNext rfl c
    · next h => exact localAt_fail_end h

theorem localAt_wrongType (wanted : Wanted) (c : Cursor) :
    (wrongType wanted : Reader α).LocalAt c :=
  (localAt_found c).bind fun _ d _ => localAt_fail rfl d

theorem localAt_string (c : Cursor) : string.LocalAt c := by
  refine localAt_skipBlanks_bind fun d => ?_
  refine localAt_peek_bind (wrongType .string) (fun a ha => ?_) ?_
  · split <;> simp_all [IsWide]
  · split
    · next h => exact localAt_fail_end h
    · exact localAt_stringLiteral d
    · exact localAt_wrongType _ d

theorem localAt_boolean (c : Cursor) : boolean.LocalAt c := by
  refine localAt_skipBlanks_bind fun d => ?_
  refine localAt_peek_bind (wrongType .boolean) (fun a ha => ?_) ?_
  · split <;> simp_all [IsWide]
  · split
    · next h => exact localAt_fail_end h
    · exact (localAt_word _ (by simp [IsWide]) d).map
    · exact (localAt_word _ (by simp [IsWide]) d).map
    · exact localAt_wrongType _ d

theorem localAt_finish (c : Cursor) : finish.LocalAt c := by
  refine localAt_skipBlanks_bind fun d => ?_
  refine localAt_peek_bind (failNext .trailingCharacters) (fun _ _ => rfl) ?_
  split
  · exact localAt_pure () d
  · exact localAt_failNext rfl d

end Reader

end Rebind.Json
