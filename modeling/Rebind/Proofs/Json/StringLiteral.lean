import Rebind.Proofs.Json.Reader

/-!
# What is read as a string

An escape is told by its first letter. Behind `u` stands a code unit, and that
a character beyond 16 bits is the pair of its halves is arithmetic, in both
directions. A literal is read piece by piece; the text gets shorter with each,
and that is what the induction is on.
-/

namespace Rebind.Json

/-! ## Code units -/

theorem hexDigit?_eq_some {a : Char} {d : Nat} : hexDigit? a = some d ↔ HexDigit a d := by
  have hdigit : ∀ k ≤ 57, 48 ≤ k → HexDigit (Char.ofNat k) (k - 48) := by decide
  have hlower : ∀ k ≤ 102, 97 ≤ k → HexDigit (Char.ofNat k) (k - 97 + 10) := by decide
  have hupper : ∀ k ≤ 70, 65 ≤ k → HexDigit (Char.ofNat k) (k - 65 + 10) := by decide
  constructor
  · intro h
    rw [← a.ofNat_toNat]
    simp only [hexDigit?, Char.le_def, UInt32.le_iff_toNat_le, Char.toNat_val] at h
    split at h
    · next hr =>
        cases h
        exact hdigit _ hr.2 hr.1
    · split at h
      · next hr =>
          cases h
          exact hlower _ hr.2 hr.1
      · split at h
        · next hr =>
            cases h
            exact hupper _ hr.2 hr.1
        · cases h
  · have hread : ∀ d < 16, hexDigit? (Nat.digitChar d) = some d ∧
        hexDigit? (Nat.digitChar d).toUpper = some d := by decide
    rintro ⟨hd, rfl | rfl⟩
    · exact (hread d hd).1
    · exact (hread d hd).2

theorem codeUnit?_eq_some {t : List Char} {n : Nat} :
    codeUnit? t = some n ↔ SpellsUnit n (t.take 4) := by
  match t with
  | [] | [_] | [_, _] | [_, _, _] => simp [codeUnit?, SpellsUnit]
  | a :: b :: c :: d :: t =>
      simp only [codeUnit?, Option.bind_eq_bind, Option.bind_eq_some_iff, Option.pure_def,
        Option.some.injEq, hexDigit?_eq_some, SpellsUnit, List.take_succ_cons, List.take_zero,
        List.forall₂_cons, List.forall₂_nil_left_iff, and_true]
      constructor
      · rintro ⟨w, hw, x, hx, y, hy, z, hz, rfl⟩
        have hw' := hw.1
        have hx' := hx.1
        have hy' := hy.1
        have hz' := hz.1
        refine ⟨?_, ?_, ?_, ?_⟩
        · rwa [show (((w * 16 + x) * 16 + y) * 16 + z) / 0x1000 = w by omega]
        · rwa [show (((w * 16 + x) * 16 + y) * 16 + z) / 0x100 % 0x10 = x by omega]
        · rwa [show (((w * 16 + x) * 16 + y) * 16 + z) / 0x10 % 0x10 = y by omega]
        · rwa [show (((w * 16 + x) * 16 + y) * 16 + z) % 0x10 = z by omega]
      · rintro ⟨hw, hx, hy, hz⟩
        exact ⟨_, hw, _, hx, _, hy, _, hz, by omega⟩

theorem SpellsUnit.length_eq {n : Nat} {digits : List Char} (h : SpellsUnit n digits) :
    digits.length = 4 :=
  List.Forall₂.length_eq h

theorem SpellsUnit.lt {n : Nat} {digits : List Char} (h : SpellsUnit n digits) : n < 0x10000 := by
  cases h with
  | cons hfirst _ =>
      have := hfirst.1
      omega

theorem SpellsUnit.append_iff {n : Nat} {t t' : List Char} :
    (∃ s, SpellsUnit n s ∧ t = s ++ t') ↔ codeUnit? t = some n ∧ t' = t.drop 4 := by
  rw [codeUnit?_eq_some]
  constructor
  · rintro ⟨s, hs, rfl⟩
    rw [← hs.length_eq, List.take_left, List.drop_left]
    exact ⟨hs, rfl⟩
  · rintro ⟨hs, rfl⟩
    exact ⟨_, hs, (List.take_append_drop 4 t).symm⟩

/-! ## Surrogate pairs -/

theorem toNat_ofNat {n : Nat} (h : n < 0xD800 ∨ 0xDFFF < n ∧ n < 0x110000) :
    (Char.ofNat n).toNat = n := by
  have hvalid : n.isValidChar := h
  rw [Char.ofNat, dif_pos hvalid]
  rfl

theorem toNat_ofPair {n m : Nat} (hn : isLeading n = true) (hm : isTrailing m = true) :
    (ofPair n m).toNat = 0x10000 + (n - 0xD800) * 0x400 + (m - 0xDC00) := by
  simp only [isLeading, isTrailing, Bool.and_eq_true, decide_eq_true_eq] at hn hm
  exact toNat_ofNat (.inr ⟨by omega, by omega⟩)

theorem ofPair_halves {c : Char} (h : 0x10000 ≤ c.toNat) :
    ofPair (0xD800 + (c.toNat - 0x10000) / 0x400) (0xDC00 + (c.toNat - 0x10000) % 0x400) = c := by
  rw [ofPair, show 0x10000 + (0xD800 + (c.toNat - 0x10000) / 0x400 - 0xD800) * 0x400 +
    (0xDC00 + (c.toNat - 0x10000) % 0x400 - 0xDC00) = c.toNat by omega, Char.ofNat_toNat]

theorem toNat_lt (c : Char) : c.toNat < 0x110000 := by
  have h : c.toNat < 0xD800 ∨ 0xDFFF < c.toNat ∧ c.toNat < 0x110000 := c.valid
  omega

theorem not_surrogate (c : Char) : isLeading c.toNat = false ∧ isTrailing c.toNat = false := by
  have h : c.toNat < 0xD800 ∨ 0xDFFF < c.toNat ∧ c.toNat < 0x110000 := c.valid
  simp only [isLeading, isTrailing, Bool.and_eq_false_iff, decide_eq_false_iff_not]
  omega

theorem not_leading_of_trailing {n : Nat} (h : isTrailing n = true) : isLeading n = false := by
  simp only [isTrailing, isLeading, Bool.and_eq_true, decide_eq_true_eq, Bool.and_eq_false_iff,
    decide_eq_false_iff_not] at h ⊢
  omega

/-- What a code unit alone spells. -/
theorem toNat_ofNat_of_unit {n : Nat} (hlt : n < 0x10000) (hl : isLeading n = false)
    (ht : isTrailing n = false) : (Char.ofNat n).toNat = n := by
  simp only [isLeading, isTrailing, Bool.and_eq_false_iff, decide_eq_false_iff_not] at hl ht
  exact toNat_ofNat (by omega)

/-! ## Escapes -/

theorem escaped?_eq_some {l c : Char} : escaped? l = some c ↔ (l, c) ∈ shortEscapes := by
  unfold escaped? shortEscapes
  split <;> simp_all [eq_comm]

theorem not_spellsChar_backslash (c : Char) : ¬ SpellsChar c ['\\'] := by
  intro h
  cases h with
  | plain _ hne _ => exact hne rfl

theorem spellsChar_letter {c l : Char} {s : List Char} (h : l ≠ 'u') :
    SpellsChar c ('\\' :: l :: s) ↔ (l, c) ∈ shortEscapes ∧ s = [] := by
  constructor
  · intro hspells
    cases hspells with
    | short hmem => exact ⟨hmem, rfl⟩
    | unit | pair => exact absurd rfl h
  · rintro ⟨hmem, rfl⟩
    exact .short hmem

theorem spellsChar_unit {c : Char} {s : List Char} :
    SpellsChar c ('\\' :: 'u' :: s) ↔
      (∃ n, SpellsUnit n s ∧ isTrailing n = false ∧ isLeading n = false ∧ c = Char.ofNat n) ∨
      ∃ n m s' s'', SpellsUnit n s' ∧ isLeading n = true ∧ SpellsUnit m s'' ∧
        isTrailing m = true ∧ c = ofPair n m ∧ s = s' ++ '\\' :: 'u' :: s'' := by
  constructor
  · intro h
    cases h with
    | short hmem => simp [shortEscapes] at hmem
    | unit hunit =>
        obtain ⟨hl, ht⟩ := not_surrogate c
        exact .inl ⟨_, hunit, ht, hl, c.ofNat_toNat.symm⟩
    | pair hle hleading htrailing =>
        have := toNat_lt c
        refine .inr ⟨_, _, _, _, hleading, ?_, htrailing, ?_, (ofPair_halves hle).symm, rfl⟩
        · simp only [isLeading, Bool.and_eq_true, decide_eq_true_eq]
          omega
        · simp only [isTrailing, Bool.and_eq_true, decide_eq_true_eq]
          omega
  · rintro (⟨n, hunit, ht, hl, hc⟩ | ⟨n, m, s', s'', hn, hl, hm, ht, hc, rfl⟩)
    · refine .unit ?_
      rwa [hc, toNat_ofNat_of_unit hunit.lt hl ht]
    · replace hc := (congrArg Char.toNat hc).trans (toNat_ofPair hl ht)
      simp only [isLeading, isTrailing, Bool.and_eq_true, decide_eq_true_eq] at hl ht
      refine .pair (by omega) ?_ ?_
      · rwa [hc, show 0xD800 + (0x10000 + (n - 0xD800) * 0x400 + (m - 0xDC00) - 0x10000) / 0x400 = n
          by omega]
      · rwa [hc, show 0xDC00 + (0x10000 + (n - 0xD800) * 0x400 + (m - 0xDC00) - 0x10000) % 0x400 = m
          by omega]

theorem not_spellsChar_nil (c : Char) : ¬ SpellsChar c [] := nofun

theorem spellsChar_plain {c a : Char} {s : List Char} (h : a ≠ '\\') :
    SpellsChar c (a :: s) ↔ a ≠ '"' ∧ 0x20 ≤ a.toNat ∧ c = a ∧ s = [] := by
  constructor
  · intro hspells
    cases hspells with
    | plain hquote _ hle => exact ⟨hquote, hle, rfl, rfl⟩
    | short | unit | pair => exact absurd rfl h
  · rintro ⟨hquote, hle, rfl, rfl⟩
    exact .plain hquote h hle

/-- The first letter behind the backslash, taken off the text. -/
theorem spellsChar_cons_iff {c l : Char} {t t' : List Char} :
    (∃ s, SpellsChar c ('\\' :: s) ∧ l :: t = s ++ t') ↔
      ∃ s, SpellsChar c ('\\' :: l :: s) ∧ t = s ++ t' := by
  constructor
  · rintro ⟨s, hs, heq⟩
    cases s with
    | nil => exact absurd hs (not_spellsChar_backslash c)
    | cons a s =>
        obtain ⟨rfl, rfl⟩ := List.cons.inj heq
        exact ⟨s, hs, rfl⟩
  · rintro ⟨s, hs, rfl⟩
    exact ⟨l :: s, hs, rfl⟩

/-! ## Characters up to the closing quote -/

/-- Characters stand at the front of `t`, then a quote, and `t'` behind it. -/
def TakesChars (cs t t' : List Char) : Prop :=
  ∃ pieces, List.Forall₂ SpellsChar cs pieces ∧ t = pieces.flatten ++ '"' :: t'

theorem not_takesChars_nil (cs t' : List Char) : ¬ TakesChars cs [] t' := by
  rintro ⟨pieces, -, h⟩
  simp at h

/-- What is at the front is the quote, or a piece of the first character. -/
theorem takesChars_cons {a : Char} {cs t t' : List Char} :
    TakesChars cs (a :: t) t' ↔
      (a = '"' ∧ cs = [] ∧ t' = t) ∨
      ∃ c s u cs', SpellsChar c (a :: s) ∧ t = s ++ u ∧ cs = c :: cs' ∧ TakesChars cs' u t' := by
  constructor
  · rintro ⟨pieces, hpieces, heq⟩
    cases hpieces with
    | nil => exact .inl ⟨(List.cons.inj heq).1, rfl, (List.cons.inj heq).2.symm⟩
    | @cons c s cs pieces hs hpieces =>
        cases s with
        | nil => exact absurd hs (not_spellsChar_nil c)
        | cons b s =>
            simp only [List.flatten_cons, List.cons_append, List.append_assoc] at heq
            obtain ⟨rfl, rfl⟩ := List.cons.inj heq
            exact .inr ⟨c, s, _, cs, hs, rfl, rfl, pieces, hpieces, rfl⟩
  · rintro (⟨rfl, rfl, rfl⟩ | ⟨c, s, u, cs', hs, rfl, rfl, pieces, hpieces, rfl⟩)
    · exact ⟨[], .nil, rfl⟩
    · exact ⟨(a :: s) :: pieces, .cons hs hpieces, by simp⟩

theorem takesChars_quote {cs t t' : List Char} :
    TakesChars cs ('"' :: t) t' ↔ cs = [] ∧ t' = t := by
  simp [takesChars_cons, spellsChar_plain]

theorem takesChars_plain {a : Char} {cs t t' : List Char} (hquote : a ≠ '"') (hslash : a ≠ '\\') :
    TakesChars cs (a :: t) t' ↔ 0x20 ≤ a.toNat ∧ ∃ cs', cs = a :: cs' ∧ TakesChars cs' t t' := by
  simp [takesChars_cons, spellsChar_plain hslash, hquote]

namespace Reader

theorem reads_codeUnit (t : List Char) :
    codeUnit.Reads t fun n t' => ∃ s, SpellsUnit n s ∧ t = s ++ t' := by
  intro n k t'
  refine Iff.trans ?_ SpellsUnit.append_iff.symm
  simp only [codeUnit]
  cases codeUnit? t with
  | some k' => simp [eq_comm]
  | none =>
      simp only
      split <;> simp

theorem reads_trailingHalf (t : List Char) :
    trailingHalf.Reads t fun n t' =>
      ∃ s, SpellsUnit n s ∧ isTrailing n = true ∧ t = '\\' :: 'u' :: (s ++ t') := by
  apply reads_peek_bind
  split
  · next h => exact reads_fail (by simp [List.head?_eq_none_iff.mp h])
  · next h =>
      obtain ⟨t, rfl⟩ := List.head?_eq_some_iff.mp h
      apply reads_skip_bind
      apply reads_peek_bind
      rw [List.tail_cons]
      split
      · next h => exact reads_fail (by simp [List.head?_eq_none_iff.mp h])
      · next h =>
          obtain ⟨t, rfl⟩ := List.head?_eq_some_iff.mp h
          apply reads_skip_bind
          refine ((reads_codeUnit t).bind (H := fun n u m t' =>
            isTrailing n = true ∧ m = n ∧ t' = u) fun n u _ => ?_).congr fun n t' => ?_
          · split
            · next h => exact reads_pure (by simp [h])
            · next h => exact reads_fail (by simp [h])
          · constructor
            · rintro ⟨_, _, ⟨s, hs, rfl⟩, ht, rfl, rfl⟩
              exact ⟨s, hs, ht, rfl⟩
            · rintro ⟨s, hs, ht, h⟩
              exact ⟨n, t', ⟨s, hs, by simpa using h⟩, ht, rfl, rfl⟩
      · next a hne h =>
          obtain ⟨t, rfl⟩ := List.head?_eq_some_iff.mp h
          refine reads_failNext ?_
          rintro n t' ⟨s, -, -, heq⟩
          exact hne (List.cons.inj (List.cons.inj heq).2).1
  · next a hne h =>
      obtain ⟨t, rfl⟩ := List.head?_eq_some_iff.mp h
      refine reads_failNext ?_
      rintro n t' ⟨s, -, -, heq⟩
      exact hne (List.cons.inj heq).1

theorem reads_escapeSequence (t : List Char) :
    escapeSequence.Reads t fun c t' => ∃ s, SpellsChar c ('\\' :: s) ∧ t = s ++ t' := by
  apply reads_peek_bind
  split
  · next h =>
      rw [List.head?_eq_none_iff.mp h]
      refine reads_fail ?_
      rintro c t' ⟨s, hs, heq⟩
      rw [(List.append_eq_nil_iff.mp heq.symm).1] at hs
      exact not_spellsChar_backslash c hs
  · next h =>
      obtain ⟨t, rfl⟩ := List.head?_eq_some_iff.mp h
      simp only [spellsChar_cons_iff, spellsChar_unit]
      apply reads_skip_bind
      rw [List.tail_cons]
      refine ((reads_codeUnit t).bind (H := fun n u c t' =>
          isTrailing n = false ∧ isLeading n = false ∧ c = Char.ofNat n ∧ t' = u ∨
          isLeading n = true ∧ ∃ m s, SpellsUnit m s ∧ isTrailing m = true ∧ c = ofPair n m ∧
            u = '\\' :: 'u' :: (s ++ t')) fun n u _ => ?_).congr fun c t' => ?_
      · split
        · next htrail => exact reads_fail (by simp [htrail, not_leading_of_trailing htrail])
        · next htrail =>
            split
            · next hlead =>
                refine (reads_trailingHalf u).map.congr fun c t' => ?_
                simp only [hlead, Bool.true_eq_false, false_and, and_false, true_and, false_or]
                constructor
                · rintro ⟨m, hc, s, hs, hm, hu⟩
                  exact ⟨m, s, hs, hm, hc, hu⟩
                · rintro ⟨m, s, hs, hm, hc, hu⟩
                  exact ⟨m, hc, s, hs, hm, hu⟩
            · next hlead => exact reads_pure (by simp [htrail, hlead])
      · constructor
        · rintro ⟨n, u, ⟨s, hs, rfl⟩, ⟨ht, hl, hc, rfl⟩ | ⟨hl, m, s', hs', hm, hc, rfl⟩⟩
          · exact ⟨s, .inl ⟨n, hs, ht, hl, hc⟩, rfl⟩
          · exact ⟨_, .inr ⟨n, m, s, s', hs, hl, hs', hm, hc, rfl⟩, by simp⟩
        · rintro ⟨_, ⟨n, hs, ht, hl, hc⟩ | ⟨n, m, s, s', hs, hl, hs', hm, hc, rfl⟩, rfl⟩
          · exact ⟨n, t', ⟨_, hs, rfl⟩, .inl ⟨ht, hl, hc, rfl⟩⟩
          · exact ⟨n, _, ⟨s, hs, by simp⟩, .inr ⟨hl, m, s', hs', hm, hc, rfl⟩⟩
  · next l hne h =>
      obtain ⟨t, rfl⟩ := List.head?_eq_some_iff.mp h
      have hletter : l ≠ 'u' := hne
      simp only [spellsChar_cons_iff, spellsChar_letter hletter, ← escaped?_eq_some]
      split
      · next a ha =>
          apply reads_skip_bind
          exact reads_pure (by simp [ha, eq_comm])
      · next ha => exact reads_failNext (by simp [ha])

/-! ## Literals -/

/-- The characters up to the closing quote, and the quote. -/
def body : Reader (List Char) :=
  ⟨stringBody, length_le_of_stringBody⟩

theorem body_eq :
    body = do
      match ← peek with
      | none => fail .endOfString
      | some a =>
          if a = '"' then
            skip
            return []
          else if a = '\\' then
            skip
            let b ← escapeSequence
            return b :: (← body)
          else if a.toNat < 0x20 then failNext .controlCharacter
          else
            skip
            return a :: (← body) := by
  refine eq_of_run fun c => ?_
  show stringBody c = _
  rw [stringBody]
  split
  · next h => simp [run_bind, h]
  · next a rest h =>
      simp only [run_bind, run_peek, h, List.head?_cons]
      split
      · simp [run_bind]
      · split
        · simp only [run_bind, run_skip]
          split
          · next h' => simp [h']
          · next h' =>
              simp only [h']
              split <;> next h'' => simp [body, h'']
        · split
          · simp [Cursor.blame, h]
          · simp only [run_bind, run_skip]
            split <;> next h' => simp [body, h']

theorem reads_body (t : List Char) : body.Reads t fun cs t' => TakesChars cs t t' := by
  induction hn : t.length using Nat.strong_induction_on generalizing t with
  | _ n ih =>
  subst hn
  rw [body_eq]
  apply reads_peek_bind
  cases t with
  | nil => exact reads_fail fun cs t' => not_takesChars_nil cs t'
  | cons a t =>
      show Reads (if a = '"' then _ else _) _ _
      split
      · next ha =>
          subst ha
          apply reads_skip_bind
          exact reads_pure fun cs t' => takesChars_quote
      · next hquote =>
          split
          · next ha =>
              subst ha
              apply reads_skip_bind
              -- the escape is a piece, and behind it the text is shorter
              refine ((reads_escapeSequence t).bind (H := fun c u cs t' =>
                ∃ cs', cs = c :: cs' ∧ TakesChars cs' u t') ?_).congr fun cs t' => ?_
              · rintro c u ⟨s, -, rfl⟩
                have hlt : u.length < ('\\' :: (s ++ u)).length := by
                  simp only [List.length_cons, List.length_append]
                  omega
                exact (ih u.length hlt u rfl).map
              · rw [takesChars_cons]
                constructor
                · rintro ⟨c, u, ⟨s, hs, hu⟩, cs', hcs, hcs'⟩
                  exact .inr ⟨c, s, u, cs', hs, hu, hcs, hcs'⟩
                · rintro (⟨h, -⟩ | ⟨c, s, u, cs', hs, hu, hcs, hcs'⟩)
                  · exact absurd h (by decide)
                  · exact ⟨c, u, ⟨s, hs, hu⟩, cs', hcs, hcs'⟩
          · next hslash =>
              simp only [takesChars_plain hquote hslash]
              split
              · next hlt => exact reads_failNext fun cs t' h => absurd h.1 (by omega)
              · next hlt =>
                  apply reads_skip_bind
                  exact (ih t.length (by simp) t rfl).map.congr fun cs t' => by
                    simp [Nat.le_of_not_lt hlt]

theorem reads_stringLiteral (t : List Char) :
    stringLiteral.Reads ('"' :: t) fun x t' =>
      ∃ s, (Token.string x).Spells s ∧ '"' :: t = s ++ t' := by
  apply reads_skip_bind
  refine (reads_body t).map.congr fun x t' => ?_
  constructor
  · rintro ⟨cs, rfl, pieces, hpieces, rfl⟩
    exact ⟨_, ⟨pieces, by rwa [String.toList_ofList], rfl⟩, by simp⟩
  · rintro ⟨_, ⟨pieces, hpieces, rfl⟩, heq⟩
    exact ⟨x.toList, String.ofList_toList.symm, pieces, hpieces, by simpa using heq⟩

/-- A key, and what is read behind it. -/
theorem reads_keyed {α : Type} {f : String → Reader α}
    {K : String → List Char → α → List Char → Prop} (hf : ∀ key u, (f key).Reads u (K key u))
    {t : List Char} (ht : t.dropWhile Cursor.isBlank = t) :
    Reads (do
      match ← peek with
      | some '"' =>
          let key ← stringLiteral
          f key
      | _ => failNext .keyNotString) t
      fun a t' => ∃ key u, Takes (.string key) t u ∧ K key u a t' := by
  simp only [takes_iff, ht]
  apply reads_peek_bind
  split
  · next h =>
      obtain ⟨u, rfl⟩ := List.head?_eq_some_iff.mp h
      exact (reads_stringLiteral u).bind fun key u' _ => hf key u'
  · next hne =>
      refine reads_failNext fun a t' hread => ?_
      obtain ⟨key, u, ⟨_, ⟨pieces, -, rfl⟩, rfl⟩, -⟩ := hread
      exact hne rfl

/-! ## Scalars -/

theorem reads_string (t : List Char) : string.Reads t fun x t' => Takes (.string x) t t' := by
  simp only [takes_iff]
  apply reads_skipBlanks_bind
  generalize t.dropWhile Cursor.isBlank = u
  apply reads_peek_bind
  split
  · next h =>
      rw [List.head?_eq_none_iff.mp h]
      refine reads_fail ?_
      rintro x t' ⟨_, ⟨pieces, -, rfl⟩, heq⟩
      simp at heq
  · next h =>
      obtain ⟨u, rfl⟩ := List.head?_eq_some_iff.mp h
      exact reads_stringLiteral u
  · next a hne h =>
      obtain ⟨u, rfl⟩ := List.head?_eq_some_iff.mp h
      refine reads_wrongType ?_
      rintro x t' ⟨_, ⟨pieces, -, rfl⟩, heq⟩
      exact hne (List.cons.inj heq).1

theorem reads_boolean (t : List Char) : boolean.Reads t fun b t' => Takes (.bool b) t t' := by
  simp only [takes_iff]
  apply reads_skipBlanks_bind
  generalize t.dropWhile Cursor.isBlank = u
  apply reads_peek_bind
  split
  · next h =>
      rw [List.head?_eq_none_iff.mp h]
      refine reads_fail ?_
      rintro (_ | _) t' ⟨_, rfl, heq⟩ <;> simp at heq
  · next h =>
      obtain ⟨u, rfl⟩ := List.head?_eq_some_iff.mp h
      refine (reads_word ['t', 'r', 'u', 'e'] _).map.congr fun b t' => ?_
      cases b <;> simp [Token.Spells]
  · next h =>
      obtain ⟨u, rfl⟩ := List.head?_eq_some_iff.mp h
      refine (reads_word ['f', 'a', 'l', 's', 'e'] _).map.congr fun b t' => ?_
      cases b <;> simp [Token.Spells]
  · next a ht hf h =>
      obtain ⟨u, rfl⟩ := List.head?_eq_some_iff.mp h
      refine reads_wrongType ?_
      rintro (_ | _) t' ⟨_, rfl, heq⟩
      · exact hf (List.cons.inj heq).1
      · exact ht (List.cons.inj heq).1

end Reader

end Rebind.Json
