import Rebind.Proofs.Json.Spelling

/-!
# What is written can be read

The compact form of a value is one way to spell it. It is the tokens of the
value, each written in the one way that is chosen for it, and nothing between
them; so the compact form of any value that stands in front of something is
taken off it as the tokens of the value. The only values that cannot be read
again are those with a number whose numeral is none.

Writing a string takes an escape wherever the grammar asks for one, so the
spelling of a character is left to three cases: it has a letter of its own, it
is another control character, or it stands for itself. No spelling has a control
character in it, and the compact form has no other place for one.
-/

namespace Rebind.Json

/-! ## Characters of a string -/

theorem mem_shortEscapes {c l : Char} (h : escapeLetter? c = some l) :
    (l, c) ∈ shortEscapes := by
  unfold escapeLetter? at h
  split at h <;> cases h <;> simp [shortEscapes]

theorem spellsUnit_of_control {n : Nat} (h : n < 0x20) :
    SpellsUnit n ['0', '0', Nat.digitChar (n / 16), Nat.digitChar (n % 16)] := by
  have hzero : HexDigit '0' 0 := by decide
  have hdigit : ∀ d < 16, HexDigit (Nat.digitChar d) d := fun d hd => ⟨hd, .inl rfl⟩
  unfold SpellsUnit
  rw [show n / 0x1000 = 0 by omega, show n / 0x100 % 0x10 = 0 by omega,
    show n / 0x10 % 0x10 = n / 16 by omega]
  exact .cons hzero (.cons hzero (.cons (hdigit _ (by omega)) (.cons (hdigit _ (by omega)) .nil)))

theorem spellsChar_escape (c : Char) : SpellsChar c (escape c) := by
  unfold escape
  split
  · next l hl => exact .short (mem_shortEscapes hl)
  · next hnone =>
      split
      · next hlt => exact .unit (spellsUnit_of_control hlt)
      · next hge =>
          have hquote : c ≠ '"' := by
            intro heq
            rw [heq] at hnone
            cases hnone
          have hslash : c ≠ '\\' := by
            intro heq
            rw [heq] at hnone
            cases hnone
          exact .plain hquote hslash (Nat.le_of_not_lt hge)

theorem spells_quote (x : String) : (Token.string x).Spells (quote x.toList) := by
  refine ⟨x.toList.map escape, ?_, ?_⟩
  · rw [List.forall₂_map_right_iff, List.forall₂_same]
    exact fun c _ => spellsChar_escape c
  · rw [quote, List.flatMap_def, List.cons_append]

/-! ## Control characters -/

theorem HexDigit.not_control {a : Char} {d : Nat} (h : HexDigit a d) : 0x20 ≤ a.toNat := by
  have hall : ∀ d < 16, 0x20 ≤ (Nat.digitChar d).toNat ∧
      0x20 ≤ (Nat.digitChar d).toUpper.toNat := by decide
  obtain ⟨hd, rfl | rfl⟩ := h
  · exact (hall d hd).1
  · exact (hall d hd).2

theorem SpellsUnit.not_control {n : Nat} {digits : List Char} (h : SpellsUnit n digits) :
    ∀ a ∈ digits, 0x20 ≤ a.toNat :=
  ((List.forall₂_and_left _ _).mp (List.Forall₂.imp (fun _ _ hd => ⟨hd.not_control, hd⟩) h)).1

theorem SpellsChar.not_control {c : Char} {s : List Char} (h : SpellsChar c s) :
    ∀ a ∈ s, 0x20 ≤ a.toNat := by
  have hslash : 0x20 ≤ ('\\' : Char).toNat := by decide
  have hu : 0x20 ≤ ('u' : Char).toNat := by decide
  have hletters : ∀ p ∈ shortEscapes, 0x20 ≤ p.1.toNat := by decide
  cases h with
  | plain _ _ hge => exact List.forall_mem_singleton.mpr hge
  | short hmem =>
      exact List.forall_mem_cons.mpr ⟨hslash, List.forall_mem_singleton.mpr (hletters _ hmem)⟩
  | unit hdigits =>
      exact List.forall_mem_cons.mpr ⟨hslash, List.forall_mem_cons.mpr ⟨hu, hdigits.not_control⟩⟩
  | pair _ hleading htrailing =>
      simp only [List.forall_mem_cons, List.forall_mem_append]
      exact ⟨hslash, hu, hleading.not_control, hslash, hu, htrailing.not_control⟩

theorem IsDigits.not_control {s : List Char} (h : IsDigits s) : ∀ a ∈ s, 0x20 ≤ a.toNat := by
  intro a ha
  have hdigit := h.2 a ha
  simp only [Char.isDigit, Bool.and_eq_true, decide_eq_true_eq, UInt32.le_iff_toNat_le] at hdigit
  exact Nat.le_trans (by decide) hdigit.1

theorem IsNumeral.not_control {s : List Char} (h : IsNumeral s) : ∀ a ∈ s, 0x20 ≤ a.toNat := by
  obtain ⟨hsign, hwhole, -, hfraction, hexponent⟩ := h
  simp only [List.forall_mem_append]
  have hminus : ∀ s ∈ [[], ['-']], ∀ a ∈ s, 0x20 ≤ a.toNat := by simp
  have hsigns : ∀ s ∈ [[], ['+'], ['-']], ∀ a ∈ s, 0x20 ≤ a.toNat := by simp
  have hletters : ∀ e ∈ ['e', 'E'], 0x20 ≤ e.toNat := by simp
  refine ⟨hminus _ hsign, hwhole.not_control, ?_, ?_⟩
  · cases hfraction with
    | none => simp
    | some hdigits => exact List.forall_mem_cons.mpr ⟨by decide, hdigits.not_control⟩
  · cases hexponent with
    | none => simp
    | some he hsign hdigits =>
        simp only [List.forall_mem_cons, List.forall_mem_append]
        exact ⟨hletters _ he, hsigns _ hsign, hdigits.not_control⟩

theorem Token.Spells.not_control {k : Token} {s : List Char} (h : k.Spells s) :
    ∀ a ∈ s, 0x20 ≤ a.toNat := by
  cases k with
  | opening b =>
      cases h
      cases b <;> simp [Bracket.open]
  | closing b =>
      cases h
      cases b <;> simp [Bracket.close]
  | comma | colon | null =>
      cases h
      simp
  | bool b => cases b <;> cases h <;> simp
  | number numeral => exact h.2.not_control
  | string x =>
      obtain ⟨pieces, hpieces, rfl⟩ := h
      obtain ⟨hall, -⟩ := (List.forall₂_and_left _ _).mp
        (hpieces.flip.imp fun _ _ (hs : SpellsChar _ _) => ⟨hs.not_control, hs⟩)
      have hquote : 0x20 ≤ ('"' : Char).toNat := by decide
      simp only [List.forall_mem_cons, List.forall_mem_append, List.mem_flatten]
      refine ⟨hquote, fun a ha => ?_, hquote, List.forall_mem_nil _⟩
      obtain ⟨piece, hpiece, ha⟩ := ha
      exact hall piece hpiece a ha

/-! ## Tokens -/

/-- How a token is written. -/
def Token.written : Token → List Char
  | .opening b => [b.open]
  | .closing b => [b.close]
  | .comma => [',']
  | .colon => [':']
  | .null => ['n', 'u', 'l', 'l']
  | .bool true => ['t', 'r', 'u', 'e']
  | .bool false => ['f', 'a', 'l', 's', 'e']
  | .number numeral => numeral.toList
  | .string x => quote x.toList

/-- A token can be read again unless it is a number without a numeral. -/
def Token.Legible : Token → Prop
  | .number numeral => IsNumeral numeral.toList
  | _ => True

theorem Token.spells_written {k : Token} (h : k.Legible) : k.Spells k.written := by
  match k with
  | .opening _ | .closing _ | .comma | .colon | .null | .bool true | .bool false => exact rfl
  | .number numeral => exact ⟨rfl, h⟩
  | .string x => exact spells_quote x

theorem takesAll_written {ks : List Token} (h : ∀ k ∈ ks, k.Legible) (t : List Char) :
    TakesAll ks (ks.flatMap Token.written ++ t) t := by
  induction ks with
  | nil => rfl
  | cons k ks ih =>
      obtain ⟨hk, hks⟩ := List.forall_mem_cons.mp h
      rw [List.flatMap_cons, List.append_assoc]
      exact ⟨_, ⟨[], k.written, nofun, Token.spells_written hk, rfl⟩, ih hks⟩

/-! ## Values -/

theorem separate_cons_cons (ks ks' : List Token) (kss : List (List Token)) :
    separate (ks :: ks' :: kss) = ks ++ .comma :: separate (ks' :: kss) := rfl

mutual

theorem Value.compact_eq (v : Value) (rest : List Char) :
    v.compact rest = v.tokens.flatMap Token.written ++ rest := by
  match v with
  | .null | .bool true | .bool false => rfl
  | .number numeral => simp [Value.compact, Value.tokens, Token.written]
  | .string x => simp [Value.compact, Value.tokens, Token.written]
  | .array items =>
      simp [Value.compact, Value.tokens, Token.written, compactItems_eq, Bracket.open,
        Bracket.close]
  | .object members =>
      simp [Value.compact, Value.tokens, Token.written, compactMembers_eq, Bracket.open,
        Bracket.close]

theorem compactItems_eq (vs : List Value) (rest : List Char) :
    compactItems vs rest = (separate (itemTokens vs)).flatMap Token.written ++ rest := by
  match vs with
  | [] => rfl
  | [v] => simp [compactItems, itemTokens, separate, Value.compact_eq]
  | v :: w :: vs =>
      rw [compactItems, Value.compact_eq, compactItems_eq (w :: vs)]
      simp [itemTokens, separate_cons_cons, Token.written]

theorem compactMembers_eq (ms : List (String × Value)) (rest : List Char) :
    compactMembers ms rest = (separate (memberTokens ms)).flatMap Token.written ++ rest := by
  match ms with
  | [] => rfl
  | [(key, v)] => simp [compactMembers, memberTokens, separate, Value.compact_eq, Token.written]
  | (key, v) :: m :: ms =>
      rw [compactMembers, Value.compact_eq, compactMembers_eq (m :: ms)]
      obtain ⟨key', v'⟩ := m
      simp [memberTokens, separate_cons_cons, Token.written]

end

/-- A value all of whose numbers have numerals. -/
def Value.Legible (v : Value) : Prop :=
  ∀ k ∈ v.tokens, k.Legible

theorem legible_separate {kss : List (List Token)} (h : ∀ ks ∈ kss, ∀ k ∈ ks, k.Legible) :
    ∀ k ∈ separate kss, k.Legible := by
  cases kss with
  | nil => nofun
  | cons ks kss =>
      obtain ⟨hks, hkss⟩ := List.forall_mem_cons.mp h
      simp only [separate, List.forall_mem_append, List.mem_flatMap]
      refine ⟨hks, fun k hk => ?_⟩
      obtain ⟨ks', hks', hk⟩ := hk
      exact List.forall_mem_cons.mpr ⟨trivial, hkss ks' hks'⟩ k hk

theorem Value.legible_string (x : String) : (Value.string x).Legible :=
  List.forall_mem_singleton.mpr trivial

theorem Value.legible_array {vs : List Value} (h : ∀ v ∈ vs, v.Legible) :
    (Value.array vs).Legible := by
  unfold Legible
  rw [tokens, itemTokens_eq, List.forall_mem_cons, List.forall_mem_append,
    List.forall_mem_singleton]
  exact ⟨trivial, legible_separate (List.forall_mem_map.mpr h), trivial⟩

theorem Value.legible_object {ms : List (String × Value)} (h : ∀ m ∈ ms, m.2.Legible) :
    (Value.object ms).Legible := by
  unfold Legible
  rw [tokens, memberTokens_eq, List.forall_mem_cons, List.forall_mem_append,
    List.forall_mem_singleton]
  refine ⟨trivial, legible_separate (List.forall_mem_map.mpr fun m hm => ?_), trivial⟩
  exact List.forall_mem_cons.mpr ⟨trivial, List.forall_mem_cons.mpr ⟨trivial, h m hm⟩⟩

theorem Value.takesAll_compact {v : Value} (h : v.Legible) (rest : List Char) :
    TakesAll v.tokens (v.compact rest) rest := by
  rw [v.compact_eq]
  exact takesAll_written h rest

theorem Value.spells_render {v : Value} (h : v.Legible) : v.Spells v.render :=
  ⟨[], by rw [render, String.toList_ofList]; exact takesAll_compact h [], nofun⟩

theorem Value.not_control_render {v : Value} (h : v.Legible) :
    ∀ a ∈ v.render.toList, 0x20 ≤ a.toNat := by
  intro a ha
  rw [render, String.toList_ofList, v.compact_eq, List.append_nil, List.mem_flatMap] at ha
  obtain ⟨k, hk, ha⟩ := ha
  exact (Token.spells_written (h k hk)).not_control a ha

end Rebind.Json
