import Rebind.Proofs.Json.StringLiteral

/-!
# What is read between brackets

The items of a form are read into a state. What one item stands for, and what
it does to the state, is given by `Step`, and what the items do one after the
other by `Steps`: reading them is taking their tokens, with commas between
them, up to the closing bracket.
-/

namespace Rebind.Json

open Reader

namespace Bracket

variable {σ ι : Type}

/-- One step for each item, one after the other. -/
def Steps (Step : σ → ι → σ → Prop) : σ → List ι → σ → Prop
  | s, [], s' => s' = s
  | s, x :: xs, s' => ∃ s₁, Step s x s₁ ∧ Steps Step s₁ xs s'

/-- In front of what is no blank, an item is read by a step, and its tokens are taken. -/
structure ReadsItems (item : σ → Reader σ) (Step : σ → ι → σ → Prop) (tokens : ι → List Token) :
    Prop where
  leads : ∀ x, Leads (tokens x)
  reads : ∀ s t, t.dropWhile Cursor.isBlank = t →
    (item s).Reads t fun s' t' => ∃ x, Step s x s' ∧ TakesAll (tokens x) t t'

/-- Something other than the closing bracket is next. -/
def Awaits (b : Bracket) (t : List Char) : Prop :=
  ∃ a, t.head? = some a ∧ a ≠ b.close

/-- A way to the next item: over `lead`, unless the closing bracket is next. -/
def Moves (b : Bracket) (r : Reader Bool) (lead : List Token) : Prop :=
  ∀ t, r.Reads t fun more u =>
    more = false ∧ u = t.dropWhile Cursor.isBlank ∧ u.head? = some b.close ∨
    more = true ∧ ∃ w, TakesAll lead t w ∧ u = w.dropWhile Cursor.isBlank ∧ b.Awaits u

theorem moves_first (b : Bracket) : b.Moves b.first [] := by
  intro t
  simp only [TakesAll, exists_eq_left]
  apply reads_skipBlanks_bind
  apply reads_peek_bind
  cases t.dropWhile Cursor.isBlank with
  | nil => exact reads_fail (by simp +contextual [Awaits])
  | cons a u =>
      refine reads_pure fun more w => ?_
      by_cases ha : a = b.close <;> cases more <;> simp +contextual [Awaits, ha]

theorem reads_behindComma (b : Bracket) (t : List Char) :
    b.behindComma.Reads t fun more u =>
      u = t.dropWhile Cursor.isBlank ∧ more = true ∧ b.Awaits u := by
  apply reads_skipBlanks_bind
  apply reads_peek_bind
  cases t.dropWhile Cursor.isBlank with
  | nil => exact reads_fail (by simp [Awaits])
  | cons a u =>
      show Reads (if a = b.close then _ else _) _ _
      split
      · next ha => exact reads_failNext (by simp [Awaits, ha])
      · next ha => exact reads_pure (by simp [Awaits, ha])

theorem moves_next (b : Bracket) : b.Moves b.next [.comma] := by
  intro t
  simp only [takesAll_singleton, takes_comma]
  apply reads_skipBlanks_bind
  apply reads_peek_bind
  cases t.dropWhile Cursor.isBlank with
  | nil => exact reads_fail (by simp)
  | cons a u =>
      show Reads (if a = b.close then _ else if a = ',' then _ else _) _ _
      split
      · next ha =>
          have hcomma : b.close ≠ ',' := by cases b <;> decide
          refine reads_pure fun more w => ?_
          cases more <;> simp +contextual [ha, hcomma]
      · next ha =>
          split
          · next hcomma =>
              apply reads_skip_bind
              refine (reads_behindComma b u).congr fun more w => ?_
              subst hcomma
              cases more <;> simp +contextual [ha]
          · next hcomma => exact reads_failNext (by simp [ha, hcomma])

/-- If there is an item, `f` reads on in front of it. -/
theorem Moves.reads {b : Bracket} {move : Reader Bool} {lead : List Token}
    (hmove : b.Moves move lead) {t : List Char} {f : Reader σ} {s : σ}
    {F : List Char → σ → List Char → Prop}
    (hf : ∀ w, TakesAll lead t w →
      f.Reads (w.dropWhile Cursor.isBlank) (F (w.dropWhile Cursor.isBlank))) :
    Reads (do if ← move then f else return s) t fun s' u =>
      (s' = s ∧ u = t.dropWhile Cursor.isBlank ∧ u.head? = some b.close) ∨
      ∃ w, TakesAll lead t w ∧ b.Awaits (w.dropWhile Cursor.isBlank) ∧
        F (w.dropWhile Cursor.isBlank) s' u := by
  refine ((hmove t).bind (H := fun more u s' u' =>
    more = false ∧ s' = s ∧ u' = u ∨ more = true ∧ F u s' u') ?_).congr fun s' u => ?_
  · rintro more u (⟨rfl, -, -⟩ | ⟨rfl, w, hlead, rfl, -⟩)
    · exact reads_pure (by simp)
    · exact (hf w hlead).congr (by simp)
  · constructor
    · rintro ⟨more, u', ⟨rfl, hu, hhead⟩ | ⟨rfl, w, hlead, rfl, hawaits⟩,
        ⟨hmore, rfl, rfl⟩ | ⟨hmore, hs'⟩⟩
      · exact .inl ⟨rfl, hu, hhead⟩
      · cases hmore
      · cases hmore
      · exact .inr ⟨w, hlead, hawaits, hs'⟩
    · rintro (⟨rfl, hu, hhead⟩ | ⟨w, hlead, hawaits, hs'⟩)
      · exact ⟨false, u, .inl ⟨rfl, hu, hhead⟩, .inl ⟨rfl, rfl, rfl⟩⟩
      · exact ⟨true, _, .inr ⟨rfl, w, hlead, rfl, hawaits⟩, .inr ⟨rfl, hs'⟩⟩

theorem reads_failPast {b : Bracket} {cause : Cause} {t : List Char} {G : σ → List Char → Prop}
    (h : ∀ s t', ¬ G s t') : (b.failPast cause : Reader σ).Reads t G := by
  apply reads_skipBlanks_bind
  apply reads_peek_bind
  split
  · exact reads_skip_bind (reads_fail h)
  · exact reads_fail h

/-! ## All items -/

/-- The items that have a comma before them. -/
def otherItems (b : Bracket) (item : σ → Reader σ) (s : σ) : Reader σ :=
  ⟨b.others item s, length_le_of_others⟩

theorem otherItems_eq (b : Bracket) (item : σ → Reader σ) (s : σ) :
    b.otherItems item s = do
      if ← b.next then
        let s' ← item s
        b.otherItems item s'
      else return s := by
  refine eq_of_run fun c => ?_
  show b.others item s c = _
  rw [others, run_bind]
  split
  · next h => simp only [h]
  · next h => simp [h]
  · next c' h =>
      simp only [h, if_true, run_bind]
      split <;> next h' => simp [h', otherItems]

variable {item : σ → Reader σ} {Step : σ → ι → σ → Prop} {tokens : ι → List Token}

/-- Items, their tokens put together by `join`, and the closing bracket, which is left. -/
def Items (b : Bracket) (Step : σ → ι → σ → Prop) (join : List ι → List Token) (s : σ)
    (t : List Char) (s' : σ) (u : List Char) : Prop :=
  ∃ xs t', Steps Step s xs s' ∧ u = b.close :: t' ∧ TakesAll (join xs ++ [.closing b]) t t'

/-- A comma before each item. -/
def behindCommas (tokens : ι → List Token) (xs : List ι) : List Token :=
  (xs.map tokens).flatMap (.comma :: ·)

theorem takes_closing_iff {b : Bracket} {t u : List Char} :
    (∃ t', u = b.close :: t' ∧ Takes (.closing b) t t') ↔
      u = t.dropWhile Cursor.isBlank ∧ u.head? = some b.close := by
  simp only [takes_closing]
  constructor
  · rintro ⟨t', rfl, h⟩
    exact ⟨h.symm, rfl⟩
  · rintro ⟨rfl, h⟩
    obtain ⟨t', ht'⟩ := List.head?_eq_some_iff.mp h
    exact ⟨t', ht', ht'⟩

theorem items_iff {join : List ι → List Token} (hnil : join [] = []) {lead : List Token}
    (hcons : ∀ x xs, join (x :: xs) = lead ++ (tokens x ++ behindCommas tokens xs)) {b : Bracket}
    {s s' : σ} {t u : List Char} :
    b.Items Step join s t s' u ↔
      (s' = s ∧ u = t.dropWhile Cursor.isBlank ∧ u.head? = some b.close) ∨
      ∃ w x s₁ u₁, TakesAll lead t w ∧ Step s x s₁ ∧ TakesAll (tokens x) w u₁ ∧
        b.Items Step (behindCommas tokens) s₁ u₁ s' u := by
  rw [← takes_closing_iff]
  constructor
  · rintro ⟨xs, t', hsteps, hu, htakes⟩
    cases xs with
    | nil =>
        rw [hnil, List.nil_append, takesAll_singleton] at htakes
        exact .inl ⟨hsteps, t', hu, htakes⟩
    | cons x xs =>
        obtain ⟨s₁, hstep, hsteps⟩ := hsteps
        rw [hcons, List.append_assoc, List.append_assoc, takesAll_append] at htakes
        obtain ⟨w, hlead, htakes⟩ := htakes
        obtain ⟨u₁, hx, htakes⟩ := takesAll_append.mp htakes
        exact .inr ⟨w, x, s₁, u₁, hlead, hstep, hx, xs, t', hsteps, hu, htakes⟩
  · rintro (⟨rfl, t', hu, htakes⟩ | ⟨w, x, s₁, u₁, hlead, hstep, hx, xs, t', hsteps, hu, htakes⟩)
    · refine ⟨[], t', rfl, hu, ?_⟩
      rwa [hnil, List.nil_append, takesAll_singleton]
    · refine ⟨x :: xs, t', ⟨s₁, hstep, hsteps⟩, hu, ?_⟩
      rw [hcons, List.append_assoc, List.append_assoc, takesAll_append]
      exact ⟨w, hlead, takesAll_append.mpr ⟨u₁, hx, htakes⟩⟩

/-- Reading the first of some items, and then the others, each of which has a comma. -/
theorem reads_more (h : ReadsItems item Step tokens) {b : Bracket} {move : Reader Bool}
    {lead : List Token} (hmove : b.Moves move lead) {join : List ι → List Token}
    (hnil : join [] = [])
    (hcons : ∀ x xs, join (x :: xs) = lead ++ (tokens x ++ behindCommas tokens xs)) {s : σ}
    {t : List Char}
    (hothers : ∀ w, TakesAll lead t w → ∀ s₁ u₁, u₁.length ≤ w.length →
      (b.otherItems item s₁).Reads u₁ (b.Items Step (behindCommas tokens) s₁ u₁)) :
    Reads (do
      if ← move then
        let s' ← item s
        b.otherItems item s'
      else return s) t (b.Items Step join s t) := by
  refine (hmove.reads (F := fun u s' u' => ∃ s₁ u₁, (∃ x, Step s x s₁ ∧
    TakesAll (tokens x) u u₁) ∧ b.Items Step (behindCommas tokens) s₁ u₁ s' u') ?_).congr
      fun s' u => ?_
  · intro w hlead
    refine (h.reads s _ (List.dropWhile_idempotent Cursor.isBlank w)).bind ?_
    rintro s₁ u₁ ⟨x, -, hx⟩
    have := hx.length_le
    have := List.length_dropWhile_le Cursor.isBlank w
    exact hothers w hlead s₁ u₁ (by omega)
  · rw [items_iff hnil hcons]
    refine or_congr_right ⟨?_, ?_⟩
    · rintro ⟨w, hlead, -, s₁, u₁, ⟨x, hstep, hx⟩, hrest⟩
      rw [takesAll_dropWhile (h.leads x)] at hx
      exact ⟨w, x, s₁, u₁, hlead, hstep, hx, hrest⟩
    · rintro ⟨w, x, s₁, u₁, hlead, hstep, hx, hrest⟩
      have hawaits := hx.head_ne_close (h.leads x) b
      rw [← takesAll_dropWhile (h.leads x)] at hx
      exact ⟨w, hlead, hawaits, s₁, u₁, ⟨x, hstep, hx⟩, hrest⟩

theorem reads_otherItems (h : ReadsItems item Step tokens) (b : Bracket) (s : σ) (t : List Char) :
    (b.otherItems item s).Reads t (b.Items Step (behindCommas tokens) s t) := by
  induction hn : t.length using Nat.strong_induction_on generalizing t s with
  | _ n ih =>
  subst hn
  rw [otherItems_eq]
  refine reads_more h b.moves_next rfl (fun _ _ => rfl) fun w hcomma s₁ u₁ hle => ?_
  -- the comma makes the text shorter
  have := (takesAll_singleton.mp hcomma).length_lt
  exact ih u₁.length (by omega) s₁ u₁ rfl

theorem reads_items (h : ReadsItems item Step tokens) (b : Bracket) (s : σ) (t : List Char) :
    (b.items item s).Reads t (b.Items Step (fun xs => separate (xs.map tokens)) s t) :=
  reads_more h b.moves_first rfl (fun _ _ => rfl) fun _ _ s₁ u₁ _ => reads_otherItems h b s₁ u₁

theorem reads_enclosed (h : ReadsItems item Step tokens) (b : Bracket) {s : σ} {t : List Char}
    {α : Type} {f : σ → Reader α} {K : σ → List Char → α → List Char → Prop}
    (hf : ∀ s' u, (f s').Reads u (K s' u)) :
    Reads (do
      let s' ← b.items item s
      skip
      f s') t fun a t' => ∃ xs s' u, Steps Step s xs s' ∧
        TakesAll (separate (xs.map tokens) ++ [.closing b]) t u ∧ K s' u a t' := by
  refine ((reads_items h b s t).bind (H := fun s' u a t' => K s' u.tail a t')
    fun s' u _ => reads_skip_bind (hf s' u.tail)).congr fun a t' => ?_
  constructor
  · rintro ⟨s', _, ⟨xs, u, hsteps, rfl, htakes⟩, hk⟩
    exact ⟨xs, s', u, hsteps, htakes, hk⟩
  · rintro ⟨xs, s', u, hsteps, htakes, hk⟩
    exact ⟨s', _, ⟨xs, u, hsteps, rfl, htakes⟩, hk⟩

end Bracket

/-! ## Lists -/

variable {α : Type}

/-- The reader gives what the value that stands in front of it is for. -/
def Reader.ReadsValues (r : Reader α) (Describes : Value → α → Prop) : Prop :=
  ∀ t, r.Reads t fun a t' => ∃ v, Describes v a ∧ TakesAll v.tokens t t'

/-- A list whose items are of one kind. -/
def Value.IsListOf (Describes : Value → α → Prop) (v : Value) (xs : List α) : Prop :=
  ∃ vs, v = .array vs ∧ List.Forall₂ Describes vs xs

namespace Reader

theorem readsValues_string : string.ReadsValues fun v x => v = .string x := by
  intro t
  simpa [Value.tokens, takesAll_singleton] using reads_string t

theorem readsValues_boolean : boolean.ReadsValues fun v b => v = .bool b := by
  intro t
  simpa [Value.tokens, takesAll_singleton] using reads_boolean t

variable {item : Reader α} {Describes Describes' : Value → α → Prop}

theorem ReadsValues.congr (h : item.ReadsValues Describes)
    (hiff : ∀ v a, Describes v a ↔ Describes' v a) : item.ReadsValues Describes' :=
  fun t => (h t).congr fun a t' => by simp only [hiff]

theorem steps_append {ι : Type} {R : ι → α → Prop} {is : List ι} {xs xs' : List α} :
    Bracket.Steps (fun s i s' => ∃ x, R i x ∧ s' = s ++ [x]) xs is xs' ↔
      ∃ ys, List.Forall₂ R is ys ∧ xs' = xs ++ ys := by
  induction is generalizing xs with
  | nil => simp [Bracket.Steps]
  | cons i is ih =>
      simp only [Bracket.Steps, ih, List.forall₂_cons_left_iff]
      constructor
      · rintro ⟨_, ⟨x, hx, rfl⟩, ys, hys, rfl⟩
        exact ⟨x :: ys, ⟨x, ys, hx, hys, rfl⟩, by simp⟩
      · rintro ⟨_, ⟨x, ys, hx, hys, rfl⟩, rfl⟩
        exact ⟨xs ++ [x], ⟨x, hx, rfl⟩, ys, hys, by simp⟩

theorem readsValues_list (hitem : item.ReadsValues Describes) :
    (list item).ReadsValues (Value.IsListOf Describes) := by
  have hitems : Bracket.ReadsItems (fun s => do return s ++ [← item])
      (fun s v s' => ∃ x, Describes v x ∧ s' = s ++ [x]) Value.tokens :=
    { leads := Value.leads_tokens
      reads := fun s t _ => (hitem t).map.congr fun s' t' => by
        constructor
        · rintro ⟨x, hs', v, hv, htakes⟩
          exact ⟨v, ⟨x, hv, hs'⟩, htakes⟩
        · rintro ⟨v, ⟨x, hv, hs'⟩, htakes⟩
          exact ⟨x, hs', v, hv, htakes⟩ }
  intro t
  have hiff : ∀ xs t', (∃ v, Value.IsListOf Describes v xs ∧ TakesAll v.tokens t t') ↔
      ∃ u, t.dropWhile Cursor.isBlank = '[' :: u ∧ ∃ vs, List.Forall₂ Describes vs xs ∧
        TakesAll (separate (vs.map Value.tokens) ++ [.closing .list]) u t' := by
    intro xs t'
    constructor
    · rintro ⟨_, ⟨vs, rfl, hvs⟩, htakes⟩
      obtain ⟨u, hu, htakes⟩ := takesAll_array.mp htakes
      exact ⟨u, hu, vs, hvs, htakes⟩
    · rintro ⟨u, hu, vs, hvs, htakes⟩
      exact ⟨_, ⟨vs, rfl, hvs⟩, takesAll_array.mpr ⟨u, hu, htakes⟩⟩
  simp only [hiff]
  apply reads_skipBlanks_bind
  generalize t.dropWhile Cursor.isBlank = u
  apply reads_peek_bind
  split
  · next h => exact reads_fail (by simp [List.head?_eq_none_iff.mp h])
  · next h =>
      obtain ⟨u, rfl⟩ := List.head?_eq_some_iff.mp h
      apply reads_skip_bind
      refine (Bracket.reads_enclosed hitems .list fun s' u => reads_pure fun _ _ => Iff.rfl).congr
        fun xs t' => ?_
      simp [steps_append]
  · next a hne h =>
      obtain ⟨u, rfl⟩ := List.head?_eq_some_iff.mp h
      refine reads_wrongType ?_
      rintro xs t' ⟨u', heq, -⟩
      exact hne (List.cons.inj heq).1

end Reader

end Rebind.Json
