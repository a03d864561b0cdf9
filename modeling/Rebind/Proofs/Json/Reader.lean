import Rebind.Proofs.Json.Spelling

/-!
# What readers read

What a reader gives and leaves depends on the text in front of it alone, and
not on how far it has come: `Reads` says this and says what it is, by a
relation that holds of a value and a rest exactly if the reader gives the one
and leaves the other. So one statement a reader is both that it accepts nothing
but the grammar and that it accepts all of it, and statements are put together
as the readers are.
-/

namespace Rebind.Json.Reader

variable {α β : Type}

theorem eq_of_run {r r' : Reader α} (h : ∀ c, r.run c = r'.run c) : r = r' := by
  cases r
  cases r'
  congr
  exact funext h

/-- In front of `t`, wherever that is, the reader gives `a` and leaves `t'` exactly if `G a t'`. -/
def Reads (r : Reader α) (t : List Char) (G : α → List Char → Prop) : Prop :=
  ∀ n a t', (∃ m, r.run ⟨n, t⟩ = .ok (a, ⟨m, t'⟩)) ↔ G a t'

variable {r : Reader α} {t : List Char} {G H : α → List Char → Prop}

theorem Reads.congr (h : r.Reads t G) (hiff : ∀ a t', G a t' ↔ H a t') : r.Reads t H :=
  fun n a t' => (h n a t').trans (hiff a t')

theorem reads_pure {a : α} (h : ∀ b t', G b t' ↔ b = a ∧ t' = t) :
    (pure a : Reader α).Reads t G := by
  intro n b t'
  simp [h, eq_comm]

theorem reads_fail {cause : Cause} (h : ∀ a t', ¬ G a t') : (fail cause : Reader α).Reads t G := by
  intro n a t'
  simp [h]

theorem reads_failNext {cause : Cause} (h : ∀ a t', ¬ G a t') :
    (failNext cause : Reader α).Reads t G := by
  intro n a t'
  simp [h]

theorem Reads.bind {f : α → Reader β} {H : α → List Char → β → List Char → Prop}
    (hr : r.Reads t G) (hf : ∀ a u, G a u → (f a).Reads u (H a u)) :
    (r >>= f).Reads t fun b t' => ∃ a u, G a u ∧ H a u b t' := by
  intro n b t'
  rw [run_bind]
  constructor
  · rintro ⟨m, h⟩
    split at h
    · cases h
    · next a c hrun =>
        have ha : G a c.rest := (hr n a c.rest).mp ⟨c.offset, hrun⟩
        exact ⟨a, c.rest, ha, (hf a c.rest ha c.offset b t').mp ⟨m, h⟩⟩
  · rintro ⟨a, u, ha, hb⟩
    obtain ⟨m, hrun⟩ := (hr n a u).mpr ha
    rw [hrun]
    exact (hf a u ha m b t').mpr hb

theorem Reads.map {f : α → β} (hr : r.Reads t G) :
    (r >>= fun a => (pure (f a) : Reader β)).Reads t fun b t' => ∃ a, b = f a ∧ G a t' := by
  refine (hr.bind (H := fun a u b t' => b = f a ∧ t' = u) fun a u _ =>
    reads_pure fun _ _ => Iff.rfl).congr fun b t' => ?_
  constructor
  · rintro ⟨a, _, ha, hb, rfl⟩
    exact ⟨a, hb, ha⟩
  · rintro ⟨a, hb, ha⟩
    exact ⟨a, t', ha, hb, rfl⟩

/-- A reader that stops in the end stops, whatever it reads before. -/
theorem reads_bind_fail {cause : β → Cause} (r : Reader β) (h : ∀ a t', ¬ G a t') :
    (r >>= fun b => (fail (cause b) : Reader α)).Reads t G := by
  intro n a t'
  simp only [run_bind, run_fail, h, iff_false, not_exists]
  intro m
  split <;> simp

/-! ## One character at a time -/

theorem reads_peek_bind {f : Option Char → Reader β} {G : β → List Char → Prop}
    (h : (f t.head?).Reads t G) : (peek >>= f).Reads t G :=
  h

theorem reads_skip (t : List Char) : skip.Reads t fun _ t' => t' = t.tail := by
  intro n a t'
  cases t <;> simp [Cursor.advance, eq_comm]

theorem reads_skip_bind {f : Unit → Reader β} {G : β → List Char → Prop}
    (h : (f ()).Reads t.tail G) : (skip >>= f).Reads t G := by
  intro n b t'
  cases t <;> exact h _ b t'

theorem reads_skipBlanks_bind {f : Unit → Reader β} {G : β → List Char → Prop}
    (h : (f ()).Reads (t.dropWhile Cursor.isBlank) G) : (skipBlanks >>= f).Reads t G :=
  fun _ b t' => h _ b t'

theorem reads_word (w t : List Char) : (word w).Reads t fun _ t' => t = w ++ t' := by
  induction w generalizing t with
  | nil => exact reads_pure fun _ t' => by simp [eq_comm]
  | cons a w ih =>
      apply reads_peek_bind
      cases t with
      | nil => exact reads_fail (by simp)
      | cons b t =>
          show Reader.Reads (if b = a then skip >>= fun _ => word w else failNext .brokenWord) _ _
          split
          · next heq => exact (reads_skip_bind (ih t)).congr fun _ t' => by simp [heq]
          · next hne => exact reads_failNext (by simp [hne])

theorem reads_finish (t : List Char) :
    finish.Reads t fun _ t' => t' = [] ∧ ∀ a ∈ t, Cursor.isBlank a = true := by
  apply reads_skipBlanks_bind
  apply reads_peek_bind
  simp only [← List.dropWhile_eq_nil_iff]
  cases t.dropWhile Cursor.isBlank with
  | nil => exact reads_pure (by simp)
  | cons a rest => exact reads_failNext (by simp)

theorem run_finish_of_blank {c : Cursor} (h : ∀ a ∈ c.rest, Cursor.isBlank a = true) :
    finish.run c = .ok ((), c.skipBlanks) := by
  have hrest : c.skipBlanks.rest = [] := List.dropWhile_eq_nil_iff.mpr h
  simp only [finish, run_bind, run_skipBlanks, run_peek, hrest, List.head?_nil, run_pure]

theorem run_finish_of_not_blank {c : Cursor} (h : ∃ a ∈ c.rest, Cursor.isBlank a = false) :
    finish.run c = .error ⟨.trailingCharacters, c.skipBlanks.blame⟩ := by
  simp only [finish, run_bind, run_skipBlanks, run_peek]
  cases hrest : c.skipBlanks.rest with
  | nil =>
      obtain ⟨a, ha, hblank⟩ := h
      rw [List.dropWhile_eq_nil_iff.mp hrest a ha] at hblank
      cases hblank
  | cons b rest => rfl

/-- What does not begin as a value of the wanted kind does is none. -/
theorem reads_wrongType {wanted : Wanted} (h : ∀ a t', ¬ G a t') :
    (wrongType wanted : Reader α).Reads t G :=
  reads_bind_fail found h

end Rebind.Json.Reader
