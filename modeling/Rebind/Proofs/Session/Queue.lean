import Rebind.Proofs.Session.Accounting

/-!
# What a walk adds to the imports that wait

`Balanced` speaks of sessions that began with nothing. A session may come from
anywhere, with imports that wait and imports that it remembers, and then what a
walk queues is still determined: the imports that its substitutions need, less
those that the session remembers, if it is to write each once.

The invariant of the walk is the list of what waits, and behind it what the
substitutions to come will queue. A note takes the first of these out and puts
its import at the end of what waits, or drops it as one that is remembered, and
the two lists together stay as they are.
-/

namespace Rebind

theorem Import.eraseDups_filter (keep : Import → Bool) (is : List Import) :
    (is.filter keep).eraseDups = is.eraseDups.filter keep := by
  match is with
  | [] => rfl
  | i :: is =>
      have ih := eraseDups_filter keep (is.filter fun j => !j == i)
      rw [List.filter_filter] at ih
      rw [List.eraseDups_cons, List.filter_cons, List.filter_cons, ← ih]
      cases hi : keep i with
      | true =>
          rw [if_pos rfl, if_pos rfl, List.eraseDups_cons, List.filter_filter]
          simp only [Bool.and_comm]
      | false =>
          -- what is kept differs from `i` anyway
          have hkeep : ∀ j ∈ is, (keep j && !j == i) = keep j := by
            intro j _
            cases hj : j == i with
            | true => rw [eq_of_beq hj, hi]; rfl
            | false => exact Bool.and_true _
          rw [if_neg Bool.false_ne_true, if_neg Bool.false_ne_true, List.filter_congr hkeep]
termination_by is.length
decreasing_by exact Nat.lt_succ_of_le (List.length_filter_le _ _)

theorem Options.imports_cons (o : Options) (h : Substitution) (l : List Substitution) :
    o.imports (h :: l) = h.import ::
      if o.dedupeImports then (o.imports l).filter (· ≠ h.import) else o.imports l := by
  rw [imports, imports, List.map_cons]
  cases o.dedupeImports with
  | false => rfl
  | true =>
      have hne : (fun j => !j == h.import) = fun j => decide (j ≠ h.import) := by
        funext j
        exact decide_not.symm
      rw [if_pos rfl, if_pos rfl, if_pos rfl, List.eraseDups_cons, Import.eraseDups_filter, hne]

namespace Session

/-- The imports that a session queues for substitutions: those that they need,
but for the ones that it remembers. -/
def fresh (s : Session) (l : List Substitution) : List Import :=
  if s.options.dedupeImports then (s.options.imports l).filter (· ∉ s.queued)
  else s.options.imports l

theorem fresh_nil (s : Session) : s.fresh [] = [] := by
  rw [fresh, Options.imports_nil]
  split <;> rfl

/-- What is put at the end of what waits is taken from the front of what there
is still to queue. -/
theorem pending_append_fresh_queue (s : Session) (h : Substitution) (l : List Substitution) :
    (s.queue h.import).pending ++ (s.queue h.import).fresh l = s.pending ++ s.fresh (h :: l) := by
  rw [queue, fresh, fresh, Options.imports_cons]
  by_cases hdedupe : s.options.dedupeImports = true
  · by_cases hmem : h.import ∈ s.queued
    · have hkeep : ∀ j ∈ s.options.imports l,
          (decide (j ∉ s.queued) && decide (j ≠ h.import)) = decide (j ∉ s.queued) := by
        intro j _
        by_cases hj : j = h.import
        · simp [hj, hmem]
        · simp [hj]
      simp only [hdedupe, hmem, if_true]
      rw [List.filter_cons_of_neg (by simpa using hmem), List.filter_filter,
        List.filter_congr hkeep]
    · have hkeep : ∀ j ∈ s.options.imports l,
          (decide (j ∉ s.queued) && decide (j ≠ h.import)) =
            decide (j ∉ s.queued ++ [h.import]) := by
        intro j _
        rw [Bool.eq_iff_iff]
        simp
      simp only [hdedupe, hmem, if_true, if_false]
      rw [List.filter_cons_of_pos (by simpa using hmem), List.filter_filter,
        List.filter_congr hkeep, List.append_assoc, List.singleton_append]
  · simp only [hdedupe, if_false, Bool.false_eq_true, List.append_assoc, List.singleton_append]

theorem pending_append_fresh_account (s : Session) (n : Note) (l : List Substitution) :
    (s.account n).pending ++ (s.account n).fresh l =
      s.pending ++ s.fresh ((n.replacement?.map (·.substitution s.file)).toList ++ l) := by
  cases n with
  | substituted r => exact s.pending_append_fresh_queue (r.substitution s.file) l
  | argumentCount | notObject => rfl

theorem pending_foldl_account (notes : List Note) (s : Session) :
    (notes.foldl account s).pending = s.pending ++
      s.fresh ((notes.filterMap Note.replacement?).map (·.substitution s.file)) := by
  induction notes generalizing s with
  | nil => rw [List.filterMap_nil, List.map_nil, fresh_nil, List.append_nil, List.foldl_nil]
  | cons n notes ih =>
      have hstep := s.pending_append_fresh_account n
        ((notes.filterMap Note.replacement?).map (·.substitution s.file))
      rw [List.foldl_cons, ih, (account_keeps s n).2, hstep, List.filterMap_cons]
      cases n.replacement? <;> rfl

/-- When a tree has been walked, there wait the imports that waited before, and
behind them the fresh ones among those that its substitutions need. -/
theorem pending_walk (s : Session) (t : Subject) :
    (s.walk t).pending = s.pending ++
      s.fresh ((rewriteNodes s.options t.items).hits.map (·.substitution s.file)) :=
  pending_foldl_account _ s

end Session

end Rebind
