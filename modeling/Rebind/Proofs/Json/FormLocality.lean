import Rebind.Proofs.Json.Locality
import Rebind.Proofs.Json.Record

/-!
# How far lists and records look ahead

No further than what stands in them. A form only adds the brackets, commas and
colons, each of which is one byte. A fault that is noticed at the end of an
object, behind a key that is no good, is placed behind the blanks and the
bracket that were looked at for it.
-/

namespace Rebind.Json

open Reader

variable {σ α : Type}

namespace Bracket

theorem not_wide_close (b : Bracket) : ¬ IsWide b.close := by
  cases b <;> simp [IsWide, close]

theorem localAt_first (b : Bracket) (c : Cursor) : b.first.LocalAt c := by
  refine localAt_skipBlanks_bind fun d => localAt_peek_bind (pure true) (fun a ha => ?_) ?_
  · simp [ha.ne b.not_wide_close]
  · split
    · next h => exact localAt_fail_end h
    · exact localAt_pure _ d

theorem localAt_behindComma (b : Bracket) (c : Cursor) : b.behindComma.LocalAt c := by
  refine localAt_skipBlanks_bind fun d => localAt_peek_bind (pure true) (fun a ha => ?_) ?_
  · simp [ha.ne b.not_wide_close]
  · split
    · next h => exact localAt_fail_end h
    · split
      · exact localAt_failNext rfl d
      · exact localAt_pure true d

theorem localAt_next (b : Bracket) (c : Cursor) : b.next.LocalAt c := by
  refine localAt_skipBlanks_bind fun d =>
    localAt_peek_bind (failNext b.commaDue) (fun a ha => ?_) ?_
  · simp [ha.ne b.not_wide_close, ha.ne (show ¬ IsWide ',' by simp [IsWide])]
  · split
    · next h => exact localAt_fail_end h
    · split
      · exact localAt_pure false d
      · split
        · exact localAt_skip_bind (b.localAt_behindComma _)
        · exact localAt_failNext (by cases b <;> rfl) d

variable {item : σ → Reader σ}

theorem localAt_otherItems (hitem : ∀ s c, (item s).LocalAt c) (b : Bracket) (s : σ)
    (c : Cursor) : (b.otherItems item s).LocalAt c := by
  refine localAt_of_shorter (fun s c ih => ?_) s c
  rw [otherItems_eq]
  refine (b.localAt_next c).bind fun more d hnext => ?_
  cases more with
  | false => exact localAt_pure s d
  | true =>
      -- the comma makes the text shorter
      have hlt := length_lt_of_next hnext
      refine (hitem s d).bind fun s' d' hd => ih s' d' ?_
      exact Nat.lt_of_le_of_lt ((item s).length_le hd) hlt

theorem localAt_items (hitem : ∀ s c, (item s).LocalAt c) (b : Bracket) (s : σ) (c : Cursor) :
    (b.items item s).LocalAt c := by
  refine (b.localAt_first c).bind fun more d _ => ?_
  cases more with
  | false => exact localAt_pure s d
  | true => exact (hitem s d).bind fun s' d' _ => localAt_otherItems hitem b s' d'

theorem localAt_failPast (b : Bracket) {cause : Cause} (h : cause.endsText = false)
    (c : Cursor) : (b.failPast cause : Reader α).LocalAt c := by
  refine localAt_skipBlanks_bind fun d => localAt_peek_bind (fail cause) (fun a ha => ?_) ?_
  · simp [ha.ne b.not_wide_close]
  · exact localAt_ite_skip (fun e => localAt_fail h e) d

end Bracket

theorem Reader.localAt_list {item : Reader α} (hitem : ∀ c, item.LocalAt c) (c : Cursor) :
    (Reader.list item).LocalAt c := by
  refine localAt_skipBlanks_bind fun d => localAt_peek_bind (wrongType .list) (fun a ha => ?_) ?_
  · split <;> simp_all [IsWide]
  · split
    · next h => exact localAt_fail_end h
    · refine localAt_skip_bind ?_
      refine (Bracket.localAt_items (fun s e => (hitem e).map) .list [] _).bind fun s e _ => ?_
      exact localAt_skip_bind (localAt_pure s _)
    · exact localAt_wrongType _ d

namespace Record

theorem localAt_colon (c : Cursor) : colon.LocalAt c := by
  refine localAt_skipBlanks_bind fun d => localAt_peek_bind (failNext .colonDue) (fun a ha => ?_) ?_
  · split <;> simp_all [IsWide]
  · split
    · next h => exact localAt_fail_end h
    · exact localAt_skip d
    · exact localAt_failNext rfl d

variable {r : Record σ α}

/-- The values of all fields are read without looking further ahead. -/
def LocalFields (fields : List (Field σ)) : Prop :=
  ∀ field ∈ fields, ∀ s c, (field.read s).LocalAt c

/-- The field of a slot reads nothing but what its value is read from. -/
theorem Slots.localFields {ι : Type} {β : ι → Type} (slots : r.Slots ι β)
    (hitem : ∀ i c, (slots.item i).LocalAt c) : LocalFields r.fields := by
  intro field hfield s c
  rw [slots.fields_eq] at hfield
  obtain ⟨i, -, rfl⟩ := List.mem_map.mp hfield
  exact (hitem i c).map

theorem localAt_member (hfields : LocalFields r.fields) (s : σ) (c : Cursor) :
    (r.member s).LocalAt c := by
  refine localAt_peek_bind (failNext .keyNotString) (fun a ha => ?_) ?_
  · split <;> simp_all [IsWide]
  · split
    · refine (localAt_stringLiteral c).bind fun key d _ => ?_
      split
      · exact Bracket.localAt_failPast _ rfl d
      · next field hfind =>
          split
          · exact Bracket.localAt_failPast _ rfl d
          · exact (localAt_colon d).bind fun _ e _ =>
              hfields field (List.mem_of_find?_eq_some hfind) s e
    · exact localAt_failNext rfl c

theorem localAt_object (hfields : LocalFields r.fields) (c : Cursor) : r.object.LocalAt c := by
  refine (Bracket.localAt_items (localAt_member hfields) .object r.blank c).bind fun s d _ => ?_
  refine localAt_skip_bind ?_
  split
  · exact localAt_pure _ _
  · exact localAt_fail rfl _

theorem localAt_values (isFirst : Bool) {fields : List (Field σ)} (hfields : LocalFields fields)
    (s : σ) (c : Cursor) : (values isFirst fields s).LocalAt c := by
  induction fields generalizing isFirst s c with
  | nil => exact localAt_pure (0, s) c
  | cons field fields ih =>
      obtain ⟨hfield, hfields⟩ := List.forall_mem_cons.mp hfields
      have hmove : (if isFirst then Bracket.list.first else Bracket.list.next).LocalAt c := by
        split
        · exact Bracket.list.localAt_first c
        · exact Bracket.list.localAt_next c
      refine hmove.bind fun more d _ => ?_
      cases more with
      | false => exact localAt_pure (0, s) d
      | true => exact (hfield s d).bind fun s' e _ => (ih false hfields s' e).map

theorem localAt_closeList (c : Cursor) : closeList.LocalAt c := by
  refine localAt_skipBlanks_bind fun d =>
    localAt_peek_bind (failNext .trailingCharacters) (fun a ha => ?_) ?_
  · split <;> simp_all [IsWide]
  · split
    · next h => exact localAt_fail_end h
    · exact localAt_skip d
    · refine localAt_skip_bind (localAt_skipBlanks_bind fun e =>
        localAt_peek_bind (failNext .trailingCharacters) (fun a ha => ?_) ?_)
      · simp [ha.ne (show ¬ IsWide ']' by simp [IsWide])]
      · split <;> exact localAt_failNext rfl e
    · exact localAt_failNext rfl d

theorem localAt_list (hfields : LocalFields r.fields) (c : Cursor) : r.list.LocalAt c := by
  refine (localAt_values true hfields r.blank c).bind fun ⟨count, s⟩ d _ => ?_
  refine (localAt_closeList d).bind fun _ e _ => ?_
  split
  · exact localAt_pure _ e
  · exact localAt_fail rfl e

theorem localAt_reader (hfields : LocalFields r.fields) (c : Cursor) : r.reader.LocalAt c := by
  refine localAt_skipBlanks_bind fun d =>
    localAt_peek_bind (wrongType (.record r.title)) (fun a ha => ?_) ?_
  · split <;> simp_all [IsWide]
  · split
    · next h => exact localAt_fail_end h
    · exact localAt_skip_bind (localAt_list hfields _)
    · exact localAt_skip_bind (localAt_object hfields _)
    · exact localAt_wrongType _ d

end Record

end Rebind.Json
