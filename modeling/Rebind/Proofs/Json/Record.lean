import Mathlib.Data.List.Nodup
import Rebind.Json.Record
import Rebind.Proofs.Json.Bracket

/-!
# What is read as a record

A record is read into slots, and `Slots` says that the slots of a record behave
like slots: a slot that has been filled holds what was put into it, filling it
changes no other, and nothing else is kept.

From that alone it follows what a record is read from. An object fills the slots
that its keys name, in any order, and a list those of the first fields; so a
list says the same as the object that gives its items the names of the fields.
Either way the slots end up with what the members say, and those that no member
names stay empty.
-/

namespace Rebind.Json

open Reader

variable {σ α ι : Type} {β : ι → Type}

/-- The slots of a record, one for each field, and what their values are read from. -/
structure Record.Slots (r : Record σ α) (ι : Type) (β : ι → Type) where
  /-- The fields in the order of their declaration. -/
  order : List ι
  name : ι → String
  get : (i : ι) → σ → Option (β i)
  set : (i : ι) → β i → σ → σ
  item : (i : ι) → Reader (β i)
  Describes : (i : ι) → Value → β i → Prop
  fields_eq : r.fields = order.map fun i =>
    ⟨name i, fun s => (get i s).isSome, fun s => do return set i (← item i) s⟩
  mem_order : ∀ i, i ∈ order
  nodup_names : (order.map name).Nodup
  get_blank : ∀ i, get i r.blank = none
  get_set : ∀ i x s, get i (set i x s) = some x
  get_set_of_ne : ∀ {i j}, j ≠ i → ∀ x s, get j (set i x s) = get j s
  eq_of_get : ∀ {s s'}, (∀ i, get i s = get i s') → s = s'
  reads : ∀ i, (item i).ReadsValues (Describes i)

/-- The members that a value has as a record with fields of these names. An object may name each
field once and nothing else; a list gives its items to the first fields. -/
def Value.Gives (names : List String) (ms : List (String × Value)) : Value → Prop
  | .object members =>
      ms = members ∧ (members.map (·.1)).Nodup ∧ ∀ key ∈ members.map (·.1), key ∈ names
  | .array items => items.length ≤ names.length ∧ ms = names.zip items
  | _ => False

namespace Record.Slots

variable {r : Record σ α} (slots : r.Slots ι β)

/-- The names of the fields. -/
def names : List String :=
  slots.order.map slots.name

/-- The field of a slot. -/
def field (i : ι) : Field σ :=
  ⟨slots.name i, fun s => (slots.get i s).isSome, fun s => do
    return slots.set i (← slots.item i) s⟩

theorem fields_eq_map : r.fields = slots.order.map slots.field :=
  slots.fields_eq

/-- How a value, if there is one, changes a slot. -/
def Changes (i : ι) : Option Value → Option (β i) → Option (β i) → Prop
  | none, old, new => new = old
  | some v, _, new => ∃ x, new = some x ∧ slots.Describes i v x

/-- The slots hold what the members say, and those that no member names are empty. -/
def Holds (ms : List (String × Value)) (s : σ) : Prop :=
  ∀ i, slots.Changes i (ms.lookup (slots.name i)) none (slots.get i s)

/-- What the record is for a value. -/
def DescribesRecord (v : Value) (a : α) : Prop :=
  ∃ ms s, v.Gives slots.names ms ∧ slots.Holds ms s ∧ r.complete s = .ok a

/-- A member fills the slot of the field it names. -/
def Fills (s : σ) (m : String × Value) (s' : σ) : Prop :=
  ∃ i x, slots.name i = m.1 ∧ slots.Describes i m.2 x ∧ s' = slots.set i x s

/-- A member of an object fills a slot that is still empty. -/
def FillsEmpty (s : σ) (m : String × Value) (s' : σ) : Prop :=
  ∃ i x, slots.name i = m.1 ∧ slots.get i s = none ∧ slots.Describes i m.2 x ∧
    s' = slots.set i x s

theorem changes_some {i : ι} {o : Option Value} {x : β i} :
    slots.Changes i o none (some x) ↔ ∃ v, o = some v ∧ slots.Describes i v x := by
  cases o <;> simp [Changes]

theorem eq_of_name {i j : ι} (h : slots.name i = slots.name j) : i = j :=
  List.inj_on_of_nodup_map slots.nodup_names (slots.mem_order i) (slots.mem_order j) h

/-! ## Filling slots -/

/-- Members fill empty slots one after the other if they fill slots and have distinct keys. -/
theorem steps_fillsEmpty {ms : List (String × Value)} {s s' : σ} :
    Bracket.Steps slots.FillsEmpty s ms s' ↔
      Bracket.Steps slots.Fills s ms s' ∧ (ms.map (·.1)).Nodup ∧
        ∀ i, slots.name i ∈ ms.map (·.1) → slots.get i s = none := by
  induction ms generalizing s with
  | nil => simp [Bracket.Steps]
  | cons m ms ih =>
      simp only [Bracket.Steps, ih, List.map_cons, List.nodup_cons, List.mem_cons]
      constructor
      · rintro ⟨_, ⟨i, x, hname, hnone, hx, rfl⟩, hsteps, hnodup, hempty⟩
        have hmem : m.1 ∉ ms.map (·.1) := by
          intro hmem
          have := hempty i (hname ▸ hmem)
          rw [slots.get_set] at this
          cases this
        refine ⟨⟨_, ⟨i, x, hname, hx, rfl⟩, hsteps⟩, ⟨hmem, hnodup⟩, ?_⟩
        rintro j (hj | hj)
        · rw [slots.eq_of_name (hj.trans hname.symm)]
          exact hnone
        · have hne : j ≠ i := by
            rintro rfl
            exact hmem (hname ▸ hj)
          rw [← slots.get_set_of_ne hne x s]
          exact hempty j hj
      · rintro ⟨⟨_, ⟨i, x, hname, hx, rfl⟩, hsteps⟩, ⟨hmem, hnodup⟩, hempty⟩
        refine ⟨_, ⟨i, x, hname, hempty i (.inl hname), hx, rfl⟩, hsteps, hnodup, ?_⟩
        intro j hj
        have hne : j ≠ i := by
          rintro rfl
          exact hmem (hname ▸ hj)
        rw [slots.get_set_of_ne hne]
        exact hempty j (.inr hj)

/-- Members with distinct keys change each slot as they say. -/
theorem steps_fills {ms : List (String × Value)} (hnodup : (ms.map (·.1)).Nodup) {s s' : σ} :
    Bracket.Steps slots.Fills s ms s' ↔
      (∀ key ∈ ms.map (·.1), key ∈ slots.names) ∧
        ∀ i, slots.Changes i (ms.lookup (slots.name i)) (slots.get i s) (slots.get i s') := by
  induction ms generalizing s with
  | nil =>
      simp only [Bracket.Steps, List.map_nil, List.not_mem_nil, false_implies, implies_true,
        true_and, List.lookup_nil, Changes]
      exact ⟨fun h i => by rw [h], slots.eq_of_get⟩
  | cons m ms ih =>
      obtain ⟨hmem, hnodup⟩ := List.nodup_cons.mp hnodup
      -- the first member is the last word on the slot that it fills
      have hlast : ms.lookup m.1 = none := by
        rw [List.lookup_eq_none_iff]
        intro p hp
        rw [bne_iff_ne]
        intro heq
        exact hmem (List.mem_map.mpr ⟨p, hp, heq.symm⟩)
      have hother : ∀ i j, slots.name i = m.1 → j ≠ i →
          (m :: ms).lookup (slots.name j) = ms.lookup (slots.name j) := by
        intro i j hname hne
        have hkey : (slots.name j == m.1) = false :=
          beq_eq_false_iff_ne.mpr fun h => hne (slots.eq_of_name (h.trans hname.symm))
        rw [List.lookup_cons, hkey]
      constructor
      · rintro ⟨_, ⟨i, x, hname, hx, rfl⟩, hsteps⟩
        obtain ⟨hkeys, hslots⟩ := (ih hnodup).mp hsteps
        refine ⟨?_, fun j => ?_⟩
        · rw [List.map_cons, List.forall_mem_cons, ← hname]
          exact ⟨List.mem_map_of_mem (slots.mem_order i), hkeys⟩
        · have hj := hslots j
          by_cases hji : j = i
          · subst hji
            rw [hname, hlast, Changes, slots.get_set] at hj
            rw [hname, List.lookup_cons_self]
            exact ⟨x, hj, hx⟩
          · rw [slots.get_set_of_ne hji] at hj
            rwa [hother i j hname hji]
      · rintro ⟨hkeys, hslots⟩
        rw [List.map_cons, List.forall_mem_cons] at hkeys
        obtain ⟨i, -, hname⟩ := List.mem_map.mp hkeys.1
        have hi := hslots i
        rw [hname, List.lookup_cons_self] at hi
        obtain ⟨x, hget, hx⟩ := hi
        refine ⟨_, ⟨i, x, hname, hx, rfl⟩, (ih hnodup).mpr ⟨hkeys.2, fun j => ?_⟩⟩
        by_cases hji : j = i
        · subst hji
          rw [hname, hlast, Changes, slots.get_set]
          exact hget
        · rw [slots.get_set_of_ne hji, ← hother i j hname hji]
          exact hslots j

theorem steps_fills_blank {ms : List (String × Value)} (hnodup : (ms.map (·.1)).Nodup) {s : σ} :
    Bracket.Steps slots.Fills r.blank ms s ↔
      (∀ key ∈ ms.map (·.1), key ∈ slots.names) ∧ slots.Holds ms s := by
  simp only [slots.steps_fills hnodup, slots.get_blank, Holds]

theorem steps_fillsEmpty_blank {ms : List (String × Value)} {s : σ} :
    Bracket.Steps slots.FillsEmpty r.blank ms s ↔
      (ms.map (·.1)).Nodup ∧ (∀ key ∈ ms.map (·.1), key ∈ slots.names) ∧ slots.Holds ms s := by
  rw [steps_fillsEmpty]
  constructor
  · rintro ⟨hsteps, hnodup, -⟩
    exact ⟨hnodup, (slots.steps_fills_blank hnodup).mp hsteps⟩
  · rintro ⟨hnodup, hholds⟩
    exact ⟨(slots.steps_fills_blank hnodup).mpr hholds, hnodup, fun i _ => slots.get_blank i⟩

/-! ## Reading objects -/

theorem reads_colon (t : List Char) : colon.Reads t fun _ t' => Takes .colon t t' := by
  simp only [takes_colon]
  apply reads_skipBlanks_bind
  generalize t.dropWhile Cursor.isBlank = u
  apply reads_peek_bind
  split
  · next h => exact reads_fail (by simp [List.head?_eq_none_iff.mp h])
  · next h =>
      obtain ⟨u, rfl⟩ := List.head?_eq_some_iff.mp h
      exact (reads_skip _).congr fun _ t' => by simp [eq_comm]
  · next a hne h =>
      obtain ⟨u, rfl⟩ := List.head?_eq_some_iff.mp h
      refine reads_failNext ?_
      intro _ t' heq
      exact hne (List.cons.inj heq).1

theorem find?_fields (key : String) :
    match r.fields.find? (·.name == key) with
    | none => ∀ i, slots.name i ≠ key
    | some f => ∃ i, slots.name i = key ∧ f = slots.field i := by
  split
  · next h =>
      intro i hname
      rw [slots.fields_eq_map, List.find?_map, Option.map_eq_none_iff, List.find?_eq_none] at h
      exact h i (slots.mem_order i) (beq_iff_eq.mpr hname)
  · next f h =>
      rw [slots.fields_eq_map, List.find?_map, Option.map_eq_some_iff] at h
      obtain ⟨i, hfind, rfl⟩ := h
      exact ⟨i, by simpa [field] using List.find?_some hfind, rfl⟩

/-- Behind its key, a member is read into the slot of the field that the key names. -/
theorem reads_named (key : String) (s : σ) (u : List Char) :
    Reads (match r.fields.find? (·.name == key) with
      | none => Bracket.object.failPast (.unknownField key (r.fields.map (·.name)))
      | some field =>
          if field.isSet s then Bracket.object.failPast (.duplicateField key)
          else do
            colon
            field.read s) u fun s' t' => ∃ i x v w,
      slots.name i = key ∧ slots.get i s = none ∧ slots.Describes i v x ∧
        s' = slots.set i x s ∧ Takes .colon u w ∧ TakesAll v.tokens w t' := by
  have hfields := slots.find?_fields key
  split
  · next hfind =>
      rw [hfind] at hfields
      refine Bracket.reads_failPast ?_
      rintro s' t' ⟨i, x, v, w, hname, -⟩
      exact hfields i hname
  · next field hfind =>
      rw [hfind] at hfields
      obtain ⟨i, hname, rfl⟩ := hfields
      split
      · next hset =>
          refine Bracket.reads_failPast ?_
          rintro s' t' ⟨j, x, v, w, hj, hnone, -⟩
          rw [slots.eq_of_name (hj.trans hname.symm)] at hnone
          simp [Slots.field, hnone] at hset
      · next hset =>
          have hnone : slots.get i s = none := by simpa [Slots.field] using hset
          refine ((reads_colon u).bind (H := fun _ w s' t' => ∃ x, s' = slots.set i x s ∧
            ∃ v, slots.Describes i v x ∧ TakesAll v.tokens w t') fun _ w _ =>
              (slots.reads i w).map).congr fun s' t' => ?_
          constructor
          · rintro ⟨_, w, hcolon, x, hs', v, hx, htakes⟩
            exact ⟨i, x, v, w, hname, hnone, hx, hs', hcolon, htakes⟩
          · rintro ⟨j, x, v, w, hj, -, hx, hs', hcolon, htakes⟩
            obtain rfl := slots.eq_of_name (hj.trans hname.symm)
            exact ⟨(), w, hcolon, x, hs', v, hx, htakes⟩

theorem readsItems_member :
    Bracket.ReadsItems r.member slots.FillsEmpty Value.memberTokens where
  leads m := ⟨_, _, rfl, rfl⟩
  reads := by
    intro s t ht
    refine (reads_keyed (fun key u => slots.reads_named key s u) ht).congr fun s' t' => ?_
    constructor
    · rintro ⟨key, u, hkey, i, x, v, w, hname, hnone, hx, hs', hcolon, htakes⟩
      exact ⟨(key, v), ⟨i, x, hname, hnone, hx, hs'⟩, u, hkey, w, hcolon, htakes⟩
    · rintro ⟨⟨key, v⟩, ⟨i, x, hname, hnone, hx, hs'⟩, u, hkey, w, hcolon, htakes⟩
      exact ⟨key, u, hkey, i, x, v, w, hname, hnone, hx, hs', hcolon, htakes⟩

theorem reads_complete (s : σ) (cause : String → Cause) (u : List Char) :
    Reads (match r.complete s with
      | .ok a => return a
      | .error name => fail (cause name)) u fun a t' => r.complete s = .ok a ∧ t' = u := by
  split
  · next h => exact reads_pure (by simp [h, eq_comm])
  · next h => exact reads_fail (by simp [h])

theorem reads_object (t : List Char) :
    r.object.Reads t fun a t' => ∃ ms s, (ms.map (·.1)).Nodup ∧
      (∀ key ∈ ms.map (·.1), key ∈ slots.names) ∧ slots.Holds ms s ∧ r.complete s = .ok a ∧
      TakesAll (separate (ms.map Value.memberTokens) ++ [.closing .object]) t t' := by
  refine (Bracket.reads_enclosed slots.readsItems_member .object
    fun s u => reads_complete s .missingField u).congr fun a t' => ?_
  simp only [slots.steps_fillsEmpty_blank]
  constructor
  · rintro ⟨ms, s, _, ⟨hnodup, hkeys, hholds⟩, htakes, hok, rfl⟩
    exact ⟨ms, s, hnodup, hkeys, hholds, hok, htakes⟩
  · rintro ⟨ms, s, hnodup, hkeys, hholds, hok, htakes⟩
    exact ⟨ms, s, t', ⟨hnodup, hkeys, hholds⟩, htakes, hok, rfl⟩

/-! ## Reading lists -/

theorem reads_closeList (t : List Char) :
    closeList.Reads t fun _ t' => Takes (.closing .list) t t' := by
  simp only [takes_closing]
  apply reads_skipBlanks_bind
  generalize t.dropWhile Cursor.isBlank = u
  apply reads_peek_bind
  split
  · next h => exact reads_fail (by simp [List.head?_eq_none_iff.mp h])
  · next h =>
      obtain ⟨u, rfl⟩ := List.head?_eq_some_iff.mp h
      exact (reads_skip _).congr fun _ t' => by simp [eq_comm, Bracket.close]
  · next h =>
      obtain ⟨u, rfl⟩ := List.head?_eq_some_iff.mp h
      apply reads_skip_bind
      apply reads_skipBlanks_bind
      apply reads_peek_bind
      split <;> exact reads_failNext (by simp [Bracket.close])
  · next a hne hcomma h =>
      obtain ⟨u, rfl⟩ := List.head?_eq_some_iff.mp h
      refine reads_failNext ?_
      intro _ t' heq
      exact hne (List.cons.inj heq).1

/-- Values of the first fields have been read into slots. Unless they were all, the closing bracket
is next. -/
def Values (join : List Value → List Token) (is : List ι) (s : σ) (t : List Char) (p : Nat × σ)
    (u : List Char) : Prop :=
  ∃ vs w, p.1 = vs.length ∧ vs.length ≤ is.length ∧
    Bracket.Steps slots.Fills s ((is.map slots.name).zip vs) p.2 ∧ TakesAll (join vs) t w ∧
    if vs.length = is.length then u = w
    else u = w.dropWhile Cursor.isBlank ∧ u.head? = some Bracket.list.close

theorem values_nil_iff {join : List Value → List Token} (hnil : join [] = []) {s : σ}
    {t u : List Char} {p : Nat × σ} : slots.Values join [] s t p u ↔ p = (0, s) ∧ u = t := by
  constructor
  · rintro ⟨vs, w, hcount, hle, hsteps, htakes, hrest⟩
    obtain rfl := List.eq_nil_of_length_eq_zero (Nat.le_zero.mp hle)
    rw [hnil] at htakes
    obtain rfl : w = t := htakes
    have hp : p.2 = s := hsteps
    exact ⟨Prod.ext hcount hp, by simpa using hrest⟩
  · rintro ⟨rfl, rfl⟩
    exact ⟨[], u, rfl, Nat.le_refl _, rfl, by rw [hnil]; rfl, by simp⟩

theorem values_cons_iff {join : List Value → List Token} (hnil : join [] = []) {lead : List Token}
    (hcons : ∀ v vs, join (v :: vs) =
      lead ++ (v.tokens ++ Bracket.behindCommas Value.tokens vs)) {i : ι} {is : List ι} {s : σ}
    {t u : List Char} {p : Nat × σ} :
    slots.Values join (i :: is) s t p u ↔
      (p = (0, s) ∧ u = t.dropWhile Cursor.isBlank ∧ u.head? = some Bracket.list.close) ∨
      ∃ w v x u₁ q, TakesAll lead t w ∧ slots.Describes i v x ∧ TakesAll v.tokens w u₁ ∧
        slots.Values (Bracket.behindCommas Value.tokens) is (slots.set i x s) u₁ q u ∧
        p = (q.1 + 1, q.2) := by
  constructor
  · rintro ⟨vs, w, hcount, hle, hsteps, htakes, hrest⟩
    cases vs with
    | nil =>
        rw [hnil] at htakes
        obtain rfl : w = t := htakes
        have hp : p.2 = s := hsteps
        exact .inl ⟨Prod.ext hcount hp, by simpa using hrest⟩
    | cons v vs =>
        obtain ⟨_, ⟨j, x, hname, hx, rfl⟩, hsteps⟩ := hsteps
        obtain rfl := slots.eq_of_name hname
        rw [hcons, takesAll_append] at htakes
        obtain ⟨w', hlead, htakes⟩ := htakes
        obtain ⟨u₁, hv, htakes⟩ := takesAll_append.mp htakes
        refine .inr ⟨w', v, x, u₁, (vs.length, p.2), hlead, hx, hv, ?_, Prod.ext hcount rfl⟩
        exact ⟨vs, w, rfl, by simpa using hle, hsteps, htakes, by simpa using hrest⟩
  · rintro (⟨rfl, hu, hhead⟩ | ⟨w, v, x, u₁, q, hlead, hx, hv, hvs, rfl⟩)
    · exact ⟨[], t, rfl, Nat.zero_le _, rfl, by rw [hnil]; rfl, by simp [hu, ← hhead]⟩
    · obtain ⟨vs, w', hcount, hle, hsteps, htakes, hrest⟩ := hvs
      refine ⟨v :: vs, w', by simp [hcount], by simpa using hle, ⟨_, ⟨i, x, rfl, hx, rfl⟩, hsteps⟩,
        ?_, by simpa using hrest⟩
      rw [hcons, takesAll_append]
      exact ⟨w, hlead, takesAll_append.mpr ⟨u₁, hv, htakes⟩⟩

/-- Reading the first of some values, and then the others, each of which has a comma. -/
theorem reads_values_cons {move : Reader Bool} {lead : List Token}
    (hmove : Bracket.list.Moves move lead) {join : List Value → List Token} (hnil : join [] = [])
    (hcons : ∀ v vs, join (v :: vs) =
      lead ++ (v.tokens ++ Bracket.behindCommas Value.tokens vs)) {i : ι} {is : List ι} {s : σ}
    {t : List Char}
    (hothers : ∀ s₁ u₁, (values false (is.map slots.field) s₁).Reads u₁
      (slots.Values (Bracket.behindCommas Value.tokens) is s₁ u₁)) :
    Reads (do
      if ← move then
        let s' ← (slots.field i).read s
        let (count, s'') ← values false (is.map slots.field) s'
        return (count + 1, s'')
      else return (0, s)) t (slots.Values join (i :: is) s t) := by
  refine (hmove.reads (F := fun u p u' => ∃ s₁ u₁, (∃ x, s₁ = slots.set i x s ∧
    ∃ v, slots.Describes i v x ∧ TakesAll v.tokens u u₁) ∧ ∃ q, p = (q.1 + 1, q.2) ∧
      slots.Values (Bracket.behindCommas Value.tokens) is s₁ u₁ q u') ?_).congr fun p u => ?_
  · intro w _
    exact (slots.reads i _).map.bind fun s₁ u₁ _ => (hothers s₁ u₁).map
  · rw [slots.values_cons_iff hnil hcons]
    refine or_congr_right ⟨?_, ?_⟩
    · rintro ⟨w, hlead, -, _, u₁, ⟨x, rfl, v, hx, hv⟩, q, hp, hvs⟩
      rw [takesAll_dropWhile v.leads_tokens] at hv
      exact ⟨w, v, x, u₁, q, hlead, hx, hv, hvs, hp⟩
    · rintro ⟨w, v, x, u₁, q, hlead, hx, hv, hvs, hp⟩
      have hawaits := hv.head_ne_close v.leads_tokens .list
      rw [← takesAll_dropWhile v.leads_tokens] at hv
      exact ⟨w, hlead, hawaits, _, u₁, ⟨x, rfl, v, hx, hv⟩, q, hp, hvs⟩

theorem reads_values (isFirst : Bool) (is : List ι) (s : σ) (t : List Char) :
    (values isFirst (is.map slots.field) s).Reads t
      (slots.Values (if isFirst then fun vs => separate (vs.map Value.tokens)
        else Bracket.behindCommas Value.tokens) is s t) := by
  induction is generalizing isFirst s t with
  | nil =>
      refine reads_pure fun p u => slots.values_nil_iff ?_
      cases isFirst <;> rfl
  | cons i is ih =>
      cases isFirst with
      | true =>
          exact slots.reads_values_cons Bracket.list.moves_first rfl (fun _ _ => rfl) (ih false)
      | false =>
          exact slots.reads_values_cons Bracket.list.moves_next rfl (fun _ _ => rfl) (ih false)

theorem keys_zip_sublist (names : List String) (vs : List Value) :
    ((names.zip vs).map (·.1)).Sublist names := by
  induction names generalizing vs with
  | nil => exact List.nil_sublist _
  | cons name names ih =>
      cases vs with
      | nil => exact List.nil_sublist _
      | cons v vs => exact (ih vs).cons_cons name

theorem steps_fills_zip {vs : List Value} {s : σ} :
    Bracket.Steps slots.Fills r.blank (slots.names.zip vs) s ↔
      slots.Holds (slots.names.zip vs) s := by
  have hsub := keys_zip_sublist slots.names vs
  rw [slots.steps_fills_blank (hsub.nodup slots.nodup_names)]
  exact and_iff_right fun key hkey => hsub.subset hkey

theorem reads_list (t : List Char) :
    r.list.Reads t fun a t' => ∃ vs s, vs.length ≤ slots.order.length ∧
      slots.Holds (slots.names.zip vs) s ∧ r.complete s = .ok a ∧
      TakesAll (separate (vs.map Value.tokens) ++ [.closing .list]) t t' := by
  rw [list, slots.fields_eq_map]
  refine ((slots.reads_values true slots.order r.blank t).bind (H := fun p u a t' =>
    Takes (.closing .list) u t' ∧ r.complete p.2 = .ok a) ?_).congr fun a t' => ?_
  · rintro ⟨count, s⟩ u _
    exact ((reads_closeList u).bind fun _ w _ => reads_complete s
      (fun _ => .wrongLength count r.title _) w).congr fun a t' => by simp
  · constructor
    · rintro ⟨⟨count, s⟩, u, ⟨vs, w, -, hle, hsteps, htakes, hrest⟩, hclose, hok⟩
      refine ⟨vs, s, hle, slots.steps_fills_zip.mp hsteps, hok, takesAll_append.mpr ⟨w, htakes, ?_⟩⟩
      rw [takesAll_singleton]
      split at hrest
      · exact hrest ▸ hclose
      · rwa [hrest.1, takes_dropWhile] at hclose
    · rintro ⟨vs, s, hle, hholds, hok, htakes⟩
      obtain ⟨w, htakes, hclose⟩ := takesAll_append.mp htakes
      rw [takesAll_singleton] at hclose
      have hsteps := slots.steps_fills_zip.mpr hholds
      by_cases hall : vs.length = slots.order.length
      · exact ⟨(vs.length, s), w, ⟨vs, w, rfl, hle, hsteps, htakes, by simp [hall]⟩, hclose, hok⟩
      · refine ⟨(vs.length, s), w.dropWhile Cursor.isBlank, ⟨vs, w, rfl, hle, hsteps, htakes, ?_⟩,
          takes_dropWhile.mpr hclose, hok⟩
        rw [if_neg hall, takes_closing.mp hclose]
        exact ⟨rfl, rfl⟩

/-! ## Reading either form -/

theorem takes_record_iff {a : α} {t t' : List Char} :
    (∃ v, slots.DescribesRecord v a ∧ TakesAll v.tokens t t') ↔
      (∃ u, t.dropWhile Cursor.isBlank = '[' :: u ∧ ∃ vs s, vs.length ≤ slots.order.length ∧
        slots.Holds (slots.names.zip vs) s ∧ r.complete s = .ok a ∧
        TakesAll (separate (vs.map Value.tokens) ++ [.closing .list]) u t') ∨
      ∃ u, t.dropWhile Cursor.isBlank = '\x7b' :: u ∧ ∃ ms s, (ms.map (·.1)).Nodup ∧
        (∀ key ∈ ms.map (·.1), key ∈ slots.names) ∧ slots.Holds ms s ∧ r.complete s = .ok a ∧
        TakesAll (separate (ms.map Value.memberTokens) ++ [.closing .object]) u t' := by
  have hlength : slots.names.length = slots.order.length := List.length_map ..
  constructor
  · rintro ⟨v, ⟨ms, s, hgives, hholds, hok⟩, htakes⟩
    match v with
    | .null | .bool _ | .number _ | .string _ => exact hgives.elim
    | .array vs =>
        obtain ⟨hle, rfl⟩ := hgives
        obtain ⟨u, hu, htakes⟩ := takesAll_array.mp htakes
        exact .inl ⟨u, hu, vs, s, hlength ▸ hle, hholds, hok, htakes⟩
    | .object ms' =>
        obtain ⟨rfl, hnodup, hkeys⟩ := hgives
        obtain ⟨u, hu, htakes⟩ := takesAll_object.mp htakes
        exact .inr ⟨u, hu, ms, s, hnodup, hkeys, hholds, hok, htakes⟩
  · rintro (⟨u, hu, vs, s, hle, hholds, hok, htakes⟩ |
      ⟨u, hu, ms, s, hnodup, hkeys, hholds, hok, htakes⟩)
    · exact ⟨.array vs, ⟨_, s, ⟨hlength ▸ hle, rfl⟩, hholds, hok⟩,
        takesAll_array.mpr ⟨u, hu, htakes⟩⟩
    · exact ⟨.object ms, ⟨ms, s, ⟨rfl, hnodup, hkeys⟩, hholds, hok⟩,
        takesAll_object.mpr ⟨u, hu, htakes⟩⟩

theorem readsValues : r.reader.ReadsValues slots.DescribesRecord := by
  intro t
  simp only [slots.takes_record_iff]
  apply reads_skipBlanks_bind
  generalize t.dropWhile Cursor.isBlank = u
  apply reads_peek_bind
  split
  · next h => exact reads_fail (by simp [List.head?_eq_none_iff.mp h])
  · next h =>
      obtain ⟨u, rfl⟩ := List.head?_eq_some_iff.mp h
      apply reads_skip_bind
      exact (slots.reads_list u).congr fun a t' => by simp
  · next h =>
      obtain ⟨u, rfl⟩ := List.head?_eq_some_iff.mp h
      apply reads_skip_bind
      exact (slots.reads_object u).congr fun a t' => by simp
  · next b hlist hobject h =>
      obtain ⟨u, rfl⟩ := List.head?_eq_some_iff.mp h
      refine reads_wrongType ?_
      rintro a t' (⟨u', heq, -⟩ | ⟨u', heq, -⟩)
      · exact hlist (List.cons.inj heq).1
      · exact hobject (List.cons.inj heq).1

end Record.Slots

end Rebind.Json
