import Mathlib.Data.List.Basic
import Rebind.Proofs.Rewrite.Provider
import Rebind.Proofs.Rewrite.Walk

/-!
# Decorators

A decorator is either called with metadata or left alone, and what becomes of
metadata can be said without a case: the properties that hold no list of
providers, and behind them one property with the elements of all the lists,
rewritten. From this it follows which classes are looked up, what a second
rewrite would look up, and that the class declarations in a decorator are moved
at most.
-/

namespace Rebind

/-! ## The notes that are about replacements -/

/-- The replacement that a note is about. -/
def Note.replacement? : Note → Option Replacement
  | .substituted r => some r
  | _ => none

/-- The replacements that were used, in order. -/
def Noted.hits {α : Type} (m : Noted α) : List Replacement :=
  m.notes.filterMap Note.replacement?

/-! ## Lists of providers in metadata -/

namespace Node

/-- The properties that hold no list of providers. -/
def withoutProviders (ps : List Node) : List Node :=
  ps.filter (·.providers?.isNone)

/-- Only an array literal under the key holds a list of providers. -/
theorem exists_of_providers? {p : Node} {es : List Node} (h : p.providers? = some es) :
    ∃ k span, p = .keyValue k (.array span es) ∧ k.isKey "providers" = true := by
  cases p with
  | keyValue k value =>
      rw [providers?.eq_def] at h
      by_cases hk : k.isKey "providers" = true
      · simp only [hk, if_true] at h
        cases value with
        | array span elements =>
            cases h
            exact ⟨k, span, rfl, hk⟩
        | _ => cases h
      · simp only [hk, if_false, Bool.false_eq_true] at h
        cases h
  | _ => cases h

theorem providers?_of_not_isProvidersArray {ps : List Node}
    (h : ¬ ps.any (·.isProvidersArray) = true) : ∀ p ∈ ps, p.providers? = none := by
  intro p hp
  have hnot : ¬ p.isProvidersArray = true := fun hisArray =>
    h (List.any_eq_true.mpr ⟨p, hp, hisArray⟩)
  rw [isProvidersArray_eq] at hnot
  exact Option.not_isSome_iff_eq_none.mp hnot

theorem flatten_filterMap_providers? (ps : List Node) :
    (ps.filterMap (·.providers?)).flatten = providerElements ps := by
  induction ps with
  | nil => rfl
  | cons p ps ih =>
      rw [providerElements, List.flatMap_cons, ← providerElements, ← ih, List.filterMap_cons]
      cases p.providers? <;> rfl

theorem withoutProviders_of_none {ps : List Node} (h : ∀ p ∈ ps, p.providers? = none) :
    withoutProviders ps = ps :=
  List.filter_eq_self.mpr fun p hp => by rw [h p hp]; rfl

theorem providerElements_of_none {ps : List Node} (h : ∀ p ∈ ps, p.providers? = none) :
    providerElements ps = [] :=
  List.flatMap_eq_nil_iff.mpr fun p hp => by rw [h p hp]; rfl

theorem providers?_of_mem_withoutProviders {ps : List Node} :
    ∀ p ∈ withoutProviders ps, p.providers? = none := by
  intro p hp
  exact Option.isNone_iff_eq_none.mp (List.mem_filter.mp hp).2

theorem providerElements_providersProperty (es : List Node) :
    providerElements (providersProperty es) = es := by
  cases es <;> simp [providersProperty, providerElements, madeProperty, providers?, isKey]

theorem withoutProviders_providersProperty (es : List Node) :
    withoutProviders (providersProperty es) = [] := by
  cases es <;> simp [providersProperty, withoutProviders, madeProperty, providers?, isKey]

theorem providerElements_append (ps qs : List Node) :
    providerElements (ps ++ qs) = providerElements ps ++ providerElements qs :=
  List.flatMap_append

theorem withoutProviders_append (ps qs : List Node) :
    withoutProviders (ps ++ qs) = withoutProviders ps ++ withoutProviders qs :=
  List.filter_append ..

theorem classes_providersProperty (es : List Node) :
    (providersProperty es).flatMap classes = es.flatMap classes := by
  cases es <;> simp [providersProperty, madeProperty]

/-- A list of providers has the class declarations of its elements, since there
are none in its key. -/
theorem classes_of_providers? {p : Node} {es : List Node} (h : p.providers? = some es) :
    p.classes = es.flatMap classes := by
  obtain ⟨k, span, rfl, hk⟩ := exists_of_providers? h
  cases k <;> simp [isKey] at hk <;> simp

/-- Taking the lists of providers out of metadata, and putting their elements
behind it, moves class declarations and does no more. -/
theorem classes_perm_of_taken_out (ps : List Node) :
    ((withoutProviders ps).flatMap classes ++ (providerElements ps).flatMap classes).Perm
      (ps.flatMap classes) := by
  induction ps with
  | nil => exact List.Perm.refl _
  | cons p ps ih =>
      rw [providerElements, List.flatMap_cons (f := fun p : Node => p.providers?.getD []),
        ← providerElements, withoutProviders, List.filter_cons, ← withoutProviders]
      cases h : p.providers? with
      | none =>
          simp only [Option.isNone_none, if_true, Option.getD_none, List.nil_append,
            List.flatMap_cons, List.append_assoc]
          exact ih.append_left _
      | some es =>
          simp only [Option.isNone_some, Bool.false_eq_true, if_false, Option.getD_some,
            List.flatMap_append, List.flatMap_cons, classes_of_providers? h]
          rw [← List.append_assoc]
          refine (List.perm_append_comm.append_right _).trans ?_
          rw [List.append_assoc]
          exact ih.append_left _

end Node

namespace Options

open Node

/-! ## Metadata -/

/-- What the pass over the properties takes out, and what it leaves. -/
theorem value_takeProviders (o : Options) (ps : List Node) :
    (o.takeProviders ps).value =
      (withoutProviders ps, (providerElements ps).map fun e => (o.rewriteProvider e).value) := by
  induction ps with
  | nil => rfl
  | cons p ps ih =>
      rw [takeProviders.eq_def, withoutProviders, List.filter_cons, ← withoutProviders,
        providerElements, List.flatMap_cons, ← providerElements]
      cases hp : p.providers? with
      | none => simp [hp, ih]
      | some elements => simp [hp, ih]

theorem notes_takeProviders (o : Options) (ps : List Node) :
    (o.takeProviders ps).notes =
      (providerElements ps).flatMap fun e => (o.rewriteProvider e).notes := by
  induction ps with
  | nil => rfl
  | cons p ps ih =>
      rw [takeProviders.eq_def, providerElements, List.flatMap_cons, ← providerElements]
      cases hp : p.providers? with
      | none => simp [hp, ih]
      | some elements => simp [hp, ih]

/-- What becomes of metadata. If no property holds a list of providers, this
says that all stay as they are. -/
theorem value_rewriteMetadata (o : Options) (ps : List Node) :
    (o.rewriteMetadata ps).value = withoutProviders ps ++
      providersProperty ((providerElements ps).map fun e => (o.rewriteProvider e).value) := by
  rw [rewriteMetadata]
  split
  · rw [Noted.value_bind, value_takeProviders]
    rfl
  · next hany =>
      have hnone := providers?_of_not_isProvidersArray hany
      rw [withoutProviders_of_none hnone, providerElements_of_none hnone]
      exact (List.append_nil ps).symm

theorem notes_rewriteMetadata (o : Options) (ps : List Node) :
    (o.rewriteMetadata ps).notes = ((providerElements ps).filterMap fun e =>
      (o.vocabulary.candidate? e).bind (o.table.find? ·.name)).map Note.substituted := by
  rw [rewriteMetadata]
  split
  · rw [Noted.notes_bind, notes_takeProviders, Noted.notes_pure, List.append_nil,
      List.map_filterMap, List.filterMap_eq_flatMap_toList]
    exact List.flatMap_congr fun e _ => o.notes_rewriteProvider e
  · next hany =>
      have hnone := providers?_of_not_isProvidersArray hany
      rw [providerElements_of_none hnone]
      rfl

theorem hits_rewriteMetadata (o : Options) (ps : List Node) :
    (o.rewriteMetadata ps).hits = (providerElements ps).filterMap fun e =>
      (o.vocabulary.candidate? e).bind (o.table.find? ·.name) := by
  rw [Noted.hits, notes_rewriteMetadata, List.filterMap_map]
  exact List.filterMap_some

theorem providerElements_rewriteMetadata (o : Options) (ps : List Node) :
    providerElements (o.rewriteMetadata ps).value =
      (providerElements ps).map fun e => (o.rewriteProvider e).value := by
  rw [value_rewriteMetadata, providerElements_append,
    providerElements_of_none providers?_of_mem_withoutProviders,
    providerElements_providersProperty, List.nil_append]

theorem withoutProviders_rewriteMetadata (o : Options) (ps : List Node) :
    withoutProviders (o.rewriteMetadata ps).value = withoutProviders ps := by
  rw [value_rewriteMetadata, withoutProviders_append,
    withoutProviders_of_none providers?_of_mem_withoutProviders,
    withoutProviders_providersProperty, List.append_nil]

theorem classes_rewriteMetadata_perm (o : Options) (ps : List Node) :
    ((o.rewriteMetadata ps).value.flatMap classes).Perm (ps.flatMap classes) := by
  rw [value_rewriteMetadata, List.flatMap_append, classes_providersProperty, List.flatMap_map]
  simp only [classes_rewriteProvider]
  exact classes_perm_of_taken_out ps

/-! ## Decorators with metadata and without -/

theorem rewriteDecorator_of_some {o : Options} {d : Node} {f : MetadataFrame} {ps : List Node}
    (h : d.metadata? o.decorators = some (f, ps)) :
    o.image d = f.fill (o.rewriteMetadata ps).value ∧
      (o.rewriteDecorator d).notes = (o.rewriteMetadata ps).notes := by
  obtain ⟨rfl, hname⟩ := eq_fill_of_metadata? h
  rw [image, MetadataFrame.fill, rewriteDecorator, recognises, if_pos hname]
  constructor
  · rfl
  · simp [rewriteArguments]

/-- A decorator without metadata stays, and nothing is noted but why it was
skipped. -/
theorem rewriteDecorator_of_none {o : Options} {d : Node}
    (h : d.metadata? o.decorators = none) :
    o.image d = d ∧ (o.rewriteDecorator d).hits = [] := by
  rw [image, Noted.hits, rewriteDecorator.eq_def]
  split
  · next span callSpan context name arguments typeArguments =>
      split
      · next hname =>
          rw [recognises] at hname
          rw [rewriteArguments.eq_def]
          split
          · next objectSpan ps =>
              rw [metadata?, if_pos hname] at h
              cases h
          · exact ⟨rfl, rfl⟩
          · exact ⟨rfl, rfl⟩
          · exact ⟨rfl, rfl⟩
      · exact ⟨rfl, rfl⟩
  · exact ⟨rfl, rfl⟩

/-- The replacements that a decorator uses are what the table has for the
candidates in it. -/
theorem hits_rewriteDecorator (o : Options) (d : Node) :
    (o.rewriteDecorator d).hits = (o.vocabulary.ofDecorator d).filterMap fun e =>
      (o.vocabulary.candidate? e).bind (o.table.find? ·.name) := by
  cases h : d.metadata? o.vocabulary.decorators with
  | none => rw [(rewriteDecorator_of_none h).2, Vocabulary.ofDecorator, h, List.filterMap_nil]
  | some m =>
      obtain ⟨f, ps⟩ := m
      rw [Noted.hits, (rewriteDecorator_of_some h).2, ← Noted.hits, hits_rewriteMetadata,
        Vocabulary.ofDecorator, h]

theorem ofDecorator_image (o : Options) (d : Node) :
    o.vocabulary.ofDecorator (o.image d) =
      (o.vocabulary.ofDecorator d).map fun e => (o.rewriteProvider e).value := by
  cases h : d.metadata? o.vocabulary.decorators with
  | none => rw [(rewriteDecorator_of_none h).1, Vocabulary.ofDecorator, h, List.map_nil]
  | some m =>
      obtain ⟨f, ps⟩ := m
      have himage : (o.image d).metadata? o.vocabulary.decorators =
          some (f, (o.rewriteMetadata ps).value) := by
        rw [(rewriteDecorator_of_some h).1]
        exact MetadataFrame.metadata?_fill (eq_fill_of_metadata? h).2 _
      rw [Vocabulary.ofDecorator, himage, Vocabulary.ofDecorator, h]
      exact o.providerElements_rewriteMetadata ps

/-- The class declarations in a decorator come through as they are, in another
order at most. -/
theorem classes_image_perm (o : Options) (d : Node) : (o.image d).classes.Perm d.classes := by
  cases h : d.metadata? o.decorators with
  | none => rw [(rewriteDecorator_of_none h).1]
  | some m =>
      obtain ⟨f, ps⟩ := m
      rw [(rewriteDecorator_of_some h).1, (eq_fill_of_metadata? h).1]
      simp only [MetadataFrame.fill, classes_decorator, classes_call, classes_ident,
        List.flatMap_singleton, classes_argument, classes_object, List.nil_append]
      exact (classes_rewriteMetadata_perm o ps).append_right _

end Options

end Rebind
