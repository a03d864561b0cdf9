import Rebind.Proofs.Options.Reader
import Rebind.Proofs.Rewrite.Binding

/-!
# The token of a provider

A rewrite replaces classes, and the tokens that they are bound to stay. The
token and the class are told apart by the two keys of a provider, and by nothing
else: the property with the class is looked for by the one key, and that it is
not the token as well takes that the other key is another name. The options may
give both keys the same name. Then the class that is replaced is the token, and
a short form comes out with two properties of that name that say different
things.
-/

namespace Rebind

open Node

theorem Node.name_unique_of_isKey {k : Node} {name name' : String} (h : k.isKey name = true)
    (h' : k.isKey name' = true) : name = name' := by
  cases k with
  | key span n =>
      simp only [isKey, beq_iff_eq] at h h'
      exact h.symm.trans h'
  | string span value raw =>
      simp only [isKey, beq_iff_eq] at h h'
      exact h.symm.trans h'
  | _ => cases h

/-- What an element of a list of providers comes to keeps the token that is under
this key. In the long form the properties with the key are the same ones in the
same places. In the short form the token is the identifier itself, and whatever
has the key has it for its value. -/
def Node.KeepsToken (bindKey : String) (e e' : Node) : Prop :=
  (∀ span ps, e = .argument none (.object span ps) →
    ∃ ps', e' = .argument none (.object span ps') ∧ ps'.length = ps.length ∧
      ∀ (j : Nat) (p : Node), ps[j]? = some p → p.isProperty bindKey = true → ps'[j]? = some p) ∧
  ∀ token, e = .argument none (.ident token) →
    ∃ span ps', e' = .argument none (.object span ps') ∧
      ∀ p ∈ ps', p.isProperty bindKey = true → ∃ k, p = .keyValue k (.ident token)

namespace Options

/-- A rewrite keeps the token of every element, whatever the program. -/
def KeepsTokens (o : Options) : Prop :=
  ∀ (file : String) (p : Program),
    let before := o.vocabulary.elements p
    let after := o.vocabulary.elements (o.rewrite file p).program
    after.length = before.length ∧
      ∀ (i : Nat) (e e' : Node), before[i]? = some e → after[i]? = some e' →
        e.KeepsToken o.bindKey e'

theorem length_replaceClass (o : Options) (ps : List Node) :
    (o.replaceClass ps).value.length = ps.length := by
  rw [value_replaceClass]
  cases implementer? o.implementKey ps with
  | none => rfl
  | some i => exact List.length_modify ..

/-- What does not have the key for the class stays where it is. -/
theorem getElem?_replaceClass {o : Options} {ps : List Node} {j : Nat} {p : Node}
    (hp : ps[j]? = some p) (hkey : p.isKeyed o.implementKey = false) :
    (o.replaceClass ps).value[j]? = some p := by
  rw [value_replaceClass]
  cases implementer? o.implementKey ps with
  | none => exact hp
  | some i =>
      have hother : ps.findIdx (·.isKeyed o.implementKey) ≠ j := by
        rintro rfl
        obtain ⟨hlt, rfl⟩ := List.getElem?_eq_some_iff.mp hp
        rw [List.findIdx_getElem (w := hlt)] at hkey
        cases hkey
      exact (List.getElem?_modify_ne _ _ hother).trans hp

theorem isKeyed_of_isProperty {o : Options} (hkeys : o.bindKey ≠ o.implementKey) {p : Node}
    (hp : p.isProperty o.bindKey = true) : p.isKeyed o.implementKey = false := by
  cases p with
  | keyValue k value =>
      rw [Bool.eq_false_iff]
      exact fun hk => hkeys (name_unique_of_isKey hp hk)
  | _ => rfl

theorem keepsToken_of_keys {o : Options} (hkeys : o.bindKey ≠ o.implementKey) (e : Node) :
    e.KeepsToken o.bindKey (o.rewriteProvider e).value := by
  constructor
  · rintro span ps rfl
    refine ⟨_, o.value_rewriteProvider_long span ps, ?_, ?_⟩
    · split
      · exact o.length_replaceClass ps
      · rfl
    · intro j p hj hp
      split
      · exact getElem?_replaceClass hj (isKeyed_of_isProperty hkeys hp)
      · exact hj
  · rintro token rfl
    refine ⟨_, _, o.value_rewriteProvider_short token, ?_⟩
    intro p hmem hp
    rcases List.mem_pair.mp hmem with rfl | rfl
    · exact ⟨_, rfl⟩
    · have hclass := isKeyed_of_isProperty hkeys hp
      simp [madeProperty, isKeyed, isKey] at hclass

theorem keepsToken_of_lookup {o : Options} (hlookup : ∀ i, o.lookup i = i) (e : Node) :
    e.KeepsToken o.bindKey (o.rewriteProvider e).value := by
  constructor
  · rintro span ps rfl
    refine ⟨ps, ?_, rfl, fun j p hj _ => hj⟩
    rw [value_rewriteProvider_long, value_replaceClass_of_lookup hlookup, ite_self]
  · rintro token rfl
    refine ⟨_, _, o.value_rewriteProvider_short token, ?_⟩
    intro p hmem _
    rcases List.mem_pair.mp hmem with rfl | rfl
    · exact ⟨_, rfl⟩
    · exact ⟨_, congrArg _ (congrArg _ (hlookup token))⟩

theorem keepsTokens_of_keepsToken {o : Options}
    (h : ∀ e : Node, e.KeepsToken o.bindKey (o.rewriteProvider e).value) : o.KeepsTokens := by
  intro file p before after
  have hafter : after = before.map fun e => (o.rewriteProvider e).value :=
    o.elements_rewrite file p
  refine ⟨by rw [hafter, List.length_map], ?_⟩
  intro i e e' he he'
  rw [hafter, List.getElem?_map, he] at he'
  exact Option.some.inj he' ▸ h e

/-- A class that is replaced by another identifier is seen where it is the token. -/
theorem not_keepsTokens {o : Options} {decorator : String} (h : decorator ∈ o.decorators)
    (hkeys : o.bindKey = o.implementKey) {r : Replacement} (hr : r ∈ o.table.entries) :
    ¬ o.KeepsTokens := by
  intro hkeeps
  -- the identifier that is put in comes from nowhere in the source, and this one does not
  let token : Ident := ⟨⟨1, 2⟩, 0, r.original, false⟩
  have helements : o.vocabulary.elements (.listing decorator [.argument none (.ident token)]) =
      [.argument none (.ident token)] := Vocabulary.elements_listing h _
  have hlookup : o.lookup token = .made r.className :=
    lookup_of_some (i := token) (Table.find?_of_mem hr)
  obtain ⟨-, hsame⟩ := hkeeps "" (.listing decorator [.argument none (.ident token)])
  rw [elements_rewrite, helements] at hsame
  obtain ⟨span, ps, hobject, htoken⟩ := (hsame 0 _ (o.rewriteProvider _).value rfl rfl).2 token rfl
  rw [value_rewriteProvider_short, provider, hlookup] at hobject
  injection hobject with _ hobject
  injection hobject with _ hproperties
  obtain ⟨k, hclass⟩ := htoken (madeProperty o.implementKey (.ident (.made r.className)))
    (by rw [← hproperties]; simp) (by simp [madeProperty, isProperty, isKey, hkeys])
  injection hclass with _ hvalue
  injection hvalue with hident
  have hspan : Span.nowhere = ⟨1, 2⟩ := congrArg Ident.span hident
  cases hspan

/-- The tokens stay, whatever the program, just if the two keys differ, or nothing
is replaced because no decorator is looked at or the table is empty. -/
theorem keepsTokens_iff (o : Options) :
    o.KeepsTokens ↔
      o.bindKey ≠ o.implementKey ∨ o.decorators = [] ∨ o.table.isEmpty = true := by
  constructor
  · intro hkeeps
    by_contra hnone
    simp only [not_or, not_not] at hnone
    obtain ⟨hkeys, hnames, hempty⟩ := hnone
    obtain ⟨decorator, hdecorator⟩ := List.exists_mem_of_ne_nil _ hnames
    have hentries : o.table.entries ≠ [] := fun hnil => hempty (List.isEmpty_iff.mpr hnil)
    obtain ⟨r, hr⟩ := List.exists_mem_of_ne_nil _ hentries
    exact not_keepsTokens hdecorator hkeys hr hkeeps
  · rintro (hkeys | hnames | hempty)
    · exact keepsTokens_of_keepsToken (keepsToken_of_keys hkeys)
    · intro file p before after
      have hbefore : before = [] := elements_of_decorators hnames p
      have hafter : after = before.map fun e => (o.rewriteProvider e).value :=
        o.elements_rewrite file p
      rw [hafter, hbefore]
      exact ⟨rfl, fun i e e' he => by cases he⟩
    · exact keepsTokens_of_keepsToken
        (keepsToken_of_lookup fun i => lookup_of_none (Table.find?_of_isEmpty hempty i.name))

/-- Options in which the key for the token is the usual key for the class are
accepted. With `B` for `A` in them, a provider of the token `A` becomes one of
the token `B`. -/
theorem token_replaced_under_one_key :
    let text := "\x7b\"replacements\":[[\"A\",[\"B\",\"./b\"]]],\"bindKey\":\"useClass\"\x7d"
    let entry : String → Node := fun name =>
      .argument none (.object .nowhere [.madeProperty "useClass" (.ident (.made name))])
    let p : Program := .listing "Component" [entry "A"]
    ∃ o, (Options.read text).result = .ok o ∧
      o.vocabulary.elements p = [entry "A"] ∧
      o.vocabulary.elements (o.rewrite "a.ts" p).program = [entry "B"] ∧
      ¬ o.KeepsTokens := by
  intro text entry p
  have haccepted : (Options.read text).result.toOption.map
      (fun o => (o.bindKey, o.implementKey, o.decorators, o.table.entries)) =
        some ("useClass", "useClass", ["Component", "Directive"], [⟨"A", "B", "./b"⟩]) := by
    decide +kernel
  obtain ⟨o, hread, hsettings⟩ := exists_of_settings haccepted
  simp only [Prod.mk.injEq] at hsettings
  obtain ⟨hbind, himplement, hnames, hentries⟩ := hsettings
  have hdecorator : "Component" ∈ o.decorators := hnames ▸ List.mem_cons_self
  have hr : ⟨"A", "B", "./b"⟩ ∈ o.table.entries := hentries ▸ List.mem_cons_self
  have helements : o.vocabulary.elements p = [entry "A"] :=
    Vocabulary.elements_listing hdecorator _
  refine ⟨o, hread, helements, ?_, not_keepsTokens hdecorator (hbind.trans himplement.symm) hr⟩
  have hlookup : o.lookup (.made "A") = .made "B" :=
    lookup_of_some (i := .made "A") (Table.find?_of_mem hr)
  have hreplaced : (o.replaceClass [madeProperty "useClass" (.ident (.made "A"))]).value =
      [madeProperty "useClass" (.ident (o.lookup (.made "A")))] :=
    (replaceClass_split (List.forall_mem_nil _) (by simp [isKey, himplement])).1
  have hbound : [madeProperty "useClass" (.ident (.made "A"))].any (·.isProperty o.bindKey) =
      true := by simp [madeProperty, isProperty, isKey, hbind]
  rw [elements_rewrite, helements, List.map_singleton, value_rewriteProvider_long,
    if_pos hbound, hreplaced, hlookup]

end Options

end Rebind
