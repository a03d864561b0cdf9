import Rebind.Proofs.Rewrite.Substitutions

/-!
# One rewrite after another

A second rewrite meets what the first one left: long forms where there were
short ones, one list of providers at the end of the metadata where there were
several, and the classes that were put in. It goes other ways through all of
this than the first one did, and yet two rewrites in a row come to one, whose
table says what the two tables say one after the other.

`Chains` is what this needs of three sets of options. That the two keys differ
is part of it, as the second rewrite would otherwise take the token for the
class; it may be left out if the second table has nothing to say.
-/

namespace Rebind.Options

open Node

/-- A look into the first table and one into the second come to one look into
the third, and the second rewrite can tell the class from the token. -/
structure Chains (o₁ o₂ o₃ : Options) : Prop where
  first : o₁.vocabulary = o₃.vocabulary
  second : o₂.vocabulary = o₃.vocabulary
  lookup_lookup : ∀ i, o₂.lookup (o₁.lookup i) = o₃.lookup i
  keys : o₃.bindKey ≠ o₃.implementKey ∨ ∀ i, o₂.lookup i = i

theorem decorators_of_vocabulary {o o' : Options} (h : o.vocabulary = o'.vocabulary) :
    o.decorators = o'.decorators :=
  congrArg Vocabulary.decorators h

theorem bindKey_of_vocabulary {o o' : Options} (h : o.vocabulary = o'.vocabulary) :
    o.bindKey = o'.bindKey :=
  congrArg Vocabulary.bindKey h

theorem implementKey_of_vocabulary {o o' : Options} (h : o.vocabulary = o'.vocabulary) :
    o.implementKey = o'.implementKey :=
  congrArg Vocabulary.implementKey h

namespace Chains

variable {o₁ o₂ o₃ : Options}

/-! ## Providers -/

theorem replaceClass (h : Chains o₁ o₂ o₃) (ps : List Node) :
    (o₂.replaceClass (o₁.replaceClass ps).value).value = (o₃.replaceClass ps).value := by
  have hkey₁ := implementKey_of_vocabulary h.first
  have hkey₂ := implementKey_of_vocabulary h.second
  cases hclass : implementer? o₃.implementKey ps with
  | none =>
      rw [replaceClass_of_none (o := o₁) (by rw [hkey₁, hclass]), Noted.value_pure,
        replaceClass_of_none (o := o₂) (by rw [hkey₂, hclass]), replaceClass_of_none hclass]
  | some i =>
      obtain ⟨before, k, after, rfl, hbefore, hk⟩ := exists_split_of_implementer? hclass
      rw [(replaceClass_split hbefore hk).1,
        (replaceClass_split (o := o₁) (by rw [hkey₁]; exact hbefore) (by rw [hkey₁]; exact hk)).1,
        (replaceClass_split (o := o₂) (by rw [hkey₂]; exact hbefore) (by rw [hkey₂]; exact hk)).1,
        h.lookup_lookup]

/-- A long form that was made from a short one is rewritten as the short one
would be. -/
theorem provider (h : Chains o₁ o₂ o₃) (token : Ident) :
    (o₂.rewriteProvider (.argument none (o₁.provider token (o₁.lookup token)))).value =
      .argument none (o₃.provider token (o₃.lookup token)) := by
  have hbind₁ := bindKey_of_vocabulary h.first
  have hbind₂ := bindKey_of_vocabulary h.second
  have hkey₁ := implementKey_of_vocabulary h.first
  have hkey₂ := implementKey_of_vocabulary h.second
  have hbind : [madeProperty o₃.bindKey (.ident token),
      madeProperty o₃.implementKey (.ident (o₁.lookup token))].any
        (·.isProperty o₂.bindKey) = true := by
    simp [madeProperty, isProperty, isKey, hbind₂]
  rw [Options.provider, Options.provider, value_rewriteProvider_long, hbind₁, hkey₁,
    if_pos hbind, ← h.lookup_lookup]
  rcases h.keys with hne | hid
  · have hbefore : ∀ p ∈ [madeProperty o₃.bindKey (.ident token)],
        p.isKeyed o₂.implementKey = false := by
      simp [madeProperty, isKeyed, isKey, hkey₂, hne]
    have hk : (key .nowhere o₃.implementKey).isKey o₂.implementKey = true := by
      simp [isKey, hkey₂]
    exact congrArg (fun ps => argument none (.object .nowhere ps)) (replaceClass_split hbefore hk).1
  · rw [value_replaceClass_of_lookup hid, hid]

theorem rewriteProvider (h : Chains o₁ o₂ o₃) (e : Node) :
    (o₂.rewriteProvider (o₁.rewriteProvider e).value).value = (o₃.rewriteProvider e).value := by
  rcases element_cases e with ⟨token, rfl⟩ | ⟨span, ps, rfl⟩ | ⟨hvalue, -⟩
  · rw [value_rewriteProvider_short, value_rewriteProvider_short, h.provider]
  · have hbind₁ := bindKey_of_vocabulary h.first
    have hbind₂ := bindKey_of_vocabulary h.second
    rw [value_rewriteProvider_long, value_rewriteProvider_long, value_rewriteProvider_long,
      hbind₁, hbind₂]
    by_cases hbind : ps.any (·.isProperty o₃.bindKey) = true
    · rw [if_pos hbind, any_isProperty_replaceClass, if_pos hbind, if_pos hbind, h.replaceClass]
    · rw [if_neg hbind, if_neg hbind, if_neg hbind]
  · rw [hvalue, hvalue, Noted.value_pure, hvalue, Noted.value_pure]

/-! ## Decorators and trees -/

theorem rewriteMetadata (h : Chains o₁ o₂ o₃) (ps : List Node) :
    (o₂.rewriteMetadata (o₁.rewriteMetadata ps).value).value = (o₃.rewriteMetadata ps).value := by
  rw [value_rewriteMetadata, withoutProviders_rewriteMetadata, providerElements_rewriteMetadata,
    value_rewriteMetadata, List.map_map]
  exact congrArg (fun es => withoutProviders ps ++ providersProperty es)
    (List.map_congr_left fun e _ => h.rewriteProvider e)

theorem image (h : Chains o₁ o₂ o₃) (d : Node) : o₂.image (o₁.image d) = o₃.image d := by
  have hnames₁ := decorators_of_vocabulary h.first
  have hnames₂ := decorators_of_vocabulary h.second
  cases hd : d.metadata? o₃.decorators with
  | none =>
      rw [(rewriteDecorator_of_none (o := o₁) (by rw [hnames₁, hd])).1,
        (rewriteDecorator_of_none (o := o₂) (by rw [hnames₂, hd])).1,
        (rewriteDecorator_of_none hd).1]
  | some m =>
      obtain ⟨f, ps⟩ := m
      have hname := (eq_fill_of_metadata? hd).2
      rw [(rewriteDecorator_of_some hd).1,
        (rewriteDecorator_of_some (o := o₁) (by rw [hnames₁, hd])).1,
        (rewriteDecorator_of_some (o := o₂)
          (by rw [hnames₂]; exact MetadataFrame.metadata?_fill hname _)).1,
        h.rewriteMetadata]

theorem rewrite (h : Chains o₁ o₂ o₃) (n : Node) :
    ((n.rewrite o₁).value.rewrite o₂).value = (n.rewrite o₃).value := by
  have htwice := (n.redecorated_rewrite o₁).trans ((n.rewrite o₁).value.redecorated_rewrite o₂)
  have honce := htwice.congr fun _ _ d _ => h.image d
  exact honce.unique (n.redecorated_rewrite o₃)

/-- A second rewrite of a program leaves the imports of the first in front, and
comes to one rewrite behind them. -/
theorem walk (h : Chains o₁ o₂ o₃) (file : String) (p : Program) :
    (o₂.walk (o₁.rewrite file p).program).value =
      (o₁.imports (o₁.rewrite file p).substitutions).map Import.declaration ++
        (o₃.walk p).value := by
  have himports : ∀ is : List Import,
      (is.map Import.declaration).map (fun n => (n.rewrite o₂).value) =
        is.map Import.declaration := by
    intro is
    rw [List.map_map]
    refine List.map_congr_left fun i _ => value_rewrite_eq_self fun c hc => ?_
    rw [i.classes_declaration] at hc
    cases hc
  rw [Options.walk, o₁.body_rewrite, value_rewriteNodes, List.map_append, himports,
    Options.walk, Options.walk, value_rewriteNodes, value_rewriteNodes, List.map_map]
  exact congrArg _ (List.map_congr_left fun n _ => h.rewrite n)

end Chains

end Rebind.Options
