import Rebind.Proofs.Session.Accounting

/-!
# Rewriting with the session in hand

The rewrite takes notes, and a session accounts for them when the walk is over.
One may as well walk with the session in hand: a look into the table that finds
something queues the import, records the substitution and reports it there and
then, and whatever comes next finds the session as it is by now. This is what a
visitor does that carries its state through the tree. The rewrite is told here a
second time in that way, and the two agree on trees, decorators and all that is
below them.

The agreement is a congruence. `Follows` relates what is done in a session to
what is noted; sequencing respects it, since accounting for notes leaves the
options and the file of a session alone. So each function of the rewrite follows
its counterpart by the steps of its definition, and nothing is said about
sessions again until the end.
-/

namespace Rebind

/-- Something that is done in a session. -/
structure InSession (α : Type) where
  run : Session → Visit α

namespace InSession

variable {α β : Type}

instance : Monad InSession where
  pure a := ⟨fun s => ⟨a, s, []⟩⟩
  bind m f := ⟨fun s =>
    let v := m.run s
    let w := (f v.result).run v.session
    ⟨w.result, w.session, v.events ++ w.events⟩⟩

theorem run_pure (a : α) (s : Session) : (pure a : InSession α).run s = ⟨a, s, []⟩ :=
  rfl

theorem run_bind (m : InSession α) (f : α → InSession β) (s : Session) :
    (m >>= f).run s =
      let v := m.run s
      let w := (f v.result).run v.session
      ⟨w.result, w.session, v.events ++ w.events⟩ :=
  rfl

/-- The options of the session. -/
def options : InSession Options :=
  ⟨fun s => ⟨s.options, s, []⟩⟩

/-- Accounts for a note, and reports it. -/
def account (n : Note) : InSession Unit :=
  ⟨fun s => ⟨(), s.account n, [n.event s.file]⟩⟩

/-- Does something with each element of a list, front to back. -/
def forEach (f : α → InSession β) : List α → InSession (List β)
  | [] => return []
  | a :: l => do
      let b ← f a
      let bs ← forEach f l
      return b :: bs

theorem run_forEach_cons (f : α → InSession β) (a : α) (l : List α) (s : Session) :
    (forEach f (a :: l)).run s =
      let v := (f a).run s
      let w := (forEach f l).run v.session
      ⟨v.result :: w.result, w.session, v.events ++ w.events⟩ := by
  simp only [forEach, run_bind, run_pure, List.append_nil]

/-! ## The rewrite once more -/

/-- The class that implements what is bound to a class. -/
def implementation (implementer : Ident) : InSession Ident := do
  match (← options).table.find? implementer.name with
  | none => return implementer
  | some r => do
      account (.substituted r)
      return .made r.className

/-- Replaces the class in the properties of a provider. -/
def replaceClass : List Node → InSession (List Node)
  | [] => return []
  | .keyValue k value :: properties => do
      if k.isKey (← options).implementKey then
        match value with
        | .ident implementer =>
            return .keyValue k (.ident (← implementation implementer)) :: properties
        | _ => return .keyValue k value :: properties
      else return .keyValue k value :: (← replaceClass properties)
  | property :: properties => return property :: (← replaceClass properties)

/-- Rewrites an element of a list of providers. -/
def rewriteProvider : Node → InSession Node
  | .argument none (.ident token) => do
      let implementer ← implementation token
      return .argument none ((← options).provider token implementer)
  | .argument none (.object span properties) => do
      if properties.any (·.isProperty (← options).bindKey) then
        return .argument none (.object span (← replaceClass properties))
      else return .argument none (.object span properties)
  | element => return element

/-- The properties of metadata that stay, and the elements of the lists that are taken out, rewritten
on the way. -/
def takeProviders : List Node → InSession (List Node × List Node)
  | [] => return ([], [])
  | p :: ps =>
      match p.providers? with
      | some elements => do
          let rewritten ← forEach rewriteProvider elements
          let (retained, providers) ← takeProviders ps
          return (retained, rewritten ++ providers)
      | none => do
          let (retained, providers) ← takeProviders ps
          return (p :: retained, providers)

/-- Rewrites the properties of metadata. -/
def rewriteMetadata (properties : List Node) : InSession (List Node) :=
  if properties.any (·.isProvidersArray) then do
    let (retained, providers) ← takeProviders properties
    return retained ++ Node.providersProperty providers
  else return properties

/-- Rewrites the arguments of a decorator. -/
def rewriteArguments : List Node → InSession (List Node)
  | [.argument none (.object span properties)] =>
      return [.argument none (.object span (← rewriteMetadata properties))]
  | [.argument none expression] => do
      account .notObject
      return [.argument none expression]
  | [argument] => return [argument]
  | arguments => do
      account (.argumentCount arguments.length)
      return arguments

/-- Rewrites a decorator. -/
def rewriteDecorator : Node → InSession Node
  | .decorator span (.call callSpan context (.ident name) arguments typeArguments) => do
      if (← options).recognises name.name then
        return .decorator span
          (.call callSpan context (.ident name) (← rewriteArguments arguments) typeArguments)
      else return .decorator span (.call callSpan context (.ident name) arguments typeArguments)
  | decorator => return decorator

mutual

/-- Rewrites the class declarations of a tree. -/
def rewrite : Node → InSession Node
  | .leaf v => return .leaf v
  | .list items => return .list (← rewriteNodes items)
  | .ident i => return .ident i
  | .key span name => return .key span name
  | .string span value raw => return .string span value raw
  | .argument spread expression => return .argument spread (← rewrite expression)
  | .array span elements => return .array span (← rewriteNodes elements)
  | .object span properties => return .object span (← rewriteNodes properties)
  | .keyValue k value => do
      let k' ← rewrite k
      let value' ← rewrite value
      return .keyValue k' value'
  | .call span context callee arguments typeArguments => do
      let callee' ← rewrite callee
      let arguments' ← rewriteNodes arguments
      let typeArguments' ← rewrite typeArguments
      return .call span context callee' arguments' typeArguments'
  | .decorator span expression => return .decorator span (← rewrite expression)
  | .classDecl form attributes decorators parts =>
      return .classDecl form attributes (← forEach rewriteDecorator decorators) parts
  | .construct kind attributes parts => return .construct kind attributes (← rewriteParts parts)

/-- Rewrites the class declarations of several trees, front to back. -/
def rewriteNodes : List Node → InSession (List Node)
  | [] => return []
  | n :: ns => do
      let n' ← rewrite n
      let ns' ← rewriteNodes ns
      return n' :: ns'

/-- Rewrites the class declarations in the parts of a node, front to back. -/
def rewriteParts : List (String × Node) → InSession (List (String × Node))
  | [] => return []
  | (name, n) :: ns => do
      let n' ← rewrite n
      let ns' ← rewriteParts ns
      return (name, n') :: ns'

end

/-! ## Following the notes -/

/-- In every session with these options, what is done comes to what the session comes to when it
accounts for the notes afterwards. -/
def Follows (o : Options) (m : InSession α) (noted : Noted α) : Prop :=
  ∀ s : Session, s.options = o → m.run s = s.absorb noted

variable {o : Options}

theorem follows_pure (a : α) : Follows o (pure a) (pure a) :=
  fun _ _ => rfl

theorem follows_account (n : Note) : Follows o (account n) (Noted.note n) :=
  fun _ _ => rfl

theorem Follows.bind {m : InSession α} {f : α → InSession β} {m' : Noted α} {f' : α → Noted β}
    (hm : Follows o m m') (hf : ∀ a, Follows o (f a) (f' a)) : Follows o (m >>= f) (m' >>= f') := by
  intro s hs
  obtain ⟨hoptions, hfile⟩ := Session.foldl_account_keeps m'.notes s
  -- the rest finds another session, but with the options and the file of this one
  have hrest := hf (s.absorb m').result (s.absorb m').session (hoptions.trans hs)
  simp only [run_bind, hm s hs, hrest]
  simp only [Session.absorb, Noted.value_bind, Noted.notes_bind, List.foldl_append,
    List.map_append, hfile]

theorem Follows.options {f : Options → InSession α} {m' : Noted α} (hf : Follows o (f o) m') :
    Follows o (InSession.options >>= f) m' := by
  intro s hs
  rw [← hf s hs, ← hs]
  rfl

theorem Follows.forEach {f : α → InSession β} {f' : α → Noted β}
    (hf : ∀ a, Follows o (f a) (f' a)) (l : List α) :
    Follows o (forEach f l) (Noted.forEach f' l) := by
  induction l with
  | nil => exact follows_pure []
  | cons a l ih =>
      rw [Noted.forEach_cons]
      exact (hf a).bind fun b => ih.bind fun bs => follows_pure (b :: bs)

/-! ## One lemma a function -/

theorem follows_implementation (i : Ident) : Follows o (implementation i) (o.implementation i) := by
  refine Follows.options ?_
  rw [Options.implementation]
  cases o.table.find? i.name with
  | none => exact follows_pure i
  | some r => exact (follows_account _).bind fun _ => follows_pure _

theorem follows_replaceClass (ps : List Node) :
    Follows o (replaceClass ps) (o.replaceClass ps) := by
  induction ps with
  | nil => exact follows_pure []
  | cons p ps ih =>
      cases p with
      | keyValue k value =>
          cases value with
          | ident i =>
              simp only [replaceClass, Options.replaceClass]
              refine Follows.options ?_
              split
              · exact (follows_implementation i).bind fun _ => follows_pure _
              · exact ih.bind fun _ => follows_pure _
          | _ =>
              simp only [replaceClass, Options.replaceClass]
              refine Follows.options ?_
              split
              · exact follows_pure _
              · exact ih.bind fun _ => follows_pure _
      | _ =>
          simp only [replaceClass, Options.replaceClass]
          exact ih.bind fun _ => follows_pure _

theorem follows_rewriteProvider (e : Node) :
    Follows o (rewriteProvider e) (o.rewriteProvider e) := by
  cases e with
  | argument spread expression =>
      cases spread with
      | some span => exact follows_pure _
      | none =>
          cases expression with
          | ident token =>
              exact (follows_implementation token).bind fun _ => Follows.options (follows_pure _)
          | object span ps =>
              rw [rewriteProvider, Options.rewriteProvider]
              refine Follows.options ?_
              split
              · exact (follows_replaceClass ps).bind fun _ => follows_pure _
              · exact follows_pure _
          | _ => exact follows_pure _
  | _ => exact follows_pure _

theorem follows_takeProviders (ps : List Node) :
    Follows o (takeProviders ps) (o.takeProviders ps) := by
  induction ps with
  | nil => exact follows_pure _
  | cons p ps ih =>
      rw [takeProviders, Options.takeProviders]
      cases p.providers? with
      | none => exact ih.bind fun _ => follows_pure _
      | some elements =>
          exact (Follows.forEach follows_rewriteProvider elements).bind fun _ =>
            ih.bind fun _ => follows_pure _

theorem follows_rewriteMetadata (ps : List Node) :
    Follows o (rewriteMetadata ps) (o.rewriteMetadata ps) := by
  rw [rewriteMetadata, Options.rewriteMetadata]
  split
  · exact (follows_takeProviders ps).bind fun _ => follows_pure _
  · exact follows_pure ps

theorem follows_rewriteArguments (arguments : List Node) :
    Follows o (rewriteArguments arguments) (o.rewriteArguments arguments) := by
  cases arguments with
  | nil => exact (follows_account _).bind fun _ => follows_pure _
  | cons a others =>
      cases others with
      | cons b others =>
          simp only [rewriteArguments, Options.rewriteArguments]
          exact (follows_account _).bind fun _ => follows_pure _
      | nil =>
          cases a with
          | argument spread expression =>
              cases spread with
              | some span => exact follows_pure _
              | none =>
                  cases expression with
                  | object span ps =>
                      exact (follows_rewriteMetadata ps).bind fun _ => follows_pure _
                  | _ => exact (follows_account _).bind fun _ => follows_pure _
          | _ => exact follows_pure _

theorem follows_rewriteDecorator (d : Node) :
    Follows o (rewriteDecorator d) (o.rewriteDecorator d) := by
  cases d with
  | decorator span expression =>
      cases expression with
      | call callSpan context callee arguments typeArguments =>
          cases callee with
          | ident name =>
              rw [rewriteDecorator, Options.rewriteDecorator]
              refine Follows.options ?_
              split
              · exact (follows_rewriteArguments arguments).bind fun _ => follows_pure _
              · exact follows_pure _
          | _ => exact follows_pure _
      | _ => exact follows_pure _
  | _ => exact follows_pure _

theorem follows_rewriteNodes {ns : List Node}
    (h : ∀ n ∈ ns, Follows o (rewrite n) (n.rewrite o)) :
    Follows o (rewriteNodes ns) (Rebind.rewriteNodes o ns) := by
  induction ns with
  | nil => exact follows_pure []
  | cons n ns ih =>
      obtain ⟨hn, hns⟩ := List.forall_mem_cons.mp h
      exact hn.bind fun _ => (ih hns).bind fun _ => follows_pure _

theorem follows_rewriteParts {parts : List (String × Node)}
    (h : ∀ n ∈ parts.map (·.2), Follows o (rewrite n) (n.rewrite o)) :
    Follows o (rewriteParts parts) (Rebind.rewriteParts o parts) := by
  induction parts with
  | nil => exact follows_pure []
  | cons part parts ih =>
      obtain ⟨hn, hparts⟩ := List.forall_mem_cons.mp h
      exact hn.bind fun _ => (ih hparts).bind fun _ => follows_pure _

/-- The walk through a tree. Only at a class declaration there is something to do, and everywhere
else it is the children that follow. -/
theorem follows_rewrite (n : Node) : Follows o (rewrite n) (n.rewrite o) := by
  induction n using Node.induction_on_children with
  | step n ih =>
    cases n with
    | leaf | ident | key | string => exact follows_pure _
    | list items => exact (follows_rewriteNodes ih).bind fun _ => follows_pure _
    | array span items | object span items =>
        exact (follows_rewriteNodes ih).bind fun _ => follows_pure _
    | argument spread expression | decorator spread expression =>
        exact (ih expression List.mem_cons_self).bind fun _ => follows_pure _
    | keyValue k value =>
        obtain ⟨hk, hvalue⟩ := List.forall_mem_cons.mp ih
        exact hk.bind fun _ => (hvalue value List.mem_cons_self).bind fun _ => follows_pure _
    | call span context callee arguments typeArguments =>
        obtain ⟨hcallee, hrest⟩ := List.forall_mem_cons.mp ih
        obtain ⟨harguments, htype⟩ := List.forall_mem_append.mp hrest
        exact hcallee.bind fun _ => (follows_rewriteNodes harguments).bind fun _ =>
          (htype typeArguments List.mem_cons_self).bind fun _ => follows_pure _
    | classDecl form attributes decorators parts =>
        exact (Follows.forEach follows_rewriteDecorator decorators).bind fun _ => follows_pure _
    | construct kind attributes parts =>
        exact (follows_rewriteParts ih).bind fun _ => follows_pure _

end InSession

namespace Session

/-! ## Visits -/

/-- A visit of decorators, one after the other in the session that the one before leaves behind. -/
theorem decorators_threaded (s : Session) (ds : List Node) :
    s.absorb (Noted.forEach s.options.rewriteDecorator ds) =
      (InSession.forEach InSession.rewriteDecorator ds).run s :=
  (InSession.Follows.forEach InSession.follows_rewriteDecorator ds s rfl).symm

/-- A visit of a tree carries the session from node to node. -/
theorem visitNode_threaded (s : Session) (n : Node) : s.visitNode n = (InSession.rewrite n).run s :=
  (InSession.follows_rewrite n s rfl).symm

theorem nodes_threaded (s : Session) (ns : List Node) :
    s.absorb (rewriteNodes s.options ns) = (InSession.rewriteNodes ns).run s :=
  (InSession.follows_rewriteNodes (fun n _ => InSession.follows_rewrite n) s rfl).symm

/-- Whatever is visited, the walk is made with the session in hand. What is left to do at its end is
to put the imports that wait then in front, if the tree takes them. -/
theorem visit_threaded (s : Session) (t : Subject) :
    let v := s.visit t
    let w := (InSession.rewriteNodes t.items).run s
    v.result.items =
        (if t.takesImports then w.session.pending.map Import.declaration else []) ++ w.result ∧
      v.session = (if t.takesImports then { w.session with pending := [] } else w.session) ∧
      w.events <+: v.events := by
  intro v w
  have hwalk : s.absorb (rewriteNodes s.options t.items) = w := s.nodes_threaded t.items
  have hsession : s.walk t = w.session := congrArg Visit.session hwalk
  have hresult : (rewriteNodes s.options t.items).value = w.result := congrArg Visit.result hwalk
  obtain ⟨hitems, hend, last, hevents, -⟩ := s.visit_comes_to t
  refine ⟨?_, ?_, last, ?_⟩
  · rw [hitems, emits, hsession, hresult]
    split <;> rfl
  · rw [hend, hsession]
  · rw [← hwalk]
    exact hevents.symm

end Session

end Rebind
