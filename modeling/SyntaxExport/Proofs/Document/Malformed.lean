import Mathlib.Algebra.Ring.Int.Defs
import SyntaxExport.Proofs.Document.Folding

/-!
# Broken logs

The ways in which a log can be broken are listed in `Event.Malformed`, and no such log folds. What
keeps a fold from going on is seen in its innermost container: a tag needs an object without a tag
there, a close needs a container that is complete, and nothing can end up next to the root.
-/

namespace SyntaxExport

namespace Event

/-- How many scopes an entry opens; a close takes one back. -/
def nesting : Event → Int
  | .scope _ _ | .variant _ => 1
  | .close => -1
  | .tag _ | .scalar _ => 0

/-- The number of scopes that a list of entries leaves open. -/
def balance (es : List Event) : Int :=
  (es.map nesting).sum

/-- An opening entry of a container without field names. -/
inductive Nameless : Event → Prop
  | array (arity : Nat) : Nameless (.scope .array arity)
  | tuple (arity : Nat) : Nameless (.scope .tuple arity)
  | variant (tag : String) : Nameless (.variant tag)

/-- The logs that are broken in one of these ways. -/
inductive Malformed : List Event → Prop
  /-- A different number of scopes is opened and closed. -/
  | unclosed {es : List Event} (h : balance es ≠ 0) : Malformed es
  /-- More scopes are closed than were open. -/
  | unopened {es : List Event} (rest : List Event) (h : balance es < 0) : Malformed (es ++ rest)
  /-- A tag outside of all scopes. -/
  | rootTag {before : List Event} (name : String) (rest : List Event) (h : balance before = 0) :
    Malformed (before ++ .tag name :: rest)
  /-- A tag directly inside a container without field names, after any number of its elements. -/
  | strayTag (before : List Event) {opener : Event} {inside : List Event} (vs : List Value)
    (name : String) (rest : List Event) (hopener : Nameless opener)
    (h : inside.map unsized = vs.flatMap Value.entries) :
    Malformed (before ++ opener :: inside ++ .tag name :: rest)
  /-- A tag after a tag. -/
  | doubledTag (before : List Event) (name name' : String) (rest : List Event) :
    Malformed (before ++ .tag name :: .tag name' :: rest)
  /-- A tag without a value at the end of the object. -/
  | danglingTag (before : List Event) (name : String) (rest : List Event) :
    Malformed (before ++ .tag name :: .close :: rest)
  /-- A tag at the end of the log. -/
  | trailingTag (before : List Event) (name : String) : Malformed (before ++ [.tag name])
  /-- A variant without an argument. -/
  | emptyVariant (before : List Event) (tag : String) (rest : List Event) :
    Malformed (before ++ .variant tag :: .close :: rest)
  /-- A variant with a second argument. -/
  | crowdedVariant (before : List Event) (tag : String) {first second : List Event} {v w : Value}
    (rest : List Event) (hfirst : first.map unsized = v.entries)
    (hsecond : second.map unsized = w.entries) :
    Malformed (before ++ .variant tag :: first ++ second ++ rest)
  /-- A scope that is opened by its tag, or the document itself. -/
  | scopeKind (before : List Event) {kind : ScopeKind} (arity : Nat) (rest : List Event)
    (h : kind = .variant ∨ kind = .document) : Malformed (before ++ .scope kind arity :: rest)
  /-- No root. -/
  | noRoot : Malformed []
  /-- Anything after the root, such as a second one. -/
  | manyRoots {first rest : List Event} {v : Value} (hfirst : first.map unsized = v.entries)
    (hrest : rest ≠ []) : Malformed (first ++ rest)

end Event

namespace Pending

/-- Whether the parts have names. -/
def isNamed : Pending → Bool
  | .object _ _ => true
  | .array _ | .tuple _ | .variant _ _ => false

theorem isNamed_of_push? {p q : Pending} {v : Value} (h : p.push? v = some q) :
    q.isNamed = p.isNamed := by
  cases p with
  | object done tag =>
    obtain _ | name := tag
    · cases h
    · cases h
      rfl
  | array | tuple =>
    cases h
    rfl
  | variant tag argument =>
    obtain _ | v := argument
    · cases h
      rfl
    · cases h

end Pending

namespace Fold

theorem exists_foldlM_of_append {es rest : List Event} {f g : Fold}
    (h : (es ++ rest).foldlM step? f = some g) :
    ∃ f₁, es.foldlM step? f = some f₁ ∧ rest.foldlM step? f₁ = some g := by
  rw [List.foldlM_append] at h
  exact Option.bind_eq_some_iff.mp h

theorem exists_step?_of_cons {e : Event} {rest : List Event} {f g : Fold}
    (h : (e :: rest).foldlM step? f = some g) :
    ∃ f₁, f.step? e = some f₁ ∧ rest.foldlM step? f₁ = some g := by
  rw [List.foldlM_cons] at h
  exact Option.bind_eq_some_iff.mp h

theorem length_of_accept? {f g : Fold} {v : Value} (h : f.accept? v = some g) :
    g.pending.length = f.pending.length := by
  obtain ⟨pending, root⟩ := f
  cases pending with
  | cons p outer =>
    obtain ⟨q, -, rfl⟩ := Option.map_eq_some_iff.mp h
    rfl
  | nil =>
    cases root with
    | some _ => cases h
    | none => cases h; rfl

/-- The open containers are the scopes that the entries leave open. -/
theorem length_of_step? {f g : Fold} {e : Event} (h : f.step? e = some g) :
    (g.pending.length : Int) = f.pending.length + e.nesting := by
  cases e with
  | scope kind arity =>
    cases kind with
    | object | array | tuple => cases h; rfl
    | variant | document => cases h
  | variant tag => cases h; rfl
  | scalar s => simp [length_of_accept? h, Event.nesting]
  | tag name =>
    obtain ⟨pending, root⟩ := f
    rw [step?] at h
    split at h
    · next done outer hpending =>
      obtain rfl : pending = .object done none :: outer := hpending
      cases h
      simp [Event.nesting]
    · cases h
  | close =>
    obtain ⟨pending, root⟩ := f
    cases pending with
    | nil => cases h
    | cons p outer =>
      obtain ⟨v, -, h⟩ := Option.bind_eq_some_iff.mp h
      have hlength : g.pending.length = outer.length := length_of_accept? h
      rw [hlength, Event.nesting, List.length_cons]
      omega

theorem length_of_foldlM : ∀ {es : List Event} {f g : Fold}, es.foldlM step? f = some g →
    (g.pending.length : Int) = f.pending.length + Event.balance es
  | [], f, g, h => by
    obtain rfl := Option.some.inj h
    simp [Event.balance]
  | e :: es, f, g, h => by
    obtain ⟨f₁, hstep, h⟩ := exists_step?_of_cons h
    have hlength := length_of_foldlM h
    have hlength₁ := length_of_step? hstep
    simp only [Event.balance, List.map_cons, List.sum_cons] at hlength ⊢
    omega

/-- A tag waits for its value in the innermost container, an object. -/
theorem exists_object_of_tag {f g : Fold} {name : String} (h : f.step? (.tag name) = some g) :
    ∃ done outer, f.pending = .object done none :: outer ∧
      g = { f with pending := .object done (some name) :: outer } := by
  rw [step?] at h
  split at h
  · next done outer hpending => exact ⟨done, outer, hpending, (Option.some.inj h).symm⟩
  · cases h

/-- Accepting values leaves a container without names the innermost one. -/
theorem isNamed_of_foldlM_accept? : ∀ {vs : List Value} {f g : Fold} {p : Pending}
    {outer : List Pending}, f.pending = p :: outer → vs.foldlM accept? f = some g →
    ∃ q, g.pending = q :: outer ∧ q.isNamed = p.isNamed
  | [], f, g, p, outer, hp, h => by
    obtain rfl := Option.some.inj h
    exact ⟨p, hp, rfl⟩
  | v :: vs, f, g, p, outer, hp, h => by
    rw [List.foldlM_cons] at h
    obtain ⟨f₁, hv, h⟩ := Option.bind_eq_some_iff.mp h
    rw [accept?, hp] at hv
    obtain ⟨q, hq, rfl⟩ := Option.map_eq_some_iff.mp hv
    obtain ⟨q', hq', hnamed⟩ := isNamed_of_foldlM_accept? (p := q) rfl h
    exact ⟨q', hq', hnamed.trans (Pending.isNamed_of_push? hq)⟩

/-- Once there is a root, whatever follows leaves a container open. -/
theorem pending_of_accept? {f g : Fold} {v w : Value} (hroot : f.root = some v)
    (h : f.accept? w = some g) : g.root = some v ∧ g.pending ≠ [] := by
  obtain ⟨pending, root⟩ := f
  obtain rfl : root = some v := hroot
  cases pending with
  | nil => cases h
  | cons p outer =>
    obtain ⟨q, -, rfl⟩ := Option.map_eq_some_iff.mp h
    exact ⟨rfl, List.cons_ne_nil _ _⟩

theorem pending_of_step? {f g : Fold} {e : Event} {v : Value} (hroot : f.root = some v)
    (h : f.step? e = some g) : g.root = some v ∧ g.pending ≠ [] := by
  cases e with
  | scope kind arity =>
    cases kind with
    | object | array | tuple => cases h; exact ⟨hroot, List.cons_ne_nil _ _⟩
    | variant | document => cases h
  | variant tag => cases h; exact ⟨hroot, List.cons_ne_nil _ _⟩
  | scalar s => exact pending_of_accept? hroot h
  | tag name =>
    obtain ⟨done, outer, -, rfl⟩ := exists_object_of_tag h
    exact ⟨hroot, List.cons_ne_nil _ _⟩
  | close =>
    obtain ⟨pending, root⟩ := f
    cases pending with
    | nil => cases h
    | cons p outer =>
      obtain ⟨w, -, h⟩ := Option.bind_eq_some_iff.mp h
      exact pending_of_accept? (f := ⟨outer, root⟩) hroot h

theorem pending_of_foldlM : ∀ {es : List Event} {f g : Fold} {v : Value}, es ≠ [] →
    f.root = some v → es.foldlM step? f = some g → g.pending ≠ []
  | [], _, _, _, hne, _, _ => absurd rfl hne
  | [e], f, g, v, _, hroot, h => by
    obtain ⟨f₁, hstep, h⟩ := exists_step?_of_cons h
    obtain rfl := Option.some.inj h
    exact (pending_of_step? hroot hstep).2
  | e :: e' :: es, f, g, v, _, hroot, h => by
    obtain ⟨f₁, hstep, h⟩ := exists_step?_of_cons h
    exact pending_of_foldlM (List.cons_ne_nil _ _) (pending_of_step? hroot hstep).1 h

end Fold

namespace Value

/-- A log does not fold if its entries do not, or leave a container open. -/
theorem ofEvents?_eq_none {es : List Event}
    (h : ∀ f : Fold, es.foldlM Fold.step? {} = some f → f.pending ≠ []) : ofEvents? es = none := by
  rw [ofEvents?]
  split
  · next root hfold => exact absurd rfl (h _ hfold)
  · rfl

/-- A log that is broken somewhere does not fold. -/
theorem ofEvents?_of_infix {es : List Event} (before inside rest : List Event)
    (hes : es = before ++ inside ++ rest) (h : ∀ f : Fold, inside.foldlM Fold.step? f = none) :
    ofEvents? es = none := by
  refine ofEvents?_eq_none fun f hfold => ?_
  rw [hes] at hfold
  obtain ⟨f₁, hfold, -⟩ := Fold.exists_foldlM_of_append hfold
  obtain ⟨f₂, -, hinside⟩ := Fold.exists_foldlM_of_append hfold
  rw [h f₂] at hinside
  cases hinside

/-- A tag that the innermost container does not wait for breaks a log. -/
theorem not_foldlM_strayTag {opener : Event} {inside : List Event} {vs : List Value}
    (hopener : Event.Nameless opener) (h : inside.map Event.unsized = vs.flatMap entries)
    (name : String) (f : Fold) :
    (opener :: inside ++ [Event.tag name]).foldlM Fold.step? f = none := by
  rw [Option.eq_none_iff_forall_ne_some]
  intro g hg
  obtain ⟨f₂, hinside, htag⟩ := Fold.exists_foldlM_of_append hg
  obtain ⟨f₁, hstep, hinside⟩ := Fold.exists_step?_of_cons hinside
  have hopened : ∃ p : Pending, f₁.pending = p :: f.pending ∧ p.isNamed = false := by
    cases hopener <;> cases hstep <;> exact ⟨_, rfl, rfl⟩
  obtain ⟨p, hp, hnamed⟩ := hopened
  rw [← Fold.foldlM_unsized, h, Fold.foldlM_flatMap_entries] at hinside
  obtain ⟨q, hq, hq'⟩ := Fold.isNamed_of_foldlM_accept? hp hinside
  obtain ⟨f₃, htag, -⟩ := Fold.exists_step?_of_cons htag
  obtain ⟨done, outer, hobject, -⟩ := Fold.exists_object_of_tag htag
  obtain ⟨rfl, -⟩ := List.cons.inj (hq.symm.trans hobject)
  rw [hnamed] at hq'
  cases hq'

/-- A variant takes no second argument. -/
theorem not_foldlM_crowdedVariant {first second : List Event} {v w : Value}
    (hfirst : first.map Event.unsized = v.entries) (hsecond : second.map Event.unsized = w.entries)
    (tag : String) (f : Fold) :
    (.variant tag :: first ++ second).foldlM Fold.step? f = none := by
  have hopen : (Event.variant tag :: first).foldlM Fold.step? f
      = some { f with pending := .variant tag (some v) :: f.pending } := by
    rw [List.foldlM_cons]
    exact Fold.foldlM_of_entries hfirst { f with pending := .variant tag none :: f.pending }
  rw [List.foldlM_append, hopen]
  exact Fold.foldlM_of_entries hsecond _

/-- After a tag the object neither takes a tag nor ends. -/
theorem not_foldlM_tag {e : Event} (he : e = .close ∨ ∃ name, e = .tag name) (name : String)
    (f : Fold) : [Event.tag name, e].foldlM Fold.step? f = none := by
  rw [Option.eq_none_iff_forall_ne_some]
  intro g hg
  obtain ⟨f₁, htag, hg⟩ := Fold.exists_step?_of_cons hg
  obtain ⟨done, outer, -, rfl⟩ := Fold.exists_object_of_tag htag
  obtain ⟨f₂, hstep, -⟩ := Fold.exists_step?_of_cons hg
  rcases he with rfl | ⟨name', rfl⟩ <;> cases hstep

/-- No broken log folds. -/
theorem ofEvents?_of_malformed {es : List Event} (h : Event.Malformed es) :
    ofEvents? es = none := by
  cases h with
  | unclosed h =>
    refine ofEvents?_eq_none fun f hfold hpending => h ?_
    have hlength := Fold.length_of_foldlM hfold
    rw [hpending] at hlength
    simpa using hlength.symm
  | @unopened es rest h =>
    refine ofEvents?_eq_none fun f hfold => ?_
    obtain ⟨f₁, hes, -⟩ := Fold.exists_foldlM_of_append hfold
    have hlength : (f₁.pending.length : Int) = 0 + Event.balance es := Fold.length_of_foldlM hes
    omega
  | @rootTag before name rest h =>
    refine ofEvents?_eq_none fun f hfold => ?_
    obtain ⟨f₁, hbefore, hrest⟩ := Fold.exists_foldlM_of_append hfold
    obtain ⟨f₂, htag, -⟩ := Fold.exists_step?_of_cons hrest
    obtain ⟨done, outer, hobject, -⟩ := Fold.exists_object_of_tag htag
    have hlength : (f₁.pending.length : Int) = 0 + Event.balance before :=
      Fold.length_of_foldlM hbefore
    rw [hobject, List.length_cons] at hlength
    omega
  | @strayTag before opener inside vs name rest hopener h =>
    exact ofEvents?_of_infix before _ rest (by simp)
      (not_foldlM_strayTag hopener h name)
  | doubledTag before name name' rest =>
    exact ofEvents?_of_infix before _ rest (by simp)
      (not_foldlM_tag (.inr ⟨name', rfl⟩) name)
  | danglingTag before name rest =>
    exact ofEvents?_of_infix before _ rest (by simp)
      (not_foldlM_tag (.inl rfl) name)
  | trailingTag before name =>
    refine ofEvents?_eq_none fun f hfold => ?_
    obtain ⟨f₁, -, hrest⟩ := Fold.exists_foldlM_of_append hfold
    obtain ⟨f₂, htag, hrest⟩ := Fold.exists_step?_of_cons hrest
    obtain ⟨done, outer, -, rfl⟩ := Fold.exists_object_of_tag htag
    obtain rfl := Option.some.inj hrest
    exact List.cons_ne_nil _ _
  | emptyVariant before tag rest =>
    exact ofEvents?_of_infix before [.variant tag, .close] rest (by simp) (fun _ => rfl)
  | @crowdedVariant before tag first second v w rest hfirst hsecond =>
    exact ofEvents?_of_infix before _ rest (by simp)
      (not_foldlM_crowdedVariant hfirst hsecond tag)
  | @scopeKind before kind arity rest h =>
    refine ofEvents?_of_infix before [.scope kind arity] rest (by simp) (fun _ => ?_)
    rcases h with rfl | rfl <;> rfl
  | noRoot => rfl
  | @manyRoots first rest v hfirst hrest =>
    refine ofEvents?_eq_none fun f hfold => ?_
    obtain ⟨f₁, hroot, hfold⟩ := Fold.exists_foldlM_of_append hfold
    rw [Fold.foldlM_of_entries hfirst] at hroot
    obtain rfl := Option.some.inj hroot
    exact Fold.pending_of_foldlM hrest rfl hfold

/-- The logs that fold are the logs of documents with any declared sizes, and each folds to its
document; every other list folds to nothing, and so does in particular a list that is broken in one
of the listed ways. A document is the fold of its log, and different documents have different logs
even without their sizes. -/
theorem ofEvents?_accepts_logs :
    (∀ (es : List Event) (v : Value),
      ofEvents? es = some v ↔ es.map Event.unsized = v.log.map Event.unsized) ∧
    (∀ es : List Event, (∀ v : Value, es.map Event.unsized ≠ v.log.map Event.unsized) →
      ofEvents? es = none) ∧
    (∀ es : List Event, Event.Malformed es → ofEvents? es = none) ∧
    (∀ v : Value, ofEvents? v.log = some v) ∧
    (∀ v w : Value, v.log.map Event.unsized = w.log.map Event.unsized → v = w) := by
  refine ⟨fun es v => ofEvents?_eq_some_iff, ?_, fun es => ofEvents?_of_malformed,
    fun v => ofEvents?_eq_some_iff.mpr rfl, fun v w => entries_injective⟩
  intro es h
  rw [Option.eq_none_iff_forall_ne_some]
  intro v hv
  exact h v (ofEvents?_eq_some_iff.mp hv)

/-- The declared sizes are free, the tags are not. -/
example : ofEvents? [.scope .object 7, .tag "a", .scalar (.boolean true), .close]
      = some (.object [("a", .leaf (.boolean true))]) ∧
    ofEvents? [.scope .object 1, .tag "a", .tag "b", .scalar (.boolean true), .close] = none :=
  ⟨rfl, rfl⟩

end Value

end SyntaxExport
